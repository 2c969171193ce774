import ZoneHistory.Proofs.Links

/-!
# Links with names of their own

Where no two links have the same alias and none has that of a zone, a link resolves exactly if its
target is a zone or the alias of a link to a zone, and the order of the links does not matter.
-/
namespace ZoneHistory

theorem lastLinked_eq_some_iff {links : List Link}
    (hdistinct : (links.map fun link => link.alias).Nodup) {known : Keyed History} {name : String}
    {history : History} :
    lastLinked known links name = some history ↔
      ∃ link ∈ links, link.alias = name ∧ known.find? link.target = some history := by
  constructor
  · exact exists_of_lastLinked
  · rintro ⟨link, hlink, hname, hfind⟩
    have hsome : (lastLinked known links name).isSome = true :=
      isSome_lastLinked.mpr ⟨link, hlink, hname, Keyed.contains_iff.mpr ⟨history, hfind⟩⟩
    obtain ⟨found, hfound⟩ := Option.isSome_iff_exists.mp hsome
    obtain ⟨other, hother, hsame, hfind'⟩ := exists_of_lastLinked hfound
    obtain rfl := List.inj_on_of_nodup_map hdistinct hlink hother (hname.trans hsame.symm)
    rw [hfound, ← hfind', hfind]

section Fresh

variable {zones : Keyed History} {links : List Link}
  (hdistinct : (links.map fun link => link.alias).Nodup)
  (hfresh : ∀ link ∈ links, zones.contains link.alias = false)

include hfresh in
/-- No link is looked at for the name of a zone. -/
theorem lastLinked_of_zone {name : String} (hzone : zones.contains name = true)
    (known : Keyed History) : lastLinked known links name = none := by
  rw [lastLinked_eq_none_iff]
  intro link hlink hname
  have hunknown := hfresh link hlink
  rw [hname, hzone] at hunknown
  exact absurd hunknown (by decide)

include hdistinct hfresh

theorem find?_resolveOnce_iff {target : String} {history : History} :
    (resolveOnce zones links).find? target = some history ↔
      ∃ zone, LeadsTo zones links target zone ∧ zones.find? zone = some history := by
  rw [find?_resolveOnce, Option.or_eq_some_iff, lastLinked_eq_some_iff hdistinct]
  constructor
  · rintro (⟨link, hlink, hname, hfind⟩ | ⟨-, hfind⟩)
    · have hzone := Keyed.contains_iff.mpr ⟨history, hfind⟩
      exact ⟨link.target, ⟨hzone, Or.inr ⟨link, hlink, hname, rfl⟩⟩, hfind⟩
    · have hzone := Keyed.contains_iff.mpr ⟨history, hfind⟩
      exact ⟨target, ⟨hzone, Or.inl rfl⟩, hfind⟩
  · rintro ⟨zone, ⟨hzone, rfl | ⟨link, hlink, hname, rfl⟩⟩, hfind⟩
    · exact Or.inr ⟨lastLinked_of_zone hfresh hzone zones, hfind⟩
    · exact Or.inl ⟨link, hlink, hname, hfind⟩

end Fresh

theorem find?_removals_iff {links : List Link}
    (hdistinct : (links.map fun link => link.alias).Nodup) {name : String}
    {reasons : List String} :
    (removals links).find? name = some reasons ↔
      ∃ link ∈ links, link.alias = name ∧ reasons = [link.removalReason] := by
  induction links using List.reverseRecOn with
  | nil => simp [removals, Comments.none]
  | append_singleton links link ih =>
    rw [List.map_append, List.map_singleton, List.nodup_append] at hdistinct
    obtain ⟨hbefore, -, hnew⟩ := hdistinct
    have hearlier : ∀ other ∈ links, other.alias ≠ link.alias := fun other hother =>
      hnew _ (List.mem_map_of_mem hother) _ List.mem_cons_self
    rw [removals_concat, Comments.find?_add]
    by_cases hname : name = link.alias
    · subst hname
      have hnone : (removals links).find? link.alias = none := by
        rw [← Option.not_isSome_iff_eq_none, Option.isSome_iff_exists, ← Keyed.mem_keys_iff,
          mem_keys_removals]
        rintro ⟨other, hother, hsame⟩
        exact hearlier other hother hsame
      rw [if_pos rfl, hnone, Option.some.injEq]
      constructor
      · rintro rfl
        exact ⟨link, List.mem_concat_self, rfl, rfl⟩
      · rintro ⟨other, hother, hsame, rfl⟩
        rcases List.mem_append.mp hother with hother | hother
        · exact absurd hsame (hearlier other hother)
        · obtain rfl := List.mem_singleton.mp hother
          rfl
    · rw [if_neg hname, ih hbefore]
      constructor
      · rintro ⟨other, hother, hsame⟩
        exact ⟨other, List.mem_append_left _ hother, hsame⟩
      · rintro ⟨other, hother, rfl, hreasons⟩
        rcases List.mem_append.mp hother with hother | hother
        · exact ⟨other, hother, rfl, hreasons⟩
        · obtain rfl := List.mem_singleton.mp hother
          exact absurd rfl hname

/-! ## Orders of links -/

theorem leadsTo_perm {zones : Keyed History} {links others : List Link}
    (hperm : others.Perm links) {target zone : String} :
    LeadsTo zones others target zone ↔ LeadsTo zones links target zone := by
  simp only [LeadsTo, hperm.mem_iff]

theorem resolves_perm {zones : Keyed History} {links others : List Link}
    (hperm : others.Perm links) {target : String} :
    Resolves zones others target ↔ Resolves zones links target := by
  simp only [Resolves, leadsTo_perm hperm]

theorem linkTable_perm {known other : Keyed History} {links others : List Link}
    (hdistinct : (links.map fun link => link.alias).Nodup) (hperm : others.Perm links)
    (hknown : ∀ name, other.find? name = known.find? name) :
    linkTable other others = linkTable known links := by
  rw [linkTable, linkTable, Keyed.mergeSort_eq_of_perm hdistinct hperm]
  simp only [hknown]

/-! ## What a compilation says of links with names of their own -/

section Compile

variable {session : Session} {lastYear : Int}
  (hdistinct : (session.links.map fun link => link.alias).Nodup)
  (hfresh : ∀ link ∈ session.links,
    (session.compiled lastYear).zones.contains link.alias = false)

include hdistinct hfresh

theorem find?_names_iff {name : String} {history : History} :
    (session.compiled lastYear).names.find? name = some history ↔
      (session.compiled lastYear).zones.find? name = some history ∨
        ∃ link ∈ session.links, link.alias = name ∧ ∃ zone,
          LeadsTo (session.compiled lastYear).zones session.links link.target zone ∧
            (session.compiled lastYear).zones.find? zone = some history := by
  rw [find?_names, Option.or_eq_some_iff, lastLinked_eq_some_iff hdistinct]
  simp only [find?_resolveOnce_iff hdistinct hfresh]
  constructor
  · rintro (hlinked | ⟨-, hzone⟩)
    · exact Or.inr hlinked
    · exact Or.inl hzone
  · rintro (hzone | hlinked)
    · have hcontains := Keyed.contains_iff.mpr ⟨history, hzone⟩
      exact Or.inr ⟨lastLinked_of_zone hfresh hcontains _, hzone⟩
    · exact Or.inl hlinked

theorem find?_links_iff {name zone : String} :
    (session.compiled lastYear).links.find? name = some zone ↔
      ∃ link ∈ session.links, link.alias = name ∧
        LeadsTo (session.compiled lastYear).zones session.links link.target zone := by
  rw [find?_links]
  split
  · next hmem =>
    obtain ⟨link, hlink, rfl⟩ := List.mem_map.mp hmem
    simp only [Option.map_eq_some_iff, find?_names_iff hdistinct hfresh]
    constructor
    · rintro ⟨history, hzone | ⟨other, hother, hname, target, hleads, hzone⟩, rfl⟩
      · have hcontains := Keyed.contains_iff.mpr ⟨history, hzone⟩
        rw [hfresh link hlink] at hcontains
        exact absurd hcontains (by decide)
      · rw [zone_of_find?_zones session lastYear target hzone]
        exact ⟨other, hother, hname, hleads⟩
    · rintro ⟨other, hother, hname, hleads⟩
      obtain ⟨history, hzone⟩ := Keyed.contains_iff.mp hleads.1
      exact ⟨history, Or.inr ⟨other, hother, hname, zone, hleads, hzone⟩,
        zone_of_find?_zones session lastYear zone hzone⟩
  · next habsent =>
    refine iff_of_false nofun ?_
    rintro ⟨link, hlink, hname, -⟩
    exact habsent (List.mem_map.mpr ⟨link, hlink, hname⟩)

omit hfresh in
theorem find?_removedLinks_iff {name : String} {reasons : List String} :
    (session.compiled lastYear).removedLinks.find? name = some reasons ↔
      ∃ link ∈ session.links, link.alias = name ∧
        ¬ Resolves (session.compiled lastYear).zones session.links link.target ∧
          reasons = [link.removalReason] := by
  have hunresolved : ((unresolvedLinks (resolveOnce (session.compiled lastYear).zones
      session.links) session.links).map fun link => link.alias).Nodup :=
    hdistinct.sublist (List.filter_sublist.map _)
  refine (find?_removals_iff hunresolved).trans (exists_congr fun link => ?_)
  rw [mem_unresolvedLinks]
  constructor
  · rintro ⟨⟨hlink, hunresolved⟩, hname, hreasons⟩
    exact ⟨hlink, hname, hunresolved, hreasons⟩
  · rintro ⟨hlink, hname, hunresolved, hreasons⟩
    exact ⟨⟨hlink, hunresolved⟩, hname, hreasons⟩

theorem find?_names_perm {links : List Link} (hperm : links.Perm session.links) (name : String) :
    (Session.compiled { session with links } lastYear).names.find? name =
      (session.compiled lastYear).names.find? name := by
  have hdistinct' : (links.map fun link => link.alias).Nodup :=
    (hperm.map _).nodup_iff.mpr hdistinct
  have hfresh' : ∀ link ∈ links,
      (Session.compiled { session with links } lastYear).zones.contains link.alias = false :=
    fun link hlink => hfresh link (hperm.mem_iff.mp hlink)
  apply Option.ext
  intro history
  rw [find?_names_iff hdistinct' hfresh', find?_names_iff hdistinct hfresh]
  simp only [hperm.mem_iff, leadsTo_perm hperm]
  rfl

theorem names_perm {links : List Link} (hperm : links.Perm session.links) :
    (Session.compiled { session with links } lastYear).names =
        (session.compiled lastYear).names ∧
      (Session.compiled { session with links } lastYear).links =
        (session.compiled lastYear).links := by
  have hknown : ∀ name, (resolveOnce (resolveOnce (session.compiled lastYear).zones links)
      links).find? name = (resolveOnce (resolveOnce (session.compiled lastYear).zones
        session.links) session.links).find? name := by
    intro name
    have hnames := find?_names_perm hdistinct hfresh hperm name
    rwa [names_eq_sorted, names_eq_sorted, Keyed.find?_sorted, Keyed.find?_sorted] at hnames
  exact ⟨Keyed.sorted_congr hknown, linkTable_perm hdistinct hperm hknown⟩

omit hfresh in
theorem find?_removedLinks_perm {links : List Link} (hperm : links.Perm session.links)
    (name : String) :
    (Session.compiled { session with links } lastYear).removedLinks.find? name =
      (session.compiled lastYear).removedLinks.find? name := by
  have hdistinct' : (links.map fun link => link.alias).Nodup :=
    (hperm.map _).nodup_iff.mpr hdistinct
  apply Option.ext
  intro reasons
  rw [find?_removedLinks_iff hdistinct', find?_removedLinks_iff hdistinct]
  simp only [hperm.mem_iff, resolves_perm hperm]
  rfl

end Compile

/-- Where no two links have the same alias and none has that of a zone, an alias is resolved exactly
if its target leads to a zone, and then it denotes this zone; all other aliases are removed. What
names and links denote and what is removed does not depend on the order of the links. -/
theorem links_of_distinct {session : Session} {lastYear : Int}
    (hdistinct : (session.links.map fun link => link.alias).Nodup)
    (hfresh : ∀ link ∈ session.links,
      (session.compiled lastYear).zones.contains link.alias = false) :
    (∀ name zone, (session.compiled lastYear).links.find? name = some zone ↔
      ∃ link ∈ session.links, link.alias = name ∧
        LeadsTo (session.compiled lastYear).zones session.links link.target zone) ∧
    (∀ name history, (session.compiled lastYear).names.find? name = some history ↔
      (session.compiled lastYear).zones.find? name = some history ∨
        ∃ link ∈ session.links, link.alias = name ∧ ∃ zone,
          LeadsTo (session.compiled lastYear).zones session.links link.target zone ∧
            (session.compiled lastYear).zones.find? zone = some history) ∧
    (∀ name, name ∈ (session.compiled lastYear).removedLinks.keys ↔
      ∃ link ∈ session.links, link.alias = name ∧
        ∀ zone, ¬ LeadsTo (session.compiled lastYear).zones session.links link.target zone) ∧
    ∀ links : List Link, links.Perm session.links →
      (Session.compiled { session with links } lastYear).names =
          (session.compiled lastYear).names ∧
        (Session.compiled { session with links } lastYear).links =
          (session.compiled lastYear).links ∧
        ∀ name, (Session.compiled { session with links } lastYear).removedLinks.find? name =
          (session.compiled lastYear).removedLinks.find? name := by
  refine ⟨fun name zone => find?_links_iff hdistinct hfresh,
    fun name history => find?_names_iff hdistinct hfresh, fun name => ?_, fun links hperm => ?_⟩
  · rw [mem_keys_removedLinks]
    simp only [Resolves, not_exists]
  · obtain ⟨hnames, hlinks⟩ := names_perm hdistinct hfresh hperm
    exact ⟨hnames, hlinks, find?_removedLinks_perm hdistinct hperm⟩

/-- A zone and a chain of three links to it, the farthest first, and a link to itself. -/
def chainedLinks : Session where
  ruleSets := .empty
  zones := [.steady "Test/Zone" "GMT" 0]
  links := [⟨"Test/B", "Test/C"⟩, ⟨"Test/A", "Test/B"⟩, ⟨"Test/Zone", "Test/A"⟩,
    ⟨"Test/D", "Test/D"⟩]
  files := []

theorem links_of_distinct_chained :
    (chainedLinks.compiled 2100).links.find? "Test/B" = some "Test/Zone" ∧
      (chainedLinks.compiled 2100).names.find? "Test/B" =
        (chainedLinks.compiled 2100).zones.find? "Test/Zone" ∧
      "Test/C" ∈ (chainedLinks.compiled 2100).removedLinks.keys ∧
      (Session.compiled { chainedLinks with links := chainedLinks.links.reverse } 2100).links =
        (chainedLinks.compiled 2100).links := by
  have hdistinct : (chainedLinks.links.map fun link => link.alias).Nodup := by decide +kernel
  have hfresh : ∀ link ∈ chainedLinks.links,
      (chainedLinks.compiled 2100).zones.contains link.alias = false := by decide +kernel
  obtain ⟨hlinks, hnames, hremoved, hperm⟩ := links_of_distinct hdistinct hfresh
  have hzone : (chainedLinks.compiled 2100).zones.contains "Test/Zone" = true := by
    decide +kernel
  have hleads : LeadsTo (chainedLinks.compiled 2100).zones chainedLinks.links "Test/A"
      "Test/Zone" :=
    ⟨hzone, Or.inr ⟨⟨"Test/Zone", "Test/A"⟩, by decide +kernel, rfl, rfl⟩⟩
  have hlink : ⟨"Test/A", "Test/B"⟩ ∈ chainedLinks.links := by decide +kernel
  refine ⟨(hlinks _ _).mpr ⟨_, hlink, rfl, hleads⟩, ?_, ?_, (hperm _ (List.reverse_perm _)).2.1⟩
  · obtain ⟨history, hhistory⟩ := Keyed.contains_iff.mp hzone
    rw [hhistory, hnames]
    exact Or.inr ⟨_, hlink, rfl, "Test/Zone", hleads, hhistory⟩
  · refine (hremoved _).mpr ⟨⟨"Test/B", "Test/C"⟩, by decide +kernel, rfl, ?_⟩
    have hunknown : (chainedLinks.compiled 2100).zones.contains "Test/B" = false ∧
        ∀ link ∈ chainedLinks.links, link.alias = "Test/B" →
          (chainedLinks.compiled 2100).zones.contains link.target = false := by decide +kernel
    rintro zone ⟨hcontains, rfl | ⟨link, hlink, hname, rfl⟩⟩
    · simp [hunknown.1] at hcontains
    · simp [hunknown.2 link hlink hname] at hcontains

end ZoneHistory
