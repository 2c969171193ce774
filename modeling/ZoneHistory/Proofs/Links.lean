import ZoneHistory.Proofs.AliasIndex.CaseClasses
import ZoneHistory.Proofs.Compilation
import ZoneHistory.Proofs.Keyed.Lookup

/-!
# The names that links give

A scan gives each alias what the last of its links with a known target leads to. After two scans a
name denotes what its last such link leads to, and else the zone of that name; all that names denote
are the histories of zones under their own names.
-/
namespace ZoneHistory

/-- What a session is compiled to, without what is noticed meanwhile. -/
abbrev Session.compiled (session : Session) (lastYear : Int) : Compilation :=
  (compile session lastYear).1

/-- The index of all names, in which those that differ only by case are one. -/
def Compilation.index (c : Compilation) : Keyed String :=
  (AliasIndex.distinctIgnoringCase (c.names.mapValues (·.zone))).1

/-- The index maps a name to the zone that it denotes. -/
theorem Compilation.exists_of_find?_index {c : Compilation} {name target : String}
    (h : c.index.find? name = some target) :
    ∃ history, c.names.find? name = some history ∧ history.zone = target := by
  have hfind := AliasIndex.find?_of_find?_distinctIgnoringCase h
  rwa [Keyed.find?_mapValues, Option.map_eq_some_iff] at hfind

/-- A zone with one offset and one abbreviation at all times. -/
def Zone.steady (name format : String) (offset : Int) : Zone :=
  ⟨name, [⟨offset, .none, format, none, ""⟩]⟩

/-- What the last link of a name leads to, of those whose targets are known. -/
def lastLinked (known : Keyed History) (links : List Link) (name : String) : Option History :=
  ((links.filter fun link => link.alias = name).filterMap fun link =>
    known.find? link.target).getLast?

section Scan

variable {known : Keyed History} {links : List Link} {name : String}

theorem lastLinked_concat (known : Keyed History) (links : List Link) (link : Link)
    (name : String) :
    lastLinked known (links ++ [link]) name =
      (if link.alias = name then known.find? link.target else none).or
        (lastLinked known links name) :=
  getLast?_filterMap_concat _ _ links link

theorem find?_scanLinks (known : Keyed History) (links : List Link) (name : String) :
    (scanLinks known links).find? name = lastLinked known links name := by
  induction links using List.reverseRecOn with
  | nil => rfl
  | append_singleton links link ih =>
    rw [lastLinked_concat, ← ih, scanLinks, List.foldl_concat, ← scanLinks]
    cases known.find? link.target with
    | none => simp
    | some history =>
      simp only [Keyed.find?_put]
      by_cases hname : link.alias = name
      · rw [if_pos hname.symm, if_pos hname, Option.some_or]
      · rw [if_neg (Ne.symm hname), if_neg hname, Option.none_or]

theorem find?_resolveOnce (known : Keyed History) (links : List Link) (name : String) :
    (resolveOnce known links).find? name =
      (lastLinked known links name).or (known.find? name) := by
  rw [resolveOnce, Keyed.find?_putAll, find?_scanLinks]

theorem lastLinked_eq_none_iff :
    lastLinked known links name = none ↔
      ∀ link ∈ links, link.alias = name → known.contains link.target = false := by
  rw [lastLinked, List.getLast?_eq_none_iff, List.filterMap_eq_nil_iff]
  simp only [List.mem_filter, decide_eq_true_eq, and_imp, Keyed.contains_eq_false_iff]

theorem exists_of_lastLinked {history : History}
    (h : lastLinked known links name = some history) :
    ∃ link ∈ links, link.alias = name ∧ known.find? link.target = some history := by
  obtain ⟨link, hlink, hfind⟩ := List.mem_filterMap.mp (List.mem_of_getLast? h)
  obtain ⟨hmem, hname⟩ := List.mem_filter.mp hlink
  exact ⟨link, hmem, of_decide_eq_true hname, hfind⟩

theorem isSome_lastLinked :
    (lastLinked known links name).isSome = true ↔
      ∃ link ∈ links, link.alias = name ∧ known.contains link.target = true := by
  rw [← not_iff_not, Bool.not_eq_true, Option.isSome_eq_false_iff, Option.isNone_iff_eq_none,
    lastLinked_eq_none_iff]
  simp only [not_exists, not_and, Bool.not_eq_true]

theorem contains_resolveOnce :
    (resolveOnce known links).contains name = true ↔
      known.contains name = true ∨
        ∃ link ∈ links, link.alias = name ∧ known.contains link.target = true := by
  rw [Keyed.contains, find?_resolveOnce, Option.isSome_or, Bool.or_eq_true, isSome_lastLinked,
    or_comm]
  rfl

/-- A scan makes no histories: what a name denotes after it, some name denoted before it. -/
theorem exists_of_find?_resolveOnce {history : History}
    (h : (resolveOnce known links).find? name = some history) :
    ∃ other, known.find? other = some history := by
  rw [find?_resolveOnce, Option.or_eq_some_iff] at h
  rcases h with hlinked | ⟨-, hknown⟩
  · obtain ⟨link, -, -, hfind⟩ := exists_of_lastLinked hlinked
    exact ⟨link.target, hfind⟩
  · exact ⟨name, hknown⟩

/-- A link whose target is known before a scan has a known target after it. -/
theorem contains_resolveOnce_of_contains (h : known.contains name = true) :
    (resolveOnce known links).contains name = true :=
  contains_resolveOnce.mpr (Or.inl h)

/-- The second scan finds again what the first one found, so of the first one's findings only what
it left of the names before it counts. -/
theorem find?_resolveOnce_resolveOnce (known : Keyed History) (links : List Link)
    (name : String) :
    (resolveOnce (resolveOnce known links) links).find? name =
      (lastLinked (resolveOnce known links) links name).or (known.find? name) := by
  rw [find?_resolveOnce]
  cases hlast : lastLinked (resolveOnce known links) links name with
  | some history => rfl
  | none =>
    have hfirst : lastLinked known links name = none := by
      rw [lastLinked_eq_none_iff] at hlast ⊢
      intro link hlink hname
      have hunknown := hlast link hlink hname
      rw [← Bool.not_eq_true] at hunknown ⊢
      exact fun hcontains => hunknown (contains_resolveOnce_of_contains hcontains)
    rw [Option.none_or, Option.none_or, find?_resolveOnce, hfirst, Option.none_or]

end Scan

/-- A target leads to a zone if it is the zone's name or the alias of a link to it. -/
def LeadsTo (zones : Keyed History) (links : List Link) (target zone : String) : Prop :=
  zones.contains zone = true ∧
    (target = zone ∨ ∃ link ∈ links, link.alias = target ∧ link.target = zone)

/-- A target resolves if it leads to some zone. -/
def Resolves (zones : Keyed History) (links : List Link) (target : String) : Prop :=
  ∃ zone, LeadsTo zones links target zone

theorem contains_resolveOnce_iff_resolves {zones : Keyed History} {links : List Link}
    {target : String} :
    (resolveOnce zones links).contains target = true ↔ Resolves zones links target := by
  rw [contains_resolveOnce]
  constructor
  · rintro (hzone | ⟨link, hlink, hname, hzone⟩)
    · exact ⟨target, hzone, Or.inl rfl⟩
    · exact ⟨link.target, hzone, Or.inr ⟨link, hlink, hname, rfl⟩⟩
  · rintro ⟨zone, hzone, rfl | ⟨link, hlink, hname, rfl⟩⟩
    · exact Or.inl hzone
    · exact Or.inr ⟨link, hlink, hname, hzone⟩

theorem mem_unresolvedLinks {zones : Keyed History} {links : List Link} {link : Link} :
    link ∈ unresolvedLinks (resolveOnce zones links) links ↔
      link ∈ links ∧ ¬ Resolves zones links link.target := by
  rw [unresolvedLinks, List.mem_filter, ← contains_resolveOnce_iff_resolves, Bool.not_eq_true,
    Bool.not_eq_true']

/-! ## The tables of links -/

theorem lookup_filterMap_alias {known : Keyed History} (links : List Link) (name : String) :
    (links.filterMap fun link =>
        (known.find? link.alias).map fun history => (link.alias, history.zone)).lookup name =
      if name ∈ links.map (fun link => link.alias) then (known.find? name).map (·.zone)
      else none := by
  induction links with
  | nil => rfl
  | cons link rest ih =>
    rw [List.filterMap_cons, List.map_cons]
    by_cases hname : name = link.alias
    · subst hname
      rw [if_pos List.mem_cons_self]
      cases hfind : known.find? link.alias with
      | none =>
        rw [Option.map_none, ih, hfind, Option.map_none, ite_self]
      | some history => simp
    · have hmem : name ∈ link.alias :: rest.map (fun link => link.alias) ↔
          name ∈ rest.map (fun link => link.alias) := by
        rw [List.mem_cons, or_iff_right hname]
      simp only [hmem]
      rw [← ih]
      cases known.find? link.alias with
      | none => rfl
      | some history =>
        rw [Option.map_some, List.lookup_cons, beq_eq_false_iff_ne.mpr hname]

theorem find?_linkTable (known : Keyed History) (links : List Link) (name : String) :
    (linkTable known links).find? name =
      if name ∈ links.map (fun link => link.alias) then (known.find? name).map (·.zone)
      else none := by
  rw [linkTable, Keyed.find?_ofList, ← List.filterMap_reverse, lookup_filterMap_alias]
  have hmem : name ∈ (links.mergeSort fun a b => decide (¬ b.alias < a.alias)).reverse.map
      (fun link => link.alias) ↔ name ∈ links.map (fun link => link.alias) := by
    simp only [List.mem_map, List.mem_reverse, List.mem_mergeSort]
  simp only [hmem]

/-- The reasons for which links are removed, by alias. -/
def removals (links : List Link) : Comments :=
  links.foldl (fun comments link => comments.add link.alias link.removalReason) .none

theorem removals_concat (links : List Link) (link : Link) :
    removals (links ++ [link]) = (removals links).add link.alias link.removalReason := by
  rw [removals, List.foldl_concat, ← removals]

theorem Comments.find?_add (comments : Comments) (name reason other : String) :
    (comments.add name reason).find? other =
      if other = name then some (insertSorted reason ((comments.find? name).getD []))
      else comments.find? other :=
  Keyed.find?_put comments name other _

theorem mem_keys_removals {links : List Link} {name : String} :
    name ∈ (removals links).keys ↔ ∃ link ∈ links, link.alias = name := by
  rw [Keyed.mem_keys_iff]
  induction links using List.reverseRecOn with
  | nil => simp [removals, Comments.none]
  | append_singleton links link ih =>
    rw [removals_concat, Comments.find?_add]
    by_cases hname : name = link.alias
    · rw [if_pos hname]
      exact iff_of_true ⟨_, rfl⟩ ⟨link, List.mem_concat_self, hname.symm⟩
    · rw [if_neg hname, ih]
      constructor
      · rintro ⟨other, hother, hsame⟩
        exact ⟨other, List.mem_append_left _ hother, hsame⟩
      · rintro ⟨other, hother, rfl⟩
        rcases List.mem_append.mp hother with hother | hother
        · exact ⟨other, hother, rfl⟩
        · obtain rfl := List.mem_singleton.mp hother
          exact absurd rfl hname

/-! ## What a compilation says of names and links -/

section Compile

theorem names_eq_sorted {session : Session} {lastYear : Int} :
    (session.compiled lastYear).names =
      (resolveOnce (resolveOnce (session.compiled lastYear).zones session.links)
        session.links).sorted := rfl

variable (session : Session) (lastYear : Int) (name : String)

theorem find?_names :
    (session.compiled lastYear).names.find? name =
      (lastLinked (resolveOnce (session.compiled lastYear).zones session.links)
        session.links name).or ((session.compiled lastYear).zones.find? name) := by
  rw [← find?_resolveOnce_resolveOnce, names_eq_sorted, Keyed.find?_sorted]

theorem contains_names_iff :
    (session.compiled lastYear).names.contains name = true ↔
      (session.compiled lastYear).zones.contains name = true ∨
        ∃ link ∈ session.links, link.alias = name ∧
          Resolves (session.compiled lastYear).zones session.links link.target := by
  have hlinked : (lastLinked (resolveOnce (session.compiled lastYear).zones session.links)
      session.links name).isSome = true ↔ ∃ link ∈ session.links, link.alias = name ∧
        Resolves (session.compiled lastYear).zones session.links link.target := by
    rw [isSome_lastLinked]
    simp only [contains_resolveOnce_iff_resolves]
  rw [Keyed.contains, find?_names, Option.isSome_or, Bool.or_eq_true, hlinked, or_comm]
  rfl

theorem find?_links :
    (session.compiled lastYear).links.find? name =
      if name ∈ session.links.map (fun link => link.alias) then
        ((session.compiled lastYear).names.find? name).map (·.zone)
      else none := by
  rw [names_eq_sorted, Keyed.find?_sorted]
  exact find?_linkTable _ session.links name

theorem mem_keys_links :
    name ∈ (session.compiled lastYear).links.keys ↔
      (∃ link ∈ session.links, link.alias = name) ∧
        (session.compiled lastYear).names.contains name = true := by
  rw [Keyed.mem_keys_iff, find?_links, ← List.mem_map]
  split
  · next hmem =>
    rw [and_iff_right hmem, Keyed.contains, Option.isSome_iff_exists]
    simp only [Option.map_eq_some_iff, exists_comm (α := String), exists_and_left, exists_eq',
      and_true]
  · next habsent => simp [habsent]

theorem mem_keys_removedLinks :
    name ∈ (session.compiled lastYear).removedLinks.keys ↔
      ∃ link ∈ session.links, link.alias = name ∧
        ¬ Resolves (session.compiled lastYear).zones session.links link.target := by
  have hremoved : (session.compiled lastYear).removedLinks = removals
      (unresolvedLinks (resolveOnce (session.compiled lastYear).zones session.links)
        session.links) := rfl
  rw [hremoved, mem_keys_removals]
  refine exists_congr fun link => ?_
  rw [mem_unresolvedLinks, and_assoc, and_comm (a := link.alias = name)]

theorem zone_of_find?_zones {history : History}
    (h : (session.compiled lastYear).zones.find? name = some history) : history.zone = name := by
  obtain ⟨zone, -, -, timeline, -, rfl, -⟩ := exists_of_find?_compile h
  rfl

/-- All that names denote are the histories of zones, under the names that they bear. -/
theorem find?_zones_of_find?_names {history : History}
    (h : (session.compiled lastYear).names.find? name = some history) :
    (session.compiled lastYear).zones.find? history.zone = some history := by
  rw [names_eq_sorted, Keyed.find?_sorted] at h
  obtain ⟨other, honce⟩ := exists_of_find?_resolveOnce h
  obtain ⟨zone, hzone⟩ := exists_of_find?_resolveOnce honce
  rw [zone_of_find?_zones session lastYear zone hzone]
  exact hzone

end Compile

end ZoneHistory
