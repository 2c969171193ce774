import ZoneHistory.Proofs.Links

/-!
# Names that are used twice

A link may bear the name of a zone or of another link. The name of a zone then denotes what the last
of its links with a known target leads to, and not the zone; and an alias is both resolved and
removed if one of its links does not resolve while the name denotes something for another reason.
-/
namespace ZoneHistory

section Compile

variable {session : Session} {lastYear : Int} {name : String} {history : History}

theorem find?_names_eq_iff (h : (session.compiled lastYear).zones.find? name = some history) :
    (session.compiled lastYear).names.find? name = some history ↔
      ∀ other, lastLinked (resolveOnce (session.compiled lastYear).zones session.links)
        session.links name = some other → other.zone = name := by
  have hnames := find?_names session lastYear name
  cases hlast : lastLinked (resolveOnce (session.compiled lastYear).zones session.links)
      session.links name with
  | none =>
    rw [hlast, Option.none_or, h] at hnames
    exact iff_of_true hnames nofun
  | some found =>
    rw [hlast, Option.some_or] at hnames
    have hfound := find?_zones_of_find?_names session lastYear name hnames
    rw [hnames, Option.some.injEq]
    constructor
    · rintro rfl other hother
      cases hother
      exact zone_of_find?_zones session lastYear name h
    · intro hback
      rw [hback found rfl, h] at hfound
      exact (Option.some.inj hfound).symm

end Compile

/-- A zone denotes itself exactly if none of the links that bear its name has a target that
resolves, or the last one that has leads back to the zone. Where the index holds the name of a zone,
it maps it to itself exactly if the zone denotes itself. -/
theorem denotes_itself_iff {session : Session} {lastYear : Int} {name : String}
    {history : History} (h : (session.compiled lastYear).zones.find? name = some history) :
    ((session.compiled lastYear).names.find? name = some history ↔
      ∀ other, lastLinked (resolveOnce (session.compiled lastYear).zones session.links)
        session.links name = some other → other.zone = name) ∧
    ∀ target, (session.compiled lastYear).index.find? name = some target →
      (target = name ↔ (session.compiled lastYear).names.find? name = some history) := by
  refine ⟨find?_names_eq_iff h, fun target htarget => ?_⟩
  obtain ⟨found, hnames, rfl⟩ := Compilation.exists_of_find?_index htarget
  have hfound := find?_zones_of_find?_names session lastYear name hnames
  rw [hnames, Option.some.injEq]
  constructor
  · intro hzone
    rw [hzone, h] at hfound
    exact (Option.some.inj hfound).symm
  · rintro rfl
    exact zone_of_find?_zones session lastYear name h

/-- Two zones, and some links. -/
def twoZones (links : List Link) : Session where
  ruleSets := .empty
  zones := [.steady "Test/A" "AAA" 3600000, .steady "Test/B" "BBB" 7200000]
  links := links
  files := []

def historyA : History := ⟨"Test/A", ⟨0, 3600000, 3600000, "AAA"⟩, #[]⟩

def historyB : History := ⟨"Test/B", ⟨0, 7200000, 7200000, "BBB"⟩, #[]⟩

theorem zones_twoZones (links : List Link) :
    ((twoZones links).compiled 2100).zones =
      ⟨[("Test/A", historyA), ("Test/B", historyB)], by decide⟩ := by
  have hhistories : (compileZones (twoZones []) 2100).histories =
      ⟨[("Test/A", historyA), ("Test/B", historyB)], by decide⟩ := by decide +kernel
  calc ((twoZones links).compiled 2100).zones
      = (compileZones (twoZones []) 2100).histories.sorted := rfl
    _ = _ := by rw [hhistories]; exact Keyed.sorted_of_pairwise (by decide)

/-- Of two links that bear the name of a zone the last one leads to it, so it denotes itself. -/
theorem denotes_itself_ledBack :
    let c := (twoZones [⟨"Test/B", "Test/A"⟩, ⟨"Test/A", "Test/A"⟩]).compiled 2100
    c.zones.find? "Test/A" = some historyA ∧ c.names.find? "Test/A" = some historyA ∧
      c.index.find? "Test/A" = some "Test/A" := by
  intro c
  have hzone : c.zones.find? "Test/A" = some historyA := by
    rw [zones_twoZones]
    decide
  have hlast : lastLinked (resolveOnce c.zones [⟨"Test/B", "Test/A"⟩, ⟨"Test/A", "Test/A"⟩])
      [⟨"Test/B", "Test/A"⟩, ⟨"Test/A", "Test/A"⟩] "Test/A" = some historyA := by
    rw [zones_twoZones]
    decide +kernel
  have hindex : c.index.find? "Test/A" = some "Test/A" := by
    rw [Compilation.index, AliasIndex.find?_distinctIgnoringCase, names_eq_sorted,
      zones_twoZones, Keyed.sorted_of_pairwise (by decide +kernel)]
    decide +kernel
  obtain ⟨hback, hitself⟩ := denotes_itself_iff hzone
  have hnames := hback.mpr fun other hother => by
    cases hlast.symm.trans hother
    rfl
  exact ⟨hzone, hnames, hindex.trans (congrArg some ((hitself _ hindex).mpr hnames))⟩

/-- A link may take the name of a zone, which then no longer denotes itself. -/
theorem takenOver_denotes_other :
    let c := (twoZones [⟨"Test/B", "Test/A"⟩]).compiled 2100
    c.zones.find? "Test/A" = some historyA ∧ c.names.find? "Test/A" = some historyB ∧
      historyA ≠ historyB ∧ c.index.find? "Test/A" = some "Test/B" := by
  intro c
  have hzone : c.zones.find? "Test/A" = some historyA := by
    rw [zones_twoZones]
    decide
  have hnames : c.names.find? "Test/A" = some historyB := by
    rw [names_eq_sorted, Keyed.find?_sorted, zones_twoZones]
    decide +kernel
  have hindex : c.index.find? "Test/A" = some "Test/B" := by
    rw [Compilation.index, AliasIndex.find?_distinctIgnoringCase, names_eq_sorted,
      zones_twoZones, Keyed.sorted_of_pairwise (by decide +kernel)]
    decide +kernel
  exact ⟨hzone, hnames, by decide, hindex⟩

/-- Every alias is resolved or removed. None is both exactly if the alias of a link that does not
resolve is neither the name of a zone nor the alias of a link that resolves. -/
theorem disjoint_keys_links_iff (session : Session) (lastYear : Int) :
    (∀ name, name ∈ (session.compiled lastYear).links.keys ∨
        name ∈ (session.compiled lastYear).removedLinks.keys ↔
      ∃ link ∈ session.links, link.alias = name) ∧
    ((session.compiled lastYear).links.keys.Disjoint
        (session.compiled lastYear).removedLinks.keys ↔
      ∀ link ∈ session.links,
        ¬ Resolves (session.compiled lastYear).zones session.links link.target →
          (session.compiled lastYear).zones.contains link.alias = false ∧
            ∀ other ∈ session.links, other.alias = link.alias →
              ¬ Resolves (session.compiled lastYear).zones session.links other.target) := by
  constructor
  · intro name
    rw [mem_keys_links, mem_keys_removedLinks, contains_names_iff]
    constructor
    · rintro (⟨hlink, -⟩ | ⟨link, hlink, hname, -⟩)
      · exact hlink
      · exact ⟨link, hlink, hname⟩
    · rintro ⟨link, hlink, hname⟩
      by_cases hresolves : Resolves (session.compiled lastYear).zones session.links link.target
      · exact Or.inl ⟨⟨link, hlink, hname⟩, Or.inr ⟨link, hlink, hname, hresolves⟩⟩
      · exact Or.inr ⟨link, hlink, hname, hresolves⟩
  · simp only [List.disjoint_left, mem_keys_links, mem_keys_removedLinks, contains_names_iff]
    constructor
    · intro hdisjoint link hlink hunresolved
      have hnot : ¬ ((session.compiled lastYear).zones.contains link.alias = true ∨
          ∃ other ∈ session.links, other.alias = link.alias ∧
            Resolves (session.compiled lastYear).zones session.links other.target) :=
        fun hdenotes => hdisjoint ⟨⟨link, hlink, rfl⟩, hdenotes⟩ ⟨link, hlink, rfl, hunresolved⟩
      obtain ⟨hzone, hothers⟩ := not_or.mp hnot
      refine ⟨Bool.not_eq_true _ ▸ hzone, fun other hother hname hresolves => ?_⟩
      exact hothers ⟨other, hother, hname, hresolves⟩
    · rintro hapart name ⟨-, hdenotes⟩ ⟨link, hlink, rfl, hunresolved⟩
      obtain ⟨hzone, hothers⟩ := hapart link hlink hunresolved
      rcases hdenotes with hcontains | ⟨other, hother, hname, hresolves⟩
      · rw [hzone] at hcontains
        exact absurd hcontains (by decide)
      · exact hothers other hother hname hresolves

/-- A zone, and a link that bears its name and leads nowhere. -/
def strayLink : Session where
  ruleSets := .empty
  zones := [.steady "Test/Zone" "GMT" 0]
  links := [⟨"Test/Missing", "Test/Zone"⟩]
  files := []

/-- A link that does not resolve is removed, and yet counted as resolved if it bears the name of a
zone. -/
theorem strayLink_resolved_and_removed :
    (strayLink.compiled 2100).links.find? "Test/Zone" = some "Test/Zone" ∧
      (strayLink.compiled 2100).removedLinks.find? "Test/Zone" =
        some ["Cannot find time zone 'Test/Missing'"] := by
  refine ⟨?_, by decide +kernel⟩
  rw [find?_links, if_pos (by decide +kernel)]
  decide +kernel

end ZoneHistory
