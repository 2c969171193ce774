import Mathlib.Data.List.Nodup
import ZoneHistory.DateSpec.Parser
import ZoneHistory.Proofs.Lowercase

/-!
# Names of months and weekdays

A month or weekday is named in full or by three letters, in any case. No text names two of them, and
the place of the name is what is read.
-/
namespace ZoneHistory

/-- A text that is a name or its first three letters, in any case. -/
def InAnyCase (chars : List Char) (name : String) : Prop :=
  chars.map Char.toLower = name.toList ∨ chars.map Char.toLower = name.toList.take 3

/-- The text of a name, by the place of the name from 1 on. -/
def Names (names : List String) (chars : List Char) (index : Int) : Prop :=
  ∃ (place : Nat) (name : String), names[place]? = some name ∧ index = (place : Int) + 1 ∧
    InAnyCase chars name

/-- Names of plain letters that are told apart by the first three of them. -/
structure Distinguished (names : List String) : Prop where
  plain : ∀ name ∈ names, ∀ c ∈ name.toList, Text.isPlain c = true
  nodup : (names.map fun name => name.toList.take 3).Nodup

theorem distinguished_of_all {names : List String}
    (hplain : names.all (fun name => name.toList.all Text.isPlain) = true)
    (hnodup : (names.map fun name => name.toList.take 3).Nodup) : Distinguished names where
  plain name hname := List.all_eq_true.mp (List.all_eq_true.mp hplain name hname)
  nodup := hnodup

theorem distinguished_monthNames : Distinguished monthNames :=
  distinguished_of_all (by decide) (by decide)

theorem distinguished_weekdayNames : Distinguished weekdayNames :=
  distinguished_of_all (by decide) (by decide)

variable {names : List String} {chars : List Char} {name : String} {index : Int}

theorem InAnyCase.take_eq (h : InAnyCase chars name) :
    (chars.map Char.toLower).take 3 = name.toList.take 3 := by
  rcases h with h | h
  · rw [h]
  · rw [h, List.take_take, Nat.min_self]

theorem isNameOf_lowercase_iff (hplain : ∀ c ∈ name.toList, Text.isPlain c = true) :
    isNameOf (Text.lowercase (String.ofList chars)) name = true ↔ InAnyCase chars name := by
  have hshort : ∀ c ∈ name.toList.take 3, Text.isPlain c = true :=
    fun c hc => hplain c (List.mem_of_mem_take hc)
  rw [isNameOf, Bool.or_eq_true, beq_iff_eq, beq_iff_eq, ← String.toList_inj,
    Text.lowercase_toList_eq_iff hplain, Text.lowercase_toList_eq_iff hshort, String.toList_ofList]
  rfl

theorem nameIndex?_eq_some {text : String} :
    nameIndex? names text = some index ↔
      ∃ place : Nat, names.findIdx? (isNameOf (Text.lowercase text)) = some place ∧
        index = (place : Int) + 1 := by
  rw [nameIndex?]
  cases names.findIdx? (isNameOf (Text.lowercase text)) <;> simp [eq_comm, bind, pure]

namespace Distinguished

/-- A text names one place at most. -/
theorem place_unique (h : Distinguished names) {place other : Nat} (hplace : place < names.length)
    (hother : other < names.length) (hname : InAnyCase chars names[place])
    (hotherName : InAnyCase chars names[other]) : place = other := by
  have hsame : names[place].toList.take 3 = names[other].toList.take 3 :=
    hname.take_eq.symm.trans hotherName.take_eq
  have hinj := @List.Nodup.getElem_inj_iff _ _ h.nodup place (by simpa using hplace) other
    (by simpa using hother)
  rw [← hinj, List.getElem_map, List.getElem_map, hsame]

theorem nameIndex?_eq_some_iff (h : Distinguished names) :
    nameIndex? names (String.ofList chars) = some index ↔ Names names chars index := by
  have hmeans : ∀ place (hplace : place < names.length),
      isNameOf (Text.lowercase (String.ofList chars)) names[place] = true ↔
        InAnyCase chars names[place] :=
    fun place hplace => isNameOf_lowercase_iff (h.plain _ (List.getElem_mem hplace))
  refine nameIndex?_eq_some.trans (exists_congr fun place => ?_)
  rw [List.findIdx?_eq_some_iff_getElem]
  constructor
  · rintro ⟨⟨hplace, hname, -⟩, rfl⟩
    exact ⟨names[place], List.getElem?_eq_getElem hplace, rfl, (hmeans place hplace).mp hname⟩
  · rintro ⟨name, hplace, rfl, hname⟩
    obtain ⟨hlt, rfl⟩ := List.getElem?_eq_some_iff.mp hplace
    refine ⟨⟨hlt, (hmeans place hlt).mpr hname, fun earlier hearlier hother => ?_⟩, rfl⟩
    have hsame := h.place_unique hlt (Nat.lt_trans hearlier hlt) hname
      ((hmeans earlier (Nat.lt_trans hearlier hlt)).mp hother)
    omega

end Distinguished

theorem Names.bounds (h : Names names chars index) : 1 ≤ index ∧ index ≤ names.length := by
  obtain ⟨place, name, hplace, rfl, -⟩ := h
  obtain ⟨hlt, -⟩ := List.getElem?_eq_some_iff.mp hplace
  omega

theorem parseMonth_eq_ok_iff {text : String} :
    parseMonth text = .ok index ↔ Names monthNames text.toList index := by
  rw [← distinguished_monthNames.nameIndex?_eq_some_iff, String.ofList_toList, parseMonth]
  cases nameIndex? monthNames text <;> simp

theorem parseWeekday_eq_ok_iff :
    parseWeekday (String.ofList chars) = .ok index ↔ Names weekdayNames chars index := by
  rw [← distinguished_weekdayNames.nameIndex?_eq_some_iff, parseWeekday]
  cases nameIndex? weekdayNames (String.ofList chars) <;> simp

theorem InAnyCase.isPlain_toLower (h : InAnyCase chars name)
    (hplain : ∀ c ∈ name.toList, Text.isPlain c = true) :
    ∀ c ∈ chars, Text.isPlain c.toLower = true := by
  intro c hc
  have hmem : c.toLower ∈ chars.map Char.toLower := List.mem_map_of_mem hc
  refine hplain _ ?_
  rcases h with h | h
  · rwa [h] at hmem
  · rw [h] at hmem
    exact List.mem_of_mem_take hmem

/-- A character that is no letter stands in no name. -/
theorem Names.not_mem (h : Names names chars index) (hnames : Distinguished names) {c : Char}
    (hc : Text.isPlain c.toLower = false) : c ∉ chars := by
  obtain ⟨place, name, hplace, -, hname⟩ := h
  intro hmem
  have hplain := hname.isPlain_toLower (hnames.plain name (List.mem_of_getElem? hplace)) c hmem
  rw [hc] at hplain
  cases hplain

end ZoneHistory
