import Mathlib.Data.List.Induction
import ZoneHistory.Timeline

/-!
# What instructions build

Each part of a period comes from an instruction, and so does each cutover. The last year has no part
in how a timeline is built.
-/
namespace ZoneHistory

open Timeline (Instruction build)

/-- Offset, savings and recurrences of a period come from instructions. -/
structure Period.BuiltBy (instructions : List Instruction) (period : Period) : Prop where
  offset : period.standardOffset = 0 ∨ .setStandardOffset period.standardOffset ∈ instructions
  fixed : ∀ fixed ∈ period.fixed, .setFixedSavings fixed ∈ instructions
  recurrences : ∀ recurrence ∈ period.recurrences, .addRecurrence recurrence ∈ instructions

namespace Period.BuiltBy

variable {period : Period} {instructions : List Instruction}

theorem empty (instructions : List Instruction) : BuiltBy instructions {} :=
  ⟨Or.inl rfl, nofun, List.forall_mem_nil _⟩

theorem concat (h : period.BuiltBy instructions) (instruction : Instruction) :
    period.BuiltBy (instructions ++ [instruction]) where
  offset := h.offset.imp_right (List.mem_append_left _)
  fixed fixed hfixed := List.mem_append_left _ (h.fixed fixed hfixed)
  recurrences recurrence hmem := List.mem_append_left _ (h.recurrences recurrence hmem)

end Period.BuiltBy

namespace Timeline

theorem build_concat (lastYear : Int) (instructions : List Instruction)
    (instruction : Instruction) :
    build lastYear (instructions ++ [instruction]) =
      (build lastYear instructions).apply instruction :=
  List.foldl_append

theorem build_eq (first last : Int) (instructions : List Instruction) :
    build last instructions = { build first instructions with lastYear := last } := by
  induction instructions using List.reverseRecOn with
  | nil => rfl
  | append_singleton instructions instruction ih =>
    rw [build_concat, build_concat, ih]
    cases instruction <;> rfl

theorem lastYear_build (lastYear : Int) (instructions : List Instruction) :
    (build lastYear instructions).lastYear = lastYear := by rw [build_eq 0 lastYear]

theorem builtBy_build (lastYear : Int) (instructions : List Instruction) :
    (build lastYear instructions).current.BuiltBy instructions ∧
      ∀ head ∈ (build lastYear instructions).closed,
        head.1.BuiltBy instructions ∧ .addCutover head.2 ∈ instructions := by
  induction instructions using List.reverseRecOn with
  | nil => exact ⟨.empty _, List.forall_mem_nil _⟩
  | append_singleton instructions instruction ih =>
    have hcurrent := ih.1.concat instruction
    have hclosed : ∀ head ∈ (build lastYear instructions).closed,
        head.1.BuiltBy (instructions ++ [instruction]) ∧
          .addCutover head.2 ∈ instructions ++ [instruction] := fun head hhead =>
      ⟨(ih.2 head hhead).1.concat instruction, List.mem_append_left _ (ih.2 head hhead).2⟩
    have hlast : instruction ∈ instructions ++ [instruction] :=
      List.mem_append_right _ List.mem_cons_self
    rw [build_concat]
    cases instruction with
    | setStandardOffset offset => exact ⟨{ hcurrent with offset := Or.inr hlast }, hclosed⟩
    | setFixedSavings fixed =>
      refine ⟨{ hcurrent with fixed := ?_ }, hclosed⟩
      rintro _ ⟨⟩
      exact hlast
    | addRecurrence recurrence =>
      refine ⟨{ hcurrent with recurrences := ?_ }, hclosed⟩
      exact List.forall_mem_append.mpr
        ⟨hcurrent.recurrences, List.forall_mem_singleton.mpr hlast⟩
    | addCutover cutover =>
      exact ⟨.empty _, List.forall_mem_append.mpr
        ⟨hclosed, List.forall_mem_singleton.mpr ⟨hcurrent, hlast⟩⟩⟩

/-- Every period of a timeline comes from the instructions, and so does every end of one. -/
theorem builtBy_of_mem_periods {lastYear : Int} {instructions : List Instruction}
    {period : Period} {cutover : Option Cutover}
    (h : (period, cutover) ∈ (build lastYear instructions).periods) :
    period.BuiltBy instructions ∧ ∀ c ∈ cutover, .addCutover c ∈ instructions := by
  obtain ⟨hcurrent, hclosed⟩ := builtBy_build lastYear instructions
  rcases List.mem_append.mp h with hmem | hlast
  · obtain ⟨head, hhead, heq⟩ := List.mem_map.mp hmem
    cases heq
    refine ⟨(hclosed head hhead).1, ?_⟩
    rintro _ ⟨⟩
    exact (hclosed head hhead).2
  · cases List.mem_singleton.mp hlast
    exact ⟨hcurrent, nofun⟩

/-- There is at most one period and one recurrence for each instruction, and the first period. -/
theorem length_periods_build (lastYear : Int) (instructions : List Instruction) :
    (build lastYear instructions).periods.length +
      ((build lastYear instructions).periods.flatMap fun head => head.1.recurrences).length ≤
        instructions.length + 1 := by
  induction instructions using List.reverseRecOn with
  | nil => exact Nat.le_refl _
  | append_singleton instructions instruction ih =>
    rw [build_concat]
    -- Only a recurrence adds a recurrence, and only a cutover a period.
    cases instruction <;>
      simp only [apply, setStandardOffset, setFixedSavings, addRecurrence, addCutover, periods,
        List.map_append, List.map_cons, List.map_nil, List.flatMap_append, List.flatMap_cons,
        List.flatMap_nil, List.length_append, List.length_cons, List.length_nil] at ih ⊢ <;>
      omega

end Timeline

end ZoneHistory
