import Mathlib.Data.List.Infix
import ZoneHistory.Disk

/-!
# Watched disks

A disk is watched: whatever it answers, the writes that it grants are recorded. What an action
writes is told by a plan, of which its writes are a beginning, and by what its result says of the
rest; such facts are put together along the sequence of the actions.
-/
namespace ZoneHistory

/-- A disk, and the writes that it has granted so far, each a path with its bytes. -/
structure Watched (σ : Type) where
  disk : σ
  granted : List (String × List UInt8)

namespace Watched

variable {σ α β ε : Type}

/-- Ask a disk for something that is not recorded. -/
def ask (request : StateM σ α) : StateM (Watched σ) α := fun w =>
  ((request w.disk).1, { w with disk := (request w.disk).2 })

/-- Ask a disk to write, and record the write if it is granted. -/
def write (request : StateM σ (Except DiskError Unit)) (path : String) (bytes : List UInt8) :
    StateM (Watched σ) (Except DiskError Unit) := fun w =>
  match request w.disk with
  | (.ok (), disk) => (.ok (), ⟨disk, w.granted ++ [(path, bytes)]⟩)
  | (.error error, disk) => (.error error, { w with disk })

instance [Disk (StateM σ)] : Disk (StateM (Watched σ)) where
  kind? path := ask (Disk.kind? path)
  read path := ask (Disk.read path)
  makeDirectories path := ask (Disk.makeDirectories path)
  create path := ask (Disk.create path)
  write path bytes := write (Disk.write path bytes) path bytes

instance [Journal (StateM σ)] : Journal (StateM (Watched σ)) where
  note notice := ask (Journal.note notice)

/-- Writes that are planned: paths, each with the bytes that are to be written, if there are any. -/
abbrev Plan := List (String × Option (List UInt8))

/-- The plan that writes fulfil. -/
def planOf (writes : List (String × List UInt8)) : Plan :=
  writes.map fun write => (write.1, some write.2)

/-- The writes of an action are a beginning of a plan, and all of it if the action gets done. -/
def Performs (done : α → Prop) (action : StateM (Watched σ) α) (plan : Plan) : Prop :=
  ∀ w, ∃ writes, (action w).2.granted = w.granted ++ writes ∧ planOf writes <+: plan ∧
    (done (action w).1 → planOf writes = plan)

/-- The writes of an action are a beginning of a plan, and all of it exactly if the action gets
done. -/
def Completes (done : α → Prop) (action : StateM (Watched σ) α) (plan : Plan) : Prop :=
  ∀ w, ∃ writes, (action w).2.granted = w.granted ++ writes ∧ planOf writes <+: plan ∧
    (done (action w).1 ↔ planOf writes = plan)

/-- An action that does not get done and writes nothing. -/
def Stops (done : α → Prop) (action : StateM (Watched σ) α) : Prop :=
  ∀ w, (action w).2.granted = w.granted ∧ ¬ done (action w).1

variable {done : α → Prop} {done' : β → Prop} {plan rest : Plan}

theorem mem_planOf_iff {writes : List (String × List UInt8)} {path : String}
    {content : Option (List UInt8)} :
    (path, content) ∈ planOf writes ↔ ∃ bytes, content = some bytes ∧ (path, bytes) ∈ writes := by
  rw [planOf, List.mem_map]
  constructor
  · rintro ⟨⟨path, bytes⟩, hwrite, hplan⟩
    cases hplan
    exact ⟨bytes, rfl, hwrite⟩
  · rintro ⟨bytes, rfl, hwrite⟩
    exact ⟨(path, bytes), hwrite, rfl⟩

theorem planOf_append (writes others : List (String × List UInt8)) :
    planOf (writes ++ others) = planOf writes ++ planOf others :=
  List.map_append

theorem stops_pure {a : α} (h : ¬ done a) : Stops done (pure a : StateM (Watched σ) α) :=
  fun _ => ⟨rfl, h⟩

theorem Stops.performs {action : StateM (Watched σ) α} (h : Stops done action) (plan : Plan) :
    Performs done action plan := by
  intro w
  obtain ⟨hgranted, hnot⟩ := h w
  exact ⟨[], by rw [hgranted, List.append_nil], List.nil_prefix, fun hdone => absurd hdone hnot⟩

theorem performs_pure (a : α) : Performs done (pure a : StateM (Watched σ) α) [] :=
  fun _ => ⟨[], (List.append_nil _).symm, List.nil_prefix, fun _ => rfl⟩

theorem completes_pure {a : α} (h : done a) :
    Completes done (pure a : StateM (Watched σ) α) [] :=
  fun _ => ⟨[], (List.append_nil _).symm, List.nil_prefix, iff_of_true h rfl⟩

theorem performs_ask (request : StateM σ α) : Performs done (ask request) [] :=
  fun _ => ⟨[], (List.append_nil _).symm, List.nil_prefix, fun _ => rfl⟩

theorem Performs.bind {action : StateM (Watched σ) α} {next : α → StateM (Watched σ) β}
    (haction : Performs done action plan) (hnext : ∀ a, done a → Performs done' (next a) rest)
    (hstop : ∀ a, ¬ done a → Stops done' (next a)) :
    Performs done' (action >>= next) (plan ++ rest) := by
  intro w
  obtain ⟨writes, hgranted, hbegin, hall⟩ := haction w
  change ∃ writes, (next (action w).1 (action w).2).2.granted = _ ∧ _ ∧
    (done' (next (action w).1 (action w).2).1 → _)
  by_cases hdone : done (action w).1
  · obtain ⟨others, hgranted', hbegin', hall'⟩ := hnext _ hdone (action w).2
    refine ⟨writes ++ others, ?_, ?_, fun hdone' => ?_⟩
    · rw [hgranted', hgranted, List.append_assoc]
    · rw [planOf_append, hall hdone]
      exact (List.prefix_append_right_inj _).mpr hbegin'
    · rw [planOf_append, hall hdone, hall' hdone']
  · obtain ⟨hnone, hnot⟩ := hstop _ hdone (action w).2
    refine ⟨writes, by rw [hnone, hgranted], hbegin.trans (List.prefix_append _ _), ?_⟩
    exact fun hdone' => absurd hdone' hnot

theorem Performs.andThen {action : StateM (Watched σ) α} {next : α → StateM (Watched σ) β}
    (haction : Performs (fun _ => True) action [])
    (hnext : ∀ a, Performs done' (next a) rest) : Performs done' (action >>= next) rest :=
  haction.bind (fun a _ => hnext a) fun _ hnot => absurd trivial hnot

theorem Completes.performs {action : StateM (Watched σ) α} (h : Completes done action plan) :
    Performs done action plan := by
  intro w
  obtain ⟨writes, hgranted, hbegin, hiff⟩ := h w
  exact ⟨writes, hgranted, hbegin, hiff.mp⟩

theorem Stops.completes {action : StateM (Watched σ) α} (h : Stops done action)
    (hplan : plan ≠ []) : Completes done action plan := by
  intro w
  obtain ⟨hgranted, hnot⟩ := h w
  refine ⟨[], by rw [hgranted, List.append_nil], List.nil_prefix, iff_of_false hnot ?_⟩
  exact fun hnil => hplan hnil.symm

/-- If something is left to write after an action, or the action tells by itself whether it has
written all, then so does what it begins. -/
theorem Performs.completes {action : StateM (Watched σ) α} {next : α → StateM (Watched σ) β}
    (haction : Performs done action plan)
    (hnext : ∀ a, done a → Completes done' (next a) rest)
    (hstop : ∀ a, ¬ done a → Stops done' (next a))
    (hrest : rest ≠ [] ∨ Completes done action plan) :
    Completes done' (action >>= next) (plan ++ rest) := by
  intro w
  obtain ⟨writes, hgranted, hbegin, hall⟩ := haction w
  change ∃ writes, (next (action w).1 (action w).2).2.granted = _ ∧ _ ∧
    (done' (next (action w).1 (action w).2).1 ↔ _)
  by_cases hdone : done (action w).1
  · obtain ⟨others, hgranted', hbegin', hiff⟩ := hnext _ hdone (action w).2
    refine ⟨writes ++ others, ?_, ?_, ?_⟩
    · rw [hgranted', hgranted, List.append_assoc]
    · rw [planOf_append, hall hdone]
      exact (List.prefix_append_right_inj _).mpr hbegin'
    · rw [planOf_append, hall hdone, List.append_cancel_left_eq]
      exact hiff
  · obtain ⟨hnone, hnot⟩ := hstop _ hdone (action w).2
    refine ⟨writes, by rw [hnone, hgranted], hbegin.trans (List.prefix_append _ _), ?_⟩
    -- Nothing is written after a stop, so all can only be written if nothing was left to write.
    refine iff_of_false hnot fun hfull => ?_
    have hlength : (plan ++ rest).length ≤ plan.length := hfull ▸ hbegin.length_le
    have hnil : rest = [] := by
      rw [List.length_append] at hlength
      exact List.eq_nil_of_length_eq_zero (by omega)
    rcases hrest with hleft | hexact
    · exact hleft hnil
    · obtain ⟨same, hsame, -, hiff⟩ := hexact w
      obtain rfl : writes = same := List.append_cancel_left (hgranted.symm.trans hsame)
      rw [hnil, List.append_nil] at hfull
      exact hdone (hiff.mpr hfull)

theorem Completes.andReport {action : StateM (Watched σ) α} {next : α → StateM (Watched σ) β}
    (haction : Completes done action plan) (hnext : ∀ a, done a → Completes done' (next a) [])
    (hstop : ∀ a, ¬ done a → Stops done' (next a)) : Completes done' (action >>= next) plan := by
  rw [← List.append_nil plan]
  exact haction.performs.completes hnext hstop (Or.inr haction)

/-- An action that always gets done writes the whole of its plan. -/
theorem Performs.completes_of_always {action : StateM (Watched σ) α}
    (h : Performs (fun _ => True) action plan) : Completes (fun _ => True) action plan := by
  intro w
  obtain ⟨writes, hgranted, hbegin, hall⟩ := h w
  exact ⟨writes, hgranted, hbegin, iff_of_true trivial (hall trivial)⟩

theorem Performs.andComplete {action : StateM (Watched σ) α}
    {next : α → StateM (Watched σ) β} (haction : Performs (fun _ => True) action [])
    (hnext : ∀ a, Completes done' (next a) rest) : Completes done' (action >>= next) rest :=
  haction.completes (fun a _ => hnext a) (fun _ hnot => absurd trivial hnot)
    (Or.inr haction.completes_of_always)

theorem completes_write [Disk (StateM σ)] (path : String) (bytes : List UInt8) :
    Completes (·.isOk = true)
      (Disk.write path bytes : StateM (Watched σ) (Except DiskError Unit))
      [(path, some bytes)] := by
  intro w
  change ∃ writes, (write (Disk.write path bytes) path bytes w).2.granted = _ ∧ _ ∧
    ((write (Disk.write path bytes) path bytes w).1.isOk = true ↔ _)
  rw [write]
  split
  · exact ⟨[(path, bytes)], rfl, List.prefix_rfl, iff_of_true rfl rfl⟩
  · exact ⟨[], (List.append_nil _).symm, List.nil_prefix, iff_of_false nofun nofun⟩

theorem Performs.bindExcept {action : ExceptT ε (StateM (Watched σ)) α}
    {next : α → ExceptT ε (StateM (Watched σ)) β}
    (haction : Performs (·.isOk = true) action.run plan)
    (hnext : ∀ a, Performs (·.isOk = true) (next a).run rest) :
    Performs (·.isOk = true) (action >>= next).run (plan ++ rest) := by
  rw [ExceptT.run_bind]
  refine haction.bind (fun result hok => ?_) fun result hfailed => ?_
  · cases result with
    | ok a => exact hnext a
    | error cause => cases hok
  · cases result with
    | ok a => exact absurd rfl hfailed
    | error cause => exact stops_pure nofun

theorem Performs.lift {action : StateM (Watched σ) α}
    (h : Performs (fun _ => True) action plan) :
    Performs (·.isOk = true) (liftM action : ExceptT ε (StateM (Watched σ)) α).run plan := by
  intro w
  obtain ⟨writes, hgranted, hbegin, hall⟩ := h w
  exact ⟨writes, hgranted, hbegin, fun _ => hall trivial⟩

theorem performs_note [Journal (StateM σ)] (notice : Notice) :
    Performs (fun _ => True) (Journal.note notice : StateM (Watched σ) Unit) [] :=
  performs_ask _

theorem performs_noteAll [Journal (StateM σ)] (notices : List Notice) :
    Performs (fun _ => True) (noteAll notices : StateM (Watched σ) Unit) [] := by
  induction notices with
  | nil => exact performs_pure ()
  | cons notice rest ih =>
    exact (performs_note notice).andThen fun _ => ih

end Watched

end ZoneHistory
