import Mathlib.Data.List.Infix
import ZoneHistory.Disk

/-!
# Recorded accesses

Beside a disk a log is kept of what is read from it and written to it, in order. A recorded action
answers and changes the disk as the action by itself does; what its accesses are is told along the
sequence of the actions.
-/
namespace ZoneHistory

/-- A file whose content was read or written. -/
inductive Access where
  | read (path : String) (bytes : List UInt8)
  | write (path : String) (bytes : List UInt8)
  deriving DecidableEq

/-- A disk, and the accesses that it has granted so far. -/
structure Recorded (σ : Type) where
  disk : σ
  log : List Access

namespace Recorded

variable {σ α β ε : Type}

/-- Ask a disk, and record the access that its answer grants. -/
def ask (access? : α → Option Access) (request : StateM σ α) : StateM (Recorded σ) α := fun r =>
  ((request r.disk).1, ⟨(request r.disk).2, r.log ++ (access? (request r.disk).1).toList⟩)

instance [Disk (StateM σ)] : Disk (StateM (Recorded σ)) where
  kind? path := ask (fun _ => none) (Disk.kind? path)
  read path := ask (fun answer => answer.toOption.map (Access.read path)) (Disk.read path)
  makeDirectories path := ask (fun _ => none) (Disk.makeDirectories path)
  create path := ask (fun _ => none) (Disk.create path)
  write path bytes :=
    ask (fun answer => answer.toOption.map fun _ => Access.write path bytes) (Disk.write path bytes)

instance [Journal (StateM σ)] : Journal (StateM (Recorded σ)) where
  note notice := ask (fun _ => none) (Journal.note notice)

/-- The recorded action does what the plain one does, and its answer and accesses are as told. -/
def Records (tells : α → List Access → Prop) (recorded : StateM (Recorded σ) α)
    (plain : StateM σ α) : Prop :=
  ∀ disk log, ∃ accesses,
    recorded ⟨disk, log⟩ = ((plain disk).1, ⟨(plain disk).2, log ++ accesses⟩) ∧
      tells (plain disk).1 accesses

/-- The same of an action that may fail, of whose failures nothing is told. -/
def Unless (tells : α → List Access → Prop) : Except ε α → List Access → Prop
  | .ok a, accesses => tells a accesses
  | .error _, _ => True

/-- The recorded action does what the plain one does, without any access. -/
def Silent (recorded : StateM (Recorded σ) α) (plain : StateM σ α) : Prop :=
  Records (fun _ accesses => accesses = []) recorded plain

variable {tells other : α → List Access → Prop} {tells' : β → List Access → Prop}

theorem ask_apply {access? : α → Option Access} {request : StateM σ α} {disk after : σ} {answer : α}
    (h : request disk = (answer, after)) (log : List Access) :
    ask access? request ⟨disk, log⟩ = (answer, ⟨after, log ++ (access? answer).toList⟩) := by
  simp only [ask, h]

theorem records_ask (access? : α → Option Access) (request : StateM σ α) :
    Records (fun answer accesses => accesses = (access? answer).toList) (ask access? request)
      request :=
  fun _ _ => ⟨_, rfl, rfl⟩

theorem silent_ask (request : StateM σ α) : Silent (ask (fun _ => none) request) request :=
  records_ask (fun _ => none) request

theorem records_pure {a : α} (h : tells a []) :
    Records tells (pure a : StateM (Recorded σ) α) (pure a) := by
  intro disk log
  refine ⟨[], ?_, h⟩
  rw [List.append_nil]
  rfl

theorem silent_pure (a : α) : Silent (pure a : StateM (Recorded σ) α) (pure a) := records_pure rfl

theorem Records.imp {recorded : StateM (Recorded σ) α} {plain : StateM σ α}
    (h : Records tells recorded plain) (himp : ∀ a accesses, tells a accesses → other a accesses) :
    Records other recorded plain := by
  intro disk log
  obtain ⟨accesses, hrun, htells⟩ := h disk log
  exact ⟨accesses, hrun, himp _ _ htells⟩

theorem Records.bind {recorded : StateM (Recorded σ) α} {plain : StateM σ α}
    {next : α → StateM (Recorded σ) β} {next' : α → StateM σ β}
    (h : Records tells recorded plain)
    (hnext : ∀ a accesses, tells a accesses →
      Records (fun b more => tells' b (accesses ++ more)) (next a) (next' a)) :
    Records tells' (recorded >>= next) (plain >>= next') := by
  intro disk log
  obtain ⟨accesses, hrun, htells⟩ := h disk log
  obtain ⟨more, hrun', htells'⟩ := hnext _ accesses htells (plain disk).2 (log ++ accesses)
  refine ⟨accesses ++ more, ?_, htells'⟩
  change next (recorded ⟨disk, log⟩).1 (recorded ⟨disk, log⟩).2 = _
  rw [hrun, ← List.append_assoc]
  exact hrun'

theorem Silent.bind {recorded : StateM (Recorded σ) α} {plain : StateM σ α}
    {next : α → StateM (Recorded σ) β} {next' : α → StateM σ β} (h : Silent recorded plain)
    (hnext : ∀ a, Records tells' (next a) (next' a)) :
    Records tells' (recorded >>= next) (plain >>= next') := by
  refine Records.bind h fun a accesses hnone => ?_
  rw [hnone]
  exact hnext a

/-- A failure ends a sequence of actions. -/
theorem Silent.bindExcept {recorded : ExceptT ε (StateM (Recorded σ)) α}
    {plain : ExceptT ε (StateM σ) α} {next : α → ExceptT ε (StateM (Recorded σ)) β}
    {next' : α → ExceptT ε (StateM σ) β} (h : Silent recorded.run plain.run)
    (hnext : ∀ a, Records (Unless tells') (next a).run (next' a).run) :
    Records (Unless tells') (recorded >>= next).run (plain >>= next').run := by
  rw [ExceptT.run_bind, ExceptT.run_bind]
  refine Silent.bind h fun answer => ?_
  cases answer with
  | ok a => exact hnext a
  | error cause => exact records_pure trivial

theorem Silent.lift {recorded : StateM (Recorded σ) α} {plain : StateM σ α}
    (h : Silent recorded plain) :
    Silent (liftM recorded : ExceptT ε (StateM (Recorded σ)) α).run
      (liftM plain : ExceptT ε (StateM σ) α).run := by
  intro disk log
  obtain ⟨accesses, hrun, hnone⟩ := h disk log
  refine ⟨accesses, ?_, hnone⟩
  change (Except.ok (recorded ⟨disk, log⟩).1, (recorded ⟨disk, log⟩).2) = _
  rw [hrun]
  rfl

variable [Journal (StateM σ)]

theorem silent_note (notice : Notice) :
    Silent (Journal.note notice : StateM (Recorded σ) Unit) (Journal.note notice) :=
  silent_ask _

theorem silent_noteAll (notices : List Notice) :
    Silent (noteAll notices : StateM (Recorded σ) Unit) (noteAll notices) := by
  induction notices with
  | nil => exact silent_pure ()
  | cons notice rest ih => exact (silent_note notice).bind fun _ => ih

end Recorded

end ZoneHistory
