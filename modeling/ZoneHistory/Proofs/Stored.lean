import ZoneHistory.Proofs.Output.Faults

/-!
# What a disk stores

What an action leaves on a disk is told by writes: where none of them leads a file stays as it is,
and elsewhere it holds what was written there last. A disk is faithful if each request leaves what
it was granted and the others leave all files alone.
-/
namespace ZoneHistory

open Watched (Plan planOf planOf_append)

theorem bind_apply {σ α β : Type} (action : StateM σ α) (next : α → StateM σ β) (s : σ) :
    (action >>= next) s = next (action s).1 (action s).2 := rfl

/-- What is read at a path. -/
def stored {σ : Type} [Disk (StateM σ)] (disk : σ) (path : String) :
    Except DiskError (List UInt8) :=
  ((Disk.read path : StateM σ _) disk).1

section Writes

variable {κ : Type} [DecidableEq κ] (place : String → κ)

/-- What the last of the writes to a place leaves there. Paths are of one place if they lead to the
same file. -/
def lastWritten (writes : List (String × List UInt8)) (spot : κ) : Option (List UInt8) :=
  (writes.reverse.find? fun write => place write.1 = spot).map (·.2)

theorem lastWritten_append (writes others : List (String × List UInt8)) (spot : κ) :
    lastWritten place (writes ++ others) spot =
      (lastWritten place others spot).or (lastWritten place writes spot) := by
  rw [lastWritten, List.reverse_append, List.find?_append, Option.map_or]
  rfl

theorem lastWritten_singleton (path : String) (bytes : List UInt8) (spot : κ) :
    lastWritten place [(path, bytes)] spot = if place path = spot then some bytes else none := by
  by_cases h : place path = spot <;> simp [lastWritten, h]

theorem lastWritten_eq_none_iff {writes : List (String × List UInt8)} {spot : κ} :
    lastWritten place writes spot = none ↔ ∀ path ∈ writes.map (·.1), place path ≠ spot := by
  simp [lastWritten]

variable {place}

theorem exists_of_lastWritten {writes : List (String × List UInt8)} {spot : κ}
    {bytes : List UInt8} (h : lastWritten place writes spot = some bytes) :
    ∃ path, (path, bytes) ∈ writes ∧ place path = spot := by
  obtain ⟨⟨path, bytes⟩, hfind, rfl⟩ := Option.map_eq_some_iff.mp h
  exact ⟨path, List.mem_reverse.mp (List.mem_of_find?_eq_some hfind),
    by simpa using List.find?_some hfind⟩

end Writes

section Updates

variable {σ κ : Type} [DecidableEq κ] [Disk (StateM σ)]

/-- From one state of a disk to another, each file that was there is kept or holds what was written
last, and so does each file that was written. -/
structure Updates (place : String → κ) (before after : σ) (writes : List (String × List UInt8)) :
    Prop where
  kept : ∀ path bytes, stored before path = .ok bytes →
    stored after path = .ok ((lastWritten place writes (place path)).getD bytes)
  written : ∀ write ∈ writes, ∃ bytes, lastWritten place writes (place write.1) = some bytes ∧
    stored after write.1 = .ok bytes

variable {place : String → κ} {first second third : σ} {writes others : List (String × List UInt8)}

theorem updates_nil
    (h : ∀ path bytes, stored first path = .ok bytes → stored second path = .ok bytes) :
    Updates place first second [] :=
  ⟨h, nofun⟩

theorem Updates.trans (h : Updates place first second writes)
    (h' : Updates place second third others) : Updates place first third (writes ++ others) where
  kept path bytes hstored := by
    rw [lastWritten_append, Option.getD_or]
    exact h'.kept path _ (h.kept path bytes hstored)
  written write hwrite := by
    rw [lastWritten_append]
    rcases List.mem_append.mp hwrite with hearly | hlate
    · obtain ⟨bytes, hlast, hstored⟩ := h.written write hearly
      refine ⟨_, ?_, h'.kept write.1 bytes hstored⟩
      rw [hlast, Option.or_some]
    · obtain ⟨bytes, hlast, hstored⟩ := h'.written write hlate
      exact ⟨bytes, by rw [hlast, Option.some_or], hstored⟩

/-- A write that is followed by another of its path leaves nothing. -/
theorem Updates.overwrite {path : String} {earlier later : List UInt8}
    (h : Updates place first second [(path, earlier), (path, later)]) :
    Updates place first second [(path, later)] := by
  have hlast : ∀ spot, lastWritten place [(path, earlier), (path, later)] spot =
      lastWritten place [(path, later)] spot := by
    intro spot
    rw [← List.singleton_append, lastWritten_append, lastWritten_singleton, lastWritten_singleton]
    split <;> rfl
  refine ⟨fun other bytes hstored => ?_, fun write hwrite => ?_⟩
  · rw [← hlast]
    exact h.kept other bytes hstored
  · rw [← hlast]
    exact h.written write (List.mem_cons_of_mem _ hwrite)

end Updates

section Actions

variable {σ κ α β ε : Type} [DecidableEq κ] [Disk (StateM σ)]

/-- An action that gets done leaves what was planned. -/
def Leaves (place : String → κ) (done : α → Prop) (action : StateM σ α) (plan : Plan) : Prop :=
  ∀ disk, done (action disk).1 →
    ∃ writes, planOf writes = plan ∧ Updates place disk (action disk).2 writes

variable {place : String → κ} {done : α → Prop} {done' : β → Prop} {plan rest : Plan}

theorem leaves_pure (a : α) : Leaves place done (pure a : StateM σ α) [] :=
  fun _ _ => ⟨[], rfl, updates_nil fun _ _ h => h⟩

theorem Leaves.bind {action : StateM σ α} {next : α → StateM σ β}
    (haction : Leaves place done action plan)
    (hnext : ∀ a, done a → Leaves place done' (next a) rest)
    (hstop : ∀ a, ¬ done a → Yields (fun b => ¬ done' b) (next a)) :
    Leaves place done' (action >>= next) (plan ++ rest) := by
  intro disk hdone'
  by_cases hdone : done (action disk).1
  · obtain ⟨writes, rfl, hupdates⟩ := haction disk hdone
    obtain ⟨others, rfl, hupdates'⟩ := hnext _ hdone (action disk).2 hdone'
    exact ⟨writes ++ others, planOf_append _ _, hupdates.trans hupdates'⟩
  · exact absurd hdone' ((hstop _ hdone).result (action disk).2)

theorem Leaves.andThen {action : StateM σ α} {next : α → StateM σ β}
    (haction : Leaves place (fun _ => True) action plan)
    (hnext : ∀ a, Leaves place done' (next a) rest) :
    Leaves place done' (action >>= next) (plan ++ rest) :=
  haction.bind (fun a _ => hnext a) fun _ hnot => absurd trivial hnot

theorem Leaves.of_always {action : StateM σ α} (h : Leaves place (fun _ => True) action plan) :
    Leaves place done action plan :=
  fun disk _ => h disk trivial

theorem Leaves.bindExcept {action : ExceptT ε (StateM σ) α} {next : α → ExceptT ε (StateM σ) β}
    (haction : Leaves place (·.isOk = true) action.run plan)
    (hnext : ∀ a, Leaves place (·.isOk = true) (next a).run rest) :
    Leaves place (·.isOk = true) (action >>= next).run (plan ++ rest) := by
  rw [ExceptT.run_bind]
  refine haction.bind (fun result hok => ?_) fun result hfailed => ?_
  · cases result with
    | ok a => exact hnext a
    | error cause => cases hok
  · cases result with
    | ok a => exact absurd rfl hfailed
    | error cause => exact yields_pure nofun

theorem Leaves.lift {action : StateM σ α} (h : Leaves place (fun _ => True) action plan) :
    Leaves place (·.isOk = true) (liftM action : ExceptT ε (StateM σ) α).run plan :=
  fun disk _ => h disk trivial

theorem Leaves.overwrite {action : StateM σ α} {path : String} {earlier later : Option (List UInt8)}
    (h : Leaves place done action [(path, earlier), (path, later)]) :
    Leaves place done action [(path, later)] := by
  intro disk hdone
  obtain ⟨writes, hplan, hupdates⟩ := h disk hdone
  obtain ⟨⟨_, first⟩, _, rfl, hfirst, hrest⟩ := List.map_eq_cons_iff.mp hplan
  obtain ⟨⟨_, second⟩, _, rfl, hsecond, hnil⟩ := List.map_eq_cons_iff.mp hrest
  obtain rfl := List.map_eq_nil_iff.mp hnil
  cases hfirst
  cases hsecond
  exact ⟨_, rfl, hupdates.overwrite⟩

end Actions

/-- A disk is faithful if a request that is granted leaves what was asked for, and looking, reading
and taking notice leave nothing. -/
structure Faithful (σ : Type) {κ : Type} [DecidableEq κ] [Disk (StateM σ)] [Journal (StateM σ)]
    (place : String → κ) : Prop where
  kind? path : Leaves place (fun _ => True) (Disk.kind? path : StateM σ _) []
  read path : Leaves place (fun _ => True) (Disk.read path : StateM σ _) []
  note notice : Leaves place (fun _ => True) (Journal.note notice : StateM σ _) []
  makeDirectories path :
    Leaves place (·.isOk = true) (Disk.makeDirectories path : StateM σ _) []
  create path : Leaves place (·.isOk = true) (Disk.create path : StateM σ _) [(path, some [])]
  write path bytes :
    Leaves place (·.isOk = true) (Disk.write path bytes : StateM σ _) [(path, some bytes)]

theorem Faithful.noteAll {σ κ : Type} [DecidableEq κ] [Disk (StateM σ)] [Journal (StateM σ)]
    {place : String → κ} (faithful : Faithful σ place) (notices : List Notice) :
    Leaves place (fun _ => True) (ZoneHistory.noteAll notices : StateM σ Unit) [] := by
  induction notices with
  | nil => exact leaves_pure ()
  | cons notice rest ih => exact (faithful.note notice).andThen fun _ => ih

end ZoneHistory
