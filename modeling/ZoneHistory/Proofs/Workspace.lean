import ZoneHistory.Proofs.Stored
import ZoneHistory.Workspace

/-!
# Workspaces keep what they are given

A file of a workspace is read at the paths of its names below directories. Directories stay, and so
do files until something is written to the same names; so a workspace is a faithful disk on which
paths of the same names are of one place.
-/
namespace ZoneHistory.Workspace

variable {w w' : Workspace} {path : String} {bytes : List UInt8}

theorem stored_eq (w : Workspace) (path : String) : stored w path = w.read path := rfl

theorem reach_noted (noted : List Notice) (names : List String) :
    ({ w with noted } : Workspace).reach names = w.reach names := rfl

theorem kind?_noted (noted : List Notice) (path : String) :
    ({ w with noted } : Workspace).kind? path = w.kind? path := by
  rw [kind?, kind?, reach_noted]

theorem read_noted (noted : List Notice) (path : String) :
    ({ w with noted } : Workspace).read path = w.read path := by
  rw [read, read, reach_noted]

theorem writeError?_noted (noted : List Notice) (path : String) :
    ({ w with noted } : Workspace).writeError? path = w.writeError? path := by
  rw [writeError?, writeError?, reach_noted]

theorem obstacle?_eq_none_iff {names : List String} :
    w.obstacle? names = none ↔ w.node? names = some .directory := by
  rw [obstacle?]
  split <;> simp_all

theorem reach_eq_ok_iff {names : List String} {node : Option Node} :
    w.reach names = .ok node ↔
      (∀ top ∈ above names, w.node? top = some .directory) ∧ w.node? names = node := by
  rw [reach]
  cases hfound : (above names).findSome? w.obstacle? with
  | some error =>
    obtain ⟨top, htop, herror⟩ := List.exists_of_findSome?_eq_some hfound
    refine iff_of_false nofun fun h => ?_
    rw [obstacle?_eq_none_iff.mpr (h.1 top htop)] at herror
    cases herror
  | none =>
    have habove : ∀ top ∈ above names, w.node? top = some .directory := fun top htop =>
      obstacle?_eq_none_iff.mp (List.findSome?_eq_none_iff.mp hfound top htop)
    rw [Except.ok.injEq]
    exact (and_iff_right habove).symm

/-- A path at which a file can stand, below directories. -/
structure Leads (w : Workspace) (path : String) : Prop where
  null : ¬ Path.hasNull path
  nonempty : ¬ path.isEmpty
  above : ∀ top ∈ above (Path.names path), w.node? top = some .directory
  ending : Path.ending path = .name

theorem read_eq_ok_iff :
    w.read path = .ok bytes ↔ w.Leads path ∧ w.node? (Path.names path) = some (.file bytes) := by
  constructor
  · intro h
    rw [read] at h
    split at h
    · cases h
    next hnull =>
    split at h
    · cases h
    next hnonempty =>
    split at h
    · cases h
    · cases h
    · cases h
    next stored hreach =>
    obtain ⟨habove, hnode⟩ := reach_eq_ok_iff.mp hreach
    split at h
    · next hending =>
      cases h
      exact ⟨⟨hnull, hnonempty, habove, hending⟩, hnode⟩
    · cases h
  · rintro ⟨hleads, hnode⟩
    rw [read, if_neg hleads.null, if_neg hleads.nonempty,
      reach_eq_ok_iff.mpr ⟨hleads.above, hnode⟩]
    exact if_pos hleads.ending

theorem leads_of_writeError? (h : w.writeError? path = none) :
    w.Leads path ∧ w.node? (Path.names path) ≠ some .directory := by
  rw [writeError?] at h
  split at h
  · cases h
  next hnull =>
  split at h
  · cases h
  next hnonempty =>
  cases hreach : w.reach (Path.names path) with
  | error error =>
    rw [hreach] at h
    cases h
  | ok node =>
    obtain ⟨habove, hnode⟩ := reach_eq_ok_iff.mp hreach
    rw [hreach] at h
    cases hending : Path.ending path with
    | slash =>
      rw [hending] at h
      cases node <;> cases h
    | dot =>
      rw [hending] at h
      rcases node with _ | _ | _ <;> cases h
    | name =>
      refine ⟨⟨hnull, hnonempty, habove, hending⟩, ?_⟩
      rw [hending] at h
      rw [hnode]
      rintro rfl
      cases h

theorem node?_put {names : List String} (h : names ≠ []) (node : Node) (others : List String) :
    (w.put names node).node? others = if others = names then some node else w.node? others := by
  cases others with
  | nil =>
    rw [if_neg h.symm]
    rfl
  | cons first rest =>
    -- `assign` compares keys by their decidable equality, `node?` compares them as lists.
    have hput := lookup_assign names (first :: rest) node w.nodes
    rwa [lawful_beq_subsingleton instBEqOfDecidableEq List.instBEq] at hput

/-- What can be read can be written. -/
theorem writeError?_of_read (h : w.read path = .ok bytes) : w.writeError? path = none := by
  obtain ⟨hleads, hnode⟩ := read_eq_ok_iff.mp h
  rw [writeError?, if_neg hleads.null, if_neg hleads.nonempty,
    reach_eq_ok_iff.mpr ⟨hleads.above, hnode⟩, hleads.ending]

/-- All directories of a workspace are still there. -/
def KeepsDirectories (w w' : Workspace) : Prop :=
  ∀ names, w.node? names = some .directory → w'.node? names = some .directory

theorem Leads.keep (h : w.Leads path) (hkeeps : w.KeepsDirectories w') : w'.Leads path :=
  { h with above := fun top htop => hkeeps top (h.above top htop) }

section Put

variable {names : List String} (h : w.node? names ≠ some .directory)
include h

theorem ne_nil_of_not_directory : names ≠ [] := by
  rintro rfl
  exact h rfl

theorem keepsDirectories_put (node : Node) : w.KeepsDirectories (w.put names node) := by
  intro others hdirectory
  rw [node?_put (ne_nil_of_not_directory h), if_neg]
  · exact hdirectory
  · rintro rfl
    exact h hdirectory

end Put

/-- After a write is granted, every file is read as before, unless it has the same names. -/
theorem updates_write {changed : Workspace} (h : w.write path bytes = .ok changed) :
    Updates Path.names w changed [(path, bytes)] := by
  rw [write] at h
  split at h
  · cases h
  next hgranted =>
  obtain rfl := Except.ok.inj h
  obtain ⟨hleads, hnode⟩ := leads_of_writeError? hgranted
  have hnames := ne_nil_of_not_directory hnode
  have hkeeps := keepsDirectories_put hnode (.file bytes)
  refine ⟨fun other before hread => ?_, fun write hwrite => ?_⟩
  · rw [stored_eq] at hread ⊢
    obtain ⟨hother, hfile⟩ := read_eq_ok_iff.mp hread
    refine read_eq_ok_iff.mpr ⟨hother.keep hkeeps, ?_⟩
    rw [node?_put hnames, lastWritten_singleton]
    by_cases hsame : Path.names other = Path.names path
    · rw [if_pos hsame, if_pos hsame.symm, Option.getD_some]
    · rw [if_neg hsame, if_neg (Ne.symm hsame), Option.getD_none, hfile]
  · obtain rfl := List.mem_singleton.mp hwrite
    have hfile : (w.put (Path.names path) (.file bytes)).node? (Path.names path) =
        some (.file bytes) := by rw [node?_put hnames, if_pos rfl]
    refine ⟨bytes, by rw [lastWritten_singleton, if_pos rfl], ?_⟩
    rw [stored_eq]
    exact read_eq_ok_iff.mpr ⟨hleads.keep hkeeps, hfile⟩

/-- Making directories leaves all that was there. -/
theorem node?_makeBelow (ending : Path.Ending) (top rest names : List String) (node : Node)
    (h : w.node? names = some node) :
    (w.makeBelow ending top rest).1.node? names = some node := by
  induction rest generalizing w top with
  | nil => exact h
  | cons name rest ih =>
    have hmade : w.node? (top ++ [name]) = none →
        (w.put (top ++ [name]) .directory).node? names = some node := by
      intro hnone
      rw [node?_put (List.append_ne_nil_of_right_ne_nil _ (List.cons_ne_nil _ _)), if_neg]
      · exact h
      · rintro rfl
        rw [h] at hnone
        cases hnone
    -- A name is refused, is there already, or is made where nothing was.
    rw [makeBelow]
    split
    · exact h
    split
    · exact h
    · exact ih _ h
    · split
      · exact h
      · exact ih _ h
    · split
      · exact h
      · exact ih _ (hmade ‹_›)

theorem updates_makeDirectories (w : Workspace) (path : String) :
    Updates Path.names w (w.makeDirectories path).1 [] := by
  refine updates_nil fun other bytes hread => ?_
  rw [stored_eq] at hread ⊢
  obtain ⟨hleads, hfile⟩ := read_eq_ok_iff.mp hread
  refine read_eq_ok_iff.mpr ⟨hleads.keep fun names hdirectory => ?_, ?_⟩
  · exact node?_makeBelow _ _ _ names _ hdirectory
  · exact node?_makeBelow _ _ _ _ _ hfile

theorem leaves_replaceFile (path : String) (bytes : List UInt8) :
    Leaves Path.names (·.isOk = true) (replaceFile path bytes) [(path, some bytes)] := by
  intro w hok
  rw [replaceFile] at hok ⊢
  cases hwrite : w.write path bytes with
  | error error =>
    rw [hwrite] at hok
    cases hok
  | ok changed => exact ⟨[(path, bytes)], rfl, updates_write hwrite⟩

theorem leaves_note (notice : Notice) :
    Leaves Path.names (fun _ => True) (Journal.note notice : StateM Workspace Unit) [] := by
  intro w _
  refine ⟨[], rfl, updates_nil fun path bytes hread => ?_⟩
  rw [stored_eq] at hread ⊢
  exact (read_noted (notice :: w.noted) path).trans hread

theorem faithful : Faithful Workspace Path.names where
  kind? _ := fun _ _ => ⟨[], rfl, updates_nil fun _ _ h => h⟩
  read _ := fun _ _ => ⟨[], rfl, updates_nil fun _ _ h => h⟩
  note := leaves_note
  makeDirectories path := fun w _ => ⟨[], rfl, w.updates_makeDirectories path⟩
  create path := leaves_replaceFile path []
  write path bytes := leaves_replaceFile path bytes

theorem noteAll_apply (notices : List Notice) (w : Workspace) :
    (noteAll notices : StateM Workspace Unit) w =
      ((), { w with noted := notices.reverse ++ w.noted }) := by
  induction notices generalizing w with
  | nil => rfl
  | cons notice rest ih =>
    change (noteAll rest : StateM Workspace Unit) { w with noted := notice :: w.noted } = _
    rw [ih, List.reverse_cons, List.append_assoc]
    rfl

theorem replaceFile_apply (h : w.writeError? path = none) (bytes : List UInt8) :
    replaceFile path bytes w = (.ok (), w.put (Path.names path) (.file bytes)) := by
  rw [replaceFile, write, h]

theorem read_put (h : w.writeError? path = none) (bytes : List UInt8) :
    (w.put (Path.names path) (.file bytes)).read path = .ok bytes := by
  have hwrite : w.write path bytes = .ok (w.put (Path.names path) (.file bytes)) := by
    rw [write, h]
  obtain ⟨last, hlast, hread⟩ := (updates_write hwrite).written _ List.mem_cons_self
  rw [lastWritten_singleton, if_pos rfl] at hlast
  cases hlast
  rwa [stored_eq] at hread

/-- Where a file can be written, an index that fits is written. -/
theorem writeAliasIndex_eq_none {directory : String} {names : Keyed History}
    {encoded : AliasIndex.Encoded}
    (hgranted : w.writeError? (Path.join directory Output.aliasIndexFile) = none)
    (hencode : AliasIndex.encode
      (AliasIndex.distinctIgnoringCase (names.mapValues (·.zone))).1 = .ok encoded) :
    ((Output.writeAliasIndex directory names : StateM Workspace _) w).1 = none := by
  unfold Output.writeAliasIndex
  generalize AliasIndex.distinctIgnoringCase (names.mapValues (·.zone)) = index at hencode ⊢
  obtain ⟨mapping, notices⟩ := index
  dsimp only at hencode ⊢
  generalize Path.join directory Output.aliasIndexFile = file at hgranted ⊢
  let before : Workspace := { w with noted := notices.reverse ++ w.noted }
  have hbefore : before.writeError? file = none := by rw [writeError?_noted, hgranted]
  have hcreate : (Disk.create file : StateM Workspace _) before =
      (.ok (), before.put (Path.names file) (.file [])) :=
    replaceFile_apply hbefore []
  let created : Workspace :=
    { before.put (Path.names file) (.file []) with noted := encoded.notice :: before.noted }
  have hnote : (Journal.note encoded.notice : StateM Workspace _)
      (before.put (Path.names file) (.file [])) = ((), created) := rfl
  have hcreated : created.writeError? file = none := by
    rw [writeError?_noted]
    exact writeError?_of_read (read_put hbefore [])
  have hwrite : (Disk.write file encoded.bytes : StateM Workspace _) created =
      (.ok (), created.put (Path.names file) (.file encoded.bytes)) :=
    replaceFile_apply hcreated encoded.bytes
  rw [bind_apply, noteAll_apply, bind_apply, hcreate]
  dsimp only
  rw [hencode]
  dsimp only
  rw [bind_apply, hnote, bind_apply, hwrite]
  rfl

theorem destinationFault?_apply {directory : String} (h : w.kind? directory = some .directory) :
    (Output.destinationFault? directory : StateM Workspace _) w = (none, w) := by
  have hkind : (Disk.kind? directory : StateM Workspace _) w = (some .directory, w) :=
    Prod.ext h rfl
  rw [Output.destinationFault?, bind_apply, hkind]
  rfl

/-- The workspace in which a compilation has its zone files written, and what is answered. -/
def writeFiles (w : Workspace) (directory : String) (c : Compilation) :
    (Comments × Option Fault) × Workspace :=
  (Output.writeZoneFiles directory c.zones c.timelines.entries c.notableZones :
    StateM Workspace _) w

theorem write_eq_none {directory : String} {c : Compilation} {encoded : AliasIndex.Encoded}
    (hdirectory : w.kind? directory = some .directory)
    (hfiles : (w.writeFiles directory c).1.2 = none)
    (hgranted : (w.writeFiles directory c).2.writeError?
      (Path.join directory Output.aliasIndexFile) = none)
    (hencode : AliasIndex.encode c.index = .ok encoded) :
    ((Output.write directory c.timelines c.zones c.names c.notableZones :
      StateM Workspace _) w).1.2 = none := by
  rcases hwritten : w.writeFiles directory c with ⟨⟨comments, fault⟩, files⟩
  rw [hwritten] at hfiles hgranted
  cases hfiles
  rw [writeFiles] at hwritten
  rw [Output.write, bind_apply, destinationFault?_apply hdirectory]
  dsimp only
  rw [bind_apply, hwritten]
  exact writeAliasIndex_eq_none hgranted hencode

/-- What a run notes before it writes. -/
def noteCompiling (w : Workspace) (session : Session) (lastYear : Int) : Workspace :=
  { w with noted := .stage "==== Writing compiled zone files" ::
      ((compile session lastYear).2.reverse ++ w.noted) }

/-- A run into a directory succeeds if its zone files are written, and then there is room for an
index that fits. -/
theorem isOk_compileInto {session : Session} {lastYear : Int} {directory : String}
    {encoded : AliasIndex.Encoded} (hdirectory : w.kind? directory = some .directory)
    (hfiles : ((w.noteCompiling session lastYear).writeFiles directory
      (session.compiled lastYear)).1.2 = none)
    (hgranted : ((w.noteCompiling session lastYear).writeFiles directory
      (session.compiled lastYear)).2.writeError?
        (Path.join directory Output.aliasIndexFile) = none)
    (hencode : AliasIndex.encode (session.compiled lastYear).index = .ok encoded) :
    ((compileInto session lastYear (some directory) :
      StateM Workspace (Except Fault Compilation)) w).1.isOk = true := by
  have hready : (w.noteCompiling session lastYear).kind? directory = some .directory := by
    rw [noteCompiling, kind?_noted, hdirectory]
  have hwrite := write_eq_none hready hfiles hgranted hencode
  rcases hrun : (Output.write directory (session.compiled lastYear).timelines
    (session.compiled lastYear).zones (session.compiled lastYear).names
    (session.compiled lastYear).notableZones : StateM Workspace _)
      (w.noteCompiling session lastYear) with ⟨⟨comments, fault⟩, after⟩
  rw [hrun] at hwrite
  cases hwrite
  have hnote : (Journal.note (.stage "==== Writing compiled zone files") : StateM Workspace _)
      { w with noted := (compile session lastYear).2.reverse ++ w.noted } =
        ((), w.noteCompiling session lastYear) := rfl
  rw [compileInto, bind_apply, destinationFault?_apply hdirectory]
  dsimp only
  rw [bind_apply, noteAll_apply, bind_apply, bind_apply, hnote, hrun]
  rfl

end ZoneHistory.Workspace
