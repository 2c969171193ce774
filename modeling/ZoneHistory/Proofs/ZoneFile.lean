import ZoneHistory.Proofs.Wire.Cut
import ZoneHistory.ZoneFile

/-!
# Zone files written and read

A history is written exactly if each of its values fits its field, and what is written is read back
as the same history.
-/
namespace ZoneHistory.ZoneFile

open Wire

/-- Whether every value of a history fits the field for it. -/
structure Storable (history : History) : Prop where
  zone : history.zone.utf8ByteSize ≤ 65535
  count : history.transitions.size ≤ 2 ^ 32 - 1
  wallOffsets : ∀ t ∈ history.initial :: history.transitions.toList,
    -2 ^ 31 ≤ t.wallOffset ∧ t.wallOffset < 2 ^ 31
  standardOffsets : ∀ t ∈ history.initial :: history.transitions.toList,
    -2 ^ 31 ≤ t.standardOffset ∧ t.standardOffset < 2 ^ 31
  names : ∀ t ∈ history.initial :: history.transitions.toList, t.name.utf8ByteSize ≤ 65535
  instants : ∀ t ∈ history.transitions.toList, -2 ^ 63 ≤ t.instant ∧ t.instant < 2 ^ 63

theorem fits_transitionFields_iff (t : Transition) :
    (∀ field ∈ transitionFields t, field.Fits) ↔
      (-2 ^ 63 ≤ t.instant ∧ t.instant < 2 ^ 63) ∧
        (-2 ^ 31 ≤ t.wallOffset ∧ t.wallOffset < 2 ^ 31) ∧
        (-2 ^ 31 ≤ t.standardOffset ∧ t.standardOffset < 2 ^ 31) ∧
        t.name.utf8ByteSize ≤ 65535 := by
  simp only [transitionFields, List.forall_mem_cons, Field.Fits, IntKind.holds_i64_iff,
    IntKind.holds_i32_iff]
  simp

theorem storable_iff (history : History) :
    Storable history ↔ ∀ field ∈ fields history, field.Fits := by
  have hmark : (∀ field ∈ fields history, field.Fits) ↔
      history.zone.utf8ByteSize ≤ 65535 ∧
      (-2 ^ 31 ≤ history.initial.wallOffset ∧ history.initial.wallOffset < 2 ^ 31) ∧
      (-2 ^ 31 ≤ history.initial.standardOffset ∧ history.initial.standardOffset < 2 ^ 31) ∧
      history.initial.name.utf8ByteSize ≤ 65535 ∧
      history.transitions.size ≤ 2 ^ 32 - 1 ∧
      ∀ t ∈ history.transitions.toList, ∀ field ∈ transitionFields t, field.Fits := by
    rw [fields, List.forall_mem_append, List.forall_mem_flatMap]
    simp only [List.forall_mem_cons, Field.Fits, IntKind.holds_i32_iff,
      IntKind.holds_u32_iff]
    simp [and_assoc]
  rw [hmark]
  simp only [fits_transitionFields_iff]
  constructor
  · rintro ⟨hzone, hcount, hwall, hstandard, hname, hinstant⟩
    rw [List.forall_mem_cons] at hwall hstandard hname
    exact ⟨hzone, hwall.1, hstandard.1, hname.1, hcount, fun t ht =>
      ⟨hinstant t ht, hwall.2 t ht, hstandard.2 t ht, hname.2 t ht⟩⟩
  · rintro ⟨hzone, hwall, hstandard, hname, hcount, hall⟩
    refine ⟨hzone, hcount, ?_, ?_, ?_, fun t ht => (hall t ht).1⟩
    · exact List.forall_mem_cons.mpr ⟨hwall, fun t ht => (hall t ht).2.1⟩
    · exact List.forall_mem_cons.mpr ⟨hstandard, fun t ht => (hall t ht).2.2.1⟩
    · exact List.forall_mem_cons.mpr ⟨hname, fun t ht => (hall t ht).2.2.2⟩

/-- The bytes of a zone file. -/
def bytes (history : History) : List UInt8 := mark ++ (fields history).flatMap Field.bytes

theorem encode_eq_ok_iff {history : History} {written : List UInt8} :
    encode history = .ok written ↔ Storable history ∧ written = bytes history := by
  rw [storable_iff, encode, bytes]
  cases hall : writeAll (fields history) with
  | error error =>
    simp only [Except.map, reduceCtorEq, false_iff, not_and]
    intro hfits
    rw [writeAll_eq_ok_iff.mpr ⟨hfits, rfl⟩] at hall
    cases hall
  | ok rest =>
    obtain ⟨hfits, rfl⟩ := writeAll_eq_ok_iff.mp hall
    simp only [Except.map, Except.ok.injEq, eq_comm, and_iff_right hfits]

theorem exists_encode_iff {history : History} :
    (∃ written, encode history = .ok written) ↔ Storable history := by
  simp only [encode_eq_ok_iff, exists_and_left, exists_eq, and_true]

theorem takes_readTransition {t : Transition} (h : ∀ field ∈ transitionFields t, field.Fits) :
    Takes readTransition ((transitionFields t).flatMap Field.bytes) t := by
  simp only [transitionFields, List.forall_mem_cons] at h
  obtain ⟨hinstant, hwall, hstandard, hname, -⟩ := h
  refine (takes_readInt hinstant).bind ?_
  refine (takes_readInt hwall).bind ?_
  refine (takes_readInt hstandard).bind ?_
  exact (takes_readText hname).bind (takes_pure _)

theorem bytes_eq (history : History) :
    bytes history = mark ++ ((Field.text history.zone).bytes ++
      (IntKind.i32.bytes history.initial.wallOffset ++
      (IntKind.i32.bytes history.initial.standardOffset ++
      ((Field.text history.initial.name).bytes ++
      (IntKind.u32.bytes history.transitions.size ++
      history.transitions.toList.flatMap fun t => (transitionFields t).flatMap Field.bytes))))) := by
  simp [bytes, fields, List.flatMap_assoc, Field.bytes]

/-- A zone file is read whole, and nothing may follow it. The initial state has lost its instant. -/
theorem exhausts_read {history : History} (h : Storable history) :
    Exhausts (read history.zone) (bytes history)
      { history with initial := { history.initial with instant := 0 } }
      (.trailingZoneBytes history.zone) := by
  have hfits := (storable_iff history).mp h
  rw [fields, List.forall_mem_append, List.forall_mem_flatMap] at hfits
  obtain ⟨hhead, htransitions⟩ := hfits
  simp only [List.forall_mem_cons] at hhead
  obtain ⟨hzone, hwall, hstandard, hname, hcount, -⟩ := hhead
  have hmany := takes_readMany id (fun t ht => takes_readTransition (htransitions t ht)) []
  rw [List.map_id] at hmany
  rw [read, bytes_eq]
  refine (takes_readBytes mark).exhausts_bind ?_
  rw [if_neg (by simp)]
  refine (takes_readText hzone).exhausts_bind ?_
  rw [if_neg (by simp)]
  refine (takes_readInt hwall).exhausts_bind ?_
  refine (takes_readInt hstandard).exhausts_bind ?_
  refine (takes_readText hname).exhausts_bind ?_
  refine (takes_readInt hcount).exhausts_bind ?_
  rw [Int.toNat_natCast]
  refine hmany.exhausts_bind_nil ?_
  exact exhausts_isAtEnd (fun _ => rfl) fun _ => rfl

theorem decode_bytes {history : History} (hstorable : Storable history)
    (hinitial : history.initial.instant = 0) :
    decode history.zone (bytes history) = .ok history := by
  rw [decode, (exhausts_read hstorable).runReader_eq, ← hinitial]

theorem exists_bytes_eq (history : History) :
    ∃ rest, bytes history = mark ++ ((Field.text history.zone).bytes ++ rest) := ⟨_, rfl⟩

/-- Histories that are written as the same bytes are of the same zone. -/
theorem zone_eq_of_encode_eq {history other : History} {written : List UInt8}
    (h : encode history = .ok written) (h' : encode other = .ok written) :
    history.zone = other.zone := by
  obtain ⟨hstorable, rfl⟩ := encode_eq_ok_iff.mp h
  obtain ⟨hstorable', hsame⟩ := encode_eq_ok_iff.mp h'
  obtain ⟨rest, hbytes⟩ := exists_bytes_eq history
  obtain ⟨rest', hbytes'⟩ := exists_bytes_eq other
  rw [hbytes, hbytes'] at hsame
  have hread := reads_readText hstorable.zone [] rest
  rw [List.append_cancel_left hsame, reads_readText hstorable'.zone [] rest'] at hread
  exact (Except.ok.inj (congrArg Prod.fst hread)).symm

/-- A history is written exactly if it can be stored, and refused otherwise. What is written is read
back as the history, whose state before all transitions is stored without its instant. -/
theorem decode_encode {history : History} (hinitial : history.initial.instant = 0) :
    ((∃ written, encode history = .ok written) ↔ Storable history) ∧
      (¬ Storable history → ∃ refusal, encode history = .error refusal) ∧
      ∀ written, encode history = .ok written → decode history.zone written = .ok history := by
  refine ⟨?_, ?_, ?_⟩
  · simp only [encode_eq_ok_iff, exists_and_left, exists_eq, and_true]
  · intro hnot
    cases hencode : encode history with
    | error refusal => exact ⟨refusal, rfl⟩
    | ok written => exact absurd (encode_eq_ok_iff.mp hencode).1 hnot
  · intro written hwritten
    obtain ⟨hstorable, rfl⟩ := encode_eq_ok_iff.mp hwritten
    exact decode_bytes hstorable hinitial

/-- A history with offsets and instants at the ends of their ranges and names that are not ASCII. -/
def farthest : History where
  zone := "Amérique/Nord"
  initial := ⟨0, -2147483648, 2147483647, "ΩMT"⟩
  transitions := #[⟨-9223372036854775808, 2147483647, -2147483648, "É"⟩,
    ⟨9223372036854775807, 0, -3600000, ""⟩]

theorem decode_encode_farthest :
    farthest.initial.instant = 0 ∧
      ∃ written, encode farthest = .ok written ∧ decode farthest.zone written = .ok farthest := by
  have hinitial : farthest.initial.instant = 0 := rfl
  have hstorable : Storable farthest :=
    ⟨by decide, by decide, by decide, by decide, by decide, by decide⟩
  obtain ⟨hwritten, -, hread⟩ := decode_encode hinitial
  obtain ⟨written, hencode⟩ := hwritten.mpr hstorable
  exact ⟨hinitial, written, hencode, hread written hencode⟩

end ZoneHistory.ZoneFile
