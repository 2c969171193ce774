import ZoneHistory.Proofs.Wire

/-!
# Data that end too early or too late

A reader of fields takes the same bytes off data that were cut short as off the whole, up to the
field in which the data end. There it asks for bytes that are not there. So of data in which nothing
may follow the last field, every shorter and every longer form is refused.
-/
namespace ZoneHistory.Wire

/-- Wherever data end before the last of the bytes, reading fails for want of bytes. -/
def RunsOut {α : Type} (read : Reader α) (bytes : List UInt8) : Prop :=
  ∀ passed cut rest : List UInt8, cut ++ rest = bytes → rest ≠ [] →
    ∃ offset needed available c,
      read.run.run (.between passed cut) = (.error (.unexpectedEnd offset needed available), c)

theorem runsOut_nil {α : Type} (read : Reader α) : RunsOut read [] := by
  intro passed cut rest hsplit hrest
  exact absurd (List.append_eq_nil_iff.mp hsplit).2 hrest

theorem RunsOut.bind_left {α β : Type} {read : Reader α} {bytes : List UInt8}
    (h : RunsOut read bytes) (next : α → Reader β) : RunsOut (read >>= next) bytes := by
  intro passed cut rest hsplit hrest
  obtain ⟨offset, needed, available, c, hrun⟩ := h passed cut rest hsplit hrest
  exact ⟨offset, needed, available, c, run_bind_of_error hrun next⟩

/-- Reading takes exactly these bytes: where they all stand it passes them and gives the value, and
where data end before the last of them it fails for want of bytes. -/
structure Takes {α : Type} (read : Reader α) (bytes : List UInt8) (value : α) : Prop where
  reads : Reads read bytes value
  runsOut : RunsOut read bytes

theorem takes_pure {α : Type} (value : α) : Takes (pure value) [] value :=
  ⟨reads_pure value, runsOut_nil _⟩

section Bind

variable {α β : Type} {read : Reader α} {next : α → Reader β} {bytes bytes' : List UInt8}
  {value : α} {value' : β}

theorem Takes.runsOut_bind (h : Takes read bytes value) (hnext : RunsOut (next value) bytes') :
    RunsOut (read >>= next) (bytes ++ bytes') := by
  intro passed cut rest hsplit hrest
  have hbehind : ∀ more, more ++ rest = bytes' → cut = bytes ++ more →
      ∃ offset needed available c, (read >>= next).run.run (.between passed cut) =
        (.error (.unexpectedEnd offset needed available), c) := by
    rintro more hmore rfl
    rw [h.reads.run_bind]
    exact hnext _ more rest hmore hrest
  -- The data end inside the first bytes, or behind them.
  rcases List.append_eq_append_iff.mp hsplit with ⟨missing, hbytes, hmissing⟩ | ⟨more, hcut, hmore⟩
  · by_cases hnone : missing = []
    · subst hnone
      rw [List.append_nil] at hbytes
      exact hbehind [] hmissing (by rw [hbytes, List.append_nil])
    · exact h.runsOut.bind_left next passed cut missing hbytes.symm hnone
  · exact hbehind more hmore.symm hcut

theorem Takes.bind (h : Takes read bytes value) (h' : Takes (next value) bytes' value') :
    Takes (read >>= next) (bytes ++ bytes') value' :=
  ⟨h.reads.bind h'.reads, h.runsOut_bind h'.runsOut⟩

end Bind

theorem takes_readBytes (bytes : List UInt8) : Takes (readBytes bytes.length) bytes bytes where
  reads := reads_readBytes bytes
  runsOut := by
    rintro passed cut rest rfl hrest
    have hpos : 0 < rest.length := List.length_pos_iff.mpr hrest
    have hshort : ((Cursor.between passed cut).data.size : Int) <
        (Cursor.between passed cut).offset + ((cut ++ rest).length : Int) := by
      simp only [Cursor.between, List.size_toArray, List.length_append]
      omega
    rw [run_readBytes, if_pos hshort]
    exact ⟨_, _, _, _, rfl⟩

theorem takes_readInt {kind : IntKind} {value : Int} (h : kind.Holds value) :
    Takes (readInt kind) (kind.bytes value) value where
  reads := reads_readInt h
  runsOut := by
    have hbytes := (takes_readBytes (kind.bytes value)).runsOut
    rw [IntKind.length_bytes] at hbytes
    exact hbytes.bind_left _

theorem takes_readText {text : String} (h : text.utf8ByteSize ≤ 65535) :
    Takes readText (Field.text text).bytes text where
  reads := reads_readText h
  runsOut := by
    have hbytes := (takes_readBytes (utf8 text)).runsOut
    rw [length_utf8] at hbytes
    exact (takes_readInt ((IntKind.holds_u16_iff _).mpr h)).runsOut_bind (hbytes.bind_left _)

/-- A run of values that are read one by one, each from the bytes of a source that means it. -/
theorem takes_readMany {α β : Type} {read : Reader α} {bytes : β → List UInt8} (meaning : β → α)
    {sources : List β} (h : ∀ source ∈ sources, Takes read (bytes source) (meaning source))
    (earlier : List α) :
    Takes (readMany read sources.length earlier) (sources.flatMap bytes)
      (earlier.reverse ++ sources.map meaning) := by
  induction sources generalizing earlier with
  | nil =>
    rw [List.map_nil, List.append_nil]
    exact takes_pure _
  | cons source sources ih =>
    obtain ⟨hsource, hrest⟩ := List.forall_mem_cons.mp h
    have hmany := ih hrest (meaning source :: earlier)
    rw [List.reverse_cons, List.append_assoc, List.singleton_append] at hmany
    exact hsource.bind hmany

/-! ## Nothing may follow -/

/-- Reading takes exactly these bytes if they are all that there is, and refuses what follows
them. -/
structure Exhausts {α : Type} (read : Reader α) (bytes : List UInt8) (value : α)
    (trailing : Int → CorruptData) : Prop where
  runsOut : RunsOut read bytes
  reads : ∀ passed, ∃ c, read.run.run (.between passed bytes) = (.ok value, c)
  refuses : ∀ passed rest, rest ≠ [] →
    ∃ c, read.run.run (.between passed (bytes ++ rest)) = (.error (trailing rest.length), c)

section Exhausts

variable {α β : Type} {read : Reader α} {next : α → Reader β} {bytes bytes' : List UInt8}
  {value : α} {value' : β} {trailing : Int → CorruptData}

theorem Takes.exhausts_bind (h : Takes read bytes value)
    (h' : Exhausts (next value) bytes' value' trailing) :
    Exhausts (read >>= next) (bytes ++ bytes') value' trailing where
  runsOut := h.runsOut_bind h'.runsOut
  reads passed := by
    rw [h.reads.run_bind]
    exact h'.reads _
  refuses passed rest hrest := by
    rw [List.append_assoc, h.reads.run_bind]
    exact h'.refuses _ rest hrest

theorem Takes.exhausts_bind_nil (h : Takes read bytes value)
    (h' : Exhausts (next value) [] value' trailing) :
    Exhausts (read >>= next) bytes value' trailing := by
  have hbind := h.exhausts_bind h'
  rwa [List.append_nil] at hbind

/-- The look for the end behind the last field. -/
theorem exhausts_isAtEnd {next : Bool → Reader α}
    (hend : ∀ c, (next true).run.run c = (.ok value, c))
    (hmore : ∀ c : Cursor, (next false).run.run c = (.error (trailing c.remaining), c)) :
    Exhausts (isAtEnd >>= next) [] value trailing where
  runsOut := runsOut_nil _
  reads passed := ⟨_, (run_isAtEnd_bind next passed []).trans (hend _)⟩
  refuses passed rest hrest := by
    rw [List.nil_append, run_isAtEnd_bind, List.isEmpty_eq_false_iff.mpr hrest, hmore,
      Cursor.remaining_between]
    exact ⟨_, rfl⟩

theorem Exhausts.runReader_eq (h : Exhausts read bytes value trailing) :
    runReader read bytes = .ok value := by
  obtain ⟨c, hrun⟩ := h.reads []
  exact congrArg Prod.fst hrun

end Exhausts

/-- Of what was written, every shorter part ends too early, and whatever follows it is refused. -/
structure DetectsDamage {α : Type} (decode : List UInt8 → Except CorruptData α)
    (trailing : Int → CorruptData) (written : List UInt8) : Prop where
  cut : ∀ kept, kept <+: written → kept ≠ written →
    ∃ offset needed available, decode kept = .error (.unexpectedEnd offset needed available)
  extended : ∀ rest, rest ≠ [] → decode (written ++ rest) = .error (trailing rest.length)

theorem Exhausts.detectsDamage {α : Type} {read : Reader α} {written : List UInt8} {value : α}
    {trailing : Int → CorruptData} (h : Exhausts read written value trailing) :
    DetectsDamage (runReader read) trailing written where
  cut kept hkept hne := by
    obtain ⟨rest, hsplit⟩ := hkept
    have hrest : rest ≠ [] := by
      rintro rfl
      rw [List.append_nil] at hsplit
      exact hne hsplit
    obtain ⟨offset, needed, available, c, hrun⟩ := h.runsOut [] kept rest hsplit hrest
    exact ⟨offset, needed, available, congrArg Prod.fst hrun⟩
  extended rest hrest := by
    obtain ⟨c, hrun⟩ := h.refuses [] rest hrest
    exact congrArg Prod.fst hrun

end ZoneHistory.Wire
