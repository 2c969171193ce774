import Mathlib.Tactic.NormNum
import ZoneHistory.Wire.Cursor

/-!
# Fields written and read

A field is written exactly if it fits, and then as its bytes; its writer refuses any other before
the first byte. Wherever the bytes stand in data, a reader of the kind passes them and gives the
value back.
-/
namespace ZoneHistory.Wire

theorem bigEndianValue_append (bytes : List UInt8) (byte : UInt8) :
    bigEndianValue (bytes ++ [byte]) = 256 * bigEndianValue bytes + byte.toNat := by
  simp [bigEndianValue]

theorem bigEndianValue_bigEndian (width n : Nat) :
    bigEndianValue (bigEndian width n) = n % 256 ^ width := by
  induction width generalizing n with
  | zero => simp [bigEndian, bigEndianValue, Nat.mod_one]
  | succ width ih =>
    rw [bigEndian, bigEndianValue_append, ih, pow_succ, Nat.mul_comm (256 ^ width) 256,
      Nat.mod_mul, UInt8.toNat_ofNat']
    omega

/-- Whether an integer is in the range of a kind. -/
def IntKind.Holds (kind : IntKind) (value : Int) : Prop :=
  kind.least ≤ value ∧ value ≤ kind.greatest

theorem IntKind.holds_u16_iff (n : Nat) : u16.Holds n ↔ n ≤ 65535 := by
  simp only [Holds, least, greatest]
  omega

theorem IntKind.holds_u32_iff (n : Nat) : u32.Holds n ↔ n ≤ 2 ^ 32 - 1 := by
  simp only [Holds, least, greatest]
  omega

theorem IntKind.holds_i32_iff (value : Int) :
    i32.Holds value ↔ -2 ^ 31 ≤ value ∧ value < 2 ^ 31 := by
  simp only [Holds, least, greatest]
  omega

theorem IntKind.holds_i64_iff (value : Int) :
    i64.Holds value ↔ -2 ^ 63 ≤ value ∧ value < 2 ^ 63 := by
  simp only [Holds, least, greatest]
  omega

/-- Why an integer out of the range of a kind is refused. -/
def IntKind.refusal (kind : IntKind) (value : Int) : WriteError :=
  if kind.greatest < value then .tooGreat value kind else .tooSmall value kind

def IntKind.bytes (kind : IntKind) (value : Int) : List UInt8 :=
  bigEndian kind.width (value % kind.modulus).toNat

@[simp] theorem IntKind.length_bytes (kind : IntKind) (value : Int) :
    (kind.bytes value).length = kind.width := length_bigEndian _ _

theorem IntKind.valueOf_bytes {kind : IntKind} {value : Int} (h : kind.Holds value) :
    kind.valueOf (kind.bytes value) = value := by
  have hlength := kind.length_bytes value
  have hvalue : bigEndianValue (kind.bytes value) =
      (value % kind.modulus).toNat % 256 ^ kind.width := bigEndianValue_bigEndian _ _
  obtain ⟨hleast, hgreatest⟩ := h
  rw [valueOf, twosComplementValue, hlength, hvalue]
  cases kind <;>
    simp only [isSigned, least, greatest, modulus, width] at hleast hgreatest ⊢ <;>
    norm_num <;> omega

theorem length_utf8 (text : String) : (utf8 text).length = text.utf8ByteSize := by
  simp [utf8]

theorem text?_eq_some_iff {bytes : List UInt8} {text : String} :
    text? bytes = some text ↔ bytes = utf8 text := by
  unfold text? utf8 String.fromUTF8?
  split
  · next hvalid =>
    rw [Option.some.injEq]
    constructor
    · rintro rfl
      simp [String.fromUTF8]
    · rintro rfl
      simp [String.fromUTF8]
  · next hinvalid =>
    simp only [reduceCtorEq, false_iff]
    rintro rfl
    exact hinvalid text.isValidUTF8

def Field.Fits : Field → Prop
  | int kind value => kind.Holds value
  | text value => value.utf8ByteSize ≤ 65535

/-- The bytes of a field; a text comes after the number of its bytes. -/
def Field.bytes : Field → List UInt8
  | int kind value => kind.bytes value
  | text value => IntKind.u16.bytes value.utf8ByteSize ++ utf8 value

/-- Why a field that does not fit is refused. -/
def Field.refusal : Field → WriteError
  | int kind value => kind.refusal value
  | text value => .tooLong value.utf8ByteSize value

instance (field : Field) : Decidable field.Fits :=
  match field with
  | .int kind value => inferInstanceAs (Decidable (kind.least ≤ value ∧ value ≤ kind.greatest))
  | .text value => inferInstanceAs (Decidable (value.utf8ByteSize ≤ 65535))

/-! ## Steps of a writer or a reader -/

section Steps

variable {ε σ α β : Type} {step : ExceptT ε (StateM σ) α} {s s' : σ}

theorem run_bind_of_ok {value : α} (h : step.run.run s = (.ok value, s'))
    (next : α → ExceptT ε (StateM σ) β) :
    (step >>= next).run.run s = (next value).run.run s' := by
  rw [ExceptT.run_bind, StateT.run_bind, h]
  rfl

theorem run_bind_of_error {fault : ε} (h : step.run.run s = (.error fault, s'))
    (next : α → ExceptT ε (StateM σ) β) :
    (step >>= next).run.run s = (.error fault, s') := by
  rw [ExceptT.run_bind, StateT.run_bind, h]
  rfl

end Steps

/-- Whatever is in the buffer, the bytes are put behind it. -/
def Puts (write : Writer Unit) (bytes : List UInt8) : Prop :=
  ∀ buffer : Array UInt8, write.run.run buffer = (.ok (), buffer ++ bytes)

/-- Whatever is in the buffer, it is refused to write, and the buffer stays as it was. -/
def Refuses (write : Writer Unit) (refusal : WriteError) : Prop :=
  ∀ buffer : Array UInt8, write.run.run buffer = (.error refusal, buffer)

theorem puts_pure : Puts (pure ()) [] := by
  intro buffer
  rw [Array.appendList_nil]
  rfl

theorem puts_putBytes (bytes : List UInt8) : Puts (putBytes bytes) bytes := fun _ => rfl

theorem refuses_throw (refusal : WriteError) : Refuses (throw refusal) refusal := fun _ => rfl

theorem Puts.run_bind {write : Writer Unit} {next : Unit → Writer Unit} {bytes : List UInt8}
    (h : Puts write bytes) (buffer : Array UInt8) :
    (write >>= next).run.run buffer = (next ()).run.run (buffer ++ bytes) :=
  run_bind_of_ok (h buffer) next

theorem Puts.bind {write : Writer Unit} {next : Unit → Writer Unit} {bytes bytes' : List UInt8}
    (h : Puts write bytes) (h' : Puts (next ()) bytes') :
    Puts (write >>= next) (bytes ++ bytes') := by
  intro buffer
  rw [h.run_bind, h']
  congr 1
  apply Array.toList_inj.mp
  simp only [Array.toList_appendList, List.append_assoc]

theorem Refuses.bind {write : Writer Unit} {refusal : WriteError} (h : Refuses write refusal)
    (next : Unit → Writer Unit) : Refuses (write >>= next) refusal :=
  fun buffer => run_bind_of_error (h buffer) next

theorem puts_checkRange {kind : IntKind} {value : Int} (h : kind.Holds value) :
    Puts (checkRange kind value) [] := by
  obtain ⟨hleast, hgreatest⟩ := h
  rw [checkRange, if_neg (by omega), if_neg (by omega)]
  exact puts_pure

theorem refuses_checkRange {kind : IntKind} {value : Int} (h : ¬ kind.Holds value) :
    Refuses (checkRange kind value) (kind.refusal value) := by
  unfold checkRange IntKind.refusal
  split
  · exact refuses_throw _
  · next hgreatest =>
    have hleast : value < kind.least := by
      rw [IntKind.Holds] at h
      omega
    rw [if_pos hleast]
    exact refuses_throw _

/-! ## The writers -/

theorem IntKind.bytes_of_nonneg {kind : IntKind} {value : Int} (h : kind.Holds value)
    (hnonneg : 0 ≤ value) : kind.bytes value = bigEndian kind.width value.toNat := by
  have hlt : value < kind.modulus := by
    have hgreatest := h.2
    cases kind <;> simp only [greatest, modulus, width] at hgreatest ⊢ <;> norm_num <;> omega
  rw [bytes, Int.emod_eq_of_lt hnonneg hlt]

theorem puts_writeU16 {value : Int} (h : IntKind.u16.Holds value) :
    Puts (writeU16 value) (IntKind.u16.bytes value) := by
  rw [IntKind.bytes_of_nonneg h h.1]
  exact (puts_checkRange h).bind ((puts_putBytes _).bind (puts_putBytes _))

theorem puts_writeU32 {value : Int} (h : IntKind.u32.Holds value) :
    Puts (writeU32 value) (IntKind.u32.bytes value) := by
  rw [IntKind.bytes_of_nonneg h h.1]
  exact (puts_checkRange h).bind (puts_putBytes _)

/-- The check of the unsigned writer passes whatever the signed one hands to it. -/
theorem puts_writeI32 {value : Int} (h : IntKind.i32.Holds value) :
    Puts (writeI32 value) (IntKind.i32.bytes value) := by
  have hbits : IntKind.u32.Holds (if value < 0 then value + IntKind.i32.modulus else value) ∧
      IntKind.u32.bytes (if value < 0 then value + IntKind.i32.modulus else value) =
        IntKind.i32.bytes value := by
    obtain ⟨hleast, hgreatest⟩ := h
    simp only [IntKind.least, IntKind.greatest] at hleast hgreatest
    split
    · refine ⟨?_, ?_⟩
      · simp only [IntKind.Holds, IntKind.least, IntKind.greatest, IntKind.modulus, IntKind.width]
        norm_num
        omega
      · exact congrArg (fun n => bigEndian 4 n.toNat) (Int.add_emod_right ..)
    · refine ⟨?_, rfl⟩
      simp only [IntKind.Holds, IntKind.least, IntKind.greatest]
      omega
  have hwrite := puts_writeU32 hbits.1
  rw [hbits.2] at hwrite
  exact (puts_checkRange h).bind hwrite

theorem puts_writeI64 {value : Int} (h : IntKind.i64.Holds value) :
    Puts (writeI64 value) (IntKind.i64.bytes value) :=
  (puts_checkRange h).bind (puts_putBytes _)

theorem puts_writeText {text : String} (h : text.utf8ByteSize ≤ 65535) :
    Puts (writeText text) (Field.text text).bytes := by
  rw [writeText, if_neg (by rw [length_utf8]; omega), length_utf8]
  exact (puts_writeU16 ((IntKind.holds_u16_iff _).mpr h)).bind (puts_putBytes _)

theorem Field.puts_write {field : Field} (h : field.Fits) : Puts field.write field.bytes := by
  cases field with
  | int kind value =>
    cases kind with
    | u16 => exact puts_writeU16 h
    | u32 => exact puts_writeU32 h
    | i32 => exact puts_writeI32 h
    | i64 => exact puts_writeI64 h
  | text value => exact puts_writeText h

/-- Each writer refuses before its first byte. -/
theorem Field.refuses_write {field : Field} (h : ¬ field.Fits) :
    Refuses field.write field.refusal := by
  cases field with
  | int kind value =>
    have hcheck := refuses_checkRange h
    cases kind with
    | u16 => exact hcheck.bind _
    | u32 => exact hcheck.bind _
    | i32 => exact hcheck.bind _
    | i64 => exact hcheck.bind _
  | text value =>
    rw [write, writeText, if_pos (by rw [Fits] at h; rw [length_utf8]; omega), length_utf8]
    exact refuses_throw _

/-! ## Runs of writes -/

theorem puts_writes {fields : List Field} (h : ∀ field ∈ fields, field.Fits) :
    Puts (forM fields Field.write) (fields.flatMap Field.bytes) := by
  induction fields with
  | nil => exact puts_pure
  | cons field fields ih =>
    obtain ⟨hfield, hfields⟩ := List.forall_mem_cons.mp h
    rw [List.forM_cons, List.flatMap_cons]
    exact (Field.puts_write hfield).bind (ih hfields)

/-- The first field that does not fit ends a run of writes; the fields before it are written. -/
theorem run_writes_of_not_fits {fields rest : List Field} {field : Field}
    (h : ∀ field ∈ fields, field.Fits) (hfield : ¬ field.Fits) (buffer : Array UInt8) :
    (forM (fields ++ field :: rest) Field.write).run.run buffer =
      (.error field.refusal, buffer ++ fields.flatMap Field.bytes) := by
  rw [List.forM_append, (puts_writes h).run_bind, List.forM_cons]
  exact (Field.refuses_write hfield).bind _ _

/-- Fields are written exactly if each of them fits, and then one after the other. -/
theorem writeAll_eq_ok_iff {fields : List Field} {bytes : List UInt8} :
    writeAll fields = .ok bytes ↔
      (∀ field ∈ fields, field.Fits) ∧ bytes = fields.flatMap Field.bytes := by
  by_cases h : ∀ field ∈ fields, field.Fits
  · have hrun := puts_writes h #[]
    rw [writeAll, hrun, and_iff_right h]
    simp [eq_comm]
  · have hfirst : ∃ field, fields.find? (fun field => ¬ field.Fits) = some field := by
      rw [← Option.isSome_iff_exists, List.find?_isSome]
      simpa using h
    obtain ⟨field, hfirst⟩ := hfirst
    obtain ⟨hfield, fitting, rest, rfl, hfitting⟩ := List.find?_eq_some_iff_append.mp hfirst
    rw [writeAll, run_writes_of_not_fits (by simpa using hfitting) (by simpa using hfield)]
    exact iff_of_false (by simp) (h ·.1)

/-! ## Reading -/

/-- A cursor between the bytes that it has passed and those that remain. -/
def Cursor.between (passed remaining : List UInt8) : Cursor :=
  ⟨(passed ++ remaining).toArray, passed.length⟩

theorem Cursor.remaining_between (passed remaining : List UInt8) :
    (Cursor.between passed remaining).remaining = remaining.length := by
  simp only [Cursor.remaining, between, List.size_toArray, List.length_append]
  omega

/-- Wherever the bytes stand in data, reading passes them and gives the value. -/
def Reads {α : Type} (read : Reader α) (bytes : List UInt8) (value : α) : Prop :=
  ∀ passed remaining : List UInt8,
    read.run.run (.between passed (bytes ++ remaining)) =
      (.ok value, .between (passed ++ bytes) remaining)

theorem Reads.run_bind {α β : Type} {read : Reader α} {next : α → Reader β} {bytes : List UInt8}
    {value : α} (h : Reads read bytes value) (passed remaining : List UInt8) :
    (read >>= next).run.run (.between passed (bytes ++ remaining)) =
      (next value).run.run (.between (passed ++ bytes) remaining) :=
  run_bind_of_ok (h passed remaining) next

theorem reads_pure {α : Type} (value : α) : Reads (pure value) [] value := by
  intro passed remaining
  rw [List.nil_append, List.append_nil]
  rfl

theorem Reads.bind {α β : Type} {read : Reader α} {next : α → Reader β}
    {bytes bytes' : List UInt8} {value : α} {value' : β} (h : Reads read bytes value)
    (h' : Reads (next value) bytes' value') :
    Reads (read >>= next) (bytes ++ bytes') value' := by
  intro passed remaining
  rw [List.append_assoc, h.run_bind, h', List.append_assoc]

theorem Reads.bind_pure {α β : Type} {read : Reader α} {bytes : List UInt8} {value : α}
    (h : Reads read bytes value) (f : α → β) :
    Reads (read >>= fun value => pure (f value)) bytes (f value) := by
  have hbind : Reads (read >>= fun value => pure (f value)) (bytes ++ []) (f value) :=
    h.bind (reads_pure (f value))
  rwa [List.append_nil] at hbind

theorem run_get_bind {α : Type} (next : Cursor → Reader α) (c : Cursor) :
    (get >>= next).run.run c = (next c).run.run c := rfl

theorem run_readBytes (count : Int) (c : Cursor) :
    (readBytes count).run.run c =
      if (c.data.size : Int) < c.offset + count then
        (.error (.unexpectedEnd c.offset count c.remaining), c)
      else (.ok (c.data.extract (c.index c.offset) (c.index (c.offset + count))).toList,
        { c with offset := c.offset + count }) := by
  rw [readBytes, run_get_bind]
  dsimp only
  split <;> rfl

theorem reads_readBytes (bytes : List UInt8) : Reads (readBytes bytes.length) bytes bytes := by
  intro passed remaining
  rw [run_readBytes, if_neg (by simp [Cursor.between])]
  have hbegin : Cursor.index (.between passed (bytes ++ remaining)) passed.length =
      passed.length := by simp [Cursor.index]
  have hend : Cursor.index (.between passed (bytes ++ remaining))
      (passed.length + bytes.length) = passed.length + bytes.length := by
    rw [Cursor.index, if_neg (by omega)]
    omega
  simp only [Cursor.between] at hbegin hend ⊢
  rw [hbegin, hend]
  simp

theorem reads_readInt {kind : IntKind} {value : Int} (h : kind.Holds value) :
    Reads (readInt kind) (kind.bytes value) value := by
  have hbytes := reads_readBytes (kind.bytes value)
  rw [IntKind.length_bytes] at hbytes
  intro passed remaining
  rw [readInt, hbytes.run_bind, IntKind.valueOf_bytes h]
  rfl

theorem reads_readText {text : String} (h : text.utf8ByteSize ≤ 65535) :
    Reads readText (Field.text text).bytes text := by
  have hholds : IntKind.u16.Holds text.utf8ByteSize := (IntKind.holds_u16_iff _).mpr h
  have hbytes := reads_readBytes (utf8 text)
  rw [length_utf8] at hbytes
  intro passed remaining
  rw [readText, Field.bytes, List.append_assoc, (reads_readInt hholds).run_bind, hbytes.run_bind,
    text?_eq_some_iff.mpr rfl, List.append_assoc]
  rfl

theorem Cursor.atEnd_between (passed remaining : List UInt8) :
    (Cursor.between passed remaining).atEnd = remaining.isEmpty := by
  cases remaining with
  | nil => simp [between, atEnd]
  | cons byte remaining => simp [between, atEnd]

theorem run_isAtEnd_bind {α : Type} (next : Bool → Reader α) (passed remaining : List UInt8) :
    (isAtEnd >>= next).run.run (.between passed remaining) =
      (next remaining.isEmpty).run.run (.between passed remaining) := by
  rw [← Cursor.atEnd_between passed remaining]
  rfl

end ZoneHistory.Wire
