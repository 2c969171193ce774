import ZoneHistory.Proofs.Wire

/-!
# Streams of fields

Fields of any kinds are written to one buffer, one after the other. A field that is refused leaves
no trace, so the buffer holds the others and nothing between them: told their kinds, a reader finds
their values in turn, and the end of the data behind the last of them and not before.
-/
namespace ZoneHistory.Wire

/-- The form in which a field is written, without its value. -/
inductive FieldKind where
  | int (kind : IntKind)
  | text
  deriving DecidableEq

def Field.kind : Field → FieldKind
  | int kind _ => .int kind
  | text _ => .text

/-! ## One field -/

/-- A field that fits is put behind the buffer; any other is refused, and the buffer stays. -/
theorem append_eq (buffer : List UInt8) (field : Field) :
    append buffer field =
      if field.Fits then (buffer ++ field.bytes, none) else (buffer, some field.refusal) := by
  split
  · next h =>
    rw [append, Field.puts_write h]
    simp only [Array.toList_appendList]
  · next h => rw [append, Field.refuses_write h]

theorem Field.bytes_ne_nil (field : Field) : field.bytes ≠ [] := by
  apply List.ne_nil_of_length_pos
  cases field with
  | int kind value =>
    rw [bytes, IntKind.length_bytes]
    cases kind <;> decide
  | text value =>
    rw [bytes, List.length_append, IntKind.length_bytes]
    exact Nat.add_pos_left (by decide) _

def readField : FieldKind → Reader Field
  | .int kind => return .int kind (← readInt kind)
  | .text => return .text (← readText)

theorem reads_readField {field : Field} (h : field.Fits) :
    Reads (readField field.kind) field.bytes field := by
  cases field with
  | int kind value => exact (reads_readInt h).bind_pure (Field.int kind)
  | text value => exact (reads_readText h).bind_pure Field.text

/-! ## A run of writes -/

/-- A buffer, and the fields that were written to it and not refused. -/
structure Stream where
  buffer : List UInt8
  fields : List Field

namespace Stream

def empty : Stream := ⟨[], []⟩

def write (stream : Stream) (field : Field) : Stream :=
  match append stream.buffer field with
  | (buffer, none) => ⟨buffer, stream.fields ++ [field]⟩
  | (buffer, some _) => ⟨buffer, stream.fields⟩

/-- What is there after writing fields one after the other to an empty buffer. -/
def ofWrites (fields : List Field) : Stream := fields.foldl write empty

theorem write_eq (stream : Stream) (field : Field) :
    stream.write field =
      if field.Fits then ⟨stream.buffer ++ field.bytes, stream.fields ++ [field]⟩ else stream := by
  rw [write, append_eq]
  by_cases h : field.Fits
  · rw [if_pos h, if_pos h]
  · rw [if_neg h, if_neg h]

/-- The buffer holds the bytes of the fields and nothing else, and each of the fields fits. -/
structure Exact (stream : Stream) : Prop where
  buffer : stream.buffer = stream.fields.flatMap Field.bytes
  fits : ∀ field ∈ stream.fields, field.Fits

theorem Exact.write {stream : Stream} (h : stream.Exact) (field : Field) :
    (stream.write field).Exact := by
  rw [write_eq]
  split
  · next hfits =>
    refine ⟨?_, ?_⟩
    · rw [h.buffer, List.flatMap_append, List.flatMap_singleton]
    · rw [List.forall_mem_append]
      exact ⟨h.fits, List.forall_mem_singleton.mpr hfits⟩
  · exact h

theorem exact_foldl_write {stream : Stream} (h : stream.Exact) (fields : List Field) :
    (fields.foldl Stream.write stream).Exact := by
  induction fields generalizing stream with
  | nil => exact h
  | cons field fields ih => exact ih (h.write field)

theorem exact_ofWrites (fields : List Field) : (ofWrites fields).Exact :=
  exact_foldl_write ⟨rfl, List.forall_mem_nil _⟩ fields

theorem fields_foldl_write (stream : Stream) (fields : List Field) :
    (fields.foldl Stream.write stream).fields =
      stream.fields ++ fields.filter fun field => field.Fits := by
  induction fields generalizing stream with
  | nil => simp
  | cons field fields ih =>
    rw [List.foldl_cons, ih, write_eq]
    by_cases h : field.Fits
    · simp [h]
    · simp [h]

end Stream

/-! ## Reading them back -/

def readFields : List FieldKind → Reader (List Field)
  | [] => return []
  | kind :: kinds => do
    let field ← readField kind
    let fields ← readFields kinds
    return field :: fields

theorem reads_readFields {fields : List Field} (h : ∀ field ∈ fields, field.Fits) :
    Reads (readFields (fields.map Field.kind)) (fields.flatMap Field.bytes) fields := by
  induction fields with
  | nil => exact reads_pure []
  | cons field fields ih =>
    obtain ⟨hfield, hfields⟩ := List.forall_mem_cons.mp h
    exact (reads_readField hfield).bind ((ih hfields).bind_pure (field :: ·))

theorem isEmpty_flatMap_bytes (fields : List Field) :
    (fields.flatMap Field.bytes).isEmpty = fields.isEmpty := by
  cases fields with
  | nil => rfl
  | cons field fields => simp [field.bytes_ne_nil]

theorem Stream.Exact.run_readFields {stream : Stream} (h : stream.Exact)
    {read unread : List Field} (hsplit : stream.fields = read ++ unread) :
    ∃ c, (readFields (read.map Field.kind)).run.run (.ofBytes stream.buffer) = (.ok read, c) ∧
      isAtEnd.run.run c = (.ok unread.isEmpty, c) := by
  have hfits := h.fits
  rw [hsplit, List.forall_mem_append] at hfits
  have hbuffer : stream.buffer = read.flatMap Field.bytes ++ unread.flatMap Field.bytes := by
    rw [h.buffer, hsplit, List.flatMap_append]
  refine ⟨.between (read.flatMap Field.bytes) (unread.flatMap Field.bytes), ?_, ?_⟩
  · rw [hbuffer]
    exact reads_readFields hfits.1 [] (unread.flatMap Field.bytes)
  · rw [← isEmpty_flatMap_bytes unread]
    exact run_isAtEnd_bind pure _ _

/-- A write puts the bytes of its field behind the buffer if the field fits, and is refused and
leaves the buffer as it was if it does not. After any run of writes the fields that were not refused
are those that fit, and they are read back from the buffer in turn; the data end behind the last of
them and not before. -/
theorem appended_fields_readBack (fields : List Field) :
    (∀ buffer field, append buffer field =
        if field.Fits then (buffer ++ field.bytes, none) else (buffer, some field.refusal)) ∧
      (Stream.ofWrites fields).fields = fields.filter (fun field => field.Fits) ∧
      ∀ read unread, (Stream.ofWrites fields).fields = read ++ unread →
        ∃ c, (readFields (read.map Field.kind)).run.run
            (.ofBytes (Stream.ofWrites fields).buffer) = (.ok read, c) ∧
          isAtEnd.run.run c = (.ok unread.isEmpty, c) :=
  ⟨append_eq, Stream.fields_foldl_write .empty fields, fun _ _ hsplit =>
    (Stream.exact_ofWrites fields).run_readFields hsplit⟩

end ZoneHistory.Wire
