import Mathlib.Data.List.Induction
import ZoneHistory.Proofs.Wire

/-!
# One form for each value

An integer, a text and a run of records have one form each. Whatever a reader gives, the bytes that
it has passed are those that are written for the value.
-/
namespace ZoneHistory.Wire

theorem bigEndianValue_lt (bytes : List UInt8) : bigEndianValue bytes < 256 ^ bytes.length := by
  induction bytes using List.reverseRecOn with
  | nil => simp [bigEndianValue]
  | append_singleton bytes byte ih =>
    have hbyte := byte.toNat_lt
    rw [bigEndianValue_append, List.length_append, List.length_singleton, pow_succ]
    omega

theorem bigEndian_bigEndianValue (bytes : List UInt8) :
    bigEndian bytes.length (bigEndianValue bytes) = bytes := by
  induction bytes using List.reverseRecOn with
  | nil => rfl
  | append_singleton bytes byte ih =>
    have hbyte := byte.toNat_lt
    have hrest : (256 * bigEndianValue bytes + byte.toNat) / 256 = bigEndianValue bytes := by omega
    have hlast : UInt8.ofNat (256 * bigEndianValue bytes + byte.toNat) = byte := by
      apply UInt8.toNat_inj.mp
      rw [UInt8.toNat_ofNat']
      omega
    rw [bigEndianValue_append, List.length_append, List.length_singleton, bigEndian, hrest, ih,
      hlast]

theorem IntKind.holds_valueOf {kind : IntKind} {bytes : List UInt8}
    (h : bytes.length = kind.width) : kind.Holds (kind.valueOf bytes) := by
  have hlt := bigEndianValue_lt bytes
  rw [Holds, valueOf, twosComplementValue]
  rw [h] at hlt ⊢
  cases kind <;>
    simp only [isSigned, least, greatest, width] at hlt ⊢ <;>
    norm_num at hlt ⊢ <;> omega

theorem IntKind.bytes_valueOf {kind : IntKind} {bytes : List UInt8}
    (h : bytes.length = kind.width) : kind.bytes (kind.valueOf bytes) = bytes := by
  have hlt := bigEndianValue_lt bytes
  have hvalue : (kind.valueOf bytes % kind.modulus).toNat = bigEndianValue bytes := by
    rw [valueOf, twosComplementValue]
    rw [h] at hlt ⊢
    cases kind <;>
      simp only [isSigned, least, modulus, width] at hlt ⊢ <;>
      norm_num at hlt ⊢ <;> omega
  rw [IntKind.bytes, hvalue, ← h, bigEndian_bigEndianValue]

theorem writeAll_append {fields fields' : List Field} {bytes bytes' : List UInt8}
    (h : writeAll fields = .ok bytes) (h' : writeAll fields' = .ok bytes') :
    writeAll (fields ++ fields') = .ok (bytes ++ bytes') := by
  obtain ⟨hfits, rfl⟩ := writeAll_eq_ok_iff.mp h
  obtain ⟨hfits', rfl⟩ := writeAll_eq_ok_iff.mp h'
  rw [writeAll_eq_ok_iff, List.forall_mem_append, List.flatMap_append]
  exact ⟨⟨hfits, hfits'⟩, rfl⟩

/-- Whatever the reader gives, it has passed the bytes that are written for the fields of the
value. -/
def Canonical {α : Type} (read : Reader α) (fields : α → List Field) : Prop :=
  ∀ (passed remaining : List UInt8) (value : α) (c : Cursor),
    read.run.run (.between passed remaining) = (.ok value, c) →
      ∃ bytes rest, writeAll (fields value) = .ok bytes ∧ remaining = bytes ++ rest ∧
        c = .between (passed ++ bytes) rest

theorem run_bind_eq_ok_iff {α β : Type} {read : Reader α} {next : α → Reader β} {c c' : Cursor}
    {value' : β} :
    (read >>= next).run.run c = (.ok value', c') ↔
      ∃ value c₁, read.run.run c = (.ok value, c₁) ∧ (next value).run.run c₁ = (.ok value', c') := by
  rw [ExceptT.run_bind, StateT.run_bind]
  cases hread : read.run.run c with
  | mk result c₁ =>
    cases result with
    | ok value =>
      constructor
      · intro h
        exact ⟨value, c₁, rfl, h⟩
      · rintro ⟨value, c₁, ⟨⟩, h⟩
        exact h
    | error fault =>
      constructor
      · intro h
        cases h
      · rintro ⟨value, c₁, ⟨⟩, -⟩

theorem run_pure_eq_ok_iff {α : Type} {value value' : α} {c c' : Cursor} :
    (pure value : Reader α).run.run c = (.ok value', c') ↔ value = value' ∧ c = c' := by
  constructor
  · intro h
    cases h
    exact ⟨rfl, rfl⟩
  · rintro ⟨rfl, rfl⟩
    rfl

/-- Where a reader goes on only if a condition fails, a value shows that it failed. -/
theorem run_ite_of_refuses {α : Type} {p : Prop} [Decidable p] {refusal next : Reader α}
    {c c' : Cursor} {value : α}
    (h : (if p then refusal else next).run.run c = (.ok value, c'))
    (hrefuses : ∃ fault, refusal.run.run c = (.error fault, c)) :
    ¬ p ∧ next.run.run c = (.ok value, c') := by
  split at h
  · obtain ⟨fault, hfault⟩ := hrefuses
    rw [hfault] at h
    cases h
  · next hp => exact ⟨hp, h⟩

theorem Canonical.of_bind {α β : Type} {read : Reader α} {fields : α → List Field}
    {next : α → Reader β} {passed remaining : List UInt8} {value' : β} {c : Cursor}
    (h : Canonical read fields)
    (hrun : (read >>= next).run.run (.between passed remaining) = (.ok value', c)) :
    ∃ value bytes rest, writeAll (fields value) = .ok bytes ∧ remaining = bytes ++ rest ∧
      (next value).run.run (.between (passed ++ bytes) rest) = (.ok value', c) := by
  obtain ⟨value, c₁, hread, hnext⟩ := run_bind_eq_ok_iff.mp hrun
  obtain ⟨bytes, rest, hwritten, hremaining, rfl⟩ := h _ _ _ _ hread
  exact ⟨value, bytes, rest, hwritten, hremaining, hnext⟩

theorem passes_of_readBytes {count : Nat} {passed remaining bytes : List UInt8} {c : Cursor}
    (h : (readBytes count).run.run (.between passed remaining) = (.ok bytes, c)) :
    bytes.length = count ∧
      ∃ rest, remaining = bytes ++ rest ∧ c = .between (passed ++ bytes) rest := by
  have henough : count ≤ remaining.length := by
    rw [run_readBytes] at h
    split at h
    · cases h
    · next hlt =>
      simp only [Cursor.between, List.size_toArray, List.length_append, Nat.cast_add] at hlt
      omega
  have hlength : (remaining.take count).length = count := List.length_take_of_le henough
  have hread := reads_readBytes (remaining.take count) passed (remaining.drop count)
  rw [List.take_append_drop, hlength, h, Prod.mk.injEq, Except.ok.injEq] at hread
  obtain ⟨rfl, rfl⟩ := hread
  exact ⟨hlength, _, (List.take_append_drop count remaining).symm, rfl⟩

theorem canonical_readInt (kind : IntKind) :
    Canonical (readInt kind) fun value => [.int kind value] := by
  intro passed remaining value c h
  obtain ⟨bytes, c₁, hbytes, hvalue⟩ := run_bind_eq_ok_iff.mp h
  obtain ⟨hlength, rest, hremaining, rfl⟩ := passes_of_readBytes hbytes
  obtain ⟨rfl, rfl⟩ := run_pure_eq_ok_iff.mp hvalue
  refine ⟨bytes, rest, ?_, hremaining, rfl⟩
  rw [writeAll_eq_ok_iff, List.forall_mem_singleton, List.flatMap_singleton]
  exact ⟨IntKind.holds_valueOf hlength, (IntKind.bytes_valueOf hlength).symm⟩

theorem canonical_readText : Canonical readText fun text => [.text text] := by
  intro passed remaining text c h
  obtain ⟨length, head, rest, hhead, rfl, hnext⟩ := (canonical_readInt .u16).of_bind h
  rw [writeAll_eq_ok_iff, List.forall_mem_singleton, List.flatMap_singleton] at hhead
  obtain ⟨hholds, rfl⟩ := hhead
  obtain ⟨n, rfl⟩ : ∃ n : Nat, length = n := Int.eq_ofNat_of_zero_le hholds.1
  obtain ⟨bytes, c₁, hbytes, htext⟩ := run_bind_eq_ok_iff.mp hnext
  obtain ⟨hlength, rest, rfl, rfl⟩ := passes_of_readBytes hbytes
  cases hform : text? bytes with
  | none =>
    rw [hform] at htext
    cases htext
  | some stored =>
    rw [hform] at htext
    obtain ⟨rfl, rfl⟩ := run_pure_eq_ok_iff.mp htext
    obtain rfl := text?_eq_some_iff.mp hform
    rw [length_utf8] at hlength
    have hfits : (Field.text stored).Fits := by
      rw [Field.Fits, hlength]
      exact (IntKind.holds_u16_iff n).mp hholds
    have hbytes : (Field.text stored).bytes = (Field.int .u16 n).bytes ++ utf8 stored := by
      rw [← hlength]
      rfl
    refine ⟨(Field.text stored).bytes, rest, ?_, ?_, ?_⟩
    · rw [writeAll_eq_ok_iff, List.forall_mem_singleton, List.flatMap_singleton]
      exact ⟨hfits, rfl⟩
    · rw [hbytes, List.append_assoc]
    · rw [hbytes, List.append_assoc]

/-- Whatever the reader gives is what a source means, and it has passed the bytes that are written
for the fields of the source. Several sources may mean the same. -/
def Spells {α β : Type} (read : Reader α) (fields : β → List Field) (meaning : β → α) : Prop :=
  ∀ (passed remaining : List UInt8) (value : α) (c : Cursor),
    read.run.run (.between passed remaining) = (.ok value, c) →
      ∃ source bytes rest, meaning source = value ∧ writeAll (fields source) = .ok bytes ∧
        remaining = bytes ++ rest ∧ c = .between (passed ++ bytes) rest

theorem Canonical.spells {α : Type} {read : Reader α} {fields : α → List Field}
    (h : Canonical read fields) : Spells read fields id :=
  fun passed remaining value c hrun => ⟨value, by simpa using h passed remaining value c hrun⟩

/-- A run of values that are read one by one. -/
theorem Spells.exists_of_readMany {α β : Type} {read : Reader α} {fields : β → List Field}
    {meaning : β → α} (h : Spells read fields meaning) {count : Nat} {earlier all : List α}
    {passed remaining : List UInt8} {c : Cursor}
    (hrun : (readMany read count earlier).run.run (.between passed remaining) = (.ok all, c)) :
    ∃ (sources : List β) (bytes rest : List UInt8),
      all = earlier.reverse ++ sources.map meaning ∧
      sources.length = count ∧ writeAll (sources.flatMap fields) = .ok bytes ∧
      remaining = bytes ++ rest ∧ c = .between (passed ++ bytes) rest := by
  induction count generalizing earlier passed remaining with
  | zero =>
    obtain ⟨rfl, rfl⟩ := run_pure_eq_ok_iff.mp hrun
    exact ⟨[], [], remaining, by simp, rfl, rfl, rfl, by simp⟩
  | succ count ih =>
    obtain ⟨value, c₁, hread, hnext⟩ := run_bind_eq_ok_iff.mp hrun
    obtain ⟨source, bytes, rest, rfl, hwritten, rfl, rfl⟩ := h _ _ _ _ hread
    obtain ⟨sources, bytes', rest', rfl, rfl, hwritten', rfl, rfl⟩ := ih hnext
    refine ⟨source :: sources, bytes ++ bytes', rest', ?_, rfl, ?_, ?_, ?_⟩
    · simp
    · exact writeAll_append hwritten hwritten'
    · rw [List.append_assoc]
    · rw [List.append_assoc]

theorem exists_of_readMany {α : Type} {read : Reader α} {fields : α → List Field}
    (h : Canonical read fields) {count : Nat} {earlier all : List α}
    {passed remaining : List UInt8} {c : Cursor}
    (hrun : (readMany read count earlier).run.run (.between passed remaining) = (.ok all, c)) :
    ∃ values bytes rest, all = earlier.reverse ++ values ∧ values.length = count ∧
      writeAll (values.flatMap fields) = .ok bytes ∧ remaining = bytes ++ rest ∧
      c = .between (passed ++ bytes) rest := by
  have hsources := h.spells.exists_of_readMany hrun
  simpa only [List.map_id] using hsources

end ZoneHistory.Wire
