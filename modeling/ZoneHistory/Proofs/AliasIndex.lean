import ZoneHistory.Proofs.AliasIndex.Layout
import ZoneHistory.Proofs.AliasIndex.Pool

/-!
# The alias index written and read

An alias index is refused if there are more mappings or distinct strings than its counts can hold,
else if one of the strings is too long for its field, and otherwise read back as the same mapping.
-/
namespace ZoneHistory.AliasIndex

open Wire

theorem mem_strings_iff {mapping : Keyed String} {string : String} :
    string ∈ strings mapping ↔ ∃ entry ∈ mapping.entries, string = entry.1 ∨ string = entry.2 := by
  simp [strings]

/-- One mapping, as indices into a pool. -/
def entryFields (pool : Pool) (entry : String × String) : List Field :=
  [.int .u16 (pool.indexOf entry.1), .int .u16 (pool.indexOf entry.2)]

theorem fields_eq (mapping : Keyed String) (pool : Pool) :
    fields mapping pool = [.int .u16 pool.size] ++ (pool.toList.map .text ++
      ([.int .u16 mapping.size] ++ mapping.entries.flatMap (entryFields pool))) := rfl

/-- Entries whose strings a pool lists are pairs of indices into the list. -/
theorem exists_pairs {pool : Pool} {listed : List String} (hlists : pool.Lists listed)
    {entries : List (String × String)} (h : ∀ entry ∈ entries, entry.1 ∈ listed ∧ entry.2 ∈ listed) :
    ∃ pairs : List (Fin listed.length × Fin listed.length),
      pairs.map (fun pair => (listed.get pair.1, listed.get pair.2)) = entries ∧
        pairs.flatMap pairFields = entries.flatMap (entryFields pool) := by
  induction entries with
  | nil => exact ⟨[], rfl, rfl⟩
  | cons entry entries ih =>
    obtain ⟨⟨halias, htarget⟩, hrest⟩ := List.forall_mem_cons.mp h
    obtain ⟨pairs, hentries, hfields⟩ := ih hrest
    obtain ⟨hi, halias⟩ := List.getElem?_eq_some_iff.mp (hlists.getElem?_indexOf halias)
    obtain ⟨hj, htarget⟩ := List.getElem?_eq_some_iff.mp (hlists.getElem?_indexOf htarget)
    refine ⟨(⟨pool.indexOf entry.1, hi⟩, ⟨pool.indexOf entry.2, hj⟩) :: pairs, ?_, ?_⟩
    · rw [List.map_cons, hentries, List.get_eq_getElem, List.get_eq_getElem, halias, htarget]
    · rw [List.flatMap_cons, hfields, List.flatMap_cons]
      rfl

section Listed

variable {mapping : Keyed String} {pool : Pool}
  (hlists : pool.Lists (strings mapping).eraseDups)

include hlists

/-- What is written of a mapping is of the form of an alias index, and the mapping comes of it. -/
theorem exists_layout :
    ∃ layout : Layout, layout.pool = (strings mapping).eraseDups ∧
      layout.pairs.length = mapping.size ∧ layout.fields = fields mapping pool ∧
        layout.mapping = mapping := by
  have hlisted : ∀ entry ∈ mapping.entries,
      entry.1 ∈ (strings mapping).eraseDups ∧ entry.2 ∈ (strings mapping).eraseDups := by
    intro entry hentry
    rw [List.mem_eraseDups, List.mem_eraseDups]
    exact ⟨mem_strings_iff.mpr ⟨entry, hentry, Or.inl rfl⟩,
      mem_strings_iff.mpr ⟨entry, hentry, Or.inr rfl⟩⟩
  obtain ⟨pairs, hentries, hfields⟩ := exists_pairs hlists hlisted
  have hlength : pairs.length = mapping.size := by
    rw [Keyed.size, ← hentries, List.length_map]
  refine ⟨⟨_, pairs⟩, rfl, hlength, ?_, ?_⟩
  · rw [fields_eq, Layout.fields, hlength, hfields, hlists.size_eq, hlists.toList_eq]
  · calc Layout.mapping ⟨_, pairs⟩ = .ofList (Layout.entries ⟨_, pairs⟩) := Layout.mapping_eq _
      _ = .ofList mapping.entries := congrArg Keyed.ofList hentries
      _ = mapping := Keyed.ofList_entries mapping

theorem fits_fields_iff (hroom : (strings mapping).eraseDups.length ≤ capacity)
    (hsize : mapping.size ≤ capacity) :
    (∀ field ∈ fields mapping pool, field.Fits) ↔
      ∀ string ∈ strings mapping, string.utf8ByteSize ≤ 65535 := by
  obtain ⟨layout, hpool, hpairs, hfields, -⟩ := exists_layout hlists
  have hmem : ∀ string, string ∈ layout.pool ↔ string ∈ strings mapping := by
    intro string
    rw [hpool, List.mem_eraseDups]
  rw [← hfields, ← Layout.fits_iff]
  constructor
  · exact fun h string hstring => h.strings string ((hmem string).mpr hstring)
  · intro hshort
    rw [← hpool] at hroom
    rw [← hpairs] at hsize
    exact ⟨hroom, fun string hstring => hshort string ((hmem string).mp hstring), hsize⟩

end Listed

theorem exists_pool {mapping : Keyed String}
    (hroom : (strings mapping).eraseDups.length ≤ capacity) :
    ∃ pool, Pool.ofMapping mapping = .ok pool ∧ pool.Lists (strings mapping).eraseDups := by
  have houtcome := outcome_ofMapping mapping
  cases hpool : Pool.ofMapping mapping with
  | error cause =>
    rw [hpool, Pool.Outcome] at houtcome
    omega
  | ok pool =>
    rw [hpool] at houtcome
    exact ⟨pool, rfl, houtcome.1⟩

theorem encode_eq {mapping : Keyed String} {pool : Pool} (hsize : mapping.size ≤ capacity)
    (hpool : Pool.ofMapping mapping = .ok pool) :
    encode mapping =
      match writeAll (fields mapping pool) with
      | .ok bytes => .ok ⟨bytes, pool.size, mapping.size⟩
      | .error cause => .error (.write cause) := by
  rw [encode, if_neg (Nat.not_lt.mpr hsize), hpool]
  change ((writeAll (fields mapping pool)).mapError EncodeError.write >>= fun bytes =>
    pure (Encoded.mk bytes pool.size mapping.size)) = _
  cases writeAll (fields mapping pool) <;> rfl

theorem encode_of_overfull {mapping : Keyed String}
    (hfull : capacity < mapping.size ∨ capacity < (strings mapping).eraseDups.length) :
    ∃ cause, encode mapping = .error (.capacity cause) := by
  rw [encode]
  by_cases hsize : capacity < mapping.size
  · rw [if_pos hsize]
    exact ⟨_, rfl⟩
  · have hdistinct := hfull.resolve_left hsize
    have houtcome := outcome_ofMapping mapping
    cases hpool : Pool.ofMapping mapping with
    | ok pool =>
      rw [hpool] at houtcome
      have hroom := houtcome.2
      omega
    | error cause =>
      rw [if_neg hsize]
      exact ⟨cause, rfl⟩

theorem encode_of_long {mapping : Keyed String} (hsize : mapping.size ≤ capacity)
    (hroom : (strings mapping).eraseDups.length ≤ capacity)
    (hlong : ¬ ∀ string ∈ strings mapping, string.utf8ByteSize ≤ 65535) :
    ∃ cause, encode mapping = .error (.write cause) := by
  obtain ⟨pool, hpool, hlists⟩ := exists_pool hroom
  rw [encode_eq hsize hpool]
  cases hall : writeAll (fields mapping pool) with
  | error cause => exact ⟨cause, rfl⟩
  | ok bytes =>
    have hfits := (writeAll_eq_ok_iff.mp hall).1
    exact absurd ((fits_fields_iff hlists hroom hsize).mp hfits) hlong

theorem fits_of_encode {mapping : Keyed String} {encoded : Encoded}
    (h : encode mapping = .ok encoded) :
    mapping.size ≤ capacity ∧ (strings mapping).eraseDups.length ≤ capacity ∧
      ∀ string ∈ strings mapping, string.utf8ByteSize ≤ 65535 := by
  have hnot : ∀ {cause : EncodeError}, encode mapping ≠ .error cause := by simp [h]
  have hfits : ¬ (capacity < mapping.size ∨ capacity < (strings mapping).eraseDups.length) :=
    fun hfull => hnot (encode_of_overfull hfull).choose_spec
  rw [not_or, Nat.not_lt, Nat.not_lt] at hfits
  refine ⟨hfits.1, hfits.2, ?_⟩
  by_contra hlong
  exact hnot (encode_of_long hfits.1 hfits.2 hlong).choose_spec

theorem exists_bytes_of_encode {mapping : Keyed String} {encoded : Encoded}
    (h : encode mapping = .ok encoded) :
    ∃ pool : Pool, pool.Lists (strings mapping).eraseDups ∧
      encoded.bytes = (fields mapping pool).flatMap Field.bytes := by
  obtain ⟨hsize, hroom, -⟩ := fits_of_encode h
  obtain ⟨pool, hpool, hlists⟩ := exists_pool hroom
  rw [encode_eq hsize hpool] at h
  cases hall : writeAll (fields mapping pool) with
  | error cause =>
    rw [hall] at h
    cases h
  | ok bytes =>
    rw [hall] at h
    cases h
    exact ⟨pool, hlists, (writeAll_eq_ok_iff.mp hall).2⟩

theorem exists_layout_of_encode {mapping : Keyed String} {encoded : Encoded}
    (h : encode mapping = .ok encoded) :
    ∃ layout : Layout, layout.Fits ∧ encoded.bytes = layout.bytes ∧ layout.mapping = mapping ∧
      layout.pool = (strings mapping).eraseDups ∧ layout.pairs.length = mapping.size := by
  obtain ⟨hsize, hroom, hshort⟩ := fits_of_encode h
  obtain ⟨pool, hlists, hbytes⟩ := exists_bytes_of_encode h
  obtain ⟨layout, hpool, hpairs, hfields, hmapping⟩ := exists_layout hlists
  have hfits := (fits_fields_iff hlists hroom hsize).mpr hshort
  rw [← hfields] at hbytes hfits
  exact ⟨layout, Layout.fits_iff.mpr hfits, by rw [hbytes, layout.bytes_eq], hmapping, hpool,
    hpairs⟩

/-- What is written of a mapping is read back as the mapping. -/
theorem decode_of_encode {mapping : Keyed String} {encoded : Encoded}
    (h : encode mapping = .ok encoded) : decode encoded.bytes = .ok mapping := by
  obtain ⟨layout, hfits, hbytes, hmapping, -⟩ := exists_layout_of_encode h
  rw [hbytes, hfits.decode_bytes, hmapping]

theorem encode_of_short {mapping : Keyed String} (hsize : mapping.size ≤ capacity)
    (hroom : (strings mapping).eraseDups.length ≤ capacity)
    (hshort : ∀ string ∈ strings mapping, string.utf8ByteSize ≤ 65535) :
    ∃ encoded, encode mapping = .ok encoded ∧ decode encoded.bytes = .ok mapping := by
  obtain ⟨pool, hpool, hlists⟩ := exists_pool hroom
  have hfits := (fits_fields_iff hlists hroom hsize).mpr hshort
  obtain ⟨encoded, hencode⟩ : ∃ encoded, encode mapping = .ok encoded := by
    rw [encode_eq hsize hpool, writeAll_eq_ok_iff.mpr ⟨hfits, rfl⟩]
    exact ⟨_, rfl⟩
  exact ⟨encoded, hencode, decode_of_encode hencode⟩

/-- An alias index has one of three fates. It is refused for want of room exactly if the mapping has
more than 65535 entries or its aliases and targets are more than 65535 distinct strings; else it is
refused in writing exactly if one of these has more than 65535 bytes; else it is written, and read
back as the same mapping in the same order. -/
theorem encode_trichotomy (mapping : Keyed String) :
    ((∃ cause, encode mapping = .error (.capacity cause)) ↔
        65535 < mapping.size ∨ 65535 < (strings mapping).eraseDups.length) ∧
      ((∃ cause, encode mapping = .error (.write cause)) ↔
        mapping.size ≤ 65535 ∧ (strings mapping).eraseDups.length ≤ 65535 ∧
          ∃ string ∈ strings mapping, 65535 < string.utf8ByteSize) ∧
      ((∃ encoded, encode mapping = .ok encoded ∧ decode encoded.bytes = .ok mapping) ↔
        mapping.size ≤ 65535 ∧ (strings mapping).eraseDups.length ≤ 65535 ∧
          ∀ string ∈ strings mapping, string.utf8ByteSize ≤ 65535) := by
  by_cases hfull : 65535 < mapping.size ∨ 65535 < (strings mapping).eraseDups.length
  · obtain ⟨cause, hencode⟩ := encode_of_overfull hfull
    refine ⟨iff_of_true ⟨cause, hencode⟩ hfull, iff_of_false ?_ ?_, iff_of_false ?_ ?_⟩
    · simp [hencode]
    · omega
    · simp [hencode]
    · omega
  · obtain ⟨hsize, hroom⟩ := not_or.mp hfull
    rw [Nat.not_lt] at hsize hroom
    by_cases hshort : ∀ string ∈ strings mapping, string.utf8ByteSize ≤ 65535
    · obtain ⟨encoded, hencode, hdecode⟩ := encode_of_short hsize hroom hshort
      refine ⟨iff_of_false ?_ hfull, iff_of_false ?_ ?_,
        iff_of_true ⟨encoded, hencode, hdecode⟩ ⟨hsize, hroom, hshort⟩⟩
      · simp [hencode]
      · simp [hencode]
      · rintro ⟨-, -, string, hmem, hlong⟩
        exact absurd (hshort string hmem) (Nat.not_le.mpr hlong)
    · obtain ⟨cause, hencode⟩ := encode_of_long hsize hroom hshort
      have hlong : ∃ string ∈ strings mapping, 65535 < string.utf8ByteSize := by
        simpa using hshort
      refine ⟨iff_of_false ?_ hfull, iff_of_true ⟨cause, hencode⟩ ⟨hsize, hroom, hlong⟩,
        iff_of_false ?_ ?_⟩
      · simp [hencode]
      · simp [hencode]
      · rintro ⟨-, -, hall⟩
        exact hshort hall

end ZoneHistory.AliasIndex
