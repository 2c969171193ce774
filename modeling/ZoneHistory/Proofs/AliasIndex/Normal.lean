import Mathlib.Data.List.Flatten
import ZoneHistory.Proofs.AliasIndex

/-!
# Alias indices written again

The pool of an alias index that is read may hold a string more than once or strings that no pair
uses, and an alias may come twice. The mapping that is read is written without them.
-/
namespace ZoneHistory.AliasIndex

open Wire

namespace Layout

theorem length_bytes (layout : Layout) :
    layout.bytes.length =
      4 + (layout.pool.flatMap fun string => (Field.text string).bytes).length +
        4 * layout.pairs.length := by
  have hpairs : ∀ pairs : List (Fin layout.pool.length × Fin layout.pool.length),
      (pairs.flatMap fun pair => (pairFields pair).flatMap Field.bytes).length =
        4 * pairs.length := by
    intro pairs
    induction pairs with
    | nil => rfl
    | cons pair pairs ih =>
      rw [List.flatMap_cons, List.length_append, ih, List.length_cons, pairFields]
      simp only [List.flatMap_cons, List.flatMap_nil, List.length_append, Field.bytes,
        IntKind.length_bytes, IntKind.width, List.length_nil]
      omega
  rw [bytes]
  simp only [List.length_append, hpairs, IntKind.length_bytes, IntKind.width]
  omega

theorem mem_pool_of_mem_strings {layout : Layout} {string : String}
    (h : string ∈ strings layout.mapping) : string ∈ layout.pool := by
  rw [mapping_eq] at h
  obtain ⟨entry, hentry, hstring⟩ := mem_strings_iff.mp h
  obtain ⟨pair, -, rfl⟩ := List.mem_map.mp (Keyed.mem_of_mem_ofList hentry)
  rcases hstring with rfl | rfl
  · exact List.get_mem layout.pool pair.1
  · exact List.get_mem layout.pool pair.2

theorem size_mapping_le (layout : Layout) : layout.mapping.size ≤ layout.pairs.length := by
  have hsize := Keyed.size_ofList_le layout.entries
  rwa [← mapping_eq, entries, List.length_map] at hsize

/-- The distinct strings of the mapping have places of their own in the pool. -/
theorem subperm_pool (layout : Layout) :
    (strings layout.mapping).eraseDups.Subperm layout.pool := by
  refine List.subperm_of_subset (Keyed.nodup_eraseDups _) fun string hstring => ?_
  exact mem_pool_of_mem_strings (List.mem_eraseDups.mp hstring)

theorem Fits.exists_encode {layout : Layout} (h : layout.Fits) :
    ∃ encoded, encode layout.mapping = .ok encoded := by
  have hsize : layout.mapping.size ≤ capacity := layout.size_mapping_le.trans h.pairs
  have hroom : (AliasIndex.strings layout.mapping).eraseDups.length ≤ capacity :=
    layout.subperm_pool.length_le.trans h.pool
  obtain ⟨encoded, hencode, -⟩ := encode_of_short hsize hroom fun string hstring =>
    h.strings string (mem_pool_of_mem_strings hstring)
  exact ⟨encoded, hencode⟩

theorem length_encode_le {layout : Layout} {encoded : Encoded}
    (hencode : encode layout.mapping = .ok encoded) :
    encoded.bytes.length ≤ layout.bytes.length := by
  obtain ⟨shorter, -, hbytes, -, hpool, hpairs⟩ := exists_layout_of_encode hencode
  obtain ⟨used, hperm, hsublist⟩ := layout.subperm_pool
  have hpoolLength :
      (shorter.pool.flatMap fun string => (Field.text string).bytes).length ≤
        (layout.pool.flatMap fun string => (Field.text string).bytes).length := by
    rw [hpool, ← (hperm.flatMap fun _ _ => List.Perm.refl _).length_eq]
    exact (hsublist.flatMap _).length_le
  have hsize := layout.size_mapping_le
  rw [hbytes, length_bytes, length_bytes, hpairs]
  omega

end Layout

/-- Data is read as an alias index exactly if it is of the form of one, and refused otherwise; the
mapping that is read is what comes of putting in the pairs one by one. It can always be written, and
what is written is read back as the same mapping and is not longer than the data. -/
theorem decode_ok_iff_layout (data : List UInt8) :
    (∀ mapping, decode data = .ok mapping ↔
        ∃ layout : Layout, layout.Fits ∧ data = layout.bytes ∧ mapping = layout.mapping) ∧
      ((∃ fault, decode data = .error fault) ↔
        ¬ ∃ layout : Layout, layout.Fits ∧ data = layout.bytes) ∧
      ∀ mapping, decode data = .ok mapping →
        ∃ encoded, encode mapping = .ok encoded ∧ decode encoded.bytes = .ok mapping ∧
          encoded.bytes.length ≤ data.length := by
  refine ⟨fun mapping => ⟨Layout.exists_of_decode, ?_⟩, ⟨?_, ?_⟩, ?_⟩
  · rintro ⟨layout, hfits, rfl, rfl⟩
    exact hfits.decode_bytes
  · rintro ⟨fault, hfault⟩ ⟨layout, hfits, rfl⟩
    rw [hfits.decode_bytes] at hfault
    cases hfault
  · intro hother
    cases hdecode : decode data with
    | error fault => exact ⟨fault, rfl⟩
    | ok mapping =>
      obtain ⟨layout, hfits, hdata, -⟩ := Layout.exists_of_decode hdecode
      exact absurd ⟨layout, hfits, hdata⟩ hother
  · intro mapping hdecode
    obtain ⟨layout, hfits, rfl, rfl⟩ := Layout.exists_of_decode hdecode
    obtain ⟨encoded, hencode⟩ := hfits.exists_encode
    exact ⟨encoded, hencode, decode_of_encode hencode, Layout.length_encode_le hencode⟩

/-- A pool with a string twice and one that no pair uses, and an alias that comes twice. -/
def wasteful : Layout where
  pool := ["B", "A", "A", "C", "D"]
  pairs := [(1, 0), (2, 3)]

theorem decode_layout_wasteful :
    ∃ mapping encoded, mapping.entries = [("A", "C")] ∧ decode wasteful.bytes = .ok mapping ∧
      encode mapping = .ok encoded ∧ decode encoded.bytes = .ok mapping ∧
        encoded.bytes.length ≤ wasteful.bytes.length := by
  have hfits : wasteful.Fits := ⟨by decide, by decide, by decide⟩
  obtain ⟨haccepts, -, hagain⟩ := decode_ok_iff_layout wasteful.bytes
  have hdecode := (haccepts wasteful.mapping).mpr ⟨wasteful, hfits, rfl, rfl⟩
  obtain ⟨encoded, hwritten⟩ := hagain wasteful.mapping hdecode
  exact ⟨wasteful.mapping, encoded, by decide, hdecode, hwritten⟩

end ZoneHistory.AliasIndex
