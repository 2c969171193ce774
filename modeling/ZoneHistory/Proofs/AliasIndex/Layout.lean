import ZoneHistory.AliasIndex
import ZoneHistory.Proofs.Keyed.Lookup
import ZoneHistory.Proofs.Wire.Canonical
import ZoneHistory.Proofs.Wire.Cut

/-!
# The layout of an alias index

An alias index is a pool of strings, after their number, and pairs of indices into the pool, after
theirs. All data of this form are read, also where strings of the pool repeat or are not used and
where an alias comes twice; nothing else is.
-/
namespace ZoneHistory.AliasIndex

open Wire

/-- A pool of strings and pairs of indices into it. -/
structure Layout where
  pool : List String
  pairs : List (Fin pool.length × Fin pool.length)

def pairFields {size : Nat} (pair : Fin size × Fin size) : List Field :=
  [.int .u16 (pair.1 : Nat), .int .u16 (pair.2 : Nat)]

namespace Layout

/-- The strings that a pair of indices stands for. -/
def entry (layout : Layout) (pair : Fin layout.pool.length × Fin layout.pool.length) :
    String × String :=
  (layout.pool.get pair.1, layout.pool.get pair.2)

def entries (layout : Layout) : List (String × String) := layout.pairs.map layout.entry

/-- The mapping that comes of the pairs, one put in after the other. -/
def mapping (layout : Layout) : Keyed String :=
  layout.entries.foldl (fun mapping entry => mapping.put entry.1 entry.2) .empty

def bytes (layout : Layout) : List UInt8 :=
  IntKind.u16.bytes layout.pool.length ++
    (layout.pool.flatMap (fun string => (Field.text string).bytes) ++
      (IntKind.u16.bytes layout.pairs.length ++
        layout.pairs.flatMap fun pair => (pairFields pair).flatMap Field.bytes))

def fields (layout : Layout) : List Field :=
  [.int .u16 layout.pool.length] ++ (layout.pool.map .text ++
    ([.int .u16 layout.pairs.length] ++ layout.pairs.flatMap pairFields))

/-- Whether the counts and the lengths of the strings have room in 16 bits each. -/
structure Fits (layout : Layout) : Prop where
  pool : layout.pool.length ≤ 65535
  strings : ∀ string ∈ layout.pool, string.utf8ByteSize ≤ 65535
  pairs : layout.pairs.length ≤ 65535

variable {layout : Layout}

theorem bytes_eq (layout : Layout) : layout.bytes = layout.fields.flatMap Field.bytes := by
  simp only [bytes, fields, List.flatMap_append, List.flatMap_singleton, List.flatMap_map,
    List.flatMap_assoc]
  rfl

theorem mapping_eq (layout : Layout) : layout.mapping = .ofList layout.entries :=
  (Keyed.ofList_eq_foldl_put layout.entries).symm

theorem holds_index (hpool : layout.pool.length ≤ 65535) (index : Fin layout.pool.length) :
    IntKind.u16.Holds (index : Nat) :=
  (IntKind.holds_u16_iff _).mpr (index.isLt.le.trans hpool)

theorem fits_iff : layout.Fits ↔ ∀ field ∈ layout.fields, field.Fits := by
  have hindices : layout.pool.length ≤ 65535 →
      ∀ field ∈ layout.pairs.flatMap pairFields, field.Fits := by
    intro hpool
    rw [List.forall_mem_flatMap]
    intro pair _
    rw [pairFields, List.forall_mem_cons, List.forall_mem_singleton]
    exact ⟨holds_index hpool pair.1, holds_index hpool pair.2⟩
  simp only [fields, List.forall_mem_append, List.forall_mem_singleton, List.forall_mem_map,
    Field.Fits, IntKind.holds_u16_iff]
  constructor
  · exact fun h => ⟨h.pool, h.strings, h.pairs, hindices h.pool⟩
  · rintro ⟨hpool, hstrings, hpairs, -⟩
    exact ⟨hpool, hstrings, hpairs⟩

/-! ## Data of the form are read -/

theorem Fits.takes_readMapping (h : layout.Fits)
    (pair : Fin layout.pool.length × Fin layout.pool.length) :
    Takes (readMapping layout.pool.toArray) ((pairFields pair).flatMap Field.bytes)
      (layout.entry pair) := by
  refine (takes_readInt (holds_index h.pool pair.1)).bind ?_
  refine (takes_readInt (holds_index h.pool pair.2)).bind ?_
  simp only [Int.toNat_natCast, List.getElem?_toArray, List.getElem?_eq_getElem pair.1.isLt,
    List.getElem?_eq_getElem pair.2.isLt]
  exact takes_pure _

theorem Fits.takes_pool (h : layout.Fits) :
    Takes (readMany readText layout.pool.length [])
      (layout.pool.flatMap fun string => (Field.text string).bytes) layout.pool := by
  have hmany := takes_readMany id
    (fun string hstring => takes_readText (h.strings string hstring)) []
  rwa [List.map_id] at hmany

theorem Fits.takes_pairs (h : layout.Fits) :
    Takes (readMany (readMapping layout.pool.toArray) layout.pairs.length [])
      (layout.pairs.flatMap fun pair => (pairFields pair).flatMap Field.bytes) layout.entries :=
  takes_readMany layout.entry (fun pair _ => h.takes_readMapping pair) []

theorem Fits.exhausts_read (h : layout.Fits) :
    Exhausts read layout.bytes layout.mapping .trailingIndexBytes := by
  rw [read, bytes]
  refine (takes_readInt ((IntKind.holds_u16_iff _).mpr h.pool)).exhausts_bind ?_
  rw [Int.toNat_natCast]
  refine h.takes_pool.exhausts_bind ?_
  refine (takes_readInt ((IntKind.holds_u16_iff _).mpr h.pairs)).exhausts_bind ?_
  rw [Int.toNat_natCast, mapping_eq]
  refine h.takes_pairs.exhausts_bind_nil ?_
  exact exhausts_isAtEnd (fun _ => rfl) fun _ => rfl

theorem Fits.decode_bytes (h : layout.Fits) : decode layout.bytes = .ok layout.mapping :=
  h.exhausts_read.runReader_eq

/-! ## Nothing else is read -/

theorem exists_of_writeAll_u16 {value : Int} {bytes : List UInt8}
    (h : writeAll [.int .u16 value] = .ok bytes) : ∃ n : Nat, value = n :=
  Int.eq_ofNat_of_zero_le ((writeAll_eq_ok_iff.mp h).1 _ List.mem_cons_self).1

theorem spells_readMapping (pool : List String) :
    Spells (readMapping pool.toArray) (@pairFields pool.length)
      fun pair => (pool.get pair.1, pool.get pair.2) := by
  intro passed remaining value c h
  rw [readMapping] at h
  obtain ⟨name, nameBytes, rest, hname, rfl, h₁⟩ := (canonical_readInt .u16).of_bind h
  obtain ⟨target, targetBytes, rest, htarget, rfl, h₂⟩ := (canonical_readInt .u16).of_bind h₁
  obtain ⟨n, rfl⟩ := exists_of_writeAll_u16 hname
  obtain ⟨t, rfl⟩ := exists_of_writeAll_u16 htarget
  simp only [Int.toNat_natCast, List.getElem?_toArray] at h₂
  split at h₂
  · next a b ha hb =>
    obtain ⟨hn, rfl⟩ := List.getElem?_eq_some_iff.mp ha
    obtain ⟨ht, rfl⟩ := List.getElem?_eq_some_iff.mp hb
    obtain ⟨rfl, rfl⟩ := run_pure_eq_ok_iff.mp h₂
    refine ⟨(⟨n, hn⟩, ⟨t, ht⟩), nameBytes ++ targetBytes, rest, rfl, ?_, ?_, ?_⟩
    · exact writeAll_append hname htarget
    · rw [List.append_assoc]
    · rw [List.append_assoc]
  · cases h₂

theorem exists_of_decode {data : List UInt8} {mapping : Keyed String}
    (h : decode data = .ok mapping) :
    ∃ layout : Layout, layout.Fits ∧ data = layout.bytes ∧ mapping = layout.mapping := by
  obtain ⟨c, hrun⟩ : ∃ c, read.run.run (.between [] data) = (.ok mapping, c) :=
    ⟨_, Prod.ext h rfl⟩
  rw [read] at hrun
  obtain ⟨size, sizeBytes, rest, hsize, rfl, h₁⟩ := (canonical_readInt .u16).of_bind hrun
  obtain ⟨pool, c₁, hpool, h₂⟩ := run_bind_eq_ok_iff.mp h₁
  obtain ⟨strings, poolBytes, rest, hall, hpoolLength, hstrings, rfl, rfl⟩ :=
    exists_of_readMany canonical_readText hpool
  rw [List.reverse_nil, List.nil_append] at hall
  subst hall
  obtain ⟨count, countBytes, rest, hcount, rfl, h₃⟩ := (canonical_readInt .u16).of_bind h₂
  obtain ⟨entries, c₂, hentries, h₄⟩ := run_bind_eq_ok_iff.mp h₃
  obtain ⟨pairs, pairBytes, rest, rfl, hpairsLength, hpairs, rfl, rfl⟩ :=
    (spells_readMapping pool).exists_of_readMany hentries
  rw [run_isAtEnd_bind] at h₄
  obtain ⟨hend, h₅⟩ := run_ite_of_refuses h₄ ⟨_, rfl⟩
  obtain ⟨rfl, -⟩ := run_pure_eq_ok_iff.mp h₅
  obtain rfl : rest = [] := by simpa using hend
  obtain ⟨size, rfl⟩ := exists_of_writeAll_u16 hsize
  obtain ⟨count, rfl⟩ := exists_of_writeAll_u16 hcount
  obtain rfl : size = pool.length := hpoolLength.symm
  obtain rfl : count = pairs.length := hpairsLength.symm
  have hfields : writeAll (fields ⟨pool, pairs⟩) =
      .ok (sizeBytes ++ (poolBytes ++ (countBytes ++ pairBytes))) := by
    rw [fields, List.map_eq_flatMap]
    exact writeAll_append hsize (writeAll_append hstrings (writeAll_append hcount hpairs))
  obtain ⟨hfits, hbytes⟩ := writeAll_eq_ok_iff.mp hfields
  refine ⟨⟨pool, pairs⟩, fits_iff.mpr hfits, ?_, ?_⟩
  · rw [bytes_eq, ← hbytes, List.append_nil]
  · rw [mapping_eq]
    rfl

end Layout

end ZoneHistory.AliasIndex
