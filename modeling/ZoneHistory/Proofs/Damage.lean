import ZoneHistory.Proofs.AliasIndex
import ZoneHistory.Proofs.ZoneFile

/-!
# Damaged files

A zone file or an alias index from which something is missing at the end, or to which something was
added, is not taken for another one: it is refused as damaged.
-/
namespace ZoneHistory

open Wire

theorem ZoneFile.detectsDamage_of_encode {history : History} {written : List UInt8}
    (h : encode history = .ok written) :
    DetectsDamage (decode history.zone) (.trailingZoneBytes history.zone) written := by
  obtain ⟨hstorable, rfl⟩ := encode_eq_ok_iff.mp h
  exact (exhausts_read hstorable).detectsDamage

theorem AliasIndex.detectsDamage_of_encode {mapping : Keyed String} {encoded : Encoded}
    (h : encode mapping = .ok encoded) :
    DetectsDamage decode .trailingIndexBytes encoded.bytes := by
  obtain ⟨layout, hfits, hbytes, -⟩ := exists_layout_of_encode h
  rw [hbytes]
  exact hfits.exhausts_read.detectsDamage

/-- Whatever is written of a history or of a mapping, every shorter part of it ends too early, and
bytes that follow it are counted as too many. -/
theorem encodings_detectDamage :
    (∀ history written, ZoneFile.encode history = .ok written →
        DetectsDamage (ZoneFile.decode history.zone) (.trailingZoneBytes history.zone) written) ∧
      ∀ mapping encoded, AliasIndex.encode mapping = .ok encoded →
        DetectsDamage AliasIndex.decode .trailingIndexBytes encoded.bytes :=
  ⟨fun _ _ => ZoneFile.detectsDamage_of_encode, fun _ _ => AliasIndex.detectsDamage_of_encode⟩

/-- Two aliases of one zone. -/
def twoAliases : Keyed String := ⟨[("Étoile", "Paris"), ("Paris", "Paris")], by decide⟩

theorem encodings_detectDamage_farthest_twoAliases :
    (∃ written, ZoneFile.encode ZoneFile.farthest = .ok written ∧
        DetectsDamage (ZoneFile.decode ZoneFile.farthest.zone)
          (.trailingZoneBytes ZoneFile.farthest.zone) written) ∧
      ∃ encoded, AliasIndex.encode twoAliases = .ok encoded ∧
        DetectsDamage AliasIndex.decode .trailingIndexBytes encoded.bytes := by
  have hstorable : ZoneFile.Storable ZoneFile.farthest :=
    ⟨by decide, by decide, by decide, by decide, by decide, by decide⟩
  obtain ⟨written, hwritten⟩ := ZoneFile.exists_encode_iff.mpr hstorable
  obtain ⟨encoded, hencoded, -⟩ :=
    @AliasIndex.encode_of_short twoAliases (by decide) (by decide) (by decide)
  exact ⟨⟨written, hwritten, encodings_detectDamage.1 _ _ hwritten⟩,
    encoded, hencoded, encodings_detectDamage.2 _ _ hencoded⟩

end ZoneHistory
