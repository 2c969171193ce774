import ZoneHistory.Proofs.Wire.Canonical
import ZoneHistory.Proofs.ZoneFile

/-!
# One zone file for each history

A zone file is read only if it is, byte for byte, what is written for the history that it holds:
no other mark, count or length is accepted, and nothing may follow the last transition.
-/
namespace ZoneHistory.ZoneFile

open Wire

theorem canonical_readTransition : Canonical readTransition transitionFields := by
  intro passed remaining t c h
  rw [readTransition] at h
  obtain ⟨instant, instantBytes, rest, hinstant, rfl, h₁⟩ := (canonical_readInt .i64).of_bind h
  obtain ⟨wallOffset, wallBytes, rest, hwall, rfl, h₂⟩ := (canonical_readInt .i32).of_bind h₁
  obtain ⟨standardOffset, standardBytes, rest, hstandard, rfl, h₃⟩ :=
    (canonical_readInt .i32).of_bind h₂
  obtain ⟨name, nameBytes, rest, hname, rfl, h₄⟩ := canonical_readText.of_bind h₃
  obtain ⟨rfl, rfl⟩ := run_pure_eq_ok_iff.mp h₄
  refine ⟨instantBytes ++ (wallBytes ++ (standardBytes ++ nameBytes)), rest, ?_, ?_, ?_⟩
  · exact writeAll_append hinstant (writeAll_append hwall (writeAll_append hstandard hname))
  · simp only [List.append_assoc]
  · simp only [List.append_assoc]

theorem encode_of_decode {zone : String} {data : List UInt8} {history : History}
    (h : decode zone data = .ok history) :
    history.zone = zone ∧ history.initial.instant = 0 ∧ encode history = .ok data := by
  obtain ⟨c, hrun⟩ : ∃ c, (read zone).run.run (.between [] data) = (.ok history, c) :=
    ⟨_, Prod.ext h rfl⟩
  rw [read] at hrun
  obtain ⟨start, c₁, hstart, h₁⟩ := run_bind_eq_ok_iff.mp hrun
  obtain ⟨-, rest, rfl, rfl⟩ := passes_of_readBytes hstart
  obtain ⟨hmark, h₂⟩ := run_ite_of_refuses h₁ ⟨_, rfl⟩
  dsimp only at h₂
  obtain ⟨stored, zoneBytes, rest, hzone, rfl, h₃⟩ := canonical_readText.of_bind h₂
  obtain ⟨hstored, h₄⟩ := run_ite_of_refuses h₃ ⟨_, rfl⟩
  obtain ⟨wallOffset, wallBytes, rest, hwall, rfl, h₅⟩ := (canonical_readInt .i32).of_bind h₄
  obtain ⟨standardOffset, standardBytes, rest, hstandard, rfl, h₆⟩ :=
    (canonical_readInt .i32).of_bind h₅
  obtain ⟨name, nameBytes, rest, hname, rfl, h₇⟩ := canonical_readText.of_bind h₆
  obtain ⟨count, countBytes, rest, hcount, rfl, h₈⟩ := (canonical_readInt .u32).of_bind h₇
  obtain ⟨transitions, c₂, hmany, h₉⟩ := run_bind_eq_ok_iff.mp h₈
  obtain ⟨transitions, bytes, rest, rfl, hlength, hwritten, rfl, rfl⟩ :=
    exists_of_readMany canonical_readTransition hmany
  rw [run_isAtEnd_bind] at h₉
  obtain ⟨hend, h₁₀⟩ := run_ite_of_refuses h₉ ⟨_, rfl⟩
  obtain ⟨rfl, -⟩ := run_pure_eq_ok_iff.mp h₁₀
  obtain rfl := not_not.mp hmark
  obtain rfl := not_not.mp hstored
  obtain rfl : rest = [] := by simpa using hend
  obtain rfl : count = transitions.length := by
    have hholds := (writeAll_eq_ok_iff.mp hcount).1 _ List.mem_cons_self
    rw [hlength, Int.toNat_of_nonneg hholds.1]
  have hfields := writeAll_append hzone (writeAll_append hwall (writeAll_append hstandard
    (writeAll_append hname (writeAll_append hcount hwritten))))
  refine ⟨rfl, rfl, ?_⟩
  rw [List.append_nil]
  exact congrArg (Except.map (mark ++ ·)) hfields

/-- Data is read as a history of a zone exactly if it is what is written for that history, the zone
has its name, and no instant is given to the initial state. -/
theorem decode_eq_ok_iff (zone : String) (data : List UInt8) (history : History) :
    decode zone data = .ok history ↔
      history.zone = zone ∧ history.initial.instant = 0 ∧ encode history = .ok data := by
  constructor
  · exact encode_of_decode
  · rintro ⟨rfl, hinitial, hencode⟩
    obtain ⟨hstorable, rfl⟩ := encode_eq_ok_iff.mp hencode
    exact decode_bytes hstorable hinitial

end ZoneHistory.ZoneFile

