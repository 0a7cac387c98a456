/-
**Moving the packet window: `execute_MOVE_PACKET_OFFSET`.**

The movement is a 32-bit number, found in the instruction or in a field.  It is cut to 16 bits and
negated for the direction backward before `movePacketBufOffset` checks it, so that the check is about
another number than the one of the instruction.

Main definitions:

* `PofSwitch.displacement`, `PofSwitch.cutDisplacement` — the movement asked for and the one made;
* `PofSwitch.MovesExactly` — an instruction moves the window by what was asked for, or not at all.

Main results:

* `PofSwitch.movesExactly_iff` — **exactly when the cut displacement is refused, or nothing is cut.**
-/

import PofSwitch.FieldValues
import PofSwitch.PacketLength

set_option relaxedAutoImplicit false
set_option autoImplicit false

namespace PofSwitch

open Prog Buf

/-! ### Numbers of a signed width -/

theorem toInt16_eq_iff (x : ℤ) : toInt16 x = x ↔ -2 ^ 15 ≤ x ∧ x < 2 ^ 15 := by
  constructor
  · intro h
    rw [← h]
    exact toInt16_range x
  · intro ⟨h₁, h₂⟩
    exact toInt16_of_range h₁ h₂

theorem toInt32_eq_iff (x : ℤ) : toInt32 x = x ↔ -2 ^ 31 ≤ x ∧ x < 2 ^ 31 := by
  constructor
  · intro h
    rw [← h]
    exact toInt32_range x
  · intro ⟨h₁, h₂⟩
    exact toInt32_of_range h₁ h₂

/-! ### The displacement -/

/-- The movement an instruction asks for; direction `0` is `POFD_FORWARD`. -/
def displacement (direction : UInt8) (value : UInt32) : ℤ :=
  if direction = 0 then value.toNat else -value.toNat

/-- The movement `movePacketBufOffset` is called with. -/
def cutDisplacement (direction : UInt8) (value : UInt32) : ℤ :=
  if direction = 0 then toInt16 value.toNat else toInt16 (-toInt16 value.toNat)

/-- The largest movement that is not cut. -/
def maxMovement (direction : UInt8) : ℕ := if direction = 0 then 32767 else 32768

/-- `movePacketBufOffset` refuses the displacement. -/
def MoveRefused (d : ℤ) (w : Extent) : Prop := d > w.leftLen ∨ d < -(packetPrebufLen + w.offset)

instance (d : ℤ) (w : Extent) : Decidable (MoveRefused d w) := inferInstanceAs (Decidable (_ ∨ _))

/-- The window moved by `d` bytes. -/
def Extent.moved (w : Extent) (d : ℤ) : Extent :=
  ⟨w.offset + d, w.bufOffset + d, w.leftLen - d⟩

/-- The fields of the moved window have the values of their widths. -/
def MoveFits (d : ℤ) (w : Extent) : Prop :=
  (-2 ^ 15 ≤ w.offset + d ∧ w.offset + d < 2 ^ 15) ∧ -2 ^ 31 ≤ w.leftLen - d ∧ w.leftLen - d < 2 ^ 31

theorem cutDisplacement_eq_iff (direction : UInt8) (value : UInt32) :
    cutDisplacement direction value = displacement direction value ↔
      value.toNat ≤ maxMovement direction := by
  unfold cutDisplacement displacement maxMovement
  split_ifs with h
  · rw [toInt16_eq_iff]
    omega
  · have hcut := toInt16_range value.toNat
    constructor
    · intro heq
      have hrange := toInt16_range (-toInt16 value.toNat)
      omega
    · intro hle
      -- `32768` is cut to `-32768`, which is its own negative in 16 bits
      rcases Nat.lt_or_ge value.toNat 32768 with hlt | hge
      · rw [toInt16_of_range (x := value.toNat) (by omega) (by omega),
          toInt16_of_range (by omega) (by omega)]
      · rw [show value.toNat = 32768 by omega]
        decide

theorem exec_movePacketBufOffset_refused {d : ℤ} {s : DpState} (h : MoveRefused d s.extent) :
    exec (movePacketBufOffset d) s = (.error (.error ⟨.softwareFailed, .pofPacketLenError⟩), s) := by
  rw [movePacketBufOffset, exec_bind_ok exec_get]
  exact exec_bind_error (exec_failIf_pos h _ _ s)

theorem exec_movePacketBufOffset_ok {d : ℤ} {s : DpState} (h : ¬ MoveRefused d s.extent) :
    exec (movePacketBufOffset d) s = (.ok (), { s with dpp :=
      { s.dpp with
        offset := toInt16 (s.dpp.offset + d)
        leftLen := toInt32 (s.dpp.leftLen - d)
        bufOffset := s.dpp.bufOffset + d } }) := by
  rw [movePacketBufOffset, exec_bind_ok exec_get]
  exact exec_bind_ok (exec_failIf_neg h _ _ s)

theorem exec_movePacketBufOffset_moved {d : ℤ} {s : DpState} (h : ¬ MoveRefused d s.extent) :
    ∃ t, exec (movePacketBufOffset d) s = (.ok (), t) ∧
      t.extent = ⟨toInt16 (s.extent.offset + d), s.extent.bufOffset + d, toInt32 (s.extent.leftLen - d)⟩ :=
  ⟨_, exec_movePacketBufOffset_ok h, rfl⟩

/-! ### The instruction -/

/-- An error that leaves the window where it was, or a move by the displacement asked for. -/
def MovesExactly (data : Buf) (s : DpState) : Prop :=
  (∃ e t, exec (movePacketOffsetWork data) s = (.error (.error e), t) ∧ t.extent = s.extent) ∨
    ∃ value t, exec (pofdpGet32value (data.rd 1) data 8) s = (.ok value, s) ∧
      exec (movePacketOffsetWork data) s = (.ok (), t) ∧
      t.extent = s.extent.moved (displacement (data.rd 0) value)

/-- The instruction calls `movePacketBufOffset` with the cut displacement. -/
theorem exec_movePacketOffsetWork {data : Buf} {s : DpState} {value : UInt32}
    (h : exec (pofdpGet32value (data.rd 1) data 8) s = (.ok value, s)) :
    exec (movePacketOffsetWork data) s =
      exec (movePacketBufOffset (cutDisplacement (data.rd 0) value)) s := by
  rw [movePacketOffsetWork, exec_bind_ok h, cutDisplacement]
  split_ifs <;> rfl

/-- **`MOVE_PACKET_OFFSET` moves the window by exactly the movement of the instruction, or fails and
leaves it where it was, exactly when the displacement that is left of 16 bits is refused, or the
movement fits into 16 bits and the moved window into its fields.** -/
theorem movesExactly_iff (data : Buf) (s : DpState) :
    MovesExactly data s ↔
      ∀ value, exec (pofdpGet32value (data.rd 1) data 8) s = (.ok value, s) →
        MoveRefused (cutDisplacement (data.rd 0) value) s.extent ∨
          value.toNat ≤ maxMovement (data.rd 0) ∧
            MoveFits (displacement (data.rd 0) value) s.extent := by
  rcases exec_pofdpGet32value_cases (data.rd 1) data 8 s with ⟨-, e, hread⟩ | ⟨value, -, hread⟩
  · -- the operand is not read
    rw [hread]
    refine iff_of_true (Or.inl ⟨e, s, ?_, rfl⟩) (fun value hvalue => by cases hvalue)
    rw [movePacketOffsetWork, exec_bind_error hread]
  · have hwork := exec_movePacketOffsetWork hread
    set c := cutDisplacement (data.rd 0) value with hc
    have hcut := cutDisplacement_eq_iff (data.rd 0) value
    unfold MovesExactly
    rw [hwork, hread]
    by_cases hrefused : MoveRefused c s.extent
    · refine iff_of_true (Or.inl ⟨_, s, exec_movePacketBufOffset_refused hrefused, rfl⟩) ?_
      intro v hv
      cases hv
      exact Or.inl hrefused
    · obtain ⟨u, hu, hextent⟩ := exec_movePacketBufOffset_moved hrefused
      rw [hu]
      constructor
      · rintro (⟨e, w, herr, -⟩ | ⟨v, w, hv, hok, hmoved⟩) v' hv'
        · cases herr
        · cases hv
          cases hv'
          cases hok
          rw [hextent, Extent.moved, Extent.mk.injEq] at hmoved
          obtain ⟨hoffset, hbuf, hleft⟩ := hmoved
          have hsame : c = displacement (data.rd 0) value := Int.add_left_cancel hbuf
          rw [hsame] at hoffset hleft
          exact Or.inr ⟨hcut.1 hsame, (toInt16_eq_iff _).1 hoffset, (toInt32_eq_iff _).1 hleft⟩
      · intro hall
        obtain hr | ⟨hle, hoffset, hleft⟩ := hall value rfl
        · exact absurd hr hrefused
        · have hsame : c = displacement (data.rd 0) value := hcut.2 hle
          refine Or.inr ⟨value, u, rfl, rfl, ?_⟩
          rw [hextent, hsame, (toInt16_eq_iff _).2 hoffset, (toInt32_eq_iff _).2 hleft]
          rfl

/-- A `MOVE_PACKET_OFFSET` forward by `65536` bytes. -/
def moveFar : Buf := [0, 0, 0, 0, 0, 0, 0, 0, 0, 0, 1, 0]

/-- It succeeds on a packet of three bytes, and the window stays. -/
theorem movesExactly_fails :
    ¬ MovesExactly moveFar (pofdpForward 1 [7, 0, 9] (pofLocalresourceInit smallConfig)) := by
  set s := pofdpForward 1 [7, 0, 9] (pofLocalresourceInit smallConfig) with hs
  have hread : exec (pofdpGet32value (rd moveFar 1) moveFar 8) s = (.ok 65536, s) := by
    rw [show rd moveFar 1 = 0 from rfl, pofdpGet32value, if_pos rfl, exec_pure]
    rfl
  obtain ⟨t, ht, hextent⟩ := exec_movePacketBufOffset_moved (d := 0) (s := s)
    (by decide +kernel)
  have hcut : cutDisplacement (rd moveFar 0) 65536 = 0 := by decide +kernel
  have hwork : exec (movePacketOffsetWork moveFar) s = (.ok (), t) := by
    rw [exec_movePacketOffsetWork hread, hcut, ht]
  rintro (⟨e, u, herr, -⟩ | ⟨value, u, hvalue, hok, hmoved⟩)
  · rw [hwork] at herr
    cases herr
  · rw [hread] at hvalue
    cases hvalue
    rw [hwork] at hok
    cases hok
    rw [hextent, Extent.moved, Extent.mk.injEq] at hmoved
    exact absurd hmoved.2.1 (by decide +kernel)

end PofSwitch
