import FailoverFabric.Library.Codec
import Mathlib.Logic.Function.Iterate

/-! # Cyclic redundancy checks

The register of a reflected cyclic redundancy check is shifted down one bit at a
time, and when the bit that falls out is a one the polynomial is added.  A shift
puts a zero at the top, so a polynomial whose top bit is set leaves a trace: the top
bit of what comes out is the bit that fell out (`msb_shift`).  Nothing is lost then,
and the register after a message tells the message from every other one that differs
from it in a single byte (`register_ne_of_differsOnce`).
-/
namespace Crc

variable {w : Nat} {poly : BitVec w}

/-- One bit. -/
def shift (poly r : BitVec w) : BitVec w := (r >>> 1) ^^^ (if r.getLsbD 0 then poly else 0#w)

/-- One byte, added at the low end. -/
def feed (poly r : BitVec w) (b : UInt8) : BitVec w :=
  (shift poly)^[8] (r ^^^ b.toBitVec.setWidth w)

/-- The register after a message. -/
def register (poly init : BitVec w) (bs : List UInt8) : BitVec w := bs.foldl (feed poly) init

/-- The top bit tells which bit fell out. -/
theorem msb_shift (hpoly : poly.msb = true) (r : BitVec w) : (shift poly r).msb = r.getLsbD 0 := by
  have hzero : (r >>> 1).msb = false := by
    rw [BitVec.msb_eq_getLsbD_last, BitVec.getLsbD_ushiftRight]
    exact BitVec.getLsbD_of_ge _ _ (by omega)
  rw [shift, BitVec.msb_xor, hzero, Bool.false_xor]
  cases r.getLsbD 0 with
  | false => simp
  | true => simpa using hpoly

theorem shift_injective (hpoly : poly.msb = true) : Function.Injective (shift poly) := by
  intro r s h
  have hlow : r.getLsbD 0 = s.getLsbD 0 := by
    rw [← msb_shift hpoly r, h, msb_shift hpoly s]
  have hrest : r >>> 1 = s >>> 1 := by
    rw [shift, shift, hlow] at h
    exact (BitVec.xor_left_inj _).mp h
  apply BitVec.eq_of_getLsbD_eq
  intro i hi
  cases i with
  | zero => exact hlow
  | succ i =>
    have hbit := congrArg (fun v : BitVec w => v.getLsbD i) hrest
    simpa [BitVec.getLsbD_ushiftRight, Nat.add_comm] using hbit

/-- For one byte, different registers stay different. -/
theorem feed_register_injective (hpoly : poly.msb = true) {b : UInt8} {r s : BitVec w}
    (h : feed poly r b = feed poly s b) : r = s :=
  (BitVec.xor_left_inj _).mp ((shift_injective hpoly).iterate 8 h)

/-- For one register, different bytes give different registers. -/
theorem feed_byte_injective (hpoly : poly.msb = true) (hw : 8 ≤ w) {r : BitVec w} {a b : UInt8}
    (h : feed poly r a = feed poly r b) : a = b := by
  have hbytes : a.toBitVec.setWidth w = b.toBitVec.setWidth w :=
    (BitVec.xor_right_inj _).mp ((shift_injective hpoly).iterate 8 h)
  have hback := congrArg (fun v : BitVec w => v.setWidth 8) hbytes
  simp only [BitVec.setWidth_setWidth_of_le _ hw, BitVec.setWidth_eq] at hback
  exact UInt8.toBitVec_inj.mp hback

/-- **A single changed byte changes the register.** -/
theorem register_ne_of_differsOnce (hpoly : poly.msb = true) (hw : 8 ≤ w) {xs ys : List UInt8}
    (h : Codec.DiffersOnce xs ys) (init : BitVec w) :
    register poly init xs ≠ register poly init ys := by
  unfold register
  refine Codec.foldl_ne_of_differsOnce ?_ ?_ h init
  · intro r a b heq
    exact feed_byte_injective hpoly hw heq
  · intro b r s heq
    exact feed_register_injective hpoly heq

end Crc
