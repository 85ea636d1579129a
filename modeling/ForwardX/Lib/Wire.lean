import Mathlib.Data.List.Basic
import Mathlib.Tactic.Ring

/- Byte strings and fixed-width big-endian numbers. `putBE w n` is the `w` low
   bytes of `n`, most significant first; `getBE` reads a byte string back as a
   number. Writing is injective below `256^w`, and reading what was written
   gives the number modulo `256^w`. -/
namespace Wire

abbrev Bytes := List UInt8

/-- What one `Write` of a connection does: it takes `n` of the bytes it is given and
may fail. -/
structure Wrote where
  n : Nat
  failed : Bool
  deriving DecidableEq, Repr

/-- The `w` low bytes of `n`, most significant first. -/
def putBE : Nat → Nat → Bytes
  | 0, _ => []
  | w + 1, n => UInt8.ofNat (n / 256^w) :: putBE w n

def getBE : Bytes → Nat
  | [] => 0
  | b :: bs => b.toNat * 256^bs.length + getBE bs

@[simp] theorem putBE_length (w n : Nat) : (putBE w n).length = w := by
  induction w with
  | zero => rfl
  | succ w ih => simp [putBE, ih]

theorem getBE_lt (bs : Bytes) : getBE bs < 256^bs.length := by
  induction bs with
  | nil => simp [getBE]
  | cons b bs ih =>
    have hb : b.toNat * 256^bs.length ≤ 255 * 256^bs.length :=
      Nat.mul_le_mul_right _ (Nat.le_of_lt_succ b.toNat_lt)
    rw [List.length_cons, Nat.pow_succ, getBE]
    omega

theorem getBE_putBE (w n : Nat) : getBE (putBE w n) = n % 256^w := by
  induction w with
  | zero => simp [putBE, getBE, Nat.mod_one]
  | succ w ih =>
    have hmod : n % 256^(w + 1) = n % 256^w + 256^w * (n / 256^w % 256) := by
      rw [Nat.pow_succ, Nat.mod_mul]
    rw [putBE, getBE, ih, putBE_length, UInt8.toNat_ofNat', hmod, Nat.mul_comm (256^w)]
    exact Nat.add_comm _ _

theorem putBE_inj {w m n : Nat} (hm : m < 256^w) (hn : n < 256^w)
    (h : putBE w m = putBE w n) : m = n := by
  have := congrArg getBE h
  rwa [getBE_putBE, getBE_putBE, Nat.mod_eq_of_lt hm, Nat.mod_eq_of_lt hn] at this

end Wire
