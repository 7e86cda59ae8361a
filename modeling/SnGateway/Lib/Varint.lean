import Mathlib.Algebra.Order.Group.Nat
import Mathlib.Data.List.Basic
import Mathlib.Tactic.Ring

/-!
# Numbers of variable length

A number in groups of seven bits, the lowest first, one byte a group; the top bit of a byte says
that another group follows; `k` bytes hold less than `128 ^ k` (`value_lt`).
-/

namespace Varint

/-- The top bit of a byte is not part of its group. -/
def value : List UInt8 → Nat
  | [] => 0
  | b :: bs => b.toNat % 128 + 128 * value bs

/-- The last byte and no other has its top bit clear. -/
def Closed : List UInt8 → Prop
  | [] => False
  | b :: bs => if b.toNat < 128 then bs = [] else Closed bs

theorem closed_cons_of_lt {b : UInt8} {bs : List UInt8} (hb : b.toNat < 128) :
    Closed (b :: bs) ↔ bs = [] := by
  rw [Closed, if_pos hb]

theorem closed_cons_of_ge {b : UInt8} {bs : List UInt8} (hb : 128 ≤ b.toNat) :
    Closed (b :: bs) ↔ Closed bs := by
  rw [Closed, if_neg (by omega)]

theorem Closed.length_pos {bs : List UInt8} (h : Closed bs) : 0 < bs.length := by
  cases bs with
  | nil => exact h.elim
  | cons b bs => exact Nat.succ_pos _

theorem value_lt (bs : List UInt8) : value bs < 128 ^ bs.length := by
  induction bs with
  | nil => exact Nat.one_pos
  | cons b bs ih =>
    rw [value, List.length_cons, Nat.pow_succ]
    have := Nat.mod_lt b.toNat (show 0 < 128 by omega)
    omega

end Varint
