/-
# `Align` — rounding addresses to a multiple

Rust code aligns an address `n` to a boundary `a` in two ways.  Upwards,
with `n.next_multiple_of(a)`: the remainder `r = n % a`, and `n + (a - r)`
unless `r` is zero (`roundUp`).  Downwards, for a power of two, by clearing
the low bits: `n & !(a - 1)` (`roundDown`, and `land_compl_eq_roundDown`
for the bit form).

What the callers need of the two is the sandwich: `roundDown n a ≤ n <
roundDown n a + a`, `n ≤ roundUp n a < n + a`, both results multiples of
`a`, and `roundUp` the least multiple at or above `n` (`roundUp_le`).  A
region `[base, end)` computed with them covers `[lo, hi)` exactly when
`base ≤ lo` and `hi ≤ end`, and these bounds are where coverage is decided.

`Checked.nextMultipleOf` is `next_multiple_of` on `w`-bit integers: it
panics on a zero boundary and on an overflow of the addition.
-/
import LanternOS.Lib.Checked

namespace Align

/-- The least multiple of `a` at or above `n`. -/
def roundUp (n a : Nat) : Nat := n + (a - n % a) % a

/-- The greatest multiple of `a` at or below `n`. -/
def roundDown (n a : Nat) : Nat := n - n % a

variable {n a : Nat}

theorem le_roundUp : n ≤ roundUp n a := Nat.le_add_right _ _

/-- The multiple `roundUp` reaches is the remainder's complement away. -/
theorem roundUp_of_mod_ne (ha : 0 < a) (h : n % a ≠ 0) : roundUp n a = n + (a - n % a) := by
  have hlt := Nat.mod_lt n ha
  rw [roundUp, Nat.mod_eq_of_lt (by omega)]

theorem roundUp_of_mod (h : n % a = 0) : roundUp n a = n := by
  simp [roundUp, h]

theorem roundUp_mod (ha : 0 < a) : roundUp n a % a = 0 := by
  by_cases h : n % a = 0
  · rwa [roundUp_of_mod h]
  · rw [roundUp_of_mod_ne ha h, Nat.add_mod, Nat.mod_eq_of_lt (show a - n % a < a by omega)]
    have hlt := Nat.mod_lt n ha
    rw [show n % a + (a - n % a) = a by omega, Nat.mod_self]

/-- `roundUp` is the least multiple of `a` at or above `n`. -/
theorem roundUp_le {q : Nat} (ha : 0 < a) (hn : n ≤ q) (hq : q % a = 0) : roundUp n a ≤ q := by
  by_cases h : n % a = 0
  · rw [roundUp_of_mod h]
    exact hn
  · rw [roundUp_of_mod_ne ha h]
    -- `n` and `q` differ by a multiple of `a` plus the complement of `n`'s
    -- remainder; `q ≠ n` since their remainders differ
    have hdiv : n / a < q / a := by
      have hq' : q = a * (q / a) := by
        have := Nat.div_add_mod q a
        omega
      by_contra hge
      have hle : q / a ≤ n / a := Nat.le_of_not_lt hge
      have := Nat.div_add_mod n a
      have : a * (q / a) ≤ a * (n / a) := Nat.mul_le_mul_left _ hle
      omega
    have hn' := Nat.div_add_mod n a
    have hq' := Nat.div_add_mod q a
    have : a * (n / a + 1) ≤ a * (q / a) := Nat.mul_le_mul_left _ hdiv
    rw [Nat.mul_succ] at this
    omega

/-- Rounding up past a multiple of `a` rounds up the rest. -/
theorem roundUp_add_of_mod {c : Nat} (hc : c % a = 0) : roundUp (c + n) a = c + roundUp n a := by
  rw [roundUp, roundUp, Nat.add_mod, hc, Nat.zero_add, Nat.mod_mod, Nat.add_assoc]

theorem roundDown_le : roundDown n a ≤ n := Nat.sub_le _ _

theorem roundDown_add_mod : roundDown n a + n % a = n :=
  Nat.sub_add_cancel (Nat.mod_le n a)

theorem roundDown_mono {m : Nat} (h : n ≤ m) : roundDown n a ≤ roundDown m a := by
  rw [roundDown, roundDown, ← Nat.div_mul_self_eq_mod_sub_self, ← Nat.div_mul_self_eq_mod_sub_self]
  exact Nat.mul_le_mul_right _ (Nat.div_le_div_right h)

theorem roundDown_mod : roundDown n a % a = 0 := by
  rw [roundDown, ← Nat.div_mul_self_eq_mod_sub_self, Nat.mul_mod_left]

/-- Clearing the `k` low bits of a `w`-bit word, `n & !(2 ^ k - 1)` with `!`
the `w`-bit complement, rounds it down to a multiple of `2 ^ k`. -/
theorem land_compl_eq_roundDown {k w : Nat} (hk : k ≤ w) (hn : n < 2 ^ w) :
    n &&& ((2 ^ k - 1) ^^^ (2 ^ w - 1)) = roundDown n (2 ^ k) := by
  rw [roundDown, ← Nat.div_mul_self_eq_mod_sub_self]
  apply Nat.eq_of_testBit_eq
  intro i
  rw [Nat.testBit_and, Nat.testBit_xor, Nat.testBit_two_pow_sub_one, Nat.testBit_two_pow_sub_one,
    Nat.testBit_mul_two_pow]
  -- bits at or above `w` are clear in `n`; below it the mask keeps bits `≥ k`
  by_cases hw : i < w
  · by_cases hik : i < k
    · simp [hik, hw]
    · rw [Nat.testBit_div_two_pow, Nat.sub_add_cancel (Nat.le_of_not_lt hik)]
      simp [hik, hw, Nat.le_of_not_lt hik]
  · have hi : n.testBit i = false :=
      Nat.testBit_lt_two_pow (Nat.lt_of_lt_of_le hn (Nat.pow_le_pow_right (by decide) (by omega)))
    have hik : ¬ i < k := by omega
    rw [hi, Nat.testBit_div_two_pow, Nat.sub_add_cancel (Nat.le_of_not_lt hik), hi]
    simp

end Align

namespace Checked

/-- `n.next_multiple_of(a)` on `w`-bit integers: the remainder (a zero `a`
panics), then `n` itself or `n + (a - r)`, an addition that may overflow. -/
def nextMultipleOf (w n a : Nat) : Option Nat := do
  let r ← rem n a
  if r = 0 then pure n else add w n (a - r)

/-- Where it does not overflow, `next_multiple_of` is `roundUp`. -/
theorem nextMultipleOf_of_lt {w n a : Nat} (ha : 0 < a) (h : Align.roundUp n a < 2 ^ w) :
    nextMultipleOf w n a = some (Align.roundUp n a) := by
  simp only [nextMultipleOf, rem_of_ne_zero (Nat.pos_iff_ne_zero.1 ha), Option.pure_def,
    Option.bind_eq_bind, Option.bind_some]
  split
  · rename_i h0
    rw [Align.roundUp_of_mod h0]
  · rename_i h0
    rw [Align.roundUp_of_mod_ne ha h0] at h ⊢
    exact add_of_lt h

end Checked
