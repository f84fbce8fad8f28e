/-
# `Bitfield` — bit ranges of a machine word

The `bitfield!` macro of the `bitfield` crate gives a struct over a `u64` one
getter and one setter per declared field: the getter reads bits `hi` down to
`lo` (`BitRange::bit_range`), the setter writes the low bits of a value into
them and leaves every other bit alone (`BitRange::set_bit_range`).  A
one-bit field reads as a `bool`.

A word is a `Nat` here.  `bitRange` and `setBitRange` are those two
operations, by division and remainder: a word is its bits above `hi`, the
field, and its bits below `lo`.  What the page tables need of them is that
a field reads back what was written into it (`bitRange_setBitRange`) and
that writing a field leaves the fields below it as they were
(`bitRange_setBitRange_of_lt`); with those, a descriptor built by a
sequence of setters is read field by field.
-/
import Mathlib

namespace Bitfield

/-- Bits `hi` down to `lo` of `x`. -/
def bitRange (x hi lo : Nat) : Nat :=
  x / 2 ^ lo % 2 ^ (hi + 1 - lo)

/-- `x` with bits `hi` down to `lo` replaced by the low bits of `v`. -/
def setBitRange (x hi lo v : Nat) : Nat :=
  x / 2 ^ (hi + 1) * 2 ^ (hi + 1) + v % 2 ^ (hi + 1 - lo) * 2 ^ lo + x % 2 ^ lo

/-- A one-bit field. -/
def bit (x i : Nat) : Bool :=
  bitRange x i i == 1

/-- The setter of a one-bit field. -/
def setBit (x i : Nat) (b : Bool) : Nat :=
  setBitRange x i i (if b then 1 else 0)

variable {x v hi lo hi' lo' : Nat}

@[simp] theorem bitRange_zero : bitRange 0 hi lo = 0 := by
  simp [bitRange]

/-- The word below a field's top is the field's width above its bottom. -/
theorem two_pow_succ_eq (h : lo ≤ hi) : 2 ^ (hi + 1) = 2 ^ (hi + 1 - lo) * 2 ^ lo := by
  rw [← Nat.pow_add]
  congr 1
  omega

/-- A field is the word's remainder below its top, shifted down. -/
theorem bitRange_eq_mod_div (h : lo ≤ hi) : bitRange x hi lo = x % 2 ^ (hi + 1) / 2 ^ lo := by
  rw [bitRange, two_pow_succ_eq h, Nat.mul_comm (2 ^ (hi + 1 - lo)), Nat.mod_mul_right_div_self]

/-- A setter's word: the bits above the field, the field, and the bits
below it. -/
theorem setBitRange_form (h : lo ≤ hi) : setBitRange x hi lo v =
    (x / 2 ^ (hi + 1) * 2 ^ (hi + 1 - lo) + v % 2 ^ (hi + 1 - lo)) * 2 ^ lo + x % 2 ^ lo := by
  rw [setBitRange, two_pow_succ_eq h, Nat.add_mul, Nat.mul_assoc]

/-- A setter leaves the bits below the field alone. -/
theorem setBitRange_mod (h : lo ≤ hi) : setBitRange x hi lo v % 2 ^ lo = x % 2 ^ lo := by
  rw [setBitRange_form h, Nat.add_comm, Nat.add_mul_mod_self_right, Nat.mod_mod]

/-- A field reads back what its setter wrote. -/
theorem bitRange_setBitRange (h : lo ≤ hi) :
    bitRange (setBitRange x hi lo v) hi lo = v % 2 ^ (hi + 1 - lo) := by
  have hx : x % 2 ^ lo < 2 ^ lo := Nat.mod_lt _ (Nat.two_pow_pos _)
  -- the word is `(a * 2^w + f) * 2^lo + r` with `r < 2^lo`
  rw [bitRange, setBitRange_form h, Nat.add_comm _ (x % 2 ^ lo),
    Nat.add_mul_div_right _ _ (Nat.two_pow_pos _), Nat.div_eq_of_lt hx, Nat.zero_add,
    Nat.add_comm, Nat.add_mul_mod_self_right, Nat.mod_mod]

/-- Writing a field leaves a field below it as it was. -/
theorem bitRange_setBitRange_of_lt (h : lo ≤ hi) (h' : lo' ≤ hi') (hlt : hi' < lo) :
    bitRange (setBitRange x hi lo v) hi' lo' = bitRange x hi' lo' := by
  have hdvd : 2 ^ (hi' + 1) ∣ 2 ^ lo := Nat.pow_dvd_pow 2 hlt
  rw [bitRange_eq_mod_div h', bitRange_eq_mod_div h', ← Nat.mod_mod_of_dvd _ hdvd,
    setBitRange_mod h, Nat.mod_mod_of_dvd _ hdvd]

@[simp] theorem bit_setBit (b : Bool) {i : Nat} : bit (setBit x i b) i = b := by
  cases b <;> simp [bit, setBit, bitRange_setBitRange (Nat.le_refl i)]

theorem bit_setBitRange_of_lt {i : Nat} (h : lo ≤ hi) (hlt : i < lo) :
    bit (setBitRange x hi lo v) i = bit x i := by
  rw [bit, bitRange_setBitRange_of_lt h (Nat.le_refl i) hlt, bit]

end Bitfield
