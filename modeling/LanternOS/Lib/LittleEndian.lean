/-
# `LittleEndian` — unsigned integers stored as little-endian bytes

A `repr(C)` struct read from a byte buffer on a little-endian machine holds
each integer field as its bytes, least significant first.  `ofBytes` is the
value of such bytes and `field raw off w` the `w`-byte field at byte `off`
of a raw struct; `toBytes n w` writes `n` into `w` bytes.  A run of
`w`-byte values is `chunks w k bs`, read from the front of `bs`, and
`toChunks w vs`, written out.

The facts the decoders need: bytes read as values and written back are the
bytes (`toBytes_ofBytes`, and `toChunks_chunks` for a run of them), and a
value assembled by shifts and ors of its bytes is the same value
(`or_shiftLeft_eq_ofBytes`).
-/
import Mathlib

namespace LittleEndian

/-- The value of bytes read least significant first. -/
def ofBytes : List UInt8 → Nat
  | [] => 0
  | b :: bs => b.toNat + 256 * ofBytes bs

/-- The `w` low bytes of `n`, least significant first. -/
def toBytes (n : Nat) : Nat → List UInt8
  | 0 => []
  | w + 1 => UInt8.ofNat (n % 256) :: toBytes (n / 256) w

/-- The `w`-byte field at byte `off` of a raw struct. -/
def field (raw : List UInt8) (off w : Nat) : Nat :=
  ofBytes ((raw.drop off).take w)

@[simp] theorem ofBytes_nil : ofBytes [] = 0 := rfl

@[simp] theorem ofBytes_cons (b : UInt8) (bs : List UInt8) :
    ofBytes (b :: bs) = b.toNat + 256 * ofBytes bs := rfl

@[simp] theorem length_toBytes (n w : Nat) : (toBytes n w).length = w := by
  induction w generalizing n with
  | zero => rfl
  | succ w ih => simp [toBytes, ih]

theorem ofBytes_lt (bs : List UInt8) : ofBytes bs < 2 ^ (8 * bs.length) := by
  induction bs with
  | nil => simp
  | cons b bs ih =>
      have hb : b.toNat < 256 := b.toNat_lt
      have hpow : 2 ^ (8 * (bs.length + 1)) = 256 * 2 ^ (8 * bs.length) := by
        rw [Nat.mul_succ, Nat.pow_add, Nat.mul_comm]
      rw [ofBytes_cons, List.length_cons, hpow]
      -- `b + 256 * v < 256 * (v + 1) ≤ 256 * 2 ^ (8 * length)`
      have : 256 * (ofBytes bs + 1) ≤ 256 * 2 ^ (8 * bs.length) := Nat.mul_le_mul_left _ ih
      omega

/-- Bytes read as a value and written back into as many bytes. -/
theorem toBytes_ofBytes (bs : List UInt8) : toBytes (ofBytes bs) bs.length = bs := by
  induction bs with
  | nil => rfl
  | cons b bs ih =>
      have hb : b.toNat < 256 := b.toNat_lt
      have hmod : (b.toNat + 256 * ofBytes bs) % 256 = b.toNat := by omega
      have hdiv : (b.toNat + 256 * ofBytes bs) / 256 = ofBytes bs := by omega
      rw [List.length_cons, toBytes, ofBytes_cons, hmod, hdiv, ih, UInt8.ofNat_toNat]

/-- Four bytes assembled by shifts and ors, least significant first: the
ors never meet, so they are sums. -/
theorem or_shiftLeft_eq_ofBytes (b0 b1 b2 b3 : UInt8) :
    (b0.toNat ||| b1.toNat <<< 8 ||| b2.toNat <<< 16 ||| b3.toNat <<< 24) = ofBytes [b0, b1, b2, b3] := by
  have h0 : b0.toNat < 2 ^ 8 := b0.toNat_lt
  have h1 : b1.toNat < 2 ^ 8 := b1.toNat_lt
  have h2 : b2.toNat < 2 ^ 8 := b2.toNat_lt
  -- each partial or is below the next shift, so adding the next byte is an or
  have e1 : b0.toNat ||| b1.toNat <<< 8 = b0.toNat + 2 ^ 8 * b1.toNat := by
    rw [Nat.lor_comm, ← Nat.shiftLeft_add_eq_or_of_lt h0, Nat.shiftLeft_eq]
    omega
  have e2 : b0.toNat + 2 ^ 8 * b1.toNat ||| b2.toNat <<< 16 =
      b0.toNat + 2 ^ 8 * b1.toNat + 2 ^ 16 * b2.toNat := by
    rw [Nat.lor_comm, ← Nat.shiftLeft_add_eq_or_of_lt (by omega), Nat.shiftLeft_eq]
    omega
  have e3 : b0.toNat + 2 ^ 8 * b1.toNat + 2 ^ 16 * b2.toNat ||| b3.toNat <<< 24 =
      b0.toNat + 2 ^ 8 * b1.toNat + 2 ^ 16 * b2.toNat + 2 ^ 24 * b3.toNat := by
    rw [Nat.lor_comm, ← Nat.shiftLeft_add_eq_or_of_lt (by omega), Nat.shiftLeft_eq]
    omega
  rw [e1, e2, e3]
  simp only [ofBytes_cons, ofBytes_nil]
  omega

/-! ## Runs of values -/

/-- `k` values of `w` bytes each, from the front of `bs`. -/
def chunks (w : Nat) : Nat → List UInt8 → List Nat
  | 0, _ => []
  | k + 1, bs => ofBytes (bs.take w) :: chunks w k (bs.drop w)

/-- Values written out `w` bytes each. -/
def toChunks (w : Nat) (vs : List Nat) : List UInt8 :=
  vs.flatMap fun v => toBytes v w

@[simp] theorem toChunks_nil (w : Nat) : toChunks w [] = [] := rfl

@[simp] theorem length_chunks (w k : Nat) (bs : List UInt8) : (chunks w k bs).length = k := by
  induction k generalizing bs with
  | zero => rfl
  | succ k ih => simp [chunks, ih]

@[simp] theorem toChunks_cons (w v : Nat) (vs : List Nat) :
    toChunks w (v :: vs) = toBytes v w ++ toChunks w vs := rfl

/-- The `i`-th value is read from the `i`-th group of `w` bytes. -/
theorem getElem?_chunks {w k i : Nat} {bs : List UInt8} (h : i < k) :
    (chunks w k bs)[i]? = some (ofBytes ((bs.drop (w * i)).take w)) := by
  induction k generalizing bs i with
  | zero => omega
  | succ k ih =>
      cases i with
      | zero => simp [chunks]
      | succ i =>
          rw [chunks, List.getElem?_cons_succ, ih (by omega), List.drop_drop, Nat.mul_succ, Nat.add_comm w]

/-- The first `k₁ + k₂` values are the first `k₁`, then `k₂` more from
where they end. -/
theorem chunks_add (w k₁ k₂ : Nat) (bs : List UInt8) :
    chunks w (k₁ + k₂) bs = chunks w k₁ bs ++ chunks w k₂ (bs.drop (w * k₁)) := by
  induction k₁ generalizing bs with
  | zero => simp [chunks]
  | succ k ih =>
      rw [Nat.add_right_comm, chunks, chunks, ih, List.drop_drop, Nat.mul_succ, Nat.add_comm w]
      rfl

/-- Bytes read as values and written back are the bytes read. -/
theorem toChunks_chunks {w k : Nat} {bs : List UInt8} (h : w * k ≤ bs.length) :
    toChunks w (chunks w k bs) = bs.take (w * k) := by
  induction k generalizing bs with
  | zero => simp [chunks]
  | succ k ih =>
      have hw : (bs.take w).length = w := List.length_take_of_le (by rw [Nat.mul_succ] at h; omega)
      have hrest : w * k ≤ (bs.drop w).length := by
        rw [List.length_drop, Nat.mul_succ] at *
        omega
      have hfirst : toBytes (ofBytes (bs.take w)) w = bs.take w := by
        have h := toBytes_ofBytes (bs.take w)
        rwa [hw] at h
      rw [chunks, toChunks_cons, ih hrest, hfirst, Nat.mul_succ, Nat.add_comm _ w, List.take_add]

end LittleEndian
