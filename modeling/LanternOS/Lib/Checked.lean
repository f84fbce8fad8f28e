/-
# `Checked` — machine arithmetic and bounded vectors that can panic

The Rust code modelled in this development does three things that end in a
panic rather than a value: unsigned arithmetic that leaves its width (the
debug profile checks every `+`, `-` and `*`; a `%` by zero always panics),
indexing or slicing past the end of a slice, and pushing onto a full
fixed-capacity vector.  In the model a panic is `none` of `Option`; a
computation that may panic is an `Option`, and the `Except` of a Rust
`Result` sits inside it.

Nothing here names the program.  The operations are the ones the models use,
each with the two lemmas that say when it succeeds and what it returns, so
that no proof about a caller unfolds them.

`ArrayVec` is the fixed-capacity vector of the crate of that name.  It is a
plain list here: the capacity is an argument of the operations that can
exceed it, and that the length stays within it is a lemma about the callers,
not a field.  `UnstableSort` is `sort_unstable_by` on a key: any function
returning a sorted permutation, because the documentation fixes nothing
about the order of equal keys.

A model that must tell its ways of failing apart (a panic, a read outside
its input) runs in `Except` instead; a chain of its binds that returned a
value is taken apart one step at a time with `bind_eq_ok`.
-/
import Mathlib

namespace Checked

/-! ## Fallible computations in `Except` -/

section Except

variable {ε α β : Type}

end Except

/-! ## Panics and `Result`s together

A function that can panic and also return an `Err` of its own runs in
`ExceptT ε Option`: `none` is the panic and `some (.error e)` the `Err`. -/

section ExceptTOption

variable {ε α β : Type}

/-- A chain that returned `Ok`: its first step did, and the rest did from
there. -/
theorem run_bind_eq_ok {x : ExceptT ε Option α} {f : α → ExceptT ε Option β} {b : β}
    (h : (x >>= f).run = some (.ok b)) : ∃ a, x.run = some (.ok a) ∧ (f a).run = some (.ok b) := by
  rw [ExceptT.run_bind] at h
  obtain ⟨r, hr, h⟩ := Option.bind_eq_some_iff.1 h
  cases r with
  | ok a => exact ⟨a, hr, h⟩
  | error e => cases h

/-- A computation that can only panic, lifted into the chain, returned what
it returns. -/
theorem run_liftM_eq_ok {x : Option α} {a : α}
    (h : (liftM x : ExceptT ε Option α).run = some (.ok a)) : x = some a := by
  cases x with
  | none => cases h
  | some b =>
      cases h
      rfl

/-- A first step that returned `Ok a` hands `a` to the rest. -/
theorem run_bind_of_ok {x : ExceptT ε Option α} {f : α → ExceptT ε Option β} {a : α}
    (hx : x.run = some (.ok a)) : (x >>= f).run = (f a).run := by
  rw [ExceptT.run_bind, hx]
  rfl

@[simp] theorem liftM_some_bind (a : α) (f : α → ExceptT ε Option β) :
    (liftM (some a) >>= f) = f a := rfl

@[simp] theorem run_liftM_none_bind (f : α → ExceptT ε Option β) :
    (liftM (none : Option α) >>= f).run = none := rfl

/-- A fold whose every step that returns `Ok` keeps `P` keeps it over the
whole list. -/
theorem foldlM_inv (P : α → Prop) (f : α → β → ExceptT ε Option α)
    (hf : ∀ s x s', P s → (f s x).run = some (.ok s') → P s') :
    ∀ (xs : List β) (s s' : α), P s → (xs.foldlM f s).run = some (.ok s') → P s'
  | [], s, s', hs, h => by
      cases h
      exact hs
  | x :: xs, s, s', hs, h => by
      rw [List.foldlM_cons] at h
      obtain ⟨s₁, h₁, h⟩ := run_bind_eq_ok h
      exact foldlM_inv P f hf xs s₁ s' (hf s x s₁ hs h₁) h

end ExceptTOption

/-! ## Checked unsigned arithmetic -/

/-- Subtraction of unsigned integers: `none` when it would underflow. -/
def sub (a b : Nat) : Option Nat :=
  if b ≤ a then some (a - b) else none

/-- Addition of `w`-bit unsigned integers: `none` when it would overflow. -/
def add (w a b : Nat) : Option Nat :=
  if a + b < 2 ^ w then some (a + b) else none

/-- Multiplication of `w`-bit unsigned integers: `none` when it would overflow. -/
def mul (w a b : Nat) : Option Nat :=
  if a * b < 2 ^ w then some (a * b) else none

/-- Remainder of unsigned integers: `none` when dividing by zero. -/
def rem (a b : Nat) : Option Nat :=
  if b = 0 then none else some (a % b)

/-- Division of unsigned integers: `none` when dividing by zero. -/
def div (a b : Nat) : Option Nat :=
  if b = 0 then none else some (a / b)

/-- `a << b` on `w`-bit unsigned integers: the bits shifted past the width
are lost, and a shift by `w` or more panics. -/
def shl (w a b : Nat) : Option Nat :=
  if b < w then some ((a <<< b) % 2 ^ w) else none

@[simp] theorem sub_eq_some {a b c : Nat} : sub a b = some c ↔ b ≤ a ∧ a - b = c := by
  unfold sub
  split <;> simp_all

theorem sub_of_le {a b : Nat} (h : b ≤ a) : sub a b = some (a - b) := by
  simp [sub, h]

@[simp] theorem add_eq_some {w a b c : Nat} : add w a b = some c ↔ a + b < 2 ^ w ∧ a + b = c := by
  unfold add
  split <;> simp_all

theorem add_of_lt {w a b : Nat} (h : a + b < 2 ^ w) : add w a b = some (a + b) := by
  simp [add, h]

@[simp] theorem add_eq_none {w a b : Nat} : add w a b = none ↔ 2 ^ w ≤ a + b := by
  unfold add
  split <;> simp_all

theorem mul_of_lt {w a b : Nat} (h : a * b < 2 ^ w) : mul w a b = some (a * b) := by
  simp [mul, h]

@[simp] theorem mul_eq_none {w a b : Nat} : mul w a b = none ↔ 2 ^ w ≤ a * b := by
  unfold mul
  split <;> simp_all

theorem rem_of_ne_zero {a b : Nat} (h : b ≠ 0) : rem a b = some (a % b) := by
  simp [rem, h]

theorem div_of_ne_zero {a b : Nat} (h : b ≠ 0) : div a b = some (a / b) := by
  simp [div, h]

theorem shl_eq_none {w a b : Nat} (h : w ≤ b) : shl w a b = none := by
  simp [shl, Nat.not_lt.2 h]

/-- A sum taken with checked additions does not overflow when the total
fits: the partial sums are below it. -/
theorem foldlM_add_of_lt {β : Type} {w : Nat} (f : β → Nat) :
    ∀ (l : List β) (a : Nat), a + (l.map f).sum < 2 ^ w →
      l.foldlM (fun c x => add w c (f x)) a = some (a + (l.map f).sum)
  | [], a, _ => by simp
  | x :: xs, a, h => by
      rw [List.map_cons, List.sum_cons] at h ⊢
      rw [List.foldlM_cons, add_of_lt (by omega), Option.bind_eq_bind, Option.bind_some,
        foldlM_add_of_lt f xs (a + f x) (by omega), Nat.add_assoc]

/-- Checked sums `a + x` over a list do not overflow when each fits. -/
theorem mapM_add_of_lt {w a : Nat} : ∀ (l : List Nat), (∀ x ∈ l, a + x < 2 ^ w) →
    l.mapM (fun x => add w a x) = some (l.map (a + ·))
  | [], _ => rfl
  | x :: xs, h => by
      rw [List.mapM_cons, add_of_lt (h x List.mem_cons_self),
        mapM_add_of_lt xs (fun y hy => h y (List.mem_cons_of_mem _ hy))]
      rfl

/-! ## Iterating a range by steps -/

/-- `(lo..hi).step_by(step)`, collected: `lo`, `lo + step`, `lo + 2 * step`,
… below `hi`.  `step_by` panics on a step of zero. -/
def stepBy (lo hi step : Nat) : Option (List Nat) :=
  if step = 0 then none else some (List.range' lo ((hi - lo + step - 1) / step) step)

theorem stepBy_of_pos {lo hi step : Nat} (h : 0 < step) :
    stepBy lo hi step = some (List.range' lo ((hi - lo + step - 1) / step) step) := by
  simp [stepBy, Nat.pos_iff_ne_zero.1 h]

/-- The `i`-th step is below `hi` exactly when `i` is below the number of
steps, `⌈(hi - lo) / step⌉`. -/
theorem lt_steps_iff {d step i : Nat} (h : 0 < step) :
    i < (d + step - 1) / step ↔ step * i < d := by
  rw [← Nat.succ_le_iff, Nat.le_div_iff_mul_le h, Nat.succ_mul, Nat.mul_comm]
  omega

theorem mem_stepBy {lo hi step a : Nat} {l : List Nat} (h : stepBy lo hi step = some l) :
    a ∈ l ↔ lo ≤ a ∧ a < hi ∧ (a - lo) % step = 0 := by
  have hstep : 0 < step := by
    unfold stepBy at h
    split at h
    · cases h
    · omega
  rw [stepBy_of_pos hstep, Option.some.injEq] at h
  subst h
  rw [List.mem_range']
  constructor
  · rintro ⟨i, hi, rfl⟩
    have hlt := (lt_steps_iff hstep).1 hi
    refine ⟨Nat.le_add_right _ _, by omega, ?_⟩
    rw [Nat.add_sub_cancel_left, Nat.mul_mod_right]
  · rintro ⟨hlo, hhi, hmod⟩
    -- the step count of `a` is `(a - lo) / step`, exactly
    have hdiv : step * ((a - lo) / step) = a - lo := Nat.mul_div_cancel' (Nat.dvd_of_mod_eq_zero hmod)
    refine ⟨(a - lo) / step, (lt_steps_iff hstep).2 (by omega), by omega⟩

theorem stepBy_nodup {lo hi step : Nat} {l : List Nat} (h : stepBy lo hi step = some l) :
    l.Nodup := by
  unfold stepBy at h
  split at h
  · cases h
  · rw [Option.some.injEq] at h
    subst h
    exact List.nodup_range' _ (by omega)

/-! ## Casts and signed arithmetic

`as` never panics: narrowing keeps the low bits, and a signed value is read
in two's complement.  Signed addition is checked like unsigned addition. -/

/-- `n as uW` of an unsigned integer: its low `w` bits. -/
def truncate (w n : Nat) : Nat := n % 2 ^ w

/-- `x as uW` of a signed integer: its two's-complement bits. -/
def toUnsigned (w : Nat) (x : Int) : Nat := (x % 2 ^ w).toNat

/-- `n as iW` of an unsigned integer: its low `w` bits read in two's
complement. -/
def toSigned (w n : Nat) : Int :=
  if n % 2 ^ w < 2 ^ (w - 1) then ((n % 2 ^ w : Nat) : Int) else ((n % 2 ^ w : Nat) : Int) - 2 ^ w

/-- Addition of `w`-bit signed integers: `none` when the sum leaves
`[-2 ^ (w - 1), 2 ^ (w - 1))`. -/
def addSigned (w : Nat) (a b : Int) : Option Int :=
  if -2 ^ (w - 1) ≤ a + b ∧ a + b < 2 ^ (w - 1) then some (a + b) else none

section Casts

variable {w n : Nat}

theorem truncate_of_lt (h : n < 2 ^ w) : truncate w n = n := Nat.mod_eq_of_lt h

theorem truncate_lt (hw : 0 < 2 ^ w) : truncate w n < 2 ^ w := Nat.mod_lt n hw

theorem toUnsigned_of_nonneg {x : Int} (h0 : 0 ≤ x) (h : x < 2 ^ w) : toUnsigned w x = x.toNat := by
  rw [toUnsigned, Int.emod_eq_of_lt h0 h]

theorem toSigned_of_lt (h : n < 2 ^ (w - 1)) : toSigned w n = n := by
  have hw : 2 ^ (w - 1) ≤ 2 ^ w := Nat.pow_le_pow_right (by decide) (Nat.sub_le w 1)
  rw [toSigned, Nat.mod_eq_of_lt (by omega), if_pos h]

theorem addSigned_of_lt {a b : Int} (h0 : -2 ^ (w - 1) ≤ a + b) (h : a + b < 2 ^ (w - 1)) :
    addSigned w a b = some (a + b) := by
  simp [addSigned, h0, h]

end Casts

end Checked

/-! ## Slices

Indexing a slice by a range panics when the range is out of order or runs
past the end; `copy_from_slice` panics unless the two lengths agree. -/

namespace Slice

variable {α : Type}

/-- `&v[i..]`. -/
def sliceFrom (v : List α) (i : Nat) : Option (List α) :=
  if i ≤ v.length then some (v.drop i) else none

/-- `&v[..j]`. -/
def sliceTo (v : List α) (j : Nat) : Option (List α) :=
  if j ≤ v.length then some (v.take j) else none

/-- `&v[lo..hi]`, read. -/
def range (v : List α) (lo hi : Nat) : Option (List α) :=
  if lo ≤ hi ∧ hi ≤ v.length then some ((v.drop lo).take (hi - lo)) else none

/-- `v[i] = x`. -/
def set (v : List α) (i : Nat) (x : α) : Option (List α) :=
  if i < v.length then some (v.set i x) else none

/-- `dst.copy_from_slice(src)`: `dst` becomes `src`. -/
def copyFromSlice (dst src : List α) : Option (List α) :=
  if dst.length = src.length then some src else none

/-- `v[lo..hi].copy_from_slice(src)`: the range of `v` becomes `src`. -/
def copyIntoRange (v : List α) (lo hi : Nat) (src : List α) : Option (List α) :=
  if lo ≤ hi ∧ hi ≤ v.length ∧ src.length = hi - lo then some (v.take lo ++ src ++ v.drop hi)
  else none

/-- `v` with `src` written over it from `lo`: what a run of writes into a
slice leaves. -/
def splice (v : List α) (lo : Nat) (src : List α) : List α :=
  v.take lo ++ src ++ v.drop (lo + src.length)

variable {v dst src : List α} {i j lo hi : Nat}

theorem sliceFrom_of_le (h : i ≤ v.length) : sliceFrom v i = some (v.drop i) := by
  simp [sliceFrom, h]

theorem sliceFrom_of_lt (h : v.length < i) : sliceFrom v i = none := by
  simp [sliceFrom, Nat.not_le.2 h]

theorem sliceTo_of_le (h : j ≤ v.length) : sliceTo v j = some (v.take j) := by
  simp [sliceTo, h]

theorem copyFromSlice_of_eq (h : dst.length = src.length) : copyFromSlice dst src = some src := by
  simp [copyFromSlice, h]

theorem copyFromSlice_of_ne (h : dst.length ≠ src.length) : copyFromSlice dst src = none := by
  simp [copyFromSlice, h]

theorem copyIntoRange_of_le (hlo : lo ≤ hi) (hhi : hi ≤ v.length) (hsrc : src.length = hi - lo) :
    copyIntoRange v lo hi src = some (v.take lo ++ src ++ v.drop hi) := by
  simp [copyIntoRange, hlo, hhi, hsrc]

/-- What a copy into a range leaves at each index: `src` inside the range,
`v` outside it. -/
theorem getElem?_copyIntoRange {k : Nat} (hlo : lo ≤ hi) (hhi : hi ≤ v.length)
    (hsrc : src.length = hi - lo) :
    (v.take lo ++ src ++ v.drop hi)[k]? = if lo ≤ k ∧ k < hi then src[k - lo]? else v[k]? := by
  have htake : (v.take lo).length = lo := List.length_take_of_le (by omega)
  rw [List.append_assoc]
  by_cases hk : k < lo
  · rw [List.getElem?_append_left (by omega), List.getElem?_take_of_lt hk, if_neg (by omega)]
  · rw [List.getElem?_append_right (by omega), htake]
    by_cases hk' : k < hi
    · rw [List.getElem?_append_left (by omega), if_pos ⟨by omega, hk'⟩]
    · -- past the range the tail of `v` starts at `hi`
      rw [List.getElem?_append_right (by omega), List.getElem?_drop, if_neg (by omega)]
      congr 1
      omega

/-! ### Writes into a slice, spliced -/

theorem length_splice (h : lo + src.length ≤ v.length) : (splice v lo src).length = v.length := by
  simp only [splice, List.length_append, List.length_take, List.length_drop]
  omega

/-- Writing `a` and then `b` right after it writes `a ++ b`. -/
theorem splice_splice {a b : List α} (h : lo ≤ v.length) :
    splice (splice v lo a) (lo + a.length) b = splice v lo (a ++ b) := by
  have htake : (v.take lo).length = lo := List.length_take_of_le h
  have hpre : (splice v lo a).take (lo + a.length) = v.take lo ++ a := by
    rw [splice, List.append_assoc, List.take_append, htake, List.take_of_length_le (by omega),
      Nat.add_sub_cancel_left, List.take_append, List.take_of_length_le (Nat.le_refl _), Nat.sub_self,
      List.take_zero, List.append_nil]
  have hpost : (splice v lo a).drop (lo + a.length + b.length) = v.drop (lo + (a ++ b).length) := by
    rw [splice, List.append_assoc, List.drop_append, htake, List.drop_eq_nil_of_le (by omega),
      List.nil_append, List.drop_append, List.drop_eq_nil_of_le (by omega), List.nil_append,
      List.drop_drop, List.length_append]
    congr 1
    omega
  rw [splice, hpre, hpost, splice]
  simp only [List.append_assoc]

theorem splice_nil : splice v lo [] = v := by
  simp [splice]

/-- Writing a run is writing its first element and then the rest. -/
theorem splice_cons {x : α} {xs : List α} (h : lo < v.length) :
    splice v lo (x :: xs) = splice (v.set lo x) (lo + 1) xs := by
  have htake : (v.take lo).length = lo := List.length_take_of_le (by omega)
  have hset : v.set lo x = v.take lo ++ x :: v.drop (lo + 1) := by
    rw [List.set_eq_take_append_cons_drop, if_pos h]
  have hpre : (v.set lo x).take (lo + 1) = v.take lo ++ [x] := by
    rw [hset, List.take_append, htake, List.take_of_length_le (by omega), Nat.add_sub_cancel_left]
    rfl
  have hpost : (v.set lo x).drop (lo + 1 + xs.length) = v.drop (lo + (x :: xs).length) := by
    rw [hset, List.drop_append, htake, List.drop_eq_nil_of_le (by omega), List.nil_append,
      show lo + 1 + xs.length - lo = xs.length + 1 by omega, List.drop_succ_cons, List.drop_drop,
      List.length_cons]
    congr 1
    omega
  rw [splice, splice, hpre, hpost]
  simp

/-- A copy into a range is a splice, when the range is in bounds. -/
theorem copyIntoRange_eq (hlo : lo ≤ hi) (hsrc : src.length = hi - lo) :
    copyIntoRange v lo hi src = if hi ≤ v.length then some (splice v lo src) else none := by
  have hhi : lo + src.length = hi := by omega
  by_cases h : hi ≤ v.length
  · rw [copyIntoRange_of_le hlo h hsrc, if_pos h, splice, hhi]
  · simp [copyIntoRange, h]

end Slice

namespace ArrayVec

variable {α : Type}

/-! ## Fixed-capacity vectors -/

/-- `push`: panics when the vector already holds `cap` elements. -/
def push (cap : Nat) (v : List α) (x : α) : Option (List α) :=
  if v.length < cap then some (v ++ [x]) else none

/-- `try_push`: an error, and the vector unchanged, when it is full. -/
def tryPush (cap : Nat) (v : List α) (x : α) : Except Unit (List α) :=
  if v.length < cap then .ok (v ++ [x]) else .error ()

/-- `try_extend_from_slice`: an error, and nothing added, when the slice does
not fit in the remaining capacity. -/
def tryExtendFromSlice (cap : Nat) (v xs : List α) : Except Unit (List α) :=
  if cap - v.length < xs.length then .error () else .ok (v ++ xs)

@[simp] theorem push_eq_some {cap : Nat} {v w : List α} {x : α} :
    push cap v x = some w ↔ v.length < cap ∧ v ++ [x] = w := by
  unfold push
  split <;> simp_all

/-! ## Unstable sorting -/

/-- `sort_unstable_by` comparing a natural-number key: any function that
returns a permutation of its input, ordered by the key.  Equal keys may come
out in any order. -/
structure UnstableSort (α : Type) (key : α → Nat) where
  sort : List α → List α
  perm : ∀ l, List.Perm (sort l) l
  sorted : ∀ l, (sort l).Pairwise (fun a b => key a ≤ key b)

/-- One unstable sort: insertion sort (which happens to be stable, one of the
behaviours `sort_unstable_by` allows).  It is structurally recursive, so a
sort of a concrete list evaluates by `rfl`. -/
def UnstableSort.insertionSort (key : α → Nat) : UnstableSort α key where
  sort l := l.insertionSort (fun a b => key a ≤ key b)
  perm l := List.perm_insertionSort _ l
  sorted l := by
    have : Std.Total (fun a b : α => key a ≤ key b) := ⟨fun a b => Nat.le_total _ _⟩
    have : IsTrans α (fun a b => key a ≤ key b) := ⟨fun _ _ _ => Nat.le_trans⟩
    exact List.pairwise_insertionSort _ l

/-- Sorting a list whose keys already increase strictly leaves it alone, however equal keys
would be ordered. -/
theorem UnstableSort.sort_eq_self {key : α → Nat} (srt : UnstableSort α key) {l : List α}
    (h : l.Pairwise (fun a b => key a < key b)) : srt.sort l = l := by
  refine List.Perm.eq_of_pairwise ?_ (srt.sorted l) (h.imp Nat.le_of_lt) (srt.perm l)
  intro a b ha hb hab hba
  -- two elements of `l` with one key are one element
  rw [(srt.perm l).mem_iff] at ha
  by_contra hne
  have : Std.Symm (fun a b : α => key a ≠ key b) := ⟨fun _ _ hab => Ne.symm hab⟩
  have hkey : key a ≠ key b := (h.imp (fun hlt => Nat.ne_of_lt hlt)).forall ha hb hne
  omega

end ArrayVec
