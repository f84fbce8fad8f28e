/-
# `Layout` — partial maps on addresses, painted one range at a time

What a table of address ranges is *for*, stated without the table: a
partial map from addresses to values, and an update that gives every
address of a half-open range `[lo, hi)` one value, keeping the rest.  A
representation (a sorted list of ranges, say) is then correct when its view
is this map and each of its operations paints.

Counting is what such tables are mostly queried for — how many bytes are
free, how many were handed out — so the one other notion here is the
support of a value below a bound, and the two facts about how painting
changes its size: it grows by the range when the range held none of the
value, and shrinks by the range when the range held all of another.

Memory is handed out in pages: ranges `[a, a + P)` whose base is a multiple
of the page size `P`.  The last section has the three facts about aligned
addresses the page-level proofs use: a page that starts inside an aligned
range ends inside it, two pages that meet are one page, and a step of a
multiple of `P` from an aligned address is aligned.
-/
import Mathlib

namespace Layout

variable {β : Type}

/-- Give every address of `[lo, hi)` the value `v`, keeping `f` elsewhere. -/
def paint (f : Nat → Option β) (lo hi : Nat) (v : β) : Nat → Option β :=
  fun a => if lo ≤ a ∧ a < hi then some v else f a

theorem paint_of_mem {f : Nat → Option β} {lo hi a : Nat} {v : β} (h : lo ≤ a ∧ a < hi) :
    paint f lo hi v a = some v := by
  simp [paint, h]

theorem paint_of_not_mem {f : Nat → Option β} {lo hi a : Nat} {v : β}
    (h : ¬ (lo ≤ a ∧ a < hi)) : paint f lo hi v a = f a := by
  simp only [paint, if_neg h]

variable [DecidableEq β]

/-- The addresses below `N` that `f` sends to `v`. -/
def support (f : Nat → Option β) (N : Nat) (v : β) : Finset Nat :=
  (Finset.range N).filter (fun a => f a = some v)

@[simp] theorem mem_support {f : Nat → Option β} {N : Nat} {v : β} {a : Nat} :
    a ∈ support f N v ↔ a < N ∧ f a = some v := by
  simp [support]

/-- Painting a range in which no address had `v` adds the whole range to the
support of `v`. -/
theorem card_support_paint_self {f : Nat → Option β} {lo hi N : Nat} {v : β} (hN : hi ≤ N)
    (hnot : ∀ a, lo ≤ a → a < hi → f a ≠ some v) :
    (support (paint f lo hi v) N v).card = (support f N v).card + (hi - lo) := by
  have hset : support (paint f lo hi v) N v = support f N v ∪ Finset.Ico lo hi := by
    ext a
    simp only [mem_support, Finset.mem_union, Finset.mem_Ico]
    by_cases ha : lo ≤ a ∧ a < hi
    · rw [paint_of_mem ha]
      constructor
      · intro _
        exact Or.inr ha
      · intro _
        exact ⟨by omega, rfl⟩
    · rw [paint_of_not_mem ha]
      tauto
  have hdisj : Disjoint (support f N v) (Finset.Ico lo hi) := by
    rw [Finset.disjoint_left]
    intro a ha hIco
    rw [mem_support] at ha
    rw [Finset.mem_Ico] at hIco
    exact hnot a hIco.1 hIco.2 ha.2
  rw [hset, Finset.card_union_of_disjoint hdisj, Nat.card_Ico]

/-- Painting `v` over a range in which every address had another value `w`
removes the whole range from the support of `w`. -/
theorem card_support_paint_other {f : Nat → Option β} {lo hi N : Nat} {v w : β}
    (hvw : w ≠ v) (hN : hi ≤ N) (hall : ∀ a, lo ≤ a → a < hi → f a = some w) :
    (support (paint f lo hi v) N w).card + (hi - lo) = (support f N w).card := by
  have hset : support (paint f lo hi v) N w = support f N w \ Finset.Ico lo hi := by
    ext a
    simp only [mem_support, Finset.mem_sdiff, Finset.mem_Ico]
    by_cases ha : lo ≤ a ∧ a < hi
    · rw [paint_of_mem ha]
      simp only [Option.some.injEq]
      constructor
      · rintro ⟨-, h⟩
        exact absurd h.symm hvw
      · rintro ⟨-, h⟩
        exact absurd ha h
    · rw [paint_of_not_mem ha]
      tauto
  have hsub : Finset.Ico lo hi ⊆ support f N w := by
    intro a ha
    rw [Finset.mem_Ico] at ha
    rw [mem_support]
    exact ⟨by omega, hall a ha.1 ha.2⟩
  rw [hset, ← Nat.card_Ico lo hi, Finset.card_sdiff_add_card_eq_card hsub]

/-! ## Pages -/

section Pages

variable {P : Nat}

/-- An aligned address below an aligned end is a whole page below it. -/
theorem add_le_of_aligned {a e : Nat} (ha : a % P = 0) (he : e % P = 0)
    (hlt : a < e) : a + P ≤ e := by
  have hdvd : P ∣ e - a := Nat.dvd_of_mod_eq_zero (Nat.sub_mod_eq_zero_of_mod_eq (by omega))
  have := Nat.le_of_dvd (by omega) hdvd
  omega

/-- An aligned address inside the page of another aligned address is that
address. -/
theorem eq_of_aligned_of_mem_page {a b : Nat} (ha : a % P = 0) (hb : b % P = 0)
    (hlo : b ≤ a) (hhi : a < b + P) : a = b := by
  have hdvd : P ∣ a - b := Nat.dvd_of_mod_eq_zero (Nat.sub_mod_eq_zero_of_mod_eq (by omega))
  have := Nat.eq_zero_of_dvd_of_lt hdvd (by omega)
  omega

/-- Two pages that share an address are the same page. -/
theorem eq_of_pages_meet {a b x : Nat} (ha : a % P = 0) (hb : b % P = 0)
    (hxa : a ≤ x ∧ x < a + P) (hxb : b ≤ x ∧ x < b + P) : a = b := by
  rcases Nat.le_total a b with hab | hba
  · exact (eq_of_aligned_of_mem_page hb ha hab (by omega)).symm
  · exact eq_of_aligned_of_mem_page ha hb hba (by omega)

/-- A multiple of `P` past an aligned address is aligned. -/
theorem aligned_of_step {a b : Nat} (hb : b % P = 0) (hba : b ≤ a) (hstep : (a - b) % P = 0) :
    a % P = 0 := by
  have h := Nat.add_mod b (a - b) P
  rw [hb, hstep, Nat.add_sub_cancel' hba] at h
  simpa using h

end Pages

end Layout
