/-
# `LanternOS.Memory.MemoryMapInvariant` — `add_entry` keeps the map sorted, disjoint and well formed

## What is proved

From `MemoryMap::new`, under any sequence of `add_entry` calls with
well-formed entries, whatever each call returns:

* every entry satisfies `base_addr ≤ end_addr` and `size = end_addr - base_addr`;
* the half-open ranges of any two entries (at different positions) share no
  address;
* the entries are sorted by `base_addr`;
* there are never more than 32 of them;

and every such call returns without a panic: none of its five `u64`
subtractions underflows, and the `reduce` loop pushes at most one split
remainder onto the four-slot `new_entries`.

## How

`reduce_cases` says once what `reduce` does to an entry that survived the
`retain`: nothing (no endpoint of the new entry inside it), trim from below,
trim from above, or split around the new entry.  Everything about the loop
follows from it: `reduceAll_eq` computes the loop as a `map` and a
`filterMap` when no entry panics and the remainders fit, and
`remainders_length_le_one` says they fit because a split needs the new entry
strictly inside the old one, which two disjoint entries cannot both satisfy.

The one subtle obligation is order on the error path.  When
`try_extend_from_slice` fails the function returns *before* sorting, so the
reduced entries must already be sorted.  They are, because trimming from
below moves a base up to the new entry's end, and the next entry in the map
starts at or beyond that end — unless it lies inside the new entry, in which
case the `retain` removed it (`reduced_sorted`).
-/
import LanternOS.Memory.MemoryMap
import LanternOS.Lib.Transition

namespace LanternOS

namespace MemoryMapEntry

/-! ## Ranges -/

/-- A well-formed entry: its bounds are ordered and its recorded size is
their difference. -/
def WellFormed (e : MemoryMapEntry) : Prop :=
  e.baseAddr ≤ e.endAddr ∧ e.size.bytes = e.endAddr - e.baseAddr

/-- The address `a` lies in the half-open range of `e`. -/
def Covers (e : MemoryMapEntry) (a : Nat) : Prop :=
  e.baseAddr ≤ a ∧ a < e.endAddr

/-- Two entries whose half-open ranges share no address: one ends before the
other begins, or one of them is empty. -/
def Apart (e f : MemoryMapEntry) : Prop :=
  e.endAddr ≤ f.baseAddr ∨ f.endAddr ≤ e.baseAddr ∨ e.endAddr ≤ e.baseAddr ∨
    f.endAddr ≤ f.baseAddr

/-- The bounds of `e` lie within those of `f`. -/
def Within (e f : MemoryMapEntry) : Prop :=
  f.baseAddr ≤ e.baseAddr ∧ e.endAddr ≤ f.endAddr

theorem Apart.symm {e f : MemoryMapEntry} (h : Apart e f) : Apart f e := by
  unfold Apart at *
  omega

theorem Apart.mono {e f e' f' : MemoryMapEntry} (h : Apart e f) (he : Within e' e)
    (hf : Within f' f) : Apart e' f' := by
  unfold Apart Within at *
  omega

/-- `Apart` is disjointness of the two ranges as sets of addresses. -/
theorem apart_iff_disjoint {e f : MemoryMapEntry} :
    Apart e f ↔ Disjoint (Set.Ico e.baseAddr e.endAddr) (Set.Ico f.baseAddr f.endAddr) := by
  rw [Set.Ico_disjoint_Ico]
  unfold Apart
  omega

theorem apart_iff_covers {e f : MemoryMapEntry} :
    Apart e f ↔ ∀ a, e.Covers a → ¬ f.Covers a := by
  unfold Apart Covers
  constructor
  · intro h a ha hb
    omega
  · intro h
    by_contra hn
    by_cases hef : e.baseAddr ≤ f.baseAddr
    · exact h f.baseAddr ⟨hef, by omega⟩ ⟨le_refl _, by omega⟩
    · exact h e.baseAddr ⟨le_refl _, by omega⟩ ⟨by omega, by omega⟩

@[simp] theorem contains_eq_true {e f : MemoryMapEntry} :
    e.contains f = true ↔
      (e.baseAddr ≤ f.baseAddr ∧ f.baseAddr < e.endAddr) ∨
        (e.baseAddr ≤ f.endAddr ∧ f.endAddr < e.endAddr) := by
  simp [contains]

@[simp] theorem fullyContains_eq_true {e f : MemoryMapEntry} :
    e.fullyContains f = true ↔
      (e.baseAddr ≤ f.baseAddr ∧ f.baseAddr ≤ e.endAddr) ∧
        (e.baseAddr ≤ f.endAddr ∧ f.endAddr ≤ e.endAddr) := by
  simp [fullyContains]

/-! ## What `reduce` does

The four shapes, for an entry `x` that the merged entry `e` does not fully
contain.  The guards that select a shape are part of each disjunct, so that
later proofs never unfold `reduce` again. -/

section Reduce

variable {x e : MemoryMapEntry}

theorem reduce_cases (he : e.WellFormed) (hk : e.fullyContains x = false) :
    (Apart x e ∧ x.reduce e = some (x, none)) ∨
    (e.baseAddr ≤ x.baseAddr ∧ x.baseAddr ≤ e.endAddr ∧ e.endAddr < x.endAddr ∧
      x.reduce e =
        some ({ x with baseAddr := e.endAddr, size := ⟨x.endAddr - e.endAddr⟩ }, none)) ∨
    (x.baseAddr < e.baseAddr ∧ e.baseAddr < x.endAddr ∧ x.endAddr ≤ e.endAddr ∧
      x.reduce e =
        some ({ x with endAddr := e.baseAddr, size := ⟨e.baseAddr - x.baseAddr⟩ }, none)) ∨
    (x.baseAddr < e.baseAddr ∧ e.endAddr < x.endAddr ∧
      x.reduce e =
        some ({ x with endAddr := e.baseAddr, size := ⟨e.baseAddr - x.baseAddr⟩ },
          some ⟨e.endAddr, ⟨x.endAddr - e.endAddr⟩, x.endAddr, .free⟩)) := by
  unfold WellFormed at he
  have hk' : ¬ ((e.baseAddr ≤ x.baseAddr ∧ x.baseAddr ≤ e.endAddr) ∧
      (e.baseAddr ≤ x.endAddr ∧ x.endAddr ≤ e.endAddr)) := by
    rw [← fullyContains_eq_true]
    simp [hk]
  unfold reduce
  by_cases hc : x.contains e = true
  · rw [if_pos hc]
    rw [contains_eq_true] at hc
    by_cases h1 : e.baseAddr ≤ x.baseAddr
    · -- the new entry starts at or below `x`: trim `x` from below
      rw [if_pos h1, Checked.sub_of_le (by omega)]
      exact Or.inr (Or.inl ⟨h1, by omega, by omega, rfl⟩)
    · rw [if_neg h1]
      by_cases h2 : e.endAddr ≥ x.endAddr
      · -- it starts inside `x` and reaches its end: trim from above
        rw [if_pos h2, Checked.sub_of_le (by omega)]
        exact Or.inr (Or.inr (Or.inl ⟨by omega, by omega, h2, rfl⟩))
      · -- it lies strictly inside: split
        rw [if_neg h2, Checked.sub_of_le (by omega)]
        simp only [Option.bind_eq_bind, Option.bind_some, Option.pure_def]
        rw [Checked.sub_of_le (by omega)]
        exact Or.inr (Or.inr (Or.inr ⟨by omega, by omega, rfl⟩))
  · rw [if_neg hc]
    rw [contains_eq_true] at hc
    refine Or.inl ⟨?_, rfl⟩
    unfold Apart
    omega

theorem not_fullyContains {e x : MemoryMapEntry} (hk : e.fullyContains x = false) :
    ¬ ((e.baseAddr ≤ x.baseAddr ∧ x.baseAddr ≤ e.endAddr) ∧
      (e.baseAddr ≤ x.endAddr ∧ x.endAddr ≤ e.endAddr)) := by
  rw [← fullyContains_eq_true]
  simp [hk]

/-- What `reduce` leaves of `x` after cutting out `e` (`x` itself where
`reduce` would panic, which `reduce_cases` rules out). -/
def reduced (e x : MemoryMapEntry) : MemoryMapEntry :=
  ((x.reduce e).getD (x, none)).1

/-- The split remainder `reduce` hands back, if any. -/
def remainder (e x : MemoryMapEntry) : Option MemoryMapEntry :=
  ((x.reduce e).getD (x, none)).2

/-- Everything the proofs about the map use of one `reduce`. -/
structure ReduceSpec (e x : MemoryMapEntry) : Prop where
  eq : x.reduce e = some (reduced e x, remainder e x)
  wellFormed : (reduced e x).WellFormed
  within : Within (reduced e x) x
  apart : Apart (reduced e x) e
  entryType : (reduced e x).entryType = x.entryType
  /-- The base moves only when `x` is trimmed from below, and then to the
  end of `e`. -/
  base : (reduced e x).baseAddr = x.baseAddr ∨
    (e.baseAddr ≤ x.baseAddr ∧ x.baseAddr ≤ e.endAddr ∧ e.endAddr < x.endAddr ∧
      (reduced e x).baseAddr = e.endAddr)
  /-- A remainder is the part of `x` above `e`, typed `Free`; it exists only
  when `e` lies strictly inside `x`. -/
  split : ∀ r, remainder e x = some r →
    r = ⟨e.endAddr, ⟨x.endAddr - e.endAddr⟩, x.endAddr, .free⟩ ∧
      x.baseAddr < e.baseAddr ∧ e.endAddr < x.endAddr ∧ (reduced e x).endAddr = e.baseAddr
  /-- Every address of `x` outside `e` survives, in the reduced entry or in
  the remainder. -/
  covers : ∀ a, x.Covers a → ¬ e.Covers a →
    (reduced e x).Covers a ∨ ∃ r, remainder e x = some r ∧ r.Covers a

theorem reduceSpec {e x : MemoryMapEntry} (hx : x.WellFormed) (he : e.WellFormed)
    (hk : e.fullyContains x = false) : ReduceSpec e x := by
  have hk' := not_fullyContains hk
  unfold WellFormed at hx he
  rcases reduce_cases he hk with ⟨hap, h⟩ | ⟨h1, h2, h3, h⟩ | ⟨h1, h2, h3, h⟩ | ⟨h1, h2, h⟩
  · have hred : reduced e x = x := by simp [reduced, h]
    have hrem : remainder e x = none := by simp [remainder, h]
    refine ⟨by rw [h, hred, hrem], ?_, ?_, ?_, ?_, ?_, ?_, ?_⟩
    · rw [hred]; exact hx
    · rw [hred]; exact ⟨le_refl _, le_refl _⟩
    · rw [hred]; exact hap
    · rw [hred]
    · rw [hred]; exact Or.inl rfl
    · simp [hrem]
    · intro a ha _
      rw [hred]
      exact Or.inl ha
  · have hred : reduced e x =
        { x with baseAddr := e.endAddr, size := ⟨x.endAddr - e.endAddr⟩ } := by
      simp [reduced, h]
    have hrem : remainder e x = none := by simp [remainder, h]
    refine ⟨by rw [h, hred, hrem], ?_, ?_, ?_, ?_, ?_, ?_, ?_⟩
    · rw [hred]; exact ⟨by simp only; omega, rfl⟩
    · rw [hred]; exact ⟨by simp only; omega, le_refl _⟩
    · rw [hred]; exact Or.inr (Or.inl (le_refl _))
    · rw [hred]
    · rw [hred]; exact Or.inr ⟨h1, h2, h3, rfl⟩
    · simp [hrem]
    · intro a ha hna
      rw [hred]
      simp only [Covers] at ha hna ⊢
      left
      omega
  · have hred : reduced e x =
        { x with endAddr := e.baseAddr, size := ⟨e.baseAddr - x.baseAddr⟩ } := by
      simp [reduced, h]
    have hrem : remainder e x = none := by simp [remainder, h]
    refine ⟨by rw [h, hred, hrem], ?_, ?_, ?_, ?_, ?_, ?_, ?_⟩
    · rw [hred]; exact ⟨by simp only; omega, rfl⟩
    · rw [hred]; exact ⟨le_refl _, by simp only; omega⟩
    · rw [hred]; exact Or.inl (le_refl _)
    · rw [hred]
    · rw [hred]; exact Or.inl rfl
    · simp [hrem]
    · intro a ha hna
      rw [hred]
      simp only [Covers] at ha hna ⊢
      left
      omega
  · have hred : reduced e x =
        { x with endAddr := e.baseAddr, size := ⟨e.baseAddr - x.baseAddr⟩ } := by
      simp [reduced, h]
    have hrem : remainder e x = some ⟨e.endAddr, ⟨x.endAddr - e.endAddr⟩, x.endAddr, .free⟩ := by
      simp [remainder, h]
    refine ⟨by rw [h, hred, hrem], ?_, ?_, ?_, ?_, ?_, ?_, ?_⟩
    · rw [hred]; exact ⟨by simp only; omega, rfl⟩
    · rw [hred]; exact ⟨le_refl _, by simp only; omega⟩
    · rw [hred]; exact Or.inl (le_refl _)
    · rw [hred]
    · rw [hred]; exact Or.inl rfl
    · intro r hr
      rw [hrem] at hr
      rw [hred]
      exact ⟨(Option.some.inj hr).symm, h1, h2, rfl⟩
    · intro a ha hna
      rw [hred]
      simp only [Covers] at ha hna ⊢
      by_cases hlo : a < e.baseAddr
      · exact Or.inl ⟨ha.1, hlo⟩
      · refine Or.inr ⟨_, hrem, ?_⟩
        simp only
        omega

theorem ReduceSpec.remainder_wellFormed {e x r : MemoryMapEntry} (s : ReduceSpec e x)
    (hr : remainder e x = some r) : r.WellFormed := by
  obtain ⟨rfl, -, h, -⟩ := s.split r hr
  exact ⟨le_of_lt h, rfl⟩

theorem ReduceSpec.remainder_within {e x r : MemoryMapEntry} (s : ReduceSpec e x)
    (hr : remainder e x = some r) (he : e.WellFormed) : Within r x := by
  obtain ⟨rfl, h1, h2, -⟩ := s.split r hr
  have := he.1
  exact ⟨by simp only; omega, le_refl _⟩

theorem ReduceSpec.remainder_apart {e x r : MemoryMapEntry} (s : ReduceSpec e x)
    (hr : remainder e x = some r) : Apart r e := by
  obtain ⟨rfl, -, -, -⟩ := s.split r hr
  exact Or.inr (Or.inl (le_refl _))

theorem ReduceSpec.remainder_apart_reduced {e x r : MemoryMapEntry} (s : ReduceSpec e x)
    (hr : remainder e x = some r) (he : e.WellFormed) : Apart (reduced e x) r := by
  obtain ⟨rfl, -, -, hend⟩ := s.split r hr
  unfold Apart
  simp only [hend]
  exact Or.inl he.1

end Reduce

end MemoryMapEntry

/-! ## The `reduce` loop -/

namespace MemoryMap

open MemoryMapEntry

/-- The loop is a `map` and a `filterMap` when no entry panics and the
remainders fit in `new_entries`. -/
theorem reduceAll_eq (e : MemoryMapEntry) : ∀ (xs acc : List MemoryMapEntry),
    (∀ x ∈ xs, ReduceSpec e x) →
    acc.length + (xs.filterMap (remainder e)).length ≤ newEntriesCapacity →
    reduceAll e xs acc = some (xs.map (reduced e), acc ++ xs.filterMap (remainder e))
  | [], acc, _, _ => by simp [reduceAll]
  | x :: xs, acc, h, hcap => by
      have hx := (h x List.mem_cons_self).eq
      have hxs : ∀ y ∈ xs, ReduceSpec e y := fun y hy => h y (List.mem_cons_of_mem _ hy)
      cases hr : remainder e x with
      | none =>
          simp only [List.filterMap_cons, hr] at hcap
          simp only [reduceAll, hx, hr, Option.bind_eq_bind, Option.bind_some, Option.pure_def,
            reduceAll_eq e xs acc hxs hcap, List.map_cons, List.filterMap_cons]
      | some r =>
          simp only [List.filterMap_cons, hr, List.length_cons] at hcap
          have hpush : ArrayVec.push newEntriesCapacity acc r = some (acc ++ [r]) := by
            simp only [ArrayVec.push_eq_some, and_true]
            omega
          have hcap' : (acc ++ [r]).length + (xs.filterMap (remainder e)).length ≤
              newEntriesCapacity := by
            simp only [List.length_append, List.length_singleton]
            omega
          have hrest := reduceAll_eq e xs (acc ++ [r]) hxs hcap'
          simp only [reduceAll, hx, hr, hpush, Option.bind_eq_bind, Option.bind_some,
            Option.pure_def, hrest, List.map_cons, List.filterMap_cons, List.append_assoc,
            List.singleton_append]

/-- Two entries of a disjoint list cannot both strictly contain the merged
entry, so the loop splits at most one of them. -/
theorem remainders_length_le_one {e : MemoryMapEntry} (he : e.WellFormed) :
    ∀ {xs : List MemoryMapEntry}, xs.Pairwise Apart → (∀ x ∈ xs, ReduceSpec e x) →
      (xs.filterMap (remainder e)).length ≤ 1
  | [], _, _ => by simp
  | x :: xs, hap, hs => by
      rw [List.pairwise_cons] at hap
      have hxs : ∀ y ∈ xs, ReduceSpec e y := fun y hy => hs y (List.mem_cons_of_mem _ hy)
      cases hr : remainder e x with
      | none =>
          simpa [List.filterMap_cons, hr] using remainders_length_le_one he hap.2 hxs
      | some r =>
          obtain ⟨-, hx1, hx2, -⟩ := (hs x List.mem_cons_self).split r hr
          have hnone : xs.filterMap (remainder e) = [] := by
            rw [List.filterMap_eq_nil_iff]
            intro y hy
            cases hry : remainder e y with
            | none => rfl
            | some r' =>
                obtain ⟨-, hy1, hy2, -⟩ := (hxs y hy).split r' hry
                have hxy := hap.1 y hy
                unfold Apart at hxy
                have := he.1
                omega
          simp [hr, hnone]

/-- On the error path of `try_extend_from_slice` the reduced entries are
returned unsorted; they are sorted already.  The only base that moves is
that of an entry trimmed from below, to the merged entry's end, and every
later entry of the map starts at or beyond that end: it is disjoint from
the trimmed entry, and if it started inside the merged entry it would lie
inside it and the `retain` would have dropped it. -/
theorem reduced_sorted {e : MemoryMapEntry} {xs : List MemoryMapEntry}
    (hwf : ∀ x ∈ xs, x.WellFormed) (hk : ∀ x ∈ xs, e.fullyContains x = false)
    (hs : ∀ x ∈ xs, ReduceSpec e x) (hap : xs.Pairwise Apart)
    (hsort : xs.Pairwise (fun a b => a.baseAddr ≤ b.baseAddr)) :
    (xs.map (reduced e)).Pairwise (fun a b => a.baseAddr ≤ b.baseAddr) := by
  rw [List.pairwise_map]
  refine (hap.and hsort).imp_of_mem ?_
  rintro x y hx hy ⟨hxy, hle⟩
  have hky := not_fullyContains (hk y hy)
  have hwy := (hwf y hy).1
  unfold Apart at hxy
  rcases (hs x hx).base with h1 | ⟨h1, h2, h3, h4⟩ <;>
    rcases (hs y hy).base with h5 | ⟨h5, h6, h7, h8⟩ <;>
    omega

/-! ## The merges -/

theorem mergeBelow_spec {entries : List MemoryMapEntry} {e : MemoryMapEntry}
    (he : e.WellFormed) (hwf : ∀ x ∈ entries, x.WellFormed) :
    ∃ e', mergeBelow entries e = some e' ∧ e'.WellFormed ∧ e'.endAddr = e.endAddr ∧
      e'.entryType = e.entryType ∧
      (e'.baseAddr = e.baseAddr ∨ ∃ x ∈ entries, x.endAddr = e.baseAddr ∧
        x.entryType = e.entryType ∧ e'.baseAddr = x.baseAddr) := by
  unfold mergeBelow
  cases hf : entries.find? (fun x => x.endAddr == e.baseAddr && x.entryType == e.entryType) with
  | none => exact ⟨e, rfl, he, rfl, rfl, Or.inl rfl⟩
  | some x =>
      have hmem := List.mem_of_find?_eq_some hf
      have hp := List.find?_some hf
      simp only [Bool.and_eq_true, beq_iff_eq] at hp
      have hle : x.baseAddr ≤ e.endAddr := by
        have := (hwf x hmem).1
        have := he.1
        omega
      refine ⟨{ e with baseAddr := x.baseAddr, size := ⟨e.endAddr - x.baseAddr⟩ }, ?_,
        ⟨hle, rfl⟩, rfl, rfl, Or.inr ⟨x, hmem, hp.1, hp.2, rfl⟩⟩
      simp [Checked.sub_of_le hle]

theorem mergeAbove_spec {entries : List MemoryMapEntry} {e : MemoryMapEntry}
    (he : e.WellFormed) (hwf : ∀ x ∈ entries, x.WellFormed) :
    ∃ e', mergeAbove entries e = some e' ∧ e'.WellFormed ∧ e'.baseAddr = e.baseAddr ∧
      e'.entryType = e.entryType ∧
      (e'.endAddr = e.endAddr ∨ ∃ x ∈ entries, x.baseAddr = e.endAddr ∧
        x.entryType = e.entryType ∧ e'.endAddr = x.endAddr) := by
  unfold mergeAbove
  cases hf : entries.find? (fun x => x.baseAddr == e.endAddr && x.entryType == e.entryType) with
  | none => exact ⟨e, rfl, he, rfl, rfl, Or.inl rfl⟩
  | some x =>
      have hmem := List.mem_of_find?_eq_some hf
      have hp := List.find?_some hf
      simp only [Bool.and_eq_true, beq_iff_eq] at hp
      have hle : e.baseAddr ≤ x.endAddr := by
        have := (hwf x hmem).1
        have := he.1
        omega
      refine ⟨{ e with endAddr := x.endAddr, size := ⟨x.endAddr - e.baseAddr⟩ }, ?_,
        ⟨hle, rfl⟩, rfl, rfl, Or.inr ⟨x, hmem, hp.1, hp.2, rfl⟩⟩
      simp [Checked.sub_of_le hle]

/-! ## The representation invariant -/

/-- The representation invariant of `MemoryMap`: well-formed entries,
pairwise disjoint, sorted by base, within the `ArrayVec`'s capacity. -/
structure Inv (m : MemoryMap) : Prop where
  wellFormed : ∀ x ∈ m.entries, x.WellFormed
  apart : m.entries.Pairwise Apart
  sorted : m.entries.Pairwise (fun a b => a.baseAddr ≤ b.baseAddr)
  length_le : m.entries.length ≤ capacity

theorem inv_new : new.Inv :=
  ⟨by simp [new], by simp [new], by simp [new], by simp [new, capacity]⟩

/-- The entries that survive the `retain` of `add_entry` for the merged
entry `e₂`. -/
def kept (m : MemoryMap) (e₂ : MemoryMapEntry) : List MemoryMapEntry :=
  m.entries.filter (fun x => !e₂.fullyContains x)

theorem mem_kept {m : MemoryMap} {e₂ x : MemoryMapEntry} :
    x ∈ kept m e₂ ↔ x ∈ m.entries ∧ e₂.fullyContains x = false := by
  simp [kept]

/-- The merged entry of `add_entry e`: well formed, of `e`'s type, covering
`e`, and covering nothing that is neither in `e` nor in a map entry of the
same type. -/
structure Merged (m : MemoryMap) (e e₂ : MemoryMapEntry) : Prop where
  wellFormed : e₂.WellFormed
  entryType : e₂.entryType = e.entryType
  within : Within e e₂
  covers : ∀ a, e₂.Covers a → e.Covers a ∨
    ∃ x ∈ m.entries, x.entryType = e.entryType ∧ x.Covers a

section AddEntry

variable {m : MemoryMap} {e : MemoryMapEntry}

theorem ReduceSpec.of_kept (hm : m.Inv) {e₂ : MemoryMapEntry} (h₂ : e₂.WellFormed) :
    ∀ x ∈ kept m e₂, ReduceSpec e₂ x := by
  intro x hx
  rw [mem_kept] at hx
  exact reduceSpec (hm.wellFormed x hx.1) h₂ hx.2

theorem kept_apart (hm : m.Inv) (e₂ : MemoryMapEntry) : (kept m e₂).Pairwise Apart :=
  hm.apart.filter _

/-- `add_entry` up to the write-back, under the invariant: it does not
panic, the merged entry is `Merged`, the reduced entries and `new_entries`
are the `map` and `filterMap` of the `reduce` loop, and `new_entries` holds
at most one remainder. -/
theorem reduceFor_spec (hm : m.Inv) (he : e.WellFormed) :
    ∃ e₂, Merged m e e₂ ∧
      m.reduceFor e =
        some (e₂, (kept m e₂).map (reduced e₂), (kept m e₂).filterMap (remainder e₂)) ∧
      ((kept m e₂).filterMap (remainder e₂)).length ≤ 1 := by
  obtain ⟨e₁, h₁, hw₁, hend₁, ht₁, hb₁⟩ := mergeBelow_spec he hm.wellFormed
  obtain ⟨e₂, h₂, hw₂, hbase₂, ht₂, he₂⟩ := mergeAbove_spec hw₁ hm.wellFormed
  have hspec := ReduceSpec.of_kept hm hw₂
  have hone := remainders_length_le_one hw₂ (kept_apart hm e₂) hspec
  refine ⟨e₂, ⟨hw₂, ht₂.trans ht₁, ?_, ?_⟩, ?_, hone⟩
  · have hlo : e₂.baseAddr ≤ e.baseAddr := by
      rcases hb₁ with hb | ⟨x, hx, hxe, -, hb⟩
      · omega
      · have := (hm.wellFormed x hx).1
        omega
    have hhi : e.endAddr ≤ e₂.endAddr := by
      rcases he₂ with hx2 | ⟨y, hy, hye, -, hx2⟩
      · omega
      · have := (hm.wellFormed y hy).1
        omega
    exact ⟨hlo, hhi⟩
  · intro a ha
    unfold Covers at ha
    by_cases hlo : a < e.baseAddr
    · rcases hb₁ with hb | ⟨x, hx, hxe, hxt, hb⟩
      · omega
      · exact Or.inr ⟨x, hx, hxt, by omega, by omega⟩
    · by_cases hhi : e.endAddr ≤ a
      · rcases he₂ with hx2 | ⟨y, hy, hye, hyt, hx2⟩
        · omega
        · refine Or.inr ⟨y, hy, hyt.trans ht₁, ?_⟩
          unfold Covers
          omega
      · exact Or.inl ⟨by omega, by omega⟩
  · have hloop := reduceAll_eq e₂ (kept m e₂) [] hspec (by simp [newEntriesCapacity]; omega)
    simp only [reduceFor, h₁, h₂, Option.bind_eq_bind, Option.bind_some, Option.pure_def]
    rw [← kept, hloop]
    simp

end AddEntry

/-! ## One call keeps the invariant -/

instance : Std.Symm MemoryMapEntry.Apart := ⟨fun _ _ h => h.symm⟩

/-- The reduced entries `add_entry` writes back. -/
def reducedEntries (m : MemoryMap) (e₂ : MemoryMapEntry) : List MemoryMapEntry :=
  (kept m e₂).map (reduced e₂)

/-- The split remainders the `reduce` loop pushes onto `new_entries`. -/
def newEntries (m : MemoryMap) (e₂ : MemoryMapEntry) : List MemoryMapEntry :=
  (kept m e₂).filterMap (remainder e₂)

section Step

variable (srt : ArrayVec.UnstableSort MemoryMapEntry MemoryMapEntry.baseAddr)
variable {m : MemoryMap} {e : MemoryMapEntry}

/-- The three ways `add_entry` ends under the invariant: `new_entries` does
not fit (error, entries reduced and unsorted), the entry does not fit
(error, reduced entries and remainders sorted), or success. -/
theorem addEntry_cases (hm : m.Inv) (he : e.WellFormed) :
    ∃ e₂, Merged m e e₂ ∧ (newEntries m e₂).length ≤ 1 ∧
      ((capacity - (reducedEntries m e₂).length < (newEntries m e₂).length ∧
          m.addEntry srt e = some (.error (), { m with entries := reducedEntries m e₂ })) ∨
      ((newEntries m e₂).length ≤ capacity - (reducedEntries m e₂).length ∧
          capacity ≤ (reducedEntries m e₂ ++ newEntries m e₂).length ∧
          m.addEntry srt e = some (.error (),
            { m with entries := srt.sort (reducedEntries m e₂ ++ newEntries m e₂) })) ∨
      ((reducedEntries m e₂ ++ newEntries m e₂).length < capacity ∧
          m.addEntry srt e = some (.ok (),
            { m with entries := srt.sort (reducedEntries m e₂ ++ newEntries m e₂ ++ [e₂]) }))) := by
  obtain ⟨e₂, hmerged, hred, hone⟩ := reduceFor_spec hm he
  refine ⟨e₂, hmerged, hone, ?_⟩
  rw [← reducedEntries, ← newEntries] at hred
  simp only [addEntry, hred, Option.bind_eq_bind, Option.bind_some]
  by_cases hext : capacity - (reducedEntries m e₂).length < (newEntries m e₂).length
  · left
    refine ⟨hext, ?_⟩
    simp only [ArrayVec.tryExtendFromSlice, if_pos hext]
    rfl
  · right
    simp only [ArrayVec.tryExtendFromSlice, if_neg hext]
    by_cases hpush : (reducedEntries m e₂ ++ newEntries m e₂).length < capacity
    · right
      refine ⟨hpush, ?_⟩
      simp only [ArrayVec.tryPush, if_pos hpush]
      rfl
    · left
      refine ⟨by omega, by omega, ?_⟩
      simp only [ArrayVec.tryPush, if_neg hpush]
      rfl

theorem reducedEntries_wellFormed (hm : m.Inv) {e₂ : MemoryMapEntry} (h₂ : e₂.WellFormed) :
    ∀ x ∈ reducedEntries m e₂, x.WellFormed := by
  intro x hx
  obtain ⟨y, hy, rfl⟩ := List.mem_map.1 hx
  exact (ReduceSpec.of_kept hm h₂ y hy).wellFormed

theorem newEntries_wellFormed (hm : m.Inv) {e₂ : MemoryMapEntry} (h₂ : e₂.WellFormed) :
    ∀ x ∈ newEntries m e₂, x.WellFormed := by
  intro x hx
  obtain ⟨y, hy, hr⟩ := List.mem_filterMap.1 hx
  exact (ReduceSpec.of_kept hm h₂ y hy).remainder_wellFormed hr

/-- Everything `add_entry` can write back is pairwise disjoint: the reduced
entries lie inside disjoint old entries, a remainder lies inside its old
entry and above its reduced part, and all of them avoid the merged entry. -/
theorem written_apart (hm : m.Inv) {e₂ : MemoryMapEntry} (h₂ : e₂.WellFormed)
    (hone : (newEntries m e₂).length ≤ 1) :
    (reducedEntries m e₂ ++ newEntries m e₂ ++ [e₂]).Pairwise Apart := by
  have hspec := ReduceSpec.of_kept hm h₂
  have hkept := kept_apart hm e₂
  have hys : (reducedEntries m e₂).Pairwise Apart := by
    rw [reducedEntries, List.pairwise_map]
    refine hkept.imp_of_mem ?_
    intro x y hx hy hxy
    exact hxy.mono (hspec x hx).within (hspec y hy).within
  have hrs : (newEntries m e₂).Pairwise Apart := by
    match hlist : newEntries m e₂, hone with
    | [], _ => exact List.Pairwise.nil
    | [_], _ => exact List.pairwise_singleton _ _
  have hcross : ∀ a ∈ reducedEntries m e₂, ∀ b ∈ newEntries m e₂, Apart a b := by
    intro a ha b hb
    obtain ⟨x, hx, rfl⟩ := List.mem_map.1 ha
    obtain ⟨z, hz, hr⟩ := List.mem_filterMap.1 hb
    by_cases hxz : x = z
    · subst hxz
      exact (hspec x hx).remainder_apart_reduced hr h₂
    · exact (hkept.forall hx hz hxz).mono (hspec x hx).within
        ((hspec z hz).remainder_within hr h₂)
  have hnew : ∀ a ∈ reducedEntries m e₂ ++ newEntries m e₂, Apart a e₂ := by
    intro a ha
    rcases List.mem_append.1 ha with ha | ha
    · obtain ⟨x, hx, rfl⟩ := List.mem_map.1 ha
      exact (hspec x hx).apart
    · obtain ⟨z, hz, hr⟩ := List.mem_filterMap.1 ha
      exact (hspec z hz).remainder_apart hr
  rw [List.pairwise_append, List.pairwise_append]
  refine ⟨⟨hys, hrs, hcross⟩, List.pairwise_singleton _ _, ?_⟩
  intro a ha b hb
  rw [List.mem_singleton] at hb
  subst hb
  exact hnew a ha

/-- `add_entry` keeps the invariant, whatever it returns. -/
theorem addEntry_inv (hm : m.Inv) (he : e.WellFormed) {r : Except Unit Unit} {m' : MemoryMap}
    (h : m.addEntry srt e = some (r, m')) : m'.Inv := by
  obtain ⟨e₂, hmerged, hone, hcases⟩ := addEntry_cases srt hm he
  have hw₂ := hmerged.wellFormed
  have hap := written_apart hm hw₂ hone
  have hwf : ∀ x ∈ reducedEntries m e₂ ++ newEntries m e₂ ++ [e₂], x.WellFormed := by
    intro x hx
    simp only [List.mem_append, List.mem_singleton] at hx
    rcases hx with (hx | hx) | rfl
    · exact reducedEntries_wellFormed hm hw₂ x hx
    · exact newEntries_wellFormed hm hw₂ x hx
    · exact hw₂
  have hsub : (reducedEntries m e₂ ++ newEntries m e₂).Sublist
      (reducedEntries m e₂ ++ newEntries m e₂ ++ [e₂]) := List.sublist_append_left _ _
  have hys : (reducedEntries m e₂).length ≤ capacity := by
    simp only [reducedEntries, List.length_map]
    exact (List.length_filter_le _ _).trans hm.length_le
  rcases hcases with ⟨-, hcall⟩ | ⟨hfit, -, hcall⟩ | ⟨hlen, hcall⟩ <;>
    rw [hcall, Option.some.injEq, Prod.mk.injEq] at h <;> obtain ⟨-, rfl⟩ := h
  · have hspec := ReduceSpec.of_kept hm hw₂
    refine ⟨fun x hx => hwf x (List.mem_append_left _ (List.mem_append_left _ hx)),
      hap.sublist ((List.sublist_append_left _ _).trans hsub), ?_, hys⟩
    exact reduced_sorted (fun x hx => hm.wellFormed x (mem_kept.1 hx).1)
      (fun x hx => (mem_kept.1 hx).2) hspec (kept_apart hm e₂) (hm.sorted.filter _)
  · have hperm := srt.perm (reducedEntries m e₂ ++ newEntries m e₂)
    refine ⟨fun x hx => hwf x (List.mem_append_left _ (hperm.subset hx)),
      (hap.sublist hsub).perm hperm.symm (fun h => h.symm), srt.sorted _, ?_⟩
    rw [hperm.length_eq, List.length_append]
    omega
  · have hperm := srt.perm (reducedEntries m e₂ ++ newEntries m e₂ ++ [e₂])
    refine ⟨fun x hx => hwf x (hperm.subset hx), hap.perm hperm.symm (fun h => h.symm),
      srt.sorted _, ?_⟩
    rw [hperm.length_eq]
    simp only [List.length_append, List.length_singleton] at hlen ⊢
    omega

end Step

/-! ## Every reachable map -/

section Reachable

variable (srt : ArrayVec.UnstableSort MemoryMapEntry MemoryMapEntry.baseAddr)

/-- The maps reachable from `MemoryMap::new` by `add_entry` calls with
well-formed entries, whatever each call returned.  A call that panics
reaches nothing. -/
def Reachable (m : MemoryMap) : Prop :=
  Transition.Reachable (· = new)
    (fun m m' => ∃ e r, e.WellFormed ∧ m.addEntry srt e = some (r, m')) m

variable {srt}

theorem Reachable.new : Reachable srt new :=
  Transition.Reachable.of_init rfl

theorem Reachable.addEntry {m m' : MemoryMap} {e : MemoryMapEntry} {r : Except Unit Unit}
    (h : Reachable srt m) (he : e.WellFormed) (hcall : m.addEntry srt e = some (r, m')) :
    Reachable srt m' :=
  Transition.Reachable.tail h ⟨e, r, he, hcall⟩

theorem Reachable.inv {m : MemoryMap} (h : Reachable srt m) : m.Inv := by
  refine Transition.Reachable.induction ?_ ?_ h
  · rintro _ rfl
    exact inv_new
  · rintro s t hs ⟨e, r, he, hcall⟩
    exact addEntry_inv srt hs he hcall

theorem addEntry_representation_invariant {m : MemoryMap} (h : Reachable srt m) :
    m.entries.Pairwise (fun a b => a.baseAddr ≤ b.baseAddr) ∧
    m.entries.Pairwise
      (fun a b => Disjoint (Set.Ico a.baseAddr a.endAddr) (Set.Ico b.baseAddr b.endAddr)) ∧
    (∀ x ∈ m.entries, x.baseAddr ≤ x.endAddr ∧ x.size.bytes = x.endAddr - x.baseAddr) ∧
    ∀ e : MemoryMapEntry, e.WellFormed →
      (∃ r m', m.addEntry srt e = some (r, m')) ∧
      ∀ e₂ ys ne, m.reduceFor e = some (e₂, ys, ne) → ne.length ≤ 1 := by
  have hm := h.inv
  refine ⟨hm.sorted, hm.apart.imp apart_iff_disjoint.1, hm.wellFormed, ?_⟩
  intro e he
  constructor
  · obtain ⟨e₂, -, -, hcases⟩ := addEntry_cases srt hm he
    rcases hcases with ⟨-, hcall⟩ | ⟨-, -, hcall⟩ | ⟨-, hcall⟩ <;> exact ⟨_, _, hcall⟩
  · intro e₂' ys ne hcall
    obtain ⟨e₂, -, hred, hone⟩ := reduceFor_spec hm he
    rw [hred, Option.some.injEq, Prod.mk.injEq, Prod.mk.injEq] at hcall
    rw [← hcall.2.2]
    exact hone

theorem addEntry_representation_invariant_one_free_range :
    Reachable (ArrayVec.UnstableSort.insertionSort _)
      ⟨[⟨0x80000, ⟨0x3b380000⟩, 0x3b400000, .free⟩], 0⟩ ∧
    (⟨[⟨0x80000, ⟨0x3b380000⟩, 0x3b400000, .free⟩], 0⟩ : MemoryMap).entries.Pairwise
      (fun a b => a.baseAddr ≤ b.baseAddr) ∧
    (⟨[⟨0x80000, ⟨0x3b380000⟩, 0x3b400000, .free⟩], 0⟩ : MemoryMap).entries.Pairwise
      (fun a b => Disjoint (Set.Ico a.baseAddr a.endAddr) (Set.Ico b.baseAddr b.endAddr)) ∧
    (∀ x ∈ (⟨[⟨0x80000, ⟨0x3b380000⟩, 0x3b400000, .free⟩], 0⟩ : MemoryMap).entries,
      x.baseAddr ≤ x.endAddr ∧ x.size.bytes = x.endAddr - x.baseAddr) ∧
    ∀ e : MemoryMapEntry, e.WellFormed →
      (∃ r m', (⟨[⟨0x80000, ⟨0x3b380000⟩, 0x3b400000, .free⟩], 0⟩ : MemoryMap).addEntry
        (ArrayVec.UnstableSort.insertionSort _) e = some (r, m')) ∧
      ∀ e₂ ys ne, (⟨[⟨0x80000, ⟨0x3b380000⟩, 0x3b400000, .free⟩], 0⟩ : MemoryMap).reduceFor e =
        some (e₂, ys, ne) → ne.length ≤ 1 := by
  have hr : Reachable (ArrayVec.UnstableSort.insertionSort _)
      ⟨[⟨0x80000, ⟨0x3b380000⟩, 0x3b400000, .free⟩], 0⟩ :=
    Reachable.new.addEntry (e := ⟨0x80000, ⟨0x3b380000⟩, 0x3b400000, .free⟩) (r := .ok ())
      ⟨by decide, rfl⟩ rfl
  exact ⟨hr, addEntry_representation_invariant hr⟩

end Reachable

end MemoryMap

end LanternOS
