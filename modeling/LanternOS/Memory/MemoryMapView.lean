/-
# `LanternOS.Memory.MemoryMapView` — what the map says about each address

## The abstract map

A memory map is for answering one question: what is the memory at address
`a`?  `view m a` is that answer, the type of the entry covering `a` (or
`none`), and the purpose of `add_entry e` is to paint `e`'s range with
`e`'s type (`Layout.paint`) and leave every other address alone.

## What `add_entry` does to it

`typeAt_addEntry_of` and `typeAt_of_addEntry` say, for a successful call,
exactly how an address's type changes.  Inside `e` it becomes `e`'s type.
Outside `e` it keeps its type — with one exception: when `e` lies strictly
inside an existing entry, the part of that entry above `e` comes back as a
separate entry typed `Free`, whatever the original was ("Add new free after
reserved").  So:

* the covered addresses are always the old ones together with `e`'s;
* the view is painted exactly (`view_addEntry`) when every entry that `e`
  lies strictly inside is `Free` — the case of the bootloader, which carves
  reservations and single pages out of free memory;
* otherwise reserved memory above `e` is reported as free
  (`addEntry_retypes_split_remainder_free`).

## Sizes are counts

`typeSize_eq_card`: for a map satisfying the invariant, the sizes of the
entries of one type add up to the number of addresses of that type, since
the entries are disjoint.  `get_free_mem` is the case `Free`.
-/
import LanternOS.Memory.MemoryMapInvariant
import LanternOS.Lib.Layout

namespace LanternOS

instance (e : MemoryMapEntry) (a : Nat) : Decidable (e.Covers a) :=
  inferInstanceAs (Decidable (_ ∧ _))

namespace MemoryMap

open MemoryMapEntry

/-! ## Types of addresses -/

/-- An entry of type `t` covers the address `a`. -/
def TypeAt (m : MemoryMap) (a : Nat) (t : EntryType) : Prop :=
  ∃ x ∈ m.entries, x.Covers a ∧ x.entryType = t

/-- The view of the map: the type of the first entry covering each address. -/
def view (m : MemoryMap) (a : Nat) : Option EntryType :=
  (m.entries.find? (fun x => decide (x.Covers a))).map (·.entryType)

section Inv

variable {m : MemoryMap} {a : Nat}

/-- Entries are disjoint, so an address has at most one type. -/
theorem typeAt_unique (hm : m.Inv) {t t' : EntryType} (h : m.TypeAt a t)
    (h' : m.TypeAt a t') : t = t' := by
  obtain ⟨x, hx, hxa, rfl⟩ := h
  obtain ⟨y, hy, hya, rfl⟩ := h'
  by_cases hxy : x = y
  · rw [hxy]
  · exact absurd hya (apart_iff_covers.1 (hm.apart.forall hx hy hxy) a hxa)

theorem view_eq_some_iff (hm : m.Inv) {t : EntryType} : m.view a = some t ↔ m.TypeAt a t := by
  unfold view
  constructor
  · intro h
    obtain ⟨x, hfind, rfl⟩ := Option.map_eq_some_iff.1 h
    have hxa := List.find?_some hfind
    rw [decide_eq_true_eq] at hxa
    exact ⟨x, List.mem_of_find?_eq_some hfind, hxa, rfl⟩
  · intro h
    obtain ⟨y, hy, hya, hyt⟩ := h
    cases hfind : m.entries.find? (fun x => decide (x.Covers a)) with
    | none =>
        rw [List.find?_eq_none] at hfind
        exact absurd (decide_eq_true hya) (hfind y hy)
    | some x =>
        have hxa := List.find?_some hfind
        rw [decide_eq_true_eq] at hxa
        have := typeAt_unique hm ⟨x, List.mem_of_find?_eq_some hfind, hxa, rfl⟩ ⟨y, hy, hya, hyt⟩
        rw [Option.map_some, this]

end Inv

/-! ## Sizes are counts of addresses -/

/-- The total recorded size of the entries of type `t`. -/
def typeSize (t : EntryType) (entries : List MemoryMapEntry) : Nat :=
  ((entries.filter (·.entryType = t)).map (·.size.bytes)).sum

theorem typeSize_perm {t : EntryType} {l l' : List MemoryMapEntry} (h : l.Perm l') :
    typeSize t l = typeSize t l' :=
  ((h.filter _).map _).sum_eq

/-- `get_free_mem` is the total size of the `Free` entries. -/
theorem getFreeMem_eq (m : MemoryMap) : m.getFreeMem = ⟨typeSize .free m.entries⟩ := by
  unfold getFreeMem
  congr 1
  rw [← Nat.zero_add (typeSize _ _)]
  generalize 0 = acc
  generalize m.entries = l
  induction l generalizing acc with
  | nil => simp [typeSize]
  | cons x xs ih =>
      rw [List.foldl_cons, ih]
      cases hx : x.entryType <;> simp [typeSize, hx, MemSize.toBytes]; omega

/-- For disjoint well-formed entries the sizes of one type add up to the
number of addresses of that type, counted below any bound on the ends. -/
theorem typeSize_eq_card {t : EntryType} {N : Nat} :
    ∀ {l : List MemoryMapEntry}, (∀ x ∈ l, x.WellFormed) → l.Pairwise Apart →
      (∀ x ∈ l, x.endAddr ≤ N) →
      typeSize t l =
        ((Finset.range N).filter (fun a => ∃ x ∈ l, x.Covers a ∧ x.entryType = t)).card
  | [], _, _, _ => by simp [typeSize]
  | x :: xs, hwf, hap, hN => by
      rw [List.pairwise_cons] at hap
      have ih := typeSize_eq_card (t := t) (fun y hy => hwf y (List.mem_cons_of_mem _ hy)) hap.2
        (fun y hy => hN y (List.mem_cons_of_mem _ hy))
      have hx := hwf x List.mem_cons_self
      have hxN := hN x List.mem_cons_self
      have hsplit : (Finset.range N).filter (fun a => ∃ y ∈ x :: xs, y.Covers a ∧ y.entryType = t) =
          (if x.entryType = t then Finset.Ico x.baseAddr x.endAddr else ∅) ∪
            (Finset.range N).filter (fun a => ∃ y ∈ xs, y.Covers a ∧ y.entryType = t) := by
        ext a
        simp only [Finset.mem_filter, Finset.mem_range, List.mem_cons, Finset.mem_union]
        constructor
        · rintro ⟨haN, y, rfl | hy, hya, hyt⟩
          · left
            rw [if_pos hyt]
            exact Finset.mem_Ico.2 hya
          · exact Or.inr ⟨haN, y, hy, hya, hyt⟩
        · rintro (ha | ⟨haN, y, hy, hya, hyt⟩)
          · split at ha
            · rename_i ht
              have hxa := Finset.mem_Ico.1 ha
              exact ⟨by omega, x, Or.inl rfl, hxa, ht⟩
            · simp at ha
          · exact ⟨haN, y, Or.inr hy, hya, hyt⟩
      have hdisj : Disjoint (if x.entryType = t then Finset.Ico x.baseAddr x.endAddr else ∅)
          ((Finset.range N).filter (fun a => ∃ y ∈ xs, y.Covers a ∧ y.entryType = t)) := by
        rw [Finset.disjoint_left]
        intro a ha hb
        split at ha
        · rw [Finset.mem_Ico] at ha
          obtain ⟨-, y, hy, hya, -⟩ := Finset.mem_filter.1 hb
          exact apart_iff_covers.1 (hap.1 y hy) a ha hya
        · simp at ha
      rw [hsplit, Finset.card_union_of_disjoint hdisj, ← ih]
      by_cases ht : x.entryType = t
      · simp [typeSize, ht, hx.2]
      · simp [typeSize, ht]

/-- Under the invariant, the sizes of the entries of type `t` add up to the
number of addresses the view gives type `t`. -/
theorem typeSize_eq_card_view {m : MemoryMap} (hm : m.Inv) {t : EntryType} {N : Nat}
    (hN : ∀ x ∈ m.entries, x.endAddr ≤ N) :
    typeSize t m.entries = (Layout.support m.view N t).card := by
  rw [typeSize_eq_card hm.wellFormed hm.apart hN]
  unfold Layout.support
  congr 1
  ext a
  rw [Finset.mem_filter, Finset.mem_filter, view_eq_some_iff hm]
  rfl

/-- Painting a range of free memory with another type `t` moves its size
from `Free` to `t`. -/
theorem typeSize_paint_free {m m' : MemoryMap} (hm : m.Inv) (hm' : m'.Inv) {lo hi N : Nat}
    {t : EntryType} (ht : t ≠ .free) (hN : ∀ x ∈ m.entries, x.endAddr ≤ N)
    (hN' : ∀ x ∈ m'.entries, x.endAddr ≤ N) (hhi : hi ≤ N)
    (hview : m'.view = Layout.paint m.view lo hi t)
    (hfree : ∀ a, lo ≤ a → a < hi → m.view a = some .free) :
    typeSize t m'.entries = typeSize t m.entries + (hi - lo) ∧
      typeSize .free m'.entries + (hi - lo) = typeSize .free m.entries := by
  rw [typeSize_eq_card_view hm' hN', typeSize_eq_card_view hm' hN', typeSize_eq_card_view hm hN,
    typeSize_eq_card_view hm hN, hview]
  constructor
  · apply Layout.card_support_paint_self hhi
    intro a hlo hlt hsome
    rw [hfree a hlo hlt, Option.some.injEq] at hsome
    exact ht hsome.symm
  · exact Layout.card_support_paint_other (Ne.symm ht) hhi hfree

/-- Below a bound on the ends, a type has at most that many bytes. -/
theorem typeSize_le {m : MemoryMap} (hm : m.Inv) {t : EntryType} {N : Nat}
    (hN : ∀ x ∈ m.entries, x.endAddr ≤ N) : typeSize t m.entries ≤ N := by
  rw [typeSize_eq_card_view hm hN]
  calc (Layout.support m.view N t).card ≤ (Finset.range N).card := Finset.card_filter_le _ _
    _ = N := Finset.card_range N

/-! ## One successful `add_entry` -/

section AddEntry

variable (srt : ArrayVec.UnstableSort MemoryMapEntry MemoryMapEntry.baseAddr)
variable {m m' : MemoryMap} {e : MemoryMapEntry}

/-- A successful call writes back a permutation of the reduced entries, the
remainders and the merged entry. -/
theorem addEntry_ok_perm (hm : m.Inv) (he : e.WellFormed)
    (h : m.addEntry srt e = some (.ok (), m')) :
    ∃ e₂, Merged m e e₂ ∧
      m'.entries.Perm (reducedEntries m e₂ ++ newEntries m e₂ ++ [e₂]) := by
  obtain ⟨e₂, hmerged, -, hcases⟩ := addEntry_cases srt hm he
  refine ⟨e₂, hmerged, ?_⟩
  rcases hcases with ⟨-, hcall⟩ | ⟨-, -, hcall⟩ | ⟨-, hcall⟩ <;>
    rw [hcall, Option.some.injEq, Prod.mk.injEq] at h
  · exact absurd h.1 (by simp)
  · exact absurd h.1 (by simp)
  · rw [← h.2]
    exact srt.perm _

/-- Where a type after a successful call comes from: inside `e`, from `e`;
outside, from the entry that covered the address before — or `Free`, from
the upper half of an entry that `e` lay strictly inside. -/
theorem typeAt_of_addEntry (hm : m.Inv) (he : e.WellFormed)
    (h : m.addEntry srt e = some (.ok (), m')) {a : Nat} {t : EntryType}
    (ht : m'.TypeAt a t) :
    (e.Covers a ∧ t = e.entryType) ∨
      (¬ e.Covers a ∧ (m.TypeAt a t ∨ (t = .free ∧ ∃ x ∈ m.entries, x.Covers a ∧
        x.baseAddr < e.baseAddr ∧ e.endAddr < x.endAddr))) := by
  obtain ⟨e₂, hmerged, hperm⟩ := addEntry_ok_perm srt hm he h
  have hspec := ReduceSpec.of_kept hm hmerged.wellFormed
  have hwithin := hmerged.within
  unfold Within at hwithin
  obtain ⟨x, hx, hxa, rfl⟩ := ht
  rw [hperm.mem_iff, List.mem_append, List.mem_append, List.mem_singleton] at hx
  rcases hx with (hx | hx) | rfl
  · -- a reduced entry: inside its old entry, outside `e₂`
    obtain ⟨y, hy, rfl⟩ := List.mem_map.1 hx
    have hout : ¬ e.Covers a := by
      have := apart_iff_covers.1 (hspec y hy).apart a hxa
      unfold Covers at this ⊢
      omega
    have hya : y.Covers a := by
      have := (hspec y hy).within
      simp only [Within, Covers] at this hxa ⊢
      omega
    refine Or.inr ⟨hout, Or.inl ⟨y, (mem_kept.1 hy).1, hya, (hspec y hy).entryType.symm⟩⟩
  · -- a remainder: `Free`, inside an old entry that `e₂` (so `e`) lay strictly inside
    obtain ⟨y, hy, hr⟩ := List.mem_filterMap.1 hx
    obtain ⟨rfl, hy1, hy2, -⟩ := (hspec y hy).split x hr
    have hout : ¬ e.Covers a := by
      unfold Covers at hxa ⊢
      simp only at hxa
      omega
    refine Or.inr ⟨hout, Or.inr ⟨rfl, y, (mem_kept.1 hy).1, ?_, by omega, by omega⟩⟩
    have := hmerged.wellFormed.1
    unfold Covers at hxa ⊢
    simp only at hxa
    omega
  · -- the merged entry: `e` itself, or a same-typed neighbour it absorbed
    rcases hmerged.covers a hxa with hea | ⟨y, hy, hyt, hya⟩
    · exact Or.inl ⟨hea, hmerged.entryType⟩
    · by_cases hea : e.Covers a
      · exact Or.inl ⟨hea, hmerged.entryType⟩
      · exact Or.inr ⟨hea, Or.inl ⟨y, hy, hya, hyt.trans hmerged.entryType.symm⟩⟩

/-- What a successful call leaves at an address: `e`'s type inside `e`;
outside, the old type — or `Free`, when the address lay in the upper part of
an old entry that `e` was strictly inside. -/
theorem typeAt_addEntry_of (hm : m.Inv) (he : e.WellFormed)
    (h : m.addEntry srt e = some (.ok (), m')) {a : Nat} :
    (e.Covers a → m'.TypeAt a e.entryType) ∧
    (∀ t, ¬ e.Covers a → m.TypeAt a t →
      m'.TypeAt a t ∨ (m'.TypeAt a .free ∧ ∃ x ∈ m.entries, x.entryType = t ∧
        x.baseAddr < e.baseAddr ∧ e.endAddr < x.endAddr)) := by
  obtain ⟨e₂, hmerged, hperm⟩ := addEntry_ok_perm srt hm he h
  have hspec := ReduceSpec.of_kept hm hmerged.wellFormed
  have hmem2 : e₂ ∈ m'.entries := by
    rw [hperm.mem_iff]
    simp
  have hwithin := hmerged.within
  unfold Within at hwithin
  constructor
  · intro hea
    refine ⟨e₂, hmem2, ?_, hmerged.entryType⟩
    unfold Covers at hea ⊢
    omega
  · rintro t hout ⟨y, hy, hya, rfl⟩
    by_cases h2 : e₂.Covers a
    · left
      rcases hmerged.covers a h2 with hea | ⟨z, hz, hzt, hza⟩
      · exact absurd hea hout
      · have := typeAt_unique hm ⟨y, hy, hya, rfl⟩ ⟨z, hz, hza, hzt⟩
        exact ⟨e₂, hmem2, h2, hmerged.entryType.trans this.symm⟩
    · have hky : y ∈ kept m e₂ := by
        rw [mem_kept]
        refine ⟨hy, ?_⟩
        by_contra hfull
        rw [Bool.not_eq_false, fullyContains_eq_true] at hfull
        unfold Covers at hya h2
        omega
      rcases (hspec y hky).covers a hya h2 with hred | ⟨r, hr, hra⟩
      · left
        refine ⟨reduced e₂ y, ?_, hred, (hspec y hky).entryType⟩
        rw [hperm.mem_iff]
        simp only [List.mem_append, List.mem_singleton]
        exact Or.inl (Or.inl (List.mem_map_of_mem hky))
      · right
        obtain ⟨rfl, hy1, hy2, -⟩ := (hspec y hky).split r hr
        refine ⟨⟨_, ?_, hra, rfl⟩, y, hy, rfl, by omega, by omega⟩
        rw [hperm.mem_iff]
        simp only [List.mem_append, List.mem_singleton]
        exact Or.inl (Or.inr (List.mem_filterMap.2 ⟨y, hky, hr⟩))

/-- A successful call puts no entry past the old entries and `e`: the
reduced entries and remainders lie within old entries, and the merged entry
within `e` and its same-typed neighbours. -/
theorem addEntry_endAddr_le (hm : m.Inv) (he : e.WellFormed)
    (h : m.addEntry srt e = some (.ok (), m')) {N : Nat} (hN : ∀ x ∈ m.entries, x.endAddr ≤ N)
    (heN : e.endAddr ≤ N) : ∀ x ∈ m'.entries, x.endAddr ≤ N := by
  obtain ⟨e₂, hmerged, hperm⟩ := addEntry_ok_perm srt hm he h
  have hspec := ReduceSpec.of_kept hm hmerged.wellFormed
  intro x hx
  rw [hperm.mem_iff, List.mem_append, List.mem_append, List.mem_singleton] at hx
  rcases hx with (hx | hx) | rfl
  · obtain ⟨y, hy, rfl⟩ := List.mem_map.1 hx
    exact le_trans (hspec y hy).within.2 (hN y (mem_kept.1 hy).1)
  · obtain ⟨y, hy, hr⟩ := List.mem_filterMap.1 hx
    exact le_trans ((hspec y hy).remainder_within hr hmerged.wellFormed).2 (hN y (mem_kept.1 hy).1)
  · by_cases hne : x.baseAddr < x.endAddr
    · rcases hmerged.covers (x.endAddr - 1) ⟨by omega, by omega⟩ with hea | ⟨y, hy, -, hya⟩
      · have := hea.2
        omega
      · have := hya.2
        have := hN y hy
        omega
    · have hw := hmerged.within
      have := hmerged.wellFormed.1
      have := he.1
      unfold Within at hw
      omega

/-- The refinement: when every entry that `e` lies strictly inside is
`Free`, a successful `add_entry e` paints `e`'s range with `e`'s type. -/
theorem view_addEntry (hm : m.Inv) (he : e.WellFormed)
    (hfree : ∀ x ∈ m.entries, x.baseAddr < e.baseAddr → e.endAddr < x.endAddr →
      x.entryType = .free)
    (h : m.addEntry srt e = some (.ok (), m')) :
    m'.view = Layout.paint m.view e.baseAddr e.endAddr e.entryType := by
  have hm' := addEntry_inv srt hm he h
  funext a
  apply Option.ext
  intro t
  rw [view_eq_some_iff hm']
  by_cases hea : e.Covers a
  · rw [Layout.paint_of_mem hea, Option.some.injEq]
    constructor
    · intro ht
      rcases typeAt_of_addEntry srt hm he h ht with ⟨-, rfl⟩ | ⟨hout, -⟩
      · rfl
      · exact absurd hea hout
    · rintro rfl
      exact (typeAt_addEntry_of srt hm he h).1 hea
  · rw [Layout.paint_of_not_mem hea, view_eq_some_iff hm]
    constructor
    · intro ht
      rcases typeAt_of_addEntry srt hm he h ht with ⟨hin, -⟩ | ⟨-, hold | ⟨rfl, x, hx, hxa, hx1, hx2⟩⟩
      · exact absurd hin hea
      · exact hold
      · exact ⟨x, hx, hxa, hfree x hx hx1 hx2⟩
    · intro hold
      rcases (typeAt_addEntry_of srt hm he h).2 t hea hold with hnew | ⟨hnew, x, hx, rfl, hx1, hx2⟩
      · exact hnew
      · rw [hfree x hx hx1 hx2]
        exact hnew

end AddEntry

/-! ## Runs of `add_entry`, and "last added entry wins"

The specification of a map built by `add_entry` calls is the abstract map
got by painting the added entries one after the other, each over the ones
before it.  `Run P added m` is a run from `MemoryMap::new` in which every call
returned `Ok` and satisfied the side condition `P` on the map it was made
on; the code meets the specification on the runs in which each entry that is
added strictly inside another lands in `Free` memory, and misses it on the
others. -/

/-- "Last added entry wins": paint the added entries in order, each over the
ones before it. -/
def lastWins (added : List MemoryMapEntry) : Nat → Option EntryType :=
  added.foldl (fun f e => Layout.paint f e.baseAddr e.endAddr e.entryType) (fun _ => none)

/-- Every entry that `e` lies strictly inside is `Free`. -/
def CarvesFree (m : MemoryMap) (e : MemoryMapEntry) : Prop :=
  ∀ x ∈ m.entries, x.baseAddr < e.baseAddr → e.endAddr < x.endAddr → x.entryType = .free

section Run

variable (srt : ArrayVec.UnstableSort MemoryMapEntry MemoryMapEntry.baseAddr)

/-- A run of successful `add_entry` calls of well-formed entries from
`MemoryMap::new`, each made on a map and entry satisfying `P`; `added` lists
the entries in the order they were added. -/
inductive Run (P : MemoryMap → MemoryMapEntry → Prop) : List MemoryMapEntry → MemoryMap → Prop
  | new : Run P [] new
  | addEntry {added : List MemoryMapEntry} {m m' : MemoryMap} {e : MemoryMapEntry} :
      Run P added m → e.WellFormed → P m e → m.addEntry srt e = some (.ok (), m') →
      Run P (added ++ [e]) m'

variable {srt} {P : MemoryMap → MemoryMapEntry → Prop} {added : List MemoryMapEntry} {m : MemoryMap}

theorem Run.inv (h : Run srt P added m) : m.Inv := by
  induction h with
  | new => exact inv_new
  | addEntry _ he _ hcall ih => exact addEntry_inv srt ih he hcall

end Run

section SplitRemainder

variable (srt : ArrayVec.UnstableSort MemoryMapEntry MemoryMapEntry.baseAddr)

/-- MMIO at `[0x400, 0x800)` added inside a kernel image at `[0, 0x1000)`:
the kernel's upper part `[0x800, 0x1000)` comes back as a `Free` entry, so
the map reports kernel memory as free and `get_free_mem` counts it, where
"last added entry wins" has it as kernel memory.  Every `sort_unstable_by`
gives this. -/
theorem addEntry_retypes_split_remainder_free :
    ∃ m₁ m₂, new.addEntry srt ⟨0, ⟨0x1000⟩, 0x1000, .kernel⟩ = some (.ok (), m₁) ∧
      m₁.addEntry srt ⟨0x400, ⟨0x400⟩, 0x800, .mmio⟩ = some (.ok (), m₂) ∧
      lastWins [⟨0, ⟨0x1000⟩, 0x1000, .kernel⟩, ⟨0x400, ⟨0x400⟩, 0x800, .mmio⟩] 0x800 =
        some .kernel ∧
      m₂.view 0x800 = some .free ∧ m₂.getFreeMem = ⟨0x800⟩ := by
  have hone : srt.sort [⟨0, ⟨0x1000⟩, 0x1000, .kernel⟩] = [⟨0, ⟨0x1000⟩, 0x1000, .kernel⟩] :=
    List.perm_singleton.1 (srt.perm _)
  have h₁ : new.addEntry srt ⟨0, ⟨0x1000⟩, 0x1000, .kernel⟩ =
      some (.ok (), ⟨[⟨0, ⟨0x1000⟩, 0x1000, .kernel⟩], 0⟩) := by
    rw [← hone]
    rfl
  have h₂ : MemoryMap.addEntry srt ⟨[⟨0, ⟨0x1000⟩, 0x1000, .kernel⟩], 0⟩
        ⟨0x400, ⟨0x400⟩, 0x800, .mmio⟩ =
      some (.ok (), ⟨srt.sort [⟨0, ⟨0x400⟩, 0x400, .kernel⟩, ⟨0x800, ⟨0x800⟩, 0x1000, .free⟩,
        ⟨0x400, ⟨0x400⟩, 0x800, .mmio⟩], 0⟩) := rfl
  have hm₂ := addEntry_inv srt (addEntry_inv srt inv_new ⟨by decide, rfl⟩ h₁) ⟨by decide, rfl⟩ h₂
  refine ⟨_, _, h₁, h₂, rfl, ?_, ?_⟩
  · rw [view_eq_some_iff hm₂]
    refine ⟨⟨0x800, ⟨0x800⟩, 0x1000, .free⟩, ?_, by decide, rfl⟩
    rw [(srt.perm _).mem_iff]
    simp
  · rw [getFreeMem_eq, typeSize_perm (srt.perm _)]
    rfl

end SplitRemainder

end MemoryMap

end LanternOS
