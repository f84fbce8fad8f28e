/-
# `LanternOS.Memory.MemoryMapFull` — `add_entry` on a full map

`add_entry` has two fallible appends, and both come after the `retain` and
the `reduce` loop have already rewritten `self.entries` in place.  When
`try_extend_from_slice` cannot take the split-off remainder, the call
returns `Err` with the entries reduced: the entry that held the new range is
cut short and its upper half is dropped (`addEntry_cases`, first branch).
The bootloader's `allocate_frame` passes that `Err` on and carries on.

A map gets there by ordinary calls.  An entry that begins above every entry
of a map with room left is appended as it is (`addEntry_above`), so 32
spaced-out `Free` ranges, added bottom up from `MemoryMap::new`, fill the map
(`reachable_spaced`); reserving one page in the middle of the lowest of them
then fails, and the failed call has already cut that entry to the page's
base (`addEntry_error_cuts_entry_in_place`).
-/
import LanternOS.Memory.MemoryMapInvariant

namespace LanternOS

namespace MemoryMap

open MemoryMapEntry

/-! ## Adding above everything -/

section Above

variable {e x : MemoryMapEntry}

/-- An entry that ends below `e` is not touched by `e`. -/
theorem reduce_of_below (hx : x.endAddr < e.baseAddr) (he : e.baseAddr ≤ e.endAddr) :
    x.reduce e = some (x, none) := by
  have hc : x.contains e = false := by
    rw [Bool.eq_false_iff, Ne, contains_eq_true]
    omega
  simp [MemoryMapEntry.reduce, hc]

/-- The reduce loop leaves entries below `e` as they are and splits none. -/
theorem reduceAll_of_below (he : e.baseAddr ≤ e.endAddr) :
    ∀ (xs acc : List MemoryMapEntry), (∀ x ∈ xs, x.endAddr < e.baseAddr) →
      reduceAll e xs acc = some (xs, acc)
  | [], acc, _ => rfl
  | x :: xs, acc, h => by
      have hx := reduce_of_below (h x List.mem_cons_self) he
      have ih := reduceAll_of_below he xs acc (fun y hy => h y (List.mem_cons_of_mem _ hy))
      simp [reduceAll, hx, ih]

variable (srt : ArrayVec.UnstableSort MemoryMapEntry MemoryMapEntry.baseAddr)

/-- With room left, an entry that begins above every entry of a sorted map
is appended: nothing ends or begins where it does, nothing lies inside it,
nothing is cut, and the sort keeps the order. -/
theorem addEntry_above {m : MemoryMap}
    (hsorted : m.entries.Pairwise (fun a b => a.baseAddr < b.baseAddr))
    (hbelow : ∀ x ∈ m.entries, x.baseAddr < e.baseAddr ∧ x.endAddr < e.baseAddr)
    (he : e.baseAddr ≤ e.endAddr) (hlen : m.entries.length < capacity) :
    m.addEntry srt e = some (.ok (), { m with entries := m.entries ++ [e] }) := by
  have hfindBelow : m.entries.find?
      (fun x => x.endAddr == e.baseAddr && x.entryType == e.entryType) = none := by
    rw [List.find?_eq_none]
    intro x hx
    have := hbelow x hx
    simp only [Bool.and_eq_true, beq_iff_eq, not_and]
    omega
  have hfindAbove : m.entries.find?
      (fun x => x.baseAddr == e.endAddr && x.entryType == e.entryType) = none := by
    rw [List.find?_eq_none]
    intro x hx
    have := hbelow x hx
    simp only [Bool.and_eq_true, beq_iff_eq, not_and]
    omega
  -- `e` begins above every base, so it fully contains no entry
  have hkept : m.entries.filter (fun x => !e.fullyContains x) = m.entries := by
    rw [List.filter_eq_self]
    intro x hx
    have := hbelow x hx
    simp only [Bool.not_eq_eq_eq_not, Bool.not_true, Bool.eq_false_iff, Ne,
      fullyContains_eq_true]
    omega
  have hred := reduceAll_of_below he m.entries [] (fun x hx => (hbelow x hx).2)
  have hsort : srt.sort (m.entries ++ [e]) = m.entries ++ [e] := by
    apply srt.sort_eq_self
    rw [List.pairwise_append]
    exact ⟨hsorted, List.pairwise_singleton _ _,
      fun x hx y hy => (List.mem_singleton.1 hy) ▸ (hbelow x hx).1⟩
  simp only [addEntry, reduceFor, mergeBelow, mergeAbove, hfindBelow, hfindAbove, hkept, hred,
    Option.pure_def, Option.bind_eq_bind, Option.bind_some, ArrayVec.tryExtendFromSlice,
    ArrayVec.tryPush, List.append_nil, List.length_nil, if_neg (Nat.not_lt_zero _), if_pos hlen,
    hsort]

end Above

/-! ## A full map -/

/-- The `i`-th of 32 spaced-out `Free` ranges: three pages of every four. -/
def spacedRange (i : Nat) : MemoryMapEntry :=
  ⟨0x4000 * i, ⟨0x3000⟩, 0x4000 * i + 0x3000, .free⟩

/-- The first `k` of them, bottom up. -/
def spaced (k : Nat) : List MemoryMapEntry := (List.range k).map spacedRange

theorem spaced_succ (k : Nat) : spaced (k + 1) = spaced k ++ [spacedRange k] := by
  simp [spaced, List.range_succ]

theorem spaced_sorted (k : Nat) :
    (spaced k).Pairwise (fun a b => a.baseAddr < b.baseAddr) := by
  unfold spaced
  rw [List.pairwise_map]
  exact List.pairwise_lt_range.imp (fun hij => by simp [spacedRange]; omega)

theorem spaced_below {k : Nat} : ∀ x ∈ spaced k,
    x.baseAddr < (spacedRange k).baseAddr ∧ x.endAddr < (spacedRange k).baseAddr := by
  intro x hx
  obtain ⟨i, hi, rfl⟩ := List.mem_map.1 hx
  have := List.mem_range.1 hi
  simp only [spacedRange]
  omega

variable (srt : ArrayVec.UnstableSort MemoryMapEntry MemoryMapEntry.baseAddr)

/-- Adding the spaced ranges bottom up from `MemoryMap::new` fills the map
one entry a call. -/
theorem reachable_spaced : ∀ k ≤ capacity, Reachable srt ⟨spaced k, 0⟩
  | 0, _ => Reachable.new
  | k + 1, hk => by
      have hlen : (spaced k).length < capacity := by
        simp only [spaced, List.length_map, List.length_range]
        omega
      have hwf : (spacedRange k).WellFormed := by
        simp only [WellFormed, spacedRange]
        omega
      have hcall := addEntry_above srt (m := ⟨spaced k, 0⟩) (spaced_sorted k) spaced_below
        (by simp only [spacedRange]; omega) hlen
      rw [spaced_succ]
      exact (reachable_spaced k (by omega)).addEntry hwf hcall

/-- The map with all 32 ranges. -/
def fullMap : MemoryMap := ⟨spaced capacity, 0⟩

/-- One page reserved in the middle of the lowest range, as `allocate_frame`
adds it. -/
def middlePage : MemoryMapEntry := ⟨0x1000, ⟨0x1000⟩, 0x2000, .blReserved⟩

set_option maxRecDepth 8000 in
theorem addEntry_error_cuts_entry_in_place :
    Reachable srt fullMap ∧ middlePage.WellFormed ∧
      ∃ m', fullMap.addEntry srt middlePage = some (.error (), m') ∧
        m'.entries = ⟨0, ⟨0x1000⟩, 0x1000, .free⟩ :: (spaced capacity).tail ∧
        m'.entries ≠ fullMap.entries := by
  refine ⟨reachable_spaced srt capacity le_rfl, ⟨by decide, rfl⟩, _, rfl, rfl, ?_⟩
  -- the lowest entry was `[0, 0x3000)`
  decide +kernel

end MemoryMap

end LanternOS
