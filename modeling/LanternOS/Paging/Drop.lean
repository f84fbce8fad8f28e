/-
# `LanternOS.Paging.Drop` — the frames a dropped page table frees

`Drop for PageTable` walks the tables with three nested loops and hands
frames to `deallocate_frame`.  The outer two loops test each descriptor for
`valid() && is_table()` before they descend, as the map functions do when
they build tables; the innermost one does not: it frees the target of every
one of the 512 descriptors of a level-2 table, the zero of an empty slot
and the data frame of a 2MiB block as well as the level-3 tables.

## Reading the loops as a list

Each loop body reads its descriptor from the memory as it is when the loop
gets there, and `deallocate_frame` may write the frame it frees.  Over an
allocator whose `deallocate_frame` leaves memory alone (`KeepsMem`), every
read sees the memory the walk started from, and the addresses freed are
`dropFrames`, computed from that memory in one go (`drop_freed`).  A fold
that keeps the memory and appends to the freed list is a `flatMap`
(`foldl_freed`), once per loop.

From a new table, one `map_page` and the drop frees address `0` for each of
the 511 empty slots of the level-2 table, and one `map_2mib_page` and the
drop frees the block's frame at `0x200000`, which the table never obtained
(`drop_frees_null_and_block_frames`).
-/
import LanternOS.Paging.Translation

namespace LanternOS

namespace PageTable

open Bitfield State

variable {A : Type} (pa : PageAlloc A)

/-- `deallocate_frame` leaves memory as it was. -/
def PageAlloc.KeepsMem : Prop :=
  ∀ a m f, (pa.deallocateFrame a m f).2 = m

variable {pa}

@[simp] theorem freeFrame_freed (d : Dropping A) (f : Nat) :
    (freeFrame pa d f).freed = d.freed ++ [f] := rfl

theorem freeFrame_mem (hk : pa.KeepsMem) (d : Dropping A) (f : Nat) :
    (freeFrame pa d f).mem = d.mem :=
  hk d.alloc d.mem f

/-- A loop whose every turn keeps the memory and frees `out` of it frees
the `out`s of all turns, in order. -/
theorem foldl_freed (g : Dropping A → Nat → Dropping A) (out : Mem → Nat → List Nat)
    (hg : ∀ d x, (g d x).mem = d.mem ∧ (g d x).freed = d.freed ++ out d.mem x) :
    ∀ (l : List Nat) (d : Dropping A),
      (l.foldl g d).mem = d.mem ∧ (l.foldl g d).freed = d.freed ++ l.flatMap (out d.mem)
  | [], d => by simp
  | x :: xs, d => by
      obtain ⟨hm, hf⟩ := hg d x
      obtain ⟨ihm, ihf⟩ := foldl_freed g out hg xs (g d x)
      rw [List.foldl_cons, ihm, hm, ihf, hf, hm, List.flatMap_cons, List.append_assoc]
      exact ⟨rfl, rfl⟩

section Keeps

variable (hk : pa.KeepsMem)
include hk

/-- The innermost loop frees the target of every descriptor of `t2`, then
`t2`. -/
theorem dropLvl2_spec (t2 : Nat) (d : Dropping A) :
    (dropLvl2 pa t2 d).mem = d.mem ∧ (dropLvl2 pa t2 d).freed =
      d.freed ++ ((List.range 512).map (fun k => nextTable (d.mem (entry t2 k))) ++ [t2]) := by
  obtain ⟨hm, hf⟩ := foldl_freed (fun d k => freeFrame pa d (nextTable (d.mem (entry t2 k))))
    (fun m k => [nextTable (m (entry t2 k))])
    (fun d k => ⟨freeFrame_mem hk _ _, freeFrame_freed _ _⟩) (List.range 512) d
  refine ⟨by rw [dropLvl2, freeFrame_mem hk, hm], ?_⟩
  rw [dropLvl2, freeFrame_freed, hf, ← List.map_eq_flatMap, List.append_assoc]

/-- The middle loop frees what the innermost one does below each valid table
descriptor of `t1`, then `t1`. -/
theorem dropLvl1_spec (t1 : Nat) (d : Dropping A) :
    (dropLvl1 pa t1 d).mem = d.mem ∧ (dropLvl1 pa t1 d).freed =
      d.freed ++ ((List.range 512).flatMap (fun j =>
        let d1 := d.mem (entry t1 j)
        if TableDescriptor.valid d1 && TableDescriptor.isTable d1 then
          (List.range 512).map (fun k => nextTable (d.mem (entry (nextTable d1) k))) ++
            [nextTable d1]
        else []) ++ [t1]) := by
  obtain ⟨hm, hf⟩ := foldl_freed (fun d j =>
      if TableDescriptor.valid (d.mem (entry t1 j)) && TableDescriptor.isTable (d.mem (entry t1 j))
      then dropLvl2 pa (nextTable (d.mem (entry t1 j))) d else d)
    (fun m j =>
      if TableDescriptor.valid (m (entry t1 j)) && TableDescriptor.isTable (m (entry t1 j)) then
        (List.range 512).map (fun k => nextTable (m (entry (nextTable (m (entry t1 j))) k))) ++
          [nextTable (m (entry t1 j))]
      else [])
    (fun d j => by
      -- a turn either runs the innermost loop or does nothing
      split
      · exact dropLvl2_spec hk _ d
      · simp)
    (List.range 512) d
  refine ⟨by rw [dropLvl1, freeFrame_mem hk, hm], ?_⟩
  rw [dropLvl1, freeFrame_freed, hf, List.append_assoc]

/-- Over an allocator that leaves memory alone, `Drop` frees `dropFrames`. -/
theorem drop_freed (s : State A) : (s.drop pa).freed = s.dropFrames := by
  obtain ⟨-, hf⟩ := foldl_freed (fun d i =>
      if TableDescriptor.valid (d.mem (entry s.lvl0Table i)) &&
          TableDescriptor.isTable (d.mem (entry s.lvl0Table i))
      then dropLvl1 pa (nextTable (d.mem (entry s.lvl0Table i))) d else d)
    (fun m i =>
      if TableDescriptor.valid (m (entry s.lvl0Table i)) &&
          TableDescriptor.isTable (m (entry s.lvl0Table i)) then
        (List.range 512).flatMap (fun j =>
          let d1 := m (entry (nextTable (m (entry s.lvl0Table i))) j)
          if TableDescriptor.valid d1 && TableDescriptor.isTable d1 then
            (List.range 512).map (fun k => nextTable (m (entry (nextTable d1) k))) ++
              [nextTable d1]
          else []) ++ [nextTable (m (entry s.lvl0Table i))]
      else [])
    (fun d i => by
      split
      · exact dropLvl1_spec hk _ d
      · simp)
    (List.range 512) ⟨s.alloc, s.mem, []⟩
  rw [drop, freeFrame_freed, hf, dropFrames, List.nil_append]

end Keeps

/-- Below a valid table descriptor at level 0 and one at level 1, the walk
frees the target of every level-2 descriptor, whatever the descriptor is. -/
theorem mem_dropFrames {s : State A} {i j k : Nat} (hi : i < 512) (hj : j < 512) (hk : k < 512)
    (h0 : TableDescriptor.valid (s.mem (entry s.lvl0Table i)) = true)
    (h0t : TableDescriptor.isTable (s.mem (entry s.lvl0Table i)) = true)
    (h1 : TableDescriptor.valid (s.mem (entry (nextTable (s.mem (entry s.lvl0Table i))) j)) = true)
    (h1t : TableDescriptor.isTable
      (s.mem (entry (nextTable (s.mem (entry s.lvl0Table i))) j)) = true) :
    nextTable (s.mem (entry (nextTable (s.mem (entry (nextTable
      (s.mem (entry s.lvl0Table i))) j))) k)) ∈ s.dropFrames := by
  unfold dropFrames
  refine List.mem_append_left _ (List.mem_flatMap.2 ⟨i, List.mem_range.2 hi, ?_⟩)
  simp only [h0, h0t, Bool.and_self, if_true]
  refine List.mem_append_left _ (List.mem_flatMap.2 ⟨j, List.mem_range.2 hj, ?_⟩)
  simp only [h1, h1t, Bool.and_self, if_true]
  exact List.mem_append_left _ (List.mem_map.2 ⟨k, List.mem_range.2 hk, rfl⟩)

/-! ## Dropping a table with one mapping -/

/-- The stack of free frames writes nothing when a frame is freed. -/
theorem frameStack_keepsMem : frameStack.KeepsMem := fun _ _ _ => rfl

theorem drop_frees_null_and_block_frames :
    0 ∈ (pageAtZero.2.drop frameStack).freed ∧
    0x200000 ∈ (blockAtZero.2.drop frameStack).freed ∧
    0 ∉ fourFrames ∧ 0x200000 ∉ fourFrames := by
  rw [drop_freed frameStack_keepsMem, drop_freed frameStack_keepsMem]
  refine ⟨?_, ?_, by decide, by decide⟩
  · -- slot 1 of the level-2 table at `0x3000` is empty
    have h := mem_dropFrames (s := pageAtZero.2) (i := 0) (j := 0) (k := 1) (by decide)
      (by decide) (by decide) (by decide +kernel) (by decide +kernel) (by decide +kernel)
      (by decide +kernel)
    have h0 : nextTable (pageAtZero.2.mem (entry (nextTable (pageAtZero.2.mem (entry (nextTable
      (pageAtZero.2.mem (entry pageAtZero.2.lvl0Table 0))) 0))) 1)) = 0 := by decide +kernel
    rwa [h0] at h
  · -- slot 0 of the level-2 table at `0x3000` is the 2MiB block
    have h := mem_dropFrames (s := blockAtZero.2) (i := 0) (j := 0) (k := 0) (by decide)
      (by decide) (by decide) (by decide +kernel) (by decide +kernel) (by decide +kernel)
      (by decide +kernel)
    have h0 : nextTable (blockAtZero.2.mem (entry (nextTable (blockAtZero.2.mem (entry (nextTable
      (blockAtZero.2.mem (entry blockAtZero.2.lvl0Table 0))) 0))) 0)) = 0x200000 := by
      decide +kernel
    rwa [h0] at h

end PageTable

end LanternOS
