/-
# `LanternOS.Boot.VirtualLayout` — the higher half the kernel starts with

Three functions place the kernel's virtual memory in the TTBR1 half, each
from the one before:

* `main` maps the kernel image page by page from `__KERNEL_VIRT_START`,
  advancing `offset` by a page for each; then, for each of the four cores, it
  skips one page (the guard page), maps `stack_size / page_size` stack pages
  and records the top as `kernel_stacks_virt_top[i]`; then it maps all of
  physical memory in 1GiB blocks from `memory_linear_map_start`, the last
  stack top rounded up to 1GiB;
* `jump_to_kernel` passes `kernel_end`, the last stack top rounded up to the
  page size;
* `kernel_early_init` maps a 2MiB heap from `kernel_end`.

`virtualLayout` collects the ranges these computations map.  The loops are
closed by run lemmas (`foldlM_mapStep`, `stacksVirtTop_eq`), so a layout is
computed from a few sums and two roundings (`virtualLayout_eq`).

The bootloader's comment bounds the kernel and its stacks by 1GiB so that
they stay below the linear map; the heap is placed above the stacks by the
kernel and is not in that bound.  With the stacks ending less than 2MiB
below a 1GiB boundary, the heap runs into the linear map's first block
(`heap_overlaps_linear_map`).  Everything else is apart wherever nothing
overflows (`virtualLayout_apart`): the image and the stacks from each other
and from the heap and the linear map, and the heap from the linear map
exactly when it ends by the linear map's start.
-/
import LanternOS.Memory.MemoryMap
import LanternOS.Lib.Align

namespace LanternOS

namespace Bootloader

/-- A level-1 block, the step of the linear map. -/
def gib : Nat := 0x40000000

/-- The size of the kernel heap `kernel_early_init` maps. -/
def kernelHeapSize : Nat := 0x200000

/-! ## The loops of `main` -/

/-- One mapped page: `map_page` at `kernel_virt_start + offset`, then `offset
+= page_size`, both in `u64`. -/
def mapStep (pageSize kernelVirtStart offset : Nat) : Option Nat := do
  let _ ← Checked.add 64 kernelVirtStart offset
  Checked.add 64 offset pageSize

/-- The kernel loop: one `mapStep` per page of `base_addr..end_addr`,
stepping by `page_size`, from `offset = 0`. -/
def kernelOffset (pageSize kernelVirtStart baseAddr endAddr : Nat) : Option Nat := do
  let physPages ← Checked.stepBy baseAddr endAddr pageSize
  physPages.foldlM (fun offset _ => mapStep pageSize kernelVirtStart offset) 0

/-- One turn of the stack loop: `offset += page_size` for the guard page,
`stack_size / page_size` mapped pages, and the top `kernel_virt_start +
offset`. -/
def stackTurn (pageSize stackSize kernelVirtStart offset : Nat) : Option (Nat × Nat) := do
  -- Guard page
  let offset ← Checked.add 64 offset pageSize
  let numPages ← Checked.div stackSize pageSize
  let offset ← (List.range numPages).foldlM
    (fun offset _ => mapStep pageSize kernelVirtStart offset) offset
  let top ← Checked.add 64 kernelVirtStart offset
  pure (offset, top)

/-- A turn of the stack loop on the loop's state, `offset` and the tops so
far: `kernel_stacks_virt_top[i] = kernel_virt_start + offset`. -/
def stackStep (pageSize stackSize kernelVirtStart : Nat) (acc : Nat × List Nat) (_ : Nat) :
    Option (Nat × List Nat) := do
  let (offset, top) ← stackTurn pageSize stackSize kernelVirtStart acc.1
  pure (offset, acc.2 ++ [top])

/-- `for i in 0..4`: the four `kernel_stacks_virt_top`, from the `offset`
the kernel loop left. -/
def stacksVirtTop (pageSize stackSize kernelVirtStart offset : Nat) : Option (List Nat) := do
  let (_, tops) ← (List.range 4).foldlM (stackStep pageSize stackSize kernelVirtStart) (offset, [])
  pure tops

/-! ## The ranges -/

/-- The TTBR1 ranges, each a half-open interval of virtual addresses. -/
structure VirtualLayout where
  kernel : Nat × Nat
  stackRanges : List (Nat × Nat)
  heap : Nat × Nat
  linearMap : Nat × Nat
  deriving DecidableEq, Repr

/-- Two ranges share no address: one ends before the other begins, or one
of them is empty. -/
def RangesApart (r s : Nat × Nat) : Prop :=
  r.2 ≤ s.1 ∨ s.2 ≤ r.1 ∨ r.2 ≤ r.1 ∨ s.2 ≤ s.1

instance (r s : Nat × Nat) : Decidable (RangesApart r s) :=
  inferInstanceAs (Decidable (_ ∨ _))

/-- What `main` maps for a kernel loaded at `kernel_region`, on a machine of
`max_addr` bytes, and the heap `kernel_early_init` maps from `kernel_end`.
Each stack is its pages below its top; the guard page below it is not
mapped. -/
def virtualLayout (pageSize stackSize kernelVirtStart : Nat) (kernelRegion : MemoryMapEntry)
    (maxAddr : Nat) : Option VirtualLayout := do
  let offset ← kernelOffset pageSize kernelVirtStart kernelRegion.baseAddr kernelRegion.endAddr
  let kernelVirtEnd ← Checked.add 64 kernelVirtStart offset
  let tops ← stacksVirtTop pageSize stackSize kernelVirtStart offset
  let top ← tops[3]?
  -- We start this mapping at the next 1GiB boundary after the kernel
  let memoryLinearMapStart ← Checked.nextMultipleOf 64 top gib
  let blocks ← Checked.stepBy 0 maxAddr gib
  let _ ← blocks.mapM (fun page => Checked.add 64 memoryLinearMapStart page)
  -- `jump_to_kernel`: `kernel_end`, where `kernel_early_init` puts the heap
  let kernelEnd ← Checked.nextMultipleOf 64 top pageSize
  let kernelHeapEnd ← Checked.add 64 kernelEnd kernelHeapSize
  pure {
    kernel := (kernelVirtStart, kernelVirtEnd)
    stackRanges := tops.map (fun t => (t - stackSize / pageSize * pageSize, t))
    heap := (kernelEnd, kernelHeapEnd)
    linearMap := (memoryLinearMapStart, memoryLinearMapStart + blocks.length * gib) }

/-! ## The loops, run to the end -/

/-- How far one turn of the stack loop moves `offset`: the guard page and
the stack's pages. -/
def stackStride (pageSize stackSize : Nat) : Nat := pageSize + stackSize / pageSize * pageSize

/-- `kernel_stacks_virt_top[3]`, for a kernel image of `k` pages. -/
def stacksEnd (pageSize stackSize kernelVirtStart k : Nat) : Nat :=
  kernelVirtStart + k * pageSize + 4 * stackStride pageSize stackSize

/-- The layout in closed form, for a kernel image of `k` pages and `m`
blocks of physical memory. -/
def closedLayout (pageSize stackSize kernelVirtStart k m : Nat) : VirtualLayout where
  kernel := (kernelVirtStart, kernelVirtStart + k * pageSize)
  stackRanges := (List.range 4).map (fun i =>
    (kernelVirtStart + k * pageSize + (i + 1) * stackStride pageSize stackSize -
        stackSize / pageSize * pageSize,
      kernelVirtStart + k * pageSize + (i + 1) * stackStride pageSize stackSize))
  heap := (Align.roundUp (stacksEnd pageSize stackSize kernelVirtStart k) pageSize,
    Align.roundUp (stacksEnd pageSize stackSize kernelVirtStart k) pageSize + kernelHeapSize)
  linearMap := (Align.roundUp (stacksEnd pageSize stackSize kernelVirtStart k) gib,
    Align.roundUp (stacksEnd pageSize stackSize kernelVirtStart k) gib + m * gib)

section Runs

variable {pageSize stackSize kernelVirtStart : Nat}

theorem mapStep_eq {offset : Nat} (h : kernelVirtStart + offset + pageSize < 2 ^ 64) :
    mapStep pageSize kernelVirtStart offset = some (offset + pageSize) := by
  simp only [mapStep, Checked.add_of_lt (show kernelVirtStart + offset < 2 ^ 64 by omega),
    Checked.add_of_lt (show offset + pageSize < 2 ^ 64 by omega), Option.bind_eq_bind,
    Option.bind_some]

/-- The mapping loop over `n` pages moves `offset` by `n` pages. -/
theorem foldlM_mapStep {α : Type} :
    ∀ (l : List α) (offset : Nat), kernelVirtStart + offset + l.length * pageSize < 2 ^ 64 →
      l.foldlM (fun offset _ => mapStep pageSize kernelVirtStart offset) offset =
        some (offset + l.length * pageSize)
  | [], offset, _ => by simp
  | _ :: l, offset, h => by
      rw [List.length_cons, Nat.succ_mul] at h
      rw [List.foldlM_cons, mapStep_eq (by omega), Option.bind_eq_bind, Option.bind_some,
        foldlM_mapStep l (offset + pageSize) (by omega), List.length_cons, Nat.succ_mul]
      congr 1
      omega

theorem kernelOffset_eq {baseAddr endAddr : Nat} (hP : 0 < pageSize)
    (h : kernelVirtStart + (endAddr - baseAddr + pageSize - 1) / pageSize * pageSize < 2 ^ 64) :
    kernelOffset pageSize kernelVirtStart baseAddr endAddr =
      some ((endAddr - baseAddr + pageSize - 1) / pageSize * pageSize) := by
  have hrun := @foldlM_mapStep pageSize kernelVirtStart _
    (List.range' baseAddr ((endAddr - baseAddr + pageSize - 1) / pageSize) pageSize) 0
    (by rw [List.length_range']; omega)
  rw [List.length_range', Nat.zero_add] at hrun
  simp only [kernelOffset, Checked.stepBy_of_pos hP, Option.bind_eq_bind, Option.bind_some, hrun]

theorem stackTurn_eq {offset : Nat} (hP : 0 < pageSize)
    (h : kernelVirtStart + offset + stackStride pageSize stackSize < 2 ^ 64) :
    stackTurn pageSize stackSize kernelVirtStart offset =
      some (offset + stackStride pageSize stackSize,
        kernelVirtStart + (offset + stackStride pageSize stackSize)) := by
  unfold stackStride at h ⊢
  have hrun := @foldlM_mapStep pageSize kernelVirtStart _
    (List.range (stackSize / pageSize)) (offset + pageSize) (by rw [List.length_range]; omega)
  rw [List.length_range, Nat.add_assoc] at hrun
  simp only [stackTurn, Checked.add_of_lt (show offset + pageSize < 2 ^ 64 by omega),
    Checked.div_of_ne_zero (Nat.pos_iff_ne_zero.1 hP), Option.bind_eq_bind, Option.bind_some,
    hrun, Checked.add_of_lt (show kernelVirtStart +
      (offset + (pageSize + stackSize / pageSize * pageSize)) < 2 ^ 64 by omega)]
  rfl

/-- The stack loop over `n` turns moves `offset` by `n` strides and records
the top after each. -/
theorem foldlM_stackStep (hP : 0 < pageSize) :
    ∀ (l : List Nat) (offset : Nat) (tops : List Nat),
      kernelVirtStart + offset + l.length * stackStride pageSize stackSize < 2 ^ 64 →
      l.foldlM (stackStep pageSize stackSize kernelVirtStart) (offset, tops) =
        some (offset + l.length * stackStride pageSize stackSize,
          tops ++ (List.range l.length).map
            (fun i => kernelVirtStart + offset + (i + 1) * stackStride pageSize stackSize))
  | [], offset, tops, _ => by simp
  | x :: l, offset, tops, h => by
      rw [List.length_cons, Nat.succ_mul] at h
      have hstep : stackStep pageSize stackSize kernelVirtStart (offset, tops) x =
          some (offset + stackStride pageSize stackSize,
            tops ++ [kernelVirtStart + (offset + stackStride pageSize stackSize)]) := by
        simp only [stackStep, stackTurn_eq hP (show kernelVirtStart + offset +
          stackStride pageSize stackSize < 2 ^ 64 by omega), Option.bind_eq_bind, Option.bind_some]
        rfl
      rw [List.foldlM_cons, hstep, Option.bind_eq_bind, Option.bind_some,
        foldlM_stackStep hP l _ _ (by omega)]
      have hmap : (List.range (l.length + 1)).map
            (fun i => kernelVirtStart + offset + (i + 1) * stackStride pageSize stackSize) =
          (kernelVirtStart + (offset + stackStride pageSize stackSize)) ::
            (List.range l.length).map (fun i => kernelVirtStart +
              (offset + stackStride pageSize stackSize) + (i + 1) * stackStride pageSize stackSize) := by
        rw [List.range_succ_eq_map, List.map_cons, List.map_map]
        congr 1
        · ring
        · apply List.map_congr_left
          intro i _
          simp only [Function.comp, Nat.succ_eq_add_one]
          ring
      rw [List.length_cons, hmap, List.append_assoc, List.singleton_append, Nat.succ_mul]
      congr 2
      omega

theorem stacksVirtTop_eq {offset : Nat} (hP : 0 < pageSize)
    (h : kernelVirtStart + offset + 4 * stackStride pageSize stackSize < 2 ^ 64) :
    stacksVirtTop pageSize stackSize kernelVirtStart offset =
      some ((List.range 4).map
        (fun i => kernelVirtStart + offset + (i + 1) * stackStride pageSize stackSize)) := by
  have hrun := foldlM_stackStep hP (List.range 4) offset [] (by rw [List.length_range]; exact h)
  rw [List.length_range, List.nil_append] at hrun
  simp only [stacksVirtTop, hrun, Option.bind_eq_bind, Option.bind_some]
  rfl

end Runs

/-! ## The whole layout -/

section Layout

variable {pageSize stackSize kernelVirtStart : Nat}

/-- Where nothing overflows, `virtualLayout` is the closed form, with the
kernel loop's page count and the linear map's block count. -/
theorem virtualLayout_eq {kernelRegion : MemoryMapEntry} {maxAddr : Nat} (hP : 0 < pageSize)
    (hL : Align.roundUp (stacksEnd pageSize stackSize kernelVirtStart
        ((kernelRegion.endAddr - kernelRegion.baseAddr + pageSize - 1) / pageSize)) gib +
      (maxAddr + gib - 1) / gib * gib < 2 ^ 64)
    (hH : Align.roundUp (stacksEnd pageSize stackSize kernelVirtStart
        ((kernelRegion.endAddr - kernelRegion.baseAddr + pageSize - 1) / pageSize)) pageSize +
      kernelHeapSize < 2 ^ 64) :
    virtualLayout pageSize stackSize kernelVirtStart kernelRegion maxAddr =
      some (closedLayout pageSize stackSize kernelVirtStart
        ((kernelRegion.endAddr - kernelRegion.baseAddr + pageSize - 1) / pageSize)
        ((maxAddr + gib - 1) / gib)) := by
  obtain ⟨k, hk⟩ : ∃ k, (kernelRegion.endAddr - kernelRegion.baseAddr + pageSize - 1) / pageSize = k :=
    ⟨_, rfl⟩
  obtain ⟨m, hm⟩ : ∃ m, (maxAddr + gib - 1) / gib = m := ⟨_, rfl⟩
  rw [hk] at hL hH ⊢
  rw [hm] at hL ⊢
  have hgib : 0 < gib := by decide
  have htop : stacksEnd pageSize stackSize kernelVirtStart k < 2 ^ 64 :=
    Nat.lt_of_le_of_lt Align.le_roundUp (Nat.lt_of_le_of_lt (Nat.le_add_right _ _) hL)
  have hend : Align.roundUp (stacksEnd pageSize stackSize kernelVirtStart k) gib < 2 ^ 64 :=
    Nat.lt_of_le_of_lt (Nat.le_add_right _ _) hL
  have hheap : Align.roundUp (stacksEnd pageSize stackSize kernelVirtStart k) pageSize < 2 ^ 64 :=
    Nat.lt_of_le_of_lt (Nat.le_add_right _ _) hH
  unfold stacksEnd at htop
  have hoff : kernelOffset pageSize kernelVirtStart kernelRegion.baseAddr kernelRegion.endAddr =
      some (k * pageSize) := by
    rw [← hk]
    exact kernelOffset_eq hP (by rw [hk]; omega)
  have htops := @stacksVirtTop_eq pageSize stackSize kernelVirtStart (k * pageSize) hP (by omega)
  have htop3 : ((List.range 4).map (fun i => kernelVirtStart + k * pageSize +
      (i + 1) * stackStride pageSize stackSize))[3]? =
        some (stacksEnd pageSize stackSize kernelVirtStart k) := by
    rw [List.getElem?_map, List.getElem?_range (by decide)]
    rfl
  have hblocks : Checked.stepBy 0 maxAddr gib = some (List.range' 0 m gib) := by
    rw [Checked.stepBy_of_pos hgib, Nat.sub_zero, hm]
  have hmapM := Checked.mapM_add_of_lt (w := 64)
    (a := Align.roundUp (stacksEnd pageSize stackSize kernelVirtStart k) gib) (List.range' 0 m gib)
    (fun x hx => by
      obtain ⟨i, hi, rfl⟩ := List.mem_range'.1 hx
      have hmul : gib * (i + 1) ≤ gib * m := Nat.mul_le_mul_left gib hi
      rw [Nat.mul_succ, Nat.mul_comm gib m] at hmul
      omega)
  unfold virtualLayout
  simp only [hoff, Option.bind_eq_bind, Option.bind_some,
    Checked.add_of_lt (show kernelVirtStart + k * pageSize < 2 ^ 64 by omega)]
  rw [htops, Option.bind_some, htop3, Option.bind_some, Checked.nextMultipleOf_of_lt hgib hend, Option.bind_some, hblocks,
    Option.bind_some, hmapM, Option.bind_some, Checked.nextMultipleOf_of_lt hP hheap,
    Option.bind_some, Checked.add_of_lt hH, Option.bind_some, List.map_map, List.length_range']
  rfl

end Layout

/-! ## What is apart -/

section Apart

variable {pageSize stackSize kernelVirtStart k m : Nat}

/-- Stack `i` begins a guard page past stride `i`, so it starts after the
kernel image and ends by the last top. -/
theorem bounds_of_mem_stackRanges {r : Nat × Nat}
    (hr : r ∈ (closedLayout pageSize stackSize kernelVirtStart k m).stackRanges) :
    kernelVirtStart + k * pageSize + pageSize ≤ r.1 ∧
      r.2 ≤ stacksEnd pageSize stackSize kernelVirtStart k := by
  simp only [closedLayout, List.mem_map, List.mem_range] at hr
  obtain ⟨i, hi, rfl⟩ := hr
  have hle : (i + 1) * stackStride pageSize stackSize ≤ 4 * stackStride pageSize stackSize :=
    Nat.mul_le_mul_right _ hi
  rw [Nat.succ_mul] at hle ⊢
  unfold stacksEnd
  unfold stackStride at hle ⊢
  omega

/-- The stacks are apart from each other: stack `i` ends before stack `j`'s
guard page for `i < j`. -/
theorem stackRanges_pairwise_apart :
    (closedLayout pageSize stackSize kernelVirtStart k m).stackRanges.Pairwise RangesApart := by
  simp only [closedLayout, List.pairwise_map]
  refine List.pairwise_lt_range.imp (fun {i j} hij => Or.inl ?_)
  have hle : (i + 1) * stackStride pageSize stackSize ≤ j * stackStride pageSize stackSize :=
    Nat.mul_le_mul_right _ hij
  rw [Nat.succ_mul (n := j)]
  unfold stackStride at hle ⊢
  dsimp only
  omega

/-- Everything below the heap is apart: the kernel image and the four stacks
from each other, and each of them from the heap and from the linear map,
which both start at or above the last top. -/
theorem closedLayout_apart_below_heap :
    let l := closedLayout pageSize stackSize kernelVirtStart k m
    (l.kernel :: l.stackRanges).Pairwise RangesApart ∧
      ∀ r ∈ l.kernel :: l.stackRanges, RangesApart r l.heap ∧ RangesApart r l.linearMap := by
  intro l
  have hend : ∀ r ∈ l.kernel :: l.stackRanges, r.2 ≤ stacksEnd pageSize stackSize kernelVirtStart k := by
    intro r hr
    rcases List.mem_cons.1 hr with rfl | hr
    · show kernelVirtStart + k * pageSize ≤ _
      unfold stacksEnd
      omega
    · exact (bounds_of_mem_stackRanges hr).2
  refine ⟨List.pairwise_cons.2 ⟨fun r hr => Or.inl ?_, stackRanges_pairwise_apart⟩,
    fun r hr => ⟨Or.inl ?_, Or.inl ?_⟩⟩
  · exact Nat.le_trans (Nat.le_add_right _ _) (bounds_of_mem_stackRanges hr).1
  · exact Nat.le_trans (hend r hr) Align.le_roundUp
  · exact Nat.le_trans (hend r hr) Align.le_roundUp

/-- With the page size dividing 1GiB, the heap starts at or below the linear
map: both round the last top up, the heap to the finer boundary.  So the two
are apart exactly when the linear map is empty or the heap ends by its
start. -/
theorem closedLayout_heap_apart_iff (hP : 0 < pageSize) (hdvd : gib % pageSize = 0) :
    let l := closedLayout pageSize stackSize kernelVirtStart k m
    RangesApart l.heap l.linearMap ↔ l.linearMap.2 ≤ l.linearMap.1 ∨ l.heap.2 ≤ l.linearMap.1 := by
  intro l
  have hgib : 0 < gib := by decide
  have hmod : Align.roundUp (stacksEnd pageSize stackSize kernelVirtStart k) gib % pageSize = 0 :=
    Nat.mod_eq_zero_of_dvd (Nat.dvd_trans (Nat.dvd_of_mod_eq_zero hdvd)
      (Nat.dvd_of_mod_eq_zero (Align.roundUp_mod hgib)))
  have hHL : l.heap.1 ≤ l.linearMap.1 := Align.roundUp_le hP Align.le_roundUp hmod
  have hheap : l.heap.1 < l.heap.2 := Nat.lt_add_of_pos_right (by decide)
  unfold RangesApart
  omega

/-- On what `main` and `kernel_early_init` map, where nothing overflows:
everything below the heap is apart, and the heap is apart from the linear
map exactly when the linear map is empty or the heap ends by its start. -/
theorem virtualLayout_apart {kernelRegion : MemoryMapEntry} {maxAddr : Nat} (hP : 0 < pageSize)
    (hdvd : gib % pageSize = 0)
    (hL : Align.roundUp (stacksEnd pageSize stackSize kernelVirtStart
        ((kernelRegion.endAddr - kernelRegion.baseAddr + pageSize - 1) / pageSize)) gib +
      (maxAddr + gib - 1) / gib * gib < 2 ^ 64)
    (hH : Align.roundUp (stacksEnd pageSize stackSize kernelVirtStart
        ((kernelRegion.endAddr - kernelRegion.baseAddr + pageSize - 1) / pageSize)) pageSize +
      kernelHeapSize < 2 ^ 64) :
    ∃ l, virtualLayout pageSize stackSize kernelVirtStart kernelRegion maxAddr = some l ∧
      (l.kernel :: l.stackRanges).Pairwise RangesApart ∧
      (∀ r ∈ l.kernel :: l.stackRanges, RangesApart r l.heap ∧ RangesApart r l.linearMap) ∧
      (RangesApart l.heap l.linearMap ↔ l.linearMap.2 ≤ l.linearMap.1 ∨ l.heap.2 ≤ l.linearMap.1) :=
  ⟨_, virtualLayout_eq hP hL hH, closedLayout_apart_below_heap.1, closedLayout_apart_below_heap.2,
    closedLayout_heap_apart_iff hP hdvd⟩

/-- A kernel image of 1MiB and 8KiB stacks over 1GiB of memory. -/
theorem virtualLayout_apart_one_mib :
    ∃ l, virtualLayout 0x1000 0x2000 0xFFFF000000000000
        ⟨0x200000, ⟨0x100000⟩, 0x300000, .kernel⟩ 0x40000000 = some l ∧
      (l.kernel :: l.stackRanges).Pairwise RangesApart ∧
      (∀ r ∈ l.kernel :: l.stackRanges, RangesApart r l.heap ∧ RangesApart r l.linearMap) ∧
      (RangesApart l.heap l.linearMap ↔ l.linearMap.2 ≤ l.linearMap.1 ∨ l.heap.2 ≤ l.linearMap.1) :=
  virtualLayout_apart (by decide) (by decide) (by decide) (by decide)

end Apart

/-- The stacks end `0xC000` past a kernel image of `0x3FE00000` bytes, well
inside the bootloader's 1GiB bound, but `0x1F4000` below the next 1GiB
boundary: the heap's 2MiB from there runs past the linear map's start, so
its last `0xC000` bytes are also the first bytes of the linear map's first
block. -/
theorem heap_overlaps_linear_map :
    ∃ l, virtualLayout 0x1000 0x2000 0xFFFF000000000000
        ⟨0x200000, ⟨0x3FE00000⟩, 0x40000000, .kernel⟩ 0x40000000 = some l ∧
      l.kernel = (0xFFFF000000000000, 0xFFFF00003FE00000) ∧
      l.stackRanges[3]? = some (0xFFFF00003FE0A000, 0xFFFF00003FE0C000) ∧
      0xFFFF00003FE0C000 - 0xFFFF000000000000 < gib ∧
      l.heap = (0xFFFF00003FE0C000, 0xFFFF00004000C000) ∧
      l.linearMap = (0xFFFF000040000000, 0xFFFF000080000000) ∧
      ¬ RangesApart l.heap l.linearMap := by
  refine ⟨_, virtualLayout_eq (by decide) (by decide) (by decide), by decide, by decide, by decide,
    by decide, by decide, ?_⟩
  exact mt (closedLayout_heap_apart_iff (by decide) (by decide)).1 (by decide)

end Bootloader

end LanternOS
