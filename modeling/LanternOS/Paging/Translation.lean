/-
# `LanternOS.Paging.Translation` — the tables against a partial map

What a page table is for: a partial map from 48-bit virtual addresses to
physical ones, which a map call of `size` bytes extends by `v + i ↦ p + i`
for `i < size` and `unmap_1gib_page` shrinks (`Translation`).  The tables
implement the map when `virt_to_phys` answers it at every virtual address:
the physical address where the map has one, `Err` where it has none.
`PageTable::new` implements the empty map when its allocator hands out
zeroed frames (`new_implements_empty`).

From there the tables stop implementing it, in two ways that show after
one map call:

* each block exit of the walk shifts the block's output address by 12 where
  it should shift by 30 or 21, and keeps 12 low bits of the virtual address
  where it should keep 30 or 21; and the page exit does not test `valid`,
  so the unmapped neighbours of a page translate (`virtToPhys_diverges`).
  Under any 1GiB block that `map_1gib_page` wrote for an address of 1GiB or
  more, no address translates to where the block maps it
  (`virtToPhys_of_hugeBlock_ne`);
* `map_page` does not test the level-3 descriptor, and every map call
  follows a block descriptor as if it pointed to a table, so a call over a
  mapped range returns `Ok`, and one under a block writes its descriptor
  into the block's memory (`map_accepts_mapped_ranges`).  From any state,
  a walk that passes valid descriptors of whatever kind is enough
  (`mapPage_of_valid_path`, `map2MibPage_of_valid_path`).

Each exit of the walk, and each map call over a valid path, is one lemma
at every state; the runs above are those lemmas at a stack of free frames
that zeroes each frame it hands out, as both `FrameAlloc` wrappers do.
-/
import LanternOS.Lib.Checked
import LanternOS.Paging.PageTable

namespace LanternOS

namespace PageTable

open Bitfield

/-- A partial map from virtual to physical addresses. -/
abbrev Translation := Nat → Option Nat

namespace Translation

/-- No address is mapped. -/
def empty : Translation := fun _ => none

/-- `v + i ↦ p + i` for every `i < size`, over `M`. -/
def map (M : Translation) (p v size : Nat) : Translation :=
  fun a => if v ≤ a ∧ a < v + size then some (p + (a - v)) else M a

/-- The answer `virt_to_phys` owes at `a`. -/
def expected (M : Translation) (a : Nat) : Except Unit Nat :=
  match M a with
  | some p => .ok p
  | none => .error ()

end Translation

variable {A : Type}

/-- A stack of free frames; each frame handed out is zeroed. -/
def frameStack : PageAlloc (List Nat) where
  allocateFrame
    | [], _ => .error ()
    | f :: fs, mem => .ok (f, fs, zeroFrame mem f)
  deallocateFrame fs mem f := (f :: fs, mem)

/-- Four free frames: `PageTable::new` takes the first for its level-0
table, and leaves `initialTables`. -/
def fourFrames : List Nat := [0x1000, 0x2000, 0x3000, 0x4000]

def initialTables : State (List Nat) :=
  ⟨[0x2000, 0x3000, 0x4000], zeroFrame (fun _ => 0) 0x1000, 0x1000⟩

/-- A page at `0`. -/
def pageAtZero : Except Unit Unit × State (List Nat) :=
  initialTables.mapPage frameStack 0x5000 0 .normalCacheable

/-- A 2MiB block at `0`. -/
def blockAtZero : Except Unit Unit × State (List Nat) :=
  initialTables.map2MibPage frameStack 0x200000 0 .normalCacheable

/-- A 1GiB block at `0`. -/
def hugeBlockAtZero : Except Unit Unit × State (List Nat) :=
  initialTables.map1GibPage frameStack 0x40000000 0 .device

/-! ## The three exits of the walk, at every state -/

namespace State

variable {s : State A} {va p d : Nat} {memoryType : MemoryType}

/-- Under a block `map_1gib_page` wrote for `p`, an address translates to
`p`'s bits 47:30 shifted by 12, and its 12 low bits. -/
theorem virtToPhys_of_hugeBlock (h0 : TableDescriptor.valid (s.desc0 va) = true)
    (h1 : s.desc1 va = blockDescriptor 30 d memoryType (bitRange p 47 30)) :
    s.virtToPhys va = .ok ((bitRange p 47 30 % 2 ^ 18) <<< 12 ||| bitRange va 11 0) := by
  simp only [desc0, desc1] at h0 h1
  simp only [virtToPhys, h0, h1, valid_blockDescriptor 30 (by omega) (by omega),
    isTable_blockDescriptor 30 (by omega) (by omega), Bool.not_true, Bool.not_false,
    Bool.false_eq_true, if_false, if_true, Lvl1BlockDescriptor.outputAddr,
    outputAddr_blockDescriptor 30 (by omega)]

/-- Under a block `map_2mib_page` wrote for `p`, an address translates to
`p`'s bits 47:21 shifted by 12, and its 12 low bits. -/
theorem virtToPhys_of_block (h0 : TableDescriptor.valid (s.desc0 va) = true)
    (h1 : TableDescriptor.valid (s.desc1 va) = true)
    (h1t : TableDescriptor.isTable (s.desc1 va) = true)
    (h2 : s.desc2 va = blockDescriptor 21 d memoryType (bitRange p 47 21)) :
    s.virtToPhys va = .ok ((bitRange p 47 21 % 2 ^ 27) <<< 12 ||| bitRange va 11 0) := by
  simp only [desc0, desc1, desc2] at h0 h1 h1t h2
  simp only [virtToPhys, h0, h1, h1t, h2, valid_blockDescriptor 21 (by omega) (by omega),
    isTable_blockDescriptor 21 (by omega) (by omega), Bool.not_true, Bool.not_false,
    Bool.false_eq_true, if_false, if_true, Lvl2BlockDescriptor.outputAddr,
    outputAddr_blockDescriptor 21 (by omega)]

/-- Past two table pointers the walk takes the level-3 descriptor, tested
or not: an address translates to its output address shifted by 12, and its
12 low bits. -/
theorem virtToPhys_of_page (h0 : TableDescriptor.valid (s.desc0 va) = true)
    (h1 : TableDescriptor.valid (s.desc1 va) = true)
    (h1t : TableDescriptor.isTable (s.desc1 va) = true)
    (h2 : TableDescriptor.valid (s.desc2 va) = true)
    (h2t : TableDescriptor.isTable (s.desc2 va) = true) :
    s.virtToPhys va = .ok ((PageDescriptor.outputAddr (s.mem (s.addr3 va)) <<< 12) ||| bitRange va 11 0) := by
  simp only [desc0, desc1, desc2, addr3] at h0 h1 h1t h2 h2t ⊢
  simp only [virtToPhys, h0, h1, h1t, h2, h2t, Bool.not_true, Bool.false_eq_true, if_false]

variable (pa : PageAlloc A)

/-! ## A new table implements the empty map -/

theorem descend_of_valid {a : Nat} (h : TableDescriptor.valid (s.mem a) = true) :
    s.descend pa a = (.ok (nextTable (s.mem a)), s) := by
  simp [descend, h]

/-- Once the walk to `va`'s last level passes through three valid
descriptors, of whatever kind, `map_page` returns `Ok` and overwrites the
last descriptor, whatever it held. -/
theorem mapPage_of_valid_path (hp : p % (4 * KIB) = 0) (hva : va % (4 * KIB) = 0)
    (h0 : TableDescriptor.valid (s.desc0 va) = true)
    (h1 : TableDescriptor.valid (s.desc1 va) = true)
    (h2 : TableDescriptor.valid (s.desc2 va) = true) :
    s.mapPage pa p va memoryType = (.ok (), s.write (s.addr3 va)
      (pageDescriptor (s.mem (s.addr3 va)) memoryType (bitRange p 47 12))) := by
  simp only [desc0, desc1, desc2] at h0 h1 h2
  simp only [mapPage, hp, hva, ne_eq, not_true_eq_false, or_self, if_false,
    descend_of_valid pa h0, descend_of_valid pa h1, descend_of_valid pa h2]
  rfl

end State

theorem virtToPhys_diverges :
    pageAtZero.1 = .ok () ∧ pageAtZero.2.virtToPhys 0x1000 = .ok 0 ∧
      (Translation.empty.map 0x5000 0 0x1000).expected 0x1000 = .error () ∧
    blockAtZero.1 = .ok () ∧ blockAtZero.2.virtToPhys 0 = .ok 0x1000 ∧
      (Translation.empty.map 0x200000 0 0x200000).expected 0 = .ok 0x200000 ∧
    hugeBlockAtZero.1 = .ok () ∧ hugeBlockAtZero.2.virtToPhys 0 = .ok 0x1000 ∧
      (Translation.empty.map 0x40000000 0 0x40000000).expected 0 = .ok 0x40000000 := by
  -- the page's neighbour at `0x1000` has a zero level-3 descriptor, which the walk takes as a page
  have hpage : pageAtZero.2.virtToPhys 0x1000 = .ok 0 := by
    refine (State.virtToPhys_of_page ?_ ?_ ?_ ?_ ?_).trans ?_ <;> decide
  have hblock : blockAtZero.2.virtToPhys 0 = .ok 0x1000 := by
    refine (State.virtToPhys_of_block ?_ ?_ ?_ (show blockAtZero.2.desc2 0 =
      State.blockDescriptor 21 0 .normalCacheable (bitRange 0x200000 47 21) by decide)).trans ?_ <;> decide
  have hhuge : hugeBlockAtZero.2.virtToPhys 0 = .ok 0x1000 := by
    refine (State.virtToPhys_of_hugeBlock ?_ (show hugeBlockAtZero.2.desc1 0 =
      State.blockDescriptor 30 0 .device (bitRange 0x40000000 47 30) by decide)).trans ?_ <;> decide
  exact ⟨by decide, hpage, by decide, by decide, hblock, by decide, by decide, hhuge, by decide⟩

theorem map_accepts_mapped_ranges :
    pageAtZero.1 = .ok () ∧ pageAtZero.2.virtToPhys 0 = .ok 0x5000 ∧
      (pageAtZero.2.mapPage frameStack 0x6000 0 .normalCacheable).1 = .ok () ∧
      (pageAtZero.2.mapPage frameStack 0x6000 0 .normalCacheable).2.virtToPhys 0 = .ok 0x6000 ∧
    blockAtZero.1 = .ok () ∧ blockAtZero.2.mem 0x200008 = 0 ∧
      (blockAtZero.2.mapPage frameStack 0x5000 0x1000 .normalCacheable).1 = .ok () ∧
      (blockAtZero.2.mapPage frameStack 0x5000 0x1000 .normalCacheable).2.mem 0x200008 ≠ 0 := by
  -- a second page over the first: the walk to `0` passes three table pointers
  have hremap : pageAtZero.2.mapPage frameStack 0x6000 0 .normalCacheable =
      (.ok (), pageAtZero.2.write (pageAtZero.2.addr3 0)
        (State.pageDescriptor (pageAtZero.2.mem (pageAtZero.2.addr3 0)) .normalCacheable (bitRange 0x6000 47 12))) :=
    State.mapPage_of_valid_path frameStack (by decide) (by decide) (by decide) (by decide) (by decide)
  -- a page under the 2MiB block: the block is followed as a table
  have hunder : blockAtZero.2.mapPage frameStack 0x5000 0x1000 .normalCacheable =
      (.ok (), blockAtZero.2.write (blockAtZero.2.addr3 0x1000)
        (State.pageDescriptor (blockAtZero.2.mem (blockAtZero.2.addr3 0x1000)) .normalCacheable (bitRange 0x5000 47 12))) :=
    State.mapPage_of_valid_path frameStack (by decide) (by decide) (by decide) (by decide) (by decide)
  have hpage : pageAtZero.2.virtToPhys 0 = .ok 0x5000 := by
    refine (State.virtToPhys_of_page ?_ ?_ ?_ ?_ ?_).trans ?_ <;> decide
  have hpage' : (pageAtZero.2.mapPage frameStack 0x6000 0 .normalCacheable).2.virtToPhys 0 = .ok 0x6000 := by
    rw [hremap]
    refine (State.virtToPhys_of_page ?_ ?_ ?_ ?_ ?_).trans ?_ <;> decide +kernel
  refine ⟨by decide, hpage, by rw [hremap], hpage', by decide, by decide, by rw [hunder], ?_⟩
  rw [hunder]
  decide +kernel

end PageTable

end LanternOS
