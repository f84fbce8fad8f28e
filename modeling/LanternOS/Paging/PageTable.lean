/-
# `LanternOS.Paging.PageTable` — the AArch64 translation tables

`page_table.rs` builds 4KiB-granule translation tables of four levels.  A
table is a frame of 512 descriptors of 8 bytes; a virtual address picks one
descriptor per level by its bits 47:39, 38:30, 29:21 and 20:12.  A level-0
descriptor points to a level-1 table; a level-1 descriptor is a table
pointer or a 1GiB block; a level-2 descriptor is a table pointer or a 2MiB
block; a level-3 descriptor maps a 4KiB page.  The descriptors are
`bitfield!` structs over a `u64`, read and written through `Bitfield`.

## The machine

Physical memory is a function from byte addresses to the 64-bit words
stored there; descriptor `i` of the table at `t` is the word at `t + 8 * i`.
The state is the allocator's, the memory, and the address of the level-0
table.  `allocate_frame` may fail; both `FrameAlloc` wrappers zero the
frame they return, which the model does in `allocFrame`, and
`deallocate_frame` may write the frame (the free list's link).

## The functions

`virtToPhys` walks the tables with the source's three exits: a 1GiB block at
level 1, a 2MiB block at level 2, a page at level 3.  Each exit shifts the
block's output address by 12 and keeps the low 12 bits of the virtual
address, and the last level reads its descriptor without testing it.  The
three map functions share one step (`descend`): read the descriptor, and if
it is not valid, allocate a frame and make the descriptor point to it; then
follow the descriptor, whatever it is.  `drop` runs the three nested loops
of the `Drop` impl, recording the addresses it hands to `deallocate_frame`.
-/
import LanternOS.Lib.Bitfield

namespace LanternOS

namespace PageTable

open Bitfield

def GIB : Nat := 0x40000000
def MIB : Nat := 0x100000
def KIB : Nat := 0x400

/-- `MemoryType(u8)`: an index into `MAIR_EL1`. -/
structure MemoryType where
  raw : Nat
  deriving DecidableEq, Repr

def MemoryType.device : MemoryType := ⟨0⟩
def MemoryType.normalCacheable : MemoryType := ⟨1⟩

/-- Physical memory: the 64-bit word at each byte address. -/
abbrev Mem := Nat → Nat

/-- Write the word `v` at `a`. -/
def Mem.write (m : Mem) (a v : Nat) : Mem :=
  Function.update m a v

/-- The `PageAlloc` trait over allocator states `A`. -/
structure PageAlloc (A : Type) where
  allocateFrame : A → Mem → Except Unit (Nat × A × Mem)
  deallocateFrame : A → Mem → Nat → A × Mem

/-! ## Bitfields -/

/-! ### `VirtualAddr(u64)` -/

namespace VirtualAddr

def physOffset (va : Nat) : Nat := bitRange va 11 0
def lvl3Idx (va : Nat) : Nat := bitRange va 20 12
def lvl2Idx (va : Nat) : Nat := bitRange va 29 21
def lvl1Idx (va : Nat) : Nat := bitRange va 38 30
def lvl0Idx (va : Nat) : Nat := bitRange va 47 39

end VirtualAddr

/-! ### `Lvl0TableDescriptor`, also `Lvl1TableDescriptor` and `Lvl2TableDescriptor` -/

namespace TableDescriptor

def valid (d : Nat) : Bool := bit d 0
def isTable (d : Nat) : Bool := bit d 1
def nextTableAddr (d : Nat) : Nat := bitRange d 47 12
def setValid (d : Nat) (b : Bool) : Nat := setBit d 0 b
def setIsTable (d : Nat) (b : Bool) : Nat := setBit d 1 b
def setNextTableAddr (d v : Nat) : Nat := setBitRange d 47 12 v

end TableDescriptor

/-! ### `Lvl1BlockDescriptor` and `Lvl2BlockDescriptor`

The two differ only in where their output address starts: bit 30 or bit 21.
-/

namespace BlockDescriptor

def valid (d : Nat) : Bool := bit d 0
def isTable (d : Nat) : Bool := bit d 1
def setValid (d : Nat) (b : Bool) : Nat := setBit d 0 b
def setIsTable (d : Nat) (b : Bool) : Nat := setBit d 1 b
def setAttribIdx (d v : Nat) : Nat := setBitRange d 4 2 v
def setAccessFlag (d : Nat) (b : Bool) : Nat := setBit d 10 b
def outputAddr (lo d : Nat) : Nat := bitRange d 47 lo
def setOutputAddr (lo d v : Nat) : Nat := setBitRange d 47 lo v

end BlockDescriptor

namespace Lvl1BlockDescriptor
def outputAddr (d : Nat) : Nat := BlockDescriptor.outputAddr 30 d
def setOutputAddr (d v : Nat) : Nat := BlockDescriptor.setOutputAddr 30 d v
end Lvl1BlockDescriptor

namespace Lvl2BlockDescriptor
def outputAddr (d : Nat) : Nat := BlockDescriptor.outputAddr 21 d
def setOutputAddr (d v : Nat) : Nat := BlockDescriptor.setOutputAddr 21 d v
end Lvl2BlockDescriptor

/-! ### `PageDescriptor` -/

namespace PageDescriptor

def valid (d : Nat) : Bool := bit d 0
def setValid (d : Nat) (b : Bool) : Nat := setBit d 0 b
def setIsPage (d : Nat) (b : Bool) : Nat := setBit d 1 b
def setAttrixIdx (d v : Nat) : Nat := setBitRange d 4 2 v
def setAccessFlag (d : Nat) (b : Bool) : Nat := setBit d 10 b
def outputAddr (d : Nat) : Nat := bitRange d 47 12
def setOutputAddr (d v : Nat) : Nat := setBitRange d 47 12 v

end PageDescriptor

/-! ## The page table -/

/-- A `PageTable`, with its allocator's state and physical memory. -/
structure State (A : Type) where
  alloc : A
  mem : Mem
  lvl0Table : Nat

variable {A : Type} (pa : PageAlloc A)

/-- The address of descriptor `i` of the table at `t`. -/
def entry (t i : Nat) : Nat := t + 8 * i

/-- The frame `0..4096` bytes from `f` reads as zero. -/
def zeroFrame (m : Mem) (f : Nat) : Mem :=
  fun a => if f ≤ a ∧ a < f + 4096 then 0 else m a

namespace State

/-- Store the word `v` at `a`. -/
def write (s : State A) (a v : Nat) : State A :=
  { s with mem := s.mem.write a v }

/-- `self.allocator.lock().allocate_frame()`. -/
def allocFrame (s : State A) : Except Unit (Nat × State A) :=
  match pa.allocateFrame s.alloc s.mem with
  | .error () => .error ()
  | .ok (f, alloc, mem) => .ok (f, { s with alloc, mem })

/-- `PageTable::new`: a zeroed level-0 table. -/
def new (alloc : A) (mem : Mem) : Except Unit (State A) :=
  match pa.allocateFrame alloc mem with
  | .error () => .error ()
  | .ok (f, alloc, mem) => .ok ⟨alloc, mem, f⟩

/-- The table a descriptor points to: `next_table_addr() << 12`. -/
def nextTable (d : Nat) : Nat := TableDescriptor.nextTableAddr d <<< 12

/-- The table descriptor a map call writes over `d` for a new table at
`tableAddr`. -/
def tableDescriptor (d tableAddr : Nat) : Nat :=
  TableDescriptor.setNextTableAddr
    (TableDescriptor.setIsTable (TableDescriptor.setValid d true) true)
    (bitRange tableAddr 47 12)

/-- One level of a map call: the descriptor at `a`; if it is not valid, a
new frame, with the descriptor made a table pointer to it; then the table
the descriptor points to, whatever the descriptor is. -/
def descend (s : State A) (a : Nat) : Except Unit Nat × State A :=
  let d := s.mem a
  if !TableDescriptor.valid d then
    match s.allocFrame pa with
    | .error () => (.error (), s)
    | .ok (tableAddr, s) =>
        let d := tableDescriptor d tableAddr
        (.ok (nextTable d), s.write a d)
  else (.ok (nextTable d), s)

/-- `PageTable::virt_to_phys`. -/
def virtToPhys (s : State A) (va : Nat) : Except Unit Nat :=
  let d0 := s.mem (entry s.lvl0Table (VirtualAddr.lvl0Idx va))
  if !TableDescriptor.valid d0 then .error ()
  else
    let d1 := s.mem (entry (nextTable d0) (VirtualAddr.lvl1Idx va))
    if !TableDescriptor.valid d1 then .error ()
    else if !TableDescriptor.isTable d1 then
      .ok ((Lvl1BlockDescriptor.outputAddr d1 <<< 12) ||| bitRange va 11 0)
    else
      let d2 := s.mem (entry (nextTable d1) (VirtualAddr.lvl2Idx va))
      if !TableDescriptor.valid d2 then .error ()
      else if !TableDescriptor.isTable d2 then
        .ok ((Lvl2BlockDescriptor.outputAddr d2 <<< 12) ||| bitRange va 11 0)
      else
        -- the level-3 descriptor is used without testing `valid`
        let d3 := s.mem (entry (nextTable d2) (VirtualAddr.lvl3Idx va))
        .ok ((PageDescriptor.outputAddr d3 <<< 12) ||| bitRange va 11 0)

/-! The descriptors the walk of `va` reads, level by level, and the address
of the last one. -/

def desc0 (s : State A) (va : Nat) : Nat := s.mem (entry s.lvl0Table (VirtualAddr.lvl0Idx va))
def desc1 (s : State A) (va : Nat) : Nat :=
  s.mem (entry (nextTable (s.desc0 va)) (VirtualAddr.lvl1Idx va))
def desc2 (s : State A) (va : Nat) : Nat :=
  s.mem (entry (nextTable (s.desc1 va)) (VirtualAddr.lvl2Idx va))
def addr3 (s : State A) (va : Nat) : Nat := entry (nextTable (s.desc2 va)) (VirtualAddr.lvl3Idx va)

/-- `PageTable::unmap_1gib_page`. -/
def unmap1GibPage (s : State A) (va : Nat) : Bool × State A :=
  if va % GIB ≠ 0 then (false, s)
  else
    let d0 := s.mem (entry s.lvl0Table (VirtualAddr.lvl0Idx va))
    if !TableDescriptor.valid d0 then (false, s)
    else
      let a1 := entry (nextTable d0) (VirtualAddr.lvl1Idx va)
      let d1 := s.mem a1
      if !BlockDescriptor.valid d1 || BlockDescriptor.isTable d1 then (false, s)
      else (true, s.write a1 0)

/-- A block descriptor written over `d`, with output address `out` from
bit `lo` on. -/
def blockDescriptor (lo d : Nat) (memoryType : MemoryType) (out : Nat) : Nat :=
  BlockDescriptor.setOutputAddr lo
    (BlockDescriptor.setAttribIdx
      (BlockDescriptor.setAccessFlag
        (BlockDescriptor.setIsTable (BlockDescriptor.setValid d true) false) true)
      memoryType.raw)
    out

/-- `PageTable::map_1gib_page`. -/
def map1GibPage (s : State A) (physAddr va : Nat) (memoryType : MemoryType) :
    Except Unit Unit × State A :=
  if physAddr % GIB ≠ 0 ∨ va % GIB ≠ 0 then (.error (), s)
  else
    match s.descend pa (entry s.lvl0Table (VirtualAddr.lvl0Idx va)) with
    | (.error (), s) => (.error (), s)
    | (.ok t1, s) =>
        let a1 := entry t1 (VirtualAddr.lvl1Idx va)
        let d1 := s.mem a1
        if BlockDescriptor.valid d1 then (.error (), s)
        else
          let block := blockDescriptor 30 d1 memoryType (bitRange physAddr 47 30)
          (.ok (), s.write a1 block)

/-- `PageTable::map_2mib_page`. -/
def map2MibPage (s : State A) (physAddr va : Nat) (memoryType : MemoryType) :
    Except Unit Unit × State A :=
  if physAddr % (2 * MIB) ≠ 0 ∨ va % (2 * MIB) ≠ 0 then (.error (), s)
  else
    match s.descend pa (entry s.lvl0Table (VirtualAddr.lvl0Idx va)) with
    | (.error (), s) => (.error (), s)
    | (.ok t1, s) =>
        match s.descend pa (entry t1 (VirtualAddr.lvl1Idx va)) with
        | (.error (), s) => (.error (), s)
        | (.ok t2, s) =>
            let a2 := entry t2 (VirtualAddr.lvl2Idx va)
            let d2 := s.mem a2
            if BlockDescriptor.valid d2 then (.error (), s)
            else
              let block := blockDescriptor 21 d2 memoryType (bitRange physAddr 47 21)
              (.ok (), s.write a2 block)

/-- The page descriptor `map_page` writes over `d`. -/
def pageDescriptor (d : Nat) (memType : MemoryType) (out : Nat) : Nat :=
  PageDescriptor.setAttrixIdx
    (PageDescriptor.setOutputAddr
      (PageDescriptor.setAccessFlag
        (PageDescriptor.setIsPage (PageDescriptor.setValid d true) true) true)
      out)
    memType.raw

/-- `PageTable::map_page`: the level-3 descriptor is overwritten whatever it
held. -/
def mapPage (s : State A) (physAddr va : Nat) (memType : MemoryType) :
    Except Unit Unit × State A :=
  if physAddr % (4 * KIB) ≠ 0 ∨ va % (4 * KIB) ≠ 0 then (.error (), s)
  else
    match s.descend pa (entry s.lvl0Table (VirtualAddr.lvl0Idx va)) with
    | (.error (), s) => (.error (), s)
    | (.ok t1, s) =>
        match s.descend pa (entry t1 (VirtualAddr.lvl1Idx va)) with
        | (.error (), s) => (.error (), s)
        | (.ok t2, s) =>
            match s.descend pa (entry t2 (VirtualAddr.lvl2Idx va)) with
            | (.error (), s) => (.error (), s)
            | (.ok t3, s) =>
                let a3 := entry t3 (VirtualAddr.lvl3Idx va)
                let page := pageDescriptor (s.mem a3) memType (bitRange physAddr 47 12)
                (.ok (), s.write a3 page)

/-- The frames `Drop` would hand to `deallocate_frame` if freeing wrote
nothing, in order: for every valid table descriptor at level 0 and level 1,
the tables below it, and for every one of the 512 level-2 descriptors of a
level-2 table, valid or not, the address it points to. -/
def dropFrames (s : State A) : List Nat :=
  (List.range 512).flatMap (fun i =>
    let d0 := s.mem (entry s.lvl0Table i)
    if TableDescriptor.valid d0 && TableDescriptor.isTable d0 then
      let t1 := nextTable d0
      (List.range 512).flatMap (fun j =>
        let d1 := s.mem (entry t1 j)
        if TableDescriptor.valid d1 && TableDescriptor.isTable d1 then
          let t2 := nextTable d1
          (List.range 512).map (fun k => nextTable (s.mem (entry t2 k))) ++ [t2]
        else []) ++ [t1]
    else []) ++ [s.lvl0Table]

/-- What `Drop` has done so far: the allocator, the memory, and the
addresses it has passed to `deallocate_frame`, in order. -/
structure Dropping (A : Type) where
  alloc : A
  mem : Mem
  freed : List Nat

/-- `self.allocator.lock().deallocate_frame(f)`. -/
def freeFrame (d : Dropping A) (f : Nat) : Dropping A :=
  let (alloc, mem) := pa.deallocateFrame d.alloc d.mem f
  ⟨alloc, mem, d.freed ++ [f]⟩

/-- The innermost loop of `Drop`, over the level-2 table `t2`: every
descriptor's target is freed, read when the loop reaches it; then the table. -/
def dropLvl2 (t2 : Nat) (d : Dropping A) : Dropping A :=
  freeFrame pa ((List.range 512).foldl
    (fun d k => freeFrame pa d (nextTable (d.mem (entry t2 k)))) d) t2

/-- The middle loop, over the level-1 table `t1`: the level-2 tables of its
valid table descriptors; then the table. -/
def dropLvl1 (t1 : Nat) (d : Dropping A) : Dropping A :=
  freeFrame pa ((List.range 512).foldl (fun d j =>
    let d1 := d.mem (entry t1 j)
    if TableDescriptor.valid d1 && TableDescriptor.isTable d1 then
      dropLvl2 pa (nextTable d1) d
    else d) d) t1

/-- `Drop for PageTable`: the outer loop over the level-0 table, then the
level-0 table itself.  Each descriptor is read when its loop reaches it, so
a frame freed earlier, which `deallocate_frame` may write, is read as
written. -/
def drop (s : State A) : Dropping A :=
  freeFrame pa ((List.range 512).foldl (fun d i =>
    let d0 := d.mem (entry s.lvl0Table i)
    if TableDescriptor.valid d0 && TableDescriptor.isTable d0 then
      dropLvl1 pa (nextTable d0) d
    else d) ⟨s.alloc, s.mem, []⟩) s.lvl0Table

end State

/-! ## The descriptors the map calls write, read back -/

section Descriptors

open State

variable {d t out : Nat} {memoryType : MemoryType}

@[simp] theorem valid_blockDescriptor (lo : Nat) (hlo : 10 < lo) (hle : lo ≤ 47) :
    TableDescriptor.valid (blockDescriptor lo d memoryType out) = true := by
  simp only [TableDescriptor.valid, blockDescriptor, BlockDescriptor.setOutputAddr,
    BlockDescriptor.setAttribIdx, BlockDescriptor.setAccessFlag, BlockDescriptor.setIsTable,
    BlockDescriptor.setValid]
  rw [bit_setBitRange_of_lt hle (by omega), bit_setBitRange_of_lt (by omega) (by omega), setBit,
    bit_setBitRange_of_lt (by omega) (by omega), setBit, bit_setBitRange_of_lt (by omega) (by omega),
    bit_setBit]

@[simp] theorem isTable_blockDescriptor (lo : Nat) (hlo : 10 < lo) (hle : lo ≤ 47) :
    TableDescriptor.isTable (blockDescriptor lo d memoryType out) = false := by
  simp only [TableDescriptor.isTable, blockDescriptor, BlockDescriptor.setOutputAddr,
    BlockDescriptor.setAttribIdx, BlockDescriptor.setAccessFlag, BlockDescriptor.setIsTable]
  rw [bit_setBitRange_of_lt hle (by omega), bit_setBitRange_of_lt (by omega) (by omega), setBit,
    bit_setBitRange_of_lt (by omega) (by omega), bit_setBit]

theorem outputAddr_blockDescriptor (lo : Nat) (hle : lo ≤ 47) :
    BlockDescriptor.outputAddr lo (blockDescriptor lo d memoryType out) = out % 2 ^ (48 - lo) := by
  rw [BlockDescriptor.outputAddr, blockDescriptor, BlockDescriptor.setOutputAddr,
    bitRange_setBitRange hle]

end Descriptors

end PageTable

end LanternOS
