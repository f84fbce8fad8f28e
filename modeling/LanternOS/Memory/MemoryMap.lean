/-
# `LanternOS.Memory.MemoryMap` — the physical memory map, as `memory_map.rs` builds it

The bootloader describes physical memory as a list of at most 32 entries,
each a half-open range `[base_addr, end_addr)` with a size and a type.  Free
memory goes in first, from the device tree; every reservation after that
(the device tree blob, the GPU firmware, MMIO, the bootloader's own image and
stack, the kernel, single pages handed out by the bootloader's frame
allocator) is an `add_entry` that carves its range out of whatever is there.

`add_entry` is the one interesting function, and it is modelled line by line:

* merge with an entry of the same type that ends where the new one begins,
  then with one that begins where it ends (`find` takes the first match);
* `retain` drops every entry the merged entry *fully contains* — the
  inclusive `base..=end` test, both endpoints;
* every remaining entry is `reduce`d against the merged entry, trimmed from
  below, from above, or split in two, and a split's upper half is pushed onto
  the four-slot `new_entries` buffer;
* `new_entries`, then the entry itself, are appended with the fallible
  `ArrayVec` operations (capacity 32), and the entries are sorted by base.

Every `u64` subtraction is checked and every push onto `new_entries` can
panic: both are the `none` of `Option`, and the `Except` inside it is the
function's `Result`.  A failed `try_extend_from_slice` returns before the
sort, with the entries already reduced; a failed `try_push` returns after it.
Nothing is rolled back on either path — that is what the code does.

`sort_unstable_by` is a parameter (`ArrayVec.UnstableSort`): its
documentation leaves the order of equal bases open, and nothing proved about
the map may depend on one choice.
-/
import LanternOS.Lib.Checked

namespace LanternOS

/-- `EntryType`: what a range of physical memory is used for. -/
inductive EntryType where
  | free
  | stack
  | dtReserved
  | firmware
  | bootloader
  | blReserved
  | kernel
  | mmio
  deriving DecidableEq, Repr

/-- `MemSize`: a number of bytes. -/
structure MemSize where
  bytes : Nat
  deriving DecidableEq, Repr

/-- `MemSize::to_bytes`. -/
def MemSize.toBytes (s : MemSize) : Nat := s.bytes

/-- `MemoryMapEntry`: the range `[baseAddr, endAddr)`, its recorded size and
its type.  Nothing in the type ties the three numbers together; callers
build entries with `size = end - base`. -/
structure MemoryMapEntry where
  baseAddr : Nat
  size : MemSize
  endAddr : Nat
  entryType : EntryType
  deriving DecidableEq, Repr

namespace MemoryMapEntry

/-- `contains`: one of `other`'s two endpoints lies in `self`'s half-open
range.  This is not an overlap test: an `other` that strictly covers
`self` is not "contained", which is why `add_entry` removes fully covered
entries before it reduces the rest. -/
def contains (self other : MemoryMapEntry) : Bool :=
  (self.baseAddr ≤ other.baseAddr && other.baseAddr < self.endAddr) ||
    (self.baseAddr ≤ other.endAddr && other.endAddr < self.endAddr)

/-- `fully_contains`: both of `other`'s endpoints lie in the closed range
`base..=end` of `self`. -/
def fullyContains (self other : MemoryMapEntry) : Bool :=
  (self.baseAddr ≤ other.baseAddr && other.baseAddr ≤ self.endAddr) &&
    (self.baseAddr ≤ other.endAddr && other.endAddr ≤ self.endAddr)

/-- `reduce`: cut `other` out of `self`.  Returns the new `self` and, when
`other` lies strictly inside, the upper half as a separate entry — typed
`Free` whatever `self` was ("Add new free after reserved").  `none` is a
panic on a `u64` subtraction. -/
def reduce (self other : MemoryMapEntry) : Option (MemoryMapEntry × Option MemoryMapEntry) :=
  if self.contains other then
    if other.baseAddr ≤ self.baseAddr then do
      let bytes ← Checked.sub self.endAddr other.endAddr
      pure ({ self with baseAddr := other.endAddr, size := ⟨bytes⟩ }, none)
    else if other.endAddr ≥ self.endAddr then do
      let bytes ← Checked.sub other.baseAddr self.baseAddr
      pure ({ self with endAddr := other.baseAddr, size := ⟨bytes⟩ }, none)
    else do
      -- Truncate original
      let bytes ← Checked.sub other.baseAddr self.baseAddr
      -- Add new free after reserved
      let rest ← Checked.sub self.endAddr other.endAddr
      pure ({ self with endAddr := other.baseAddr, size := ⟨bytes⟩ },
        some { baseAddr := other.endAddr, size := ⟨rest⟩, endAddr := self.endAddr,
               entryType := .free })
  else
    pure (self, none)

end MemoryMapEntry

/-- `MemoryMap`: the entries (an `ArrayVec` of capacity 32) and the end of
physical memory. -/
structure MemoryMap where
  entries : List MemoryMapEntry
  addrEnd : Nat
  deriving Repr

namespace MemoryMap

/-- The capacity of `entries`. -/
def capacity : Nat := 32

/-- The capacity of the `new_entries` buffer of `add_entry`. -/
def newEntriesCapacity : Nat := 4

/-- `MemoryMap::new`. -/
def new : MemoryMap := ⟨[], 0⟩

/-- `get_free_mem`: the sizes of the `Free` entries, summed in order. -/
def getFreeMem (self : MemoryMap) : MemSize :=
  ⟨self.entries.foldl
    (fun bytes entry => match entry.entryType with
      | .free => bytes + entry.size.toBytes
      | _ => bytes) 0⟩

/-- `get_total_mem`. -/
def getTotalMem (self : MemoryMap) : MemSize := ⟨self.addrEnd⟩

/-- `set_total_mem`. -/
def setTotalMem (self : MemoryMap) (totalMem : Nat) : MemoryMap :=
  { self with addrEnd := totalMem }

/-- The first `if let` of `add_entry`: merge with the first entry of the
same type that ends where `entry` begins. -/
def mergeBelow (entries : List MemoryMapEntry) (entry : MemoryMapEntry) :
    Option MemoryMapEntry :=
  match entries.find? (fun x => x.endAddr == entry.baseAddr && x.entryType == entry.entryType) with
  | some oldEntry => do
      let bytes ← Checked.sub entry.endAddr oldEntry.baseAddr
      pure { entry with baseAddr := oldEntry.baseAddr, size := ⟨bytes⟩ }
  | none => pure entry

/-- The second `if let` of `add_entry`: merge with the first entry of the
same type that begins where `entry` ends. -/
def mergeAbove (entries : List MemoryMapEntry) (entry : MemoryMapEntry) :
    Option MemoryMapEntry :=
  match entries.find? (fun x => x.baseAddr == entry.endAddr && x.entryType == entry.entryType) with
  | some oldEntry => do
      let bytes ← Checked.sub oldEntry.endAddr entry.baseAddr
      pure { entry with endAddr := oldEntry.endAddr, size := ⟨bytes⟩ }
  | none => pure entry

/-- The `for existing in self.entries.as_mut_slice()` loop: reduce each
entry in order, pushing split remainders onto `new_entries` (capacity 4,
`push` panics when full). -/
def reduceAll (entry : MemoryMapEntry) :
    List MemoryMapEntry → List MemoryMapEntry →
      Option (List MemoryMapEntry × List MemoryMapEntry)
  | [], newEntries => pure ([], newEntries)
  | existing :: rest, newEntries => do
      let (existing', additional) ← existing.reduce entry
      let newEntries ← match additional with
        | some additionalEntry => ArrayVec.push newEntriesCapacity newEntries additionalEntry
        | none => pure newEntries
      let (rest', newEntries) ← reduceAll entry rest newEntries
      pure (existing' :: rest', newEntries)

/-- `add_entry` up to the point where the entries are written back: the two
merges, the `retain`, and the `reduce` loop.  Returns the merged entry, the
reduced entries and `new_entries`. -/
def reduceFor (self : MemoryMap) (entry : MemoryMapEntry) :
    Option (MemoryMapEntry × List MemoryMapEntry × List MemoryMapEntry) := do
  let entry ← mergeBelow self.entries entry
  let entry ← mergeAbove self.entries entry
  -- Remove free entries if they are completely consumed by a reserved entry
  let kept := self.entries.filter (fun x => !entry.fullyContains x)
  -- Reduce our free space
  let (reduced, newEntries) ← reduceAll entry kept []
  pure (entry, reduced, newEntries)

variable (srt : ArrayVec.UnstableSort MemoryMapEntry MemoryMapEntry.baseAddr)

/-- `add_entry`.  `none` is a panic; otherwise the call's `Result` and the
map it leaves behind, on the error paths too. -/
def addEntry (self : MemoryMap) (entry : MemoryMapEntry) :
    Option (Except Unit Unit × MemoryMap) := do
  let (entry, reduced, newEntries) ← self.reduceFor entry
  -- Add any newly created entries to accomodate the reserved entry
  match ArrayVec.tryExtendFromSlice capacity reduced newEntries with
  | .error _ => pure (.error (), { self with entries := reduced })
  | .ok extended =>
    -- Add the reserved entry, sort the map from 0 to max addr, and return
    match ArrayVec.tryPush capacity extended entry with
    | .error _ => pure (.error (), { self with entries := srt.sort extended })
    | .ok pushed => pure (.ok (), { self with entries := srt.sort pushed })

end MemoryMap

end LanternOS
