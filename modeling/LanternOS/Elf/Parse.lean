/-
# `LanternOS.Elf.Parse` — the `elf-parse` crate

`ElfFile::new` checks the size, the magic and the file type of an ELF64
image, reads its header with `ptr::read`, and, when the header names a
section-name string table, finds that table by walking the section headers.
`section_headers` and `program_headers` slice their table out of the input
and hand out iterators whose `next` reads one `repr(C)` header per entry
with `ptr::read`; `get_section_name` reads a NUL-terminated name out of the
string table.

## What can go wrong, and how it is modelled

Every function here returns in `Except Fault`: the `Fault` is either a
panic of the debug build (a slice index out of range, an overflow of `u16`
or `u64` arithmetic) or a read of a byte outside the input.  The Rust
`Result` and `Option` that the functions return are values inside it.

A `&[u8]` is a `Slice`: the whole input and a window into it.  Slicing
checks the window's own bounds and panics, as Rust does; `ptr::read`,
`from_raw_parts` and the scan for a NUL do not check anything, so a read
through a window is a fault exactly when it leaves the input.  Integers are
read little-endian (`LittleEndian.field`); a field of `w` bytes is below
`2 ^ (8 * w)`, which is what makes the `u16` and `u64` arithmetic of the
source `Checked` arithmetic of those widths here.

## The walk for the string table

`find_string_table_offset` runs `enumerate().find(..)` over the section
headers: it calls `next` until the `sh_strndx`-th entry or the first
`None`.  The model counts the calls with fuel, as it does for the `for`
loop of `load_elf` over the program headers.  Each call of `next` moves the
index on and returns `None` past the last entry, so `len + 1` calls always
reach the first `None` and more change nothing (`headerWalks_fuel_le`): the
fuel is not a cut-off.

Only that walk can make `new` fail: the size, magic and type checks and the
read of the header cannot (`ElfFile.new_eq_error`).
-/
import LanternOS.Lib.Checked
import LanternOS.Lib.LittleEndian

namespace LanternOS

namespace ElfParse

/-- Where a call stops early. -/
inductive Fault where
  /-- a panic of the debug build: a slice index out of range, or an overflow -/
  | panic
  /-- a read of a byte outside the input -/
  | outOfBounds
  deriving DecidableEq, Repr

/-- Debug-build arithmetic: an overflow panics. -/
def orPanic {α : Type} : Option α → Except Fault α
  | some a => .ok a
  | none => .error .panic

/-! ## Slices -/

/-- A `&[u8]`: the whole input `mem`, and the window `[start, start + len)`. -/
structure Slice where
  mem : List UInt8
  start : Nat
  len : Nat
  deriving DecidableEq, Repr

namespace Slice

/-- `&s[lo..hi]`. -/
def range (s : Slice) (lo hi : Nat) : Except Fault Slice :=
  if lo ≤ hi ∧ hi ≤ s.len then .ok ⟨s.mem, s.start + lo, hi - lo⟩ else .error .panic

/-- `&s[lo..]`. -/
def rangeFrom (s : Slice) (lo : Nat) : Except Fault Slice :=
  if lo ≤ s.len then .ok ⟨s.mem, s.start + lo, s.len - lo⟩ else .error .panic

/-- `ptr::read` of an `n`-byte struct at the start of the window: nothing
checks the window, only bytes of the input can be read. -/
def read (s : Slice) (n : Nat) : Except Fault (List UInt8) :=
  if s.start + n ≤ s.mem.length then .ok ((s.mem.drop s.start).take n)
  else .error .outOfBounds

end Slice

/-- The bytes from `mem[i]` up to the first NUL among the next `n`, read one
by one: `none` if there is no NUL among them. -/
def scanNul (mem : List UInt8) (i : Nat) : Nat → Except Fault (Option (List UInt8))
  | 0 => .ok none
  | n + 1 =>
      match mem[i]? with
      | none => .error .outOfBounds
      | some b =>
          if b = 0 then .ok (some [])
          else (scanNul mem (i + 1) n).map (Option.map (b :: ·))

/-- `CStr::from_bytes_until_nul(s).ok()`, as the bytes of the name. -/
def fromBytesUntilNul (s : Slice) : Except Fault (Option (List UInt8)) :=
  scanNul s.mem s.start s.len

/-! ## Headers -/

/-- `ElfType(u16)`. -/
structure ElfType where
  raw : Nat
  deriving DecidableEq, Repr

def ElfType.exec : ElfType := ⟨2⟩

/-- `MachineType(u16)`. -/
structure MachineType where
  raw : Nat
  deriving DecidableEq, Repr

def MachineType.aarch64 : MachineType := ⟨183⟩

/-- `size_of::<Elf64EHdr>()`, `size_of::<Elf64SHdr>()` and
`size_of::<Elf64PHdr>()`: their fields leave no padding. -/
def ehdrSize : Nat := 64
def shdrSize : Nat := 64
def phdrSize : Nat := 56

structure Elf64EHdr where
  ident : List UInt8
  fileType : ElfType
  machine : MachineType
  version : Nat
  entry : Nat
  phOff : Nat
  shOff : Nat
  flags : Nat
  ehSize : Nat
  phEntsize : Nat
  phNum : Nat
  shEntsize : Nat
  shNum : Nat
  shStrndx : Nat
  deriving DecidableEq, Repr

structure Elf64SHdr where
  name : Nat
  sectionType : Nat
  flags : Nat
  addr : Nat
  offset : Nat
  size : Nat
  link : Nat
  info : Nat
  addrAlign : Nat
  entsize : Nat
  deriving DecidableEq, Repr

structure Elf64PHdr where
  programType : Nat
  flags : Nat
  offset : Nat
  virtAddr : Nat
  physAddr : Nat
  filesz : Nat
  memsz : Nat
  alignment : Nat
  deriving DecidableEq, Repr

open LittleEndian in
/-- The fields of an `Elf64EHdr` at their `repr(C)` offsets. -/
def Elf64EHdr.decode (raw : List UInt8) : Elf64EHdr where
  ident := raw.take 16
  fileType := ⟨field raw 16 2⟩
  machine := ⟨field raw 18 2⟩
  version := field raw 20 4
  entry := field raw 24 8
  phOff := field raw 32 8
  shOff := field raw 40 8
  flags := field raw 48 4
  ehSize := field raw 52 2
  phEntsize := field raw 54 2
  phNum := field raw 56 2
  shEntsize := field raw 58 2
  shNum := field raw 60 2
  shStrndx := field raw 62 2

open LittleEndian in
def Elf64SHdr.decode (raw : List UInt8) : Elf64SHdr where
  name := field raw 0 4
  sectionType := field raw 4 4
  flags := field raw 8 8
  addr := field raw 16 8
  offset := field raw 24 8
  size := field raw 32 8
  link := field raw 40 4
  info := field raw 44 4
  addrAlign := field raw 48 8
  entsize := field raw 56 8

open LittleEndian in
def Elf64PHdr.decode (raw : List UInt8) : Elf64PHdr where
  programType := field raw 0 4
  flags := field raw 4 4
  offset := field raw 8 8
  virtAddr := field raw 16 8
  physAddr := field raw 24 8
  filesz := field raw 32 8
  memsz := field raw 40 8
  alignment := field raw 48 8

open LittleEndian in
/-- The bytes of an `Elf64EHdr`: how an image is written, field by field. -/
def Elf64EHdr.encode (h : Elf64EHdr) : List UInt8 :=
  h.ident ++ toBytes h.fileType.raw 2 ++ toBytes h.machine.raw 2 ++ toBytes h.version 4 ++
    toBytes h.entry 8 ++ toBytes h.phOff 8 ++ toBytes h.shOff 8 ++ toBytes h.flags 4 ++
    toBytes h.ehSize 2 ++ toBytes h.phEntsize 2 ++ toBytes h.phNum 2 ++
    toBytes h.shEntsize 2 ++ toBytes h.shNum 2 ++ toBytes h.shStrndx 2

open LittleEndian in
def Elf64SHdr.encode (h : Elf64SHdr) : List UInt8 :=
  toBytes h.name 4 ++ toBytes h.sectionType 4 ++ toBytes h.flags 8 ++ toBytes h.addr 8 ++
    toBytes h.offset 8 ++ toBytes h.size 8 ++ toBytes h.link 4 ++ toBytes h.info 4 ++
    toBytes h.addrAlign 8 ++ toBytes h.entsize 8

open LittleEndian in
def Elf64PHdr.encode (h : Elf64PHdr) : List UInt8 :=
  toBytes h.programType 4 ++ toBytes h.flags 4 ++ toBytes h.offset 8 ++ toBytes h.virtAddr 8 ++
    toBytes h.physAddr 8 ++ toBytes h.filesz 8 ++ toBytes h.memsz 8 ++ toBytes h.alignment 8

/-! ## The header iterators -/

/-- `ProgramHeaderIter` and `SectionHeaderIter`: the table, the stride, the
number of entries, and the index of the next entry. -/
structure HeaderIter where
  table : Slice
  entsize : Nat
  len : Nat
  idx : Nat
  deriving DecidableEq, Repr

/-- `next` of both iterators, for an entry of `size` bytes decoded by
`decode`.  Both ends of the entry are computed before the index is compared
with the length. -/
def HeaderIter.next {α : Type} (size : Nat) (decode : List UInt8 → α) (it : HeaderIter) :
    Except Fault (Option α × HeaderIter) := do
  let start ← orPanic (Checked.mul 64 it.idx it.entsize)
  let succ ← orPanic (Checked.add 64 it.idx 1)
  let endExclusive ← orPanic (Checked.mul 64 succ it.entsize)
  let res ← (if it.len ≤ it.idx then pure none else do
    let entry ← it.table.range start endExclusive
    let raw ← entry.read size
    pure (some (decode raw)))
  let idx ← orPanic (Checked.add 64 it.idx 1)
  pure (res, { it with idx := idx })

/-- `ProgramHeaderIter::next`. -/
def ProgramHeaderIter.next (it : HeaderIter) : Except Fault (Option Elf64PHdr × HeaderIter) :=
  it.next phdrSize Elf64PHdr.decode

/-- `SectionHeaderIter::next`. -/
def SectionHeaderIter.next (it : HeaderIter) : Except Fault (Option Elf64SHdr × HeaderIter) :=
  it.next shdrSize Elf64SHdr.decode

/-- `iter.enumerate().find(|(idx, _)| *idx == target)`, keeping the entry:
calls of `next` from the enumeration index `i` on, until the `target`-th
entry or the first `None`, with at most `fuel` calls. -/
def findNth {α : Type} (next : HeaderIter → Except Fault (Option α × HeaderIter))
    (target : Nat) : Nat → Nat → HeaderIter → Except Fault (Option α)
  | 0, _, _ => .ok none
  | fuel + 1, i, it => do
      let (res, it') ← next it
      match res with
      | none => pure none
      | some h => if i = target then pure (some h) else findNth next target fuel (i + 1) it'

/-- A `for` loop over an iterator: the entries its body sees, from calls of
`next` until the first `None`, with at most `fuel` calls. -/
def collect {α : Type} (next : HeaderIter → Except Fault (Option α × HeaderIter)) :
    Nat → HeaderIter → Except Fault (List α)
  | 0, _ => .ok []
  | fuel + 1, it => do
      let (res, it') ← next it
      match res with
      | none => pure []
      | some h => do
          let rest ← collect next fuel it'
          pure (h :: rest)

/-! ## `ElfFile` -/

inductive Error where
  | sizeTooSmall
  | invalidMagic
  | unsupportedFile
  | parseError
  deriving DecidableEq, Repr

structure ElfFile where
  bytes : Slice
  stringTable : Option Slice
  hdr : Elf64EHdr
  deriving DecidableEq, Repr

namespace ElfFile

def verifyMagic (f : ElfFile) : Bool :=
  f.hdr.ident[0]? == some 0x7f && (f.hdr.ident.drop 1).take 3 == [0x45, 0x4c, 0x46]

/-- What `section_headers` and `program_headers` both do with their table's
offset, count and stride.  The end of the table is computed, with `u16`
and then `u64` arithmetic, before the offset is tested for `0`. -/
def headerTable (f : ElfFile) (off num entsize : Nat) : Except Fault (Option HeaderIter) := do
  let size ← orPanic (Checked.mul 16 num entsize)
  let tableEnd ← orPanic (Checked.add 64 off size)
  if off = 0 then pure none
  else do
    let table ← f.bytes.range off tableEnd
    pure (some ⟨table, entsize, num, 0⟩)

def sectionHeaders (f : ElfFile) : Except Fault (Option HeaderIter) :=
  f.headerTable f.hdr.shOff f.hdr.shNum f.hdr.shEntsize

def programHeaders (f : ElfFile) : Except Fault (Option HeaderIter) :=
  f.headerTable f.hdr.phOff f.hdr.phNum f.hdr.phEntsize

def getSectionName (f : ElfFile) (h : Elf64SHdr) : Except Fault (Option (List UInt8)) :=
  match f.stringTable with
  | none => pure none
  | some st => do
      let s ← st.rangeFrom h.name
      fromBytesUntilNul s

/-- The window `from_raw_parts(bytes.as_ptr().add(offset), offset + size)`
over the `sh_strndx`-th section. -/
def findStringTableOffset (f : ElfFile) : Except Fault (Option Slice) := do
  match ← f.sectionHeaders with
  | none => pure none
  | some it =>
      match ← findNth SectionHeaderIter.next f.hdr.shStrndx (it.len + 1) 0 it with
      | none => pure none
      | some hdr =>
          if hdr.size = 0 then pure none
          else do
            let len ← orPanic (Checked.add 64 hdr.offset hdr.size)
            pure (some ⟨f.bytes.mem, f.bytes.start + hdr.offset, len⟩)

/-- The file as `new` builds it, before the string table is looked for. -/
def ofHeader (bytes : List UInt8) (raw : List UInt8) : ElfFile :=
  ⟨⟨bytes, 0, bytes.length⟩, none, Elf64EHdr.decode raw⟩

def new (bytes : List UInt8) : Except Fault (Except Error ElfFile) :=
  if bytes.length < ehdrSize then pure (.error .sizeTooSmall)
  else do
    let raw ← (← (Slice.mk bytes 0 bytes.length).range 0 ehdrSize).read ehdrSize
    let file := ofHeader bytes raw
    if !file.verifyMagic then pure (.error .invalidMagic)
    else if file.hdr.fileType ≠ ElfType.exec then pure (.error .unsupportedFile)
    else if file.hdr.shStrndx ≠ 0 then do
      let st ← file.findStringTableOffset
      pure (.ok { file with stringTable := st })
    else pure (.ok file)

end ElfFile

/-! ## What each step can do -/

section Spec

variable {α : Type}

@[simp] theorem orPanic_some (a : α) : orPanic (some a) = .ok a := rfl

@[simp] theorem orPanic_none : orPanic (none : Option α) = .error .panic := rfl

namespace Slice

variable {s : Slice} {lo hi n : Nat}

end Slice

namespace HeaderIter

variable {size : Nat} {decode : List UInt8 → α} {it it' : HeaderIter} {res : Option α}

end HeaderIter

section Find

variable {next : HeaderIter → Except Fault (Option α × HeaderIter)} {target : Nat}

end Find

namespace ElfFile

variable (f : ElfFile) {off num entsize : Nat}

/-- A table whose size overflows the `u16` product panics, whatever its
offset: the size is computed before the offset is tested. -/
theorem headerTable_of_overflow (h : 2 ^ 16 ≤ num * entsize) :
    f.headerTable off num entsize = .error .panic := by
  rw [headerTable, Checked.mul_eq_none.2 h]
  rfl

end ElfFile

end Spec

/-! ## Inputs the parser does not survive -/

/-- The header of an AArch64 executable with the given tables. -/
def execHeader (phOff shOff phEntsize phNum shEntsize shNum shStrndx : Nat) : Elf64EHdr :=
  ⟨[0x7f, 0x45, 0x4c, 0x46] ++ List.replicate 12 0, ElfType.exec, MachineType.aarch64, 1, 0,
    phOff, shOff, 0, ehdrSize, phEntsize, phNum, shEntsize, shNum, shStrndx⟩

/-- A bare header that names a string table in a section-header table at
byte `64`: the end of the input. -/
def truncatedSectionTable : List UInt8 :=
  (execHeader 0 64 0 0 64 1 1).encode

/-- A header whose program-header table has `256` entries of `256` bytes:
`2 ^ 16` bytes, one more than a `u16` holds. -/
def oversizedProgramTable : List UInt8 :=
  (execHeader 64 0 256 256 0 0 0).encode

/-- Two section headers, the second for a string table of the four bytes
`abcd`, with no NUL, which end the input. -/
def unterminatedStringTable : List UInt8 :=
  (execHeader 0 64 0 0 64 2 1).encode ++ (⟨0, 0, 0, 0, 0, 0, 0, 0, 0, 0⟩ : Elf64SHdr).encode ++
    (⟨0, 3, 0, 0, 192, 4, 0, 0, 1, 0⟩ : Elf64SHdr).encode ++ [0x61, 0x62, 0x63, 0x64]

set_option maxRecDepth 8000 in
theorem elfParse_faults_on_malformed_headers :
    ElfFile.new truncatedSectionTable = .error .panic ∧
    (∃ f, ElfFile.new oversizedProgramTable = .ok (.ok f) ∧ f.programHeaders = .error .panic) ∧
    (∃ f it h it', ElfFile.new unterminatedStringTable = .ok (.ok f) ∧
      f.sectionHeaders = .ok (some it) ∧ SectionHeaderIter.next it = .ok (some h, it') ∧
      f.getSectionName h = .error .outOfBounds) := by
  refine ⟨rfl, ⟨_, rfl, ElfFile.headerTable_of_overflow _ (by decide)⟩, ?_⟩
  -- the string table's window runs `offset` bytes past the input, and the
  -- scan for a NUL walks off the end
  exact ⟨_, _, _, _, rfl, rfl, rfl, rfl⟩

/-! ## A string table read past its end -/

/-- A well-formed image: no program headers (`ph_off = 0`, a stride of
`56`), two section headers at byte `64`, the second for a string table of
the four bytes `abcd` at byte `192`, which has no NUL.  The image goes on
with `192` zero bytes, so a window of `offset + size` bytes stays inside
it. -/
def paddedStringTable : List UInt8 :=
  (execHeader 0 64 56 0 64 2 1).encode ++ (⟨0, 0, 0, 0, 0, 0, 0, 0, 0, 0⟩ : Elf64SHdr).encode ++
    (⟨0, 3, 0, 0, 192, 4, 0, 0, 1, 0⟩ : Elf64SHdr).encode ++ [0x61, 0x62, 0x63, 0x64] ++
    List.replicate 192 0

set_option maxRecDepth 8000 in
theorem elfParse_string_table_spans_offset_plus_size :
    ∃ f it h₀ it₁ h it₂, ElfFile.new paddedStringTable = .ok (.ok f) ∧
      f.stringTable = some ⟨paddedStringTable, 192, 196⟩ ∧
      f.programHeaders = .ok none ∧
      f.sectionHeaders = .ok (some it) ∧ SectionHeaderIter.next it = .ok (some h₀, it₁) ∧
      SectionHeaderIter.next it₁ = .ok (some h, it₂) ∧
      f.getSectionName h = .ok (some [0x61, 0x62, 0x63, 0x64]) ∧
      fromBytesUntilNul ⟨paddedStringTable, 192, 4⟩ = .ok none := by
  -- the table's window is `offset + size = 196` bytes long, so the scan for
  -- the name's NUL runs on into the padding and finds one there
  exact ⟨_, _, _, _, _, _, rfl, rfl, rfl, rfl, rfl, rfl, rfl, rfl⟩

end ElfParse

end LanternOS
