/-
# `LanternOS.Fs.Fat32` — the block device under the FAT driver

The kernel mounts its FAT partition through `Fat32FileSystem`, the `Read`,
`Write` and `Seek` that `fatfs` asks of a device.  Its whole state is a
cursor: a `u32` sector and a `u32` offset in it.  Every transfer moves whole
512-byte sectors through `emmc_transfer_blocks`, a vendored driver.  The
model takes the driver to move exactly the sectors it is asked for
(`emmcRead`, `emmcWrite`), and the card is its bytes, sector `s` starting at
`512 * s`.

## What the adapter is for

A byte device: `readDisk disk p n` are the `n` bytes at `p`, a write of `b`
at `p` leaves `overwrite disk p b`, and the cursor is a byte position.  On
that level a write read back at the same place gives what was written
(`readDisk_overwrite`).

## What the code does

* `seek(Start(i))` keeps `i as u32`, so the cursor lands on `i` exactly when
  `i < 2^32` (`seekStart_eq_iff`), a 512th of what a `u32` sector number
  addresses; `seek(Current(d))` goes through the same cast
  (`seek_current`), and both lose byte `2^32` (`seek_truncates_past_four_gib`).
* `read` fetches `⌈n / 512⌉` sectors for an `n`-byte buffer and copies from
  the cursor's offset: it returns the bytes at the cursor when they lie in
  the fetched sectors (`read_eq_ok`) and panics when they do not
  (`read_eq_none`), as two bytes from the last byte of a sector do
  (`read_panics_across_sector_end`).
* `write` rewrites the cursor's sector with the buffer spliced in at the
  offset; a buffer that fits in the rest of the sector is written exactly
  (`write_eq_ok`) and reads back (`write_then_read_back`).
-/
import LanternOS.Lib.Checked

namespace LanternOS

namespace Fs

/-- The card, byte by byte; sector `s` is the 512 bytes from `512 * s`. -/
abbrev Disk := Nat → UInt8

/-! ## The device, as it is for -/

/-- The `n` bytes of the card at `p`. -/
def readDisk (disk : Disk) (p n : Nat) : List UInt8 :=
  (List.range n).map (fun j => disk (p + j))

/-- The card with `b` written at `p`. -/
def overwrite (disk : Disk) (p : Nat) (b : List UInt8) : Disk := fun a =>
  if p ≤ a ∧ a < p + b.length then b.getD (a - p) 0 else disk a

@[simp] theorem length_readDisk (disk : Disk) (p n : Nat) : (readDisk disk p n).length = n := by
  simp [readDisk]

/-- What was written is read back. -/
theorem readDisk_overwrite (disk : Disk) (p : Nat) (b : List UInt8) :
    readDisk (overwrite disk p b) p b.length = b := by
  apply List.ext_getElem (length_readDisk _ _ _)
  intro j hj _
  rw [length_readDisk] at hj
  simp [readDisk, overwrite, hj]

/-- Two reads side by side are one read. -/
theorem readDisk_add (disk : Disk) (p m n : Nat) :
    readDisk disk p (m + n) = readDisk disk p m ++ readDisk disk (p + m) n := by
  simp [readDisk, List.range_add, Nat.add_assoc]

@[simp] theorem overwrite_nil (disk : Disk) (p : Nat) : overwrite disk p [] = disk := by
  funext a
  simp [overwrite]

/-- Writing `a` and then `b` right after it writes `a ++ b`. -/
theorem overwrite_append (disk : Disk) (p : Nat) (a b : List UInt8) :
    overwrite (overwrite disk p a) (p + a.length) b = overwrite disk p (a ++ b) := by
  funext x
  simp only [overwrite, List.length_append]
  by_cases hb : p + a.length ≤ x ∧ x < p + a.length + b.length
  · rw [if_pos hb, if_pos (by omega), List.getD_append_right _ _ _ _ (by omega)]
    congr 1
    omega
  · rw [if_neg hb]
    by_cases ha : p ≤ x ∧ x < p + a.length
    · rw [if_pos ha, if_pos (by omega), List.getD_append _ _ _ _ (by omega)]
    · rw [if_neg ha, if_neg (by omega)]

/-! ## The driver -/

/-- `emmc_transfer_blocks(sector, n, buf, false)`, as the driver is taken to
behave: the first `512 * n` bytes of `buf` become sectors `sector .. sector +
n - 1`. -/
def emmcRead (disk : Disk) (sector n : Nat) (buf : List UInt8) : List UInt8 :=
  buf.mapIdx (fun j x => if j < 512 * n then disk (512 * sector + j) else x)

/-- `emmc_transfer_blocks(sector, n, buf, true)`: sectors `sector .. sector +
n - 1` become the first `512 * n` bytes of `buf`. -/
def emmcWrite (disk : Disk) (sector n : Nat) (buf : List UInt8) : Disk :=
  overwrite disk (512 * sector) (buf.take (512 * n))

@[simp] theorem length_emmcRead (disk : Disk) (sector n : Nat) (buf : List UInt8) :
    (emmcRead disk sector n buf).length = buf.length := by
  simp [emmcRead]

theorem getElem?_emmcRead {disk : Disk} {sector n j : Nat} {buf : List UInt8}
    (hj : j < buf.length) (hn : j < 512 * n) :
    (emmcRead disk sector n buf)[j]? = some (disk (512 * sector + j)) := by
  simp [emmcRead, hj, hn]

/-- A read into a buffer that holds the sectors puts the card's bytes at its
front and leaves the rest. -/
theorem emmcRead_eq_splice {disk : Disk} {sector n : Nat} {buf : List UInt8} (h : 512 * n ≤ buf.length) :
    emmcRead disk sector n buf = Slice.splice buf 0 (readDisk disk (512 * sector) (512 * n)) := by
  apply List.ext_getElem?
  intro j
  rw [Slice.splice, List.take_zero, List.nil_append, length_readDisk, Nat.zero_add]
  by_cases hj : j < 512 * n
  · rw [getElem?_emmcRead (by omega) hj, List.getElem?_append_left (by simpa using hj)]
    simp [readDisk, hj]
  · rw [List.getElem?_append_right (by simp; omega), length_readDisk, List.getElem?_drop,
      Nat.add_sub_cancel' (by omega)]
    simp [emmcRead, hj]

/-! ## The adapter -/

/-- `Fat32FileSystem`: the cursor, a `u32` sector and a `u32` offset in it. -/
structure Fat32FileSystem where
  sector : Nat
  offset : Nat
  deriving DecidableEq, Repr

/-- `fatfs::SeekFrom`. -/
inductive SeekFrom where
  | start (i : Nat)
  | «end» (i : Int)
  | current (i : Int)

namespace Fat32FileSystem

/-- `Fat32FileSystem::new`. -/
def new : Fat32FileSystem := ⟨0, 0⟩

/-- The byte position of the cursor, `sector * 512 + offset`. -/
def position (self : Fat32FileSystem) : Nat := 512 * self.sector + self.offset

/-- The cursor `seek(SeekFrom::Start(i))` leaves: `i as u32 / 512` and `i as
u32 % 512`. -/
def seekStart (i : Nat) : Fat32FileSystem :=
  ⟨Checked.truncate 32 i / 512, Checked.truncate 32 i % 512⟩

/-- `seek`: the position it returns and the cursor it leaves.  `End` is
`unimplemented!()`. -/
def seek (self : Fat32FileSystem) : SeekFrom → ExceptT Unit Option (Nat × Fat32FileSystem)
  | .start i => pure (i, seekStart i)
  | .«end» _ => liftM (none : Option (Nat × Fat32FileSystem))
  | .current i => do
      let curr ← liftM (Checked.mul 32 self.sector 512 >>= fun s => Checked.add 32 s self.offset)
      let newPos ← liftM (Checked.addSigned 64 curr i)
      -- `self.seek(SeekFrom::Start(new_pos as u64))?`, which returns `Ok`
      pure (Checked.toUnsigned 64 newPos, seekStart (Checked.toUnsigned 64 newPos))

/-- `read`: the count it returns, the buffer it fills and the cursor it
leaves.  The buffer `Vec::with_capacity(sector_bytes)` is uninitialised;
the driver fills all of it. -/
def read (self : Fat32FileSystem) (disk : Disk) (buf : List UInt8) :
    ExceptT Unit Option (Nat × List UInt8 × Fat32FileSystem) := do
  let byteCount := buf.length
  let offset := byteCount % 512
  let numSectors ← liftM (Checked.add 64 (byteCount / 512) (if offset ≠ 0 then 1 else 0))
  let sectorBytes ← liftM (Checked.mul 64 numSectors 512)
  let vec := emmcRead disk self.sector (Checked.truncate 32 numSectors)
    (List.replicate sectorBytes 0)
  let byteSlice ← liftM (Slice.sliceFrom vec self.offset)
  let finalLen := min buf.length byteSlice.length
  let byteSlice := byteSlice.take finalLen
  let buf ← liftM (Slice.copyFromSlice buf byteSlice)
  let (_, self) ← self.seek (.current (Checked.toSigned 64 finalLen))
  pure (finalLen, buf, self)

/-- `write`: the count it returns, the card it leaves and the cursor.  It
rewrites the cursor's sector only; a buffer that runs past that sector
reaches `todo!()`. -/
def write (self : Fat32FileSystem) (disk : Disk) (buf : List UInt8) :
    ExceptT Unit Option (Nat × Disk × Fat32FileSystem) := do
  let byteCount := buf.length
  -- Read in the first block
  let vec := emmcRead disk self.sector 1 (List.replicate 512 0)
  -- Write into the first sector
  let bytesLeftInFirstSector ← liftM (Checked.sub 512 self.offset)
  let bytesToWriteFirstSector := min bytesLeftInFirstSector (Checked.truncate 32 byteCount)
  let hi ← liftM (Checked.add 64 self.offset bytesToWriteFirstSector)
  let src ← liftM (Slice.sliceTo buf bytesToWriteFirstSector)
  let vec ← liftM (Slice.copyIntoRange vec self.offset hi src)
  let disk := emmcWrite disk self.sector 1 vec
  let (_, self) ← self.seek (.current bytesToWriteFirstSector)
  if byteCount > bytesToWriteFirstSector then
    -- Still need to handle writes across multiple sectors
    liftM (none : Option (Nat × Disk × Fat32FileSystem))
  else pure (bytesToWriteFirstSector, disk, self)

/-! ## Seeking -/

section Seek

variable {i : Nat}

theorem seek_start (self : Fat32FileSystem) (i : Nat) :
    (self.seek (.start i)).run = some (.ok (i, seekStart i)) := rfl

theorem seekStart_sector_lt : (seekStart i).sector < 2 ^ 23 := by
  have := Checked.truncate_lt (w := 32) (n := i) (by decide)
  simp only [seekStart]
  omega

theorem seekStart_offset_lt : (seekStart i).offset < 512 := Nat.mod_lt _ (by decide)

theorem position_seekStart : (seekStart i).position = Checked.truncate 32 i := by
  simp only [position, seekStart]
  omega

/-- `Start(i)` puts the cursor on byte `i` exactly when `i` fits in a
`u32`. -/
theorem seekStart_eq_iff : seekStart i = ⟨i / 512, i % 512⟩ ↔ i < 2 ^ 32 := by
  constructor
  · intro h
    have hsector : (seekStart i).sector = i / 512 := congrArg Fat32FileSystem.sector h
    have hlt : (seekStart i).sector < 2 ^ 23 := seekStart_sector_lt
    omega
  · intro h
    simp only [seekStart, Checked.truncate_of_lt h]

/-- `Current(d)` from a cursor that `Start` can leave, to a position in
`[0, 2 ^ 63)`: the cursor is that position as a `u32`. -/
theorem seek_current {self : Fat32FileSystem} {d : Int} (hs : self.sector < 2 ^ 23)
    (ho : self.offset < 512) (h0 : 0 ≤ (self.position : Int) + d)
    (hd : (self.position : Int) + d < 2 ^ 63) :
    (self.seek (.current d)).run =
      some (.ok (((self.position : Int) + d).toNat, seekStart ((self.position : Int) + d).toNat)) := by
  have hmul : Checked.mul 32 self.sector 512 = some (self.sector * 512) :=
    Checked.mul_of_lt (by omega)
  have hadd : Checked.add 32 (self.sector * 512) self.offset = some self.position :=
    (Checked.add_of_lt (by omega)).trans (by rw [position, Nat.mul_comm])
  have hpos : Checked.addSigned 64 (self.position : Int) d = some ((self.position : Int) + d) :=
    Checked.addSigned_of_lt (by omega) hd
  have hcast : Checked.toUnsigned 64 ((self.position : Int) + d) =
      ((self.position : Int) + d).toNat :=
    Checked.toUnsigned_of_nonneg h0 (by omega)
  simp only [seek, hmul, Option.bind_eq_bind, Option.bind_some, hadd, Checked.liftM_some_bind, hpos,
    hcast]
  rfl

/-- `Current(n)` for the `n` bytes `read` or `write` has just moved over:
the cursor lands `n` bytes further on. -/
theorem seek_forward {self : Fat32FileSystem} {n : Nat} (hs : self.sector < 2 ^ 23)
    (ho : self.offset < 512) (hn : n < 2 ^ 32) :
    (self.seek (.current (n : Int))).run =
      some (.ok (self.position + n, seekStart (self.position + n))) := by
  have hpos : ((self.position : Int) + (n : Int)).toNat = self.position + n := by
    omega
  rw [@seek_current self (n : Int) hs ho (by omega) (by unfold position; omega), hpos]

end Seek

/-! ## Reading and writing -/

section Transfer

variable {disk : Disk} {sector o n : Nat}

/-- Bytes taken from a fetched window of `N` sectors, starting `o` in: the
card's bytes from `512 * sector + o`. -/
theorem take_drop_emmcRead {N : Nat} {buf : List UInt8} (hbuf : buf.length = N * 512)
    (hfit : o + n ≤ 512 * N) :
    ((emmcRead disk sector N buf).drop o).take n = readDisk disk (512 * sector + o) n := by
  apply List.ext_getElem?
  intro j
  rw [List.getElem?_take, List.getElem?_drop]
  by_cases hj : j < n
  · rw [if_pos hj, getElem?_emmcRead (by omega) (by omega)]
    simp [readDisk, hj, Nat.add_assoc]
  · rw [if_neg hj]
    simp [readDisk, hj]

/-- Writing back a sector read with `b` spliced in at `o` writes `b` at
`512 * sector + o` and nothing else. -/
theorem emmcWrite_splice {buf b : List UInt8} (hbuf : buf.length = 512)
    (hfit : o + b.length ≤ 512) :
    emmcWrite disk sector 1 ((emmcRead disk sector 1 buf).take o ++ b ++
      (emmcRead disk sector 1 buf).drop (o + b.length)) =
      overwrite disk (512 * sector + o) b := by
  have hlen : (emmcRead disk sector 1 buf).length = 512 := by rw [length_emmcRead, hbuf]
  have hsplice : ((emmcRead disk sector 1 buf).take o ++ b ++
      (emmcRead disk sector 1 buf).drop (o + b.length)).length = 512 := by
    simp only [List.length_append, List.length_take, List.length_drop, hlen]
    omega
  funext a
  unfold emmcWrite overwrite
  rw [List.take_of_length_le (by omega), hsplice, List.getD_eq_getElem?_getD,
    Slice.getElem?_copyIntoRange (by omega) (by omega) (by omega)]
  by_cases hin : 512 * sector ≤ a ∧ a < 512 * sector + 512
  · rw [if_pos hin]
    by_cases hb : o ≤ a - 512 * sector ∧ a - 512 * sector < o + b.length
    · rw [if_pos hb, if_pos (by omega), List.getD_eq_getElem?_getD,
        show a - 512 * sector - o = a - (512 * sector + o) by omega]
    · rw [if_neg hb, if_neg (by omega), getElem?_emmcRead (by omega) (by omega),
        Option.getD_some, show 512 * sector + (a - 512 * sector) = a by omega]
  · rw [if_neg hin, if_neg (by omega)]

end Transfer

section Read

variable {self : Fat32FileSystem} {disk : Disk} {buf : List UInt8}

/-- `read` fetches `⌈n / 512⌉` sectors. -/
theorem read_numSectors {n : Nat} (hn : n < 2 ^ 32) :
    Checked.add 64 (n / 512) (if n % 512 ≠ 0 then 1 else 0) = some ((n + 511) / 512) := by
  rw [Checked.add_of_lt (by split <;> omega)]
  congr 1
  split <;> omega

/-- Where the cursor's bytes lie in the fetched sectors, `read` returns them
and moves the cursor past them. -/
theorem read_eq_ok (hs : self.sector < 2 ^ 23) (ho : self.offset < 512) (hn : buf.length < 2 ^ 32)
    (hfit : self.offset + buf.length ≤ 512 * ((buf.length + 511) / 512)) :
    (self.read disk buf).run = some (.ok (buf.length, readDisk disk self.position buf.length,
      seekStart (self.position + buf.length))) := by
  obtain ⟨N, hN⟩ : ∃ N, N = (buf.length + 511) / 512 := ⟨_, rfl⟩
  rw [← hN] at hfit
  have hrep : (List.replicate (N * 512) (0 : UInt8)).length = N * 512 := List.length_replicate
  have hslice : Slice.sliceFrom (emmcRead disk self.sector N (List.replicate (N * 512) 0))
      self.offset = some ((emmcRead disk self.sector N (List.replicate (N * 512) 0)).drop self.offset) :=
    Slice.sliceFrom_of_le (by rw [length_emmcRead, hrep]; omega)
  have hfinal : min buf.length
      ((emmcRead disk self.sector N (List.replicate (N * 512) 0)).drop self.offset).length =
      buf.length := by
    rw [List.length_drop, length_emmcRead, hrep]
    omega
  have hcopy : Slice.copyFromSlice buf (readDisk disk self.position buf.length) =
      some (readDisk disk self.position buf.length) :=
    Slice.copyFromSlice_of_eq (length_readDisk _ _ _).symm
  have hseek := seek_forward hs ho hn
  have hbytes : ((emmcRead disk self.sector N (List.replicate (N * 512) 0)).drop self.offset).take
      buf.length = readDisk disk self.position buf.length := take_drop_emmcRead hrep hfit
  simp only [read, read_numSectors hn, ← hN, Checked.liftM_some_bind,
    Checked.mul_of_lt (show N * 512 < 2 ^ 64 by omega),
    Checked.truncate_of_lt (show N < 2 ^ 32 by omega), hslice, hfinal, hbytes, hcopy,
    Checked.toSigned_of_lt (show buf.length < 2 ^ (64 - 1) by omega)]
  rw [Checked.run_bind_of_ok hseek]
  rfl

/-- Where they do not, `read` panics: the offset is past the fetched bytes,
or the bytes after it are fewer than the buffer. -/
theorem read_eq_none (hn : buf.length < 2 ^ 32)
    (hover : 512 * ((buf.length + 511) / 512) < self.offset + buf.length) :
    (self.read disk buf).run = none := by
  obtain ⟨N, hN⟩ : ∃ N, N = (buf.length + 511) / 512 := ⟨_, rfl⟩
  rw [← hN] at hover
  have hrep : (List.replicate (N * 512) (0 : UInt8)).length = N * 512 := List.length_replicate
  simp only [read, read_numSectors hn, ← hN, Checked.liftM_some_bind,
    Checked.mul_of_lt (show N * 512 < 2 ^ 64 by omega),
    Checked.truncate_of_lt (show N < 2 ^ 32 by omega)]
  by_cases hpast : N * 512 < self.offset
  · simp only [Slice.sliceFrom_of_lt (show (emmcRead disk self.sector N
      (List.replicate (N * 512) 0)).length < self.offset by rw [length_emmcRead, hrep]; exact hpast),
      Checked.run_liftM_none_bind]
  · have hshort : buf.length ≠ (List.take (min buf.length (List.drop self.offset
        (emmcRead disk self.sector N (List.replicate (N * 512) 0))).length)
        (List.drop self.offset (emmcRead disk self.sector N (List.replicate (N * 512) 0)))).length := by
      simp only [List.length_take, List.length_drop, length_emmcRead, hrep]
      omega
    simp only [Slice.sliceFrom_of_le (show self.offset ≤ (emmcRead disk self.sector N
      (List.replicate (N * 512) 0)).length by rw [length_emmcRead, hrep]; omega),
      Checked.liftM_some_bind, Slice.copyFromSlice_of_ne hshort, Checked.run_liftM_none_bind]

end Read

section Write

variable {self : Fat32FileSystem} {disk : Disk} {buf : List UInt8}

/-- A buffer that fits in the rest of the cursor's sector is written at the
cursor, and the cursor moves past it. -/
theorem write_eq_ok (hs : self.sector < 2 ^ 23) (ho : self.offset < 512)
    (hfit : self.offset + buf.length ≤ 512) :
    (self.write disk buf).run = some (.ok (buf.length, overwrite disk self.position buf,
      seekStart (self.position + buf.length))) := by
  have hrep : (List.replicate 512 (0 : UInt8)).length = 512 := List.length_replicate
  have hmin : min (512 - self.offset) (Checked.truncate 32 buf.length) = buf.length := by
    rw [Checked.truncate_of_lt (by omega)]
    omega
  have hsrc : Slice.sliceTo buf buf.length = some buf := by
    rw [Slice.sliceTo_of_le le_rfl, List.take_length]
  have hcopy := @Slice.copyIntoRange_of_le _ (emmcRead disk self.sector 1 (List.replicate 512 0))
    buf self.offset (self.offset + buf.length) (Nat.le_add_right self.offset buf.length)
    (by rw [length_emmcRead, hrep]; exact hfit) (by omega)
  have hdisk : emmcWrite disk self.sector 1
      ((emmcRead disk self.sector 1 (List.replicate 512 0)).take self.offset ++ buf ++
        (emmcRead disk self.sector 1 (List.replicate 512 0)).drop (self.offset + buf.length)) =
      overwrite disk self.position buf := emmcWrite_splice hrep hfit
  have hseek := seek_forward (n := buf.length) hs ho (by omega)
  simp only [write, Checked.sub_of_le (Nat.le_of_lt ho), Checked.liftM_some_bind, hmin,
    Checked.add_of_lt (show self.offset + buf.length < 2 ^ 64 by omega), hsrc, hcopy, hdisk]
  rw [Checked.run_bind_of_ok hseek]
  simp only [gt_iff_lt, Nat.lt_irrefl, if_false]
  rfl

end Write

/-! ## Past four gibibytes, across a sector end, and within one sector -/

/-- Byte `2 ^ 32`, the first of sector `2 ^ 23`, reached from the start and
from the byte before it. -/
theorem seek_truncates_past_four_gib :
    (new.seek (.start (2 ^ 32))).run = some (.ok (2 ^ 32, ⟨0, 0⟩)) ∧
      ((seekStart (2 ^ 32 - 1)).seek (.current 1)).run = some (.ok (2 ^ 32, ⟨0, 0⟩)) ∧
      2 ^ 32 < 2 ^ 32 * 512 ∧ 2 ^ 32 / 512 = 2 ^ 23 := by
  refine ⟨rfl, ?_, by decide, by decide⟩
  rw [seek_current seekStart_sector_lt seekStart_offset_lt (by decide) (by decide)]
  decide

/-- Two bytes from the last byte of sector 0. -/
theorem read_panics_across_sector_end (disk : Disk) (a b : UInt8) :
    (new.seek (.start 511)).run = some (.ok (511, ⟨0, 511⟩)) ∧
      ((⟨0, 511⟩ : Fat32FileSystem).read disk [a, b]).run = none :=
  ⟨rfl, read_eq_none (by simp) (by simp)⟩

theorem write_then_read_back (disk : Disk) (self : Fat32FileSystem) (p : Nat)
    (b out : List UInt8) (hp : p < 2 ^ 32) (hb : 1 ≤ b.length) (hfit : b.length ≤ 512 - p % 512)
    (hout : out.length = b.length) :
    (self.seek (.start p)).run = some (.ok (p, seekStart p)) ∧
      ((seekStart p).write disk b).run =
        some (.ok (b.length, overwrite disk p b, seekStart (p + b.length))) ∧
      ((seekStart (p + b.length)).seek (.start p)).run = some (.ok (p, seekStart p)) ∧
      ((seekStart p).read (overwrite disk p b) out).run =
        some (.ok (b.length, b, seekStart (p + b.length))) := by
  have hpos : (seekStart p).position = p := by
    rw [position_seekStart, Checked.truncate_of_lt hp]
  have hs : (seekStart p).sector < 2 ^ 23 := seekStart_sector_lt
  have ho : (seekStart p).offset = p % 512 := by
    rw [seekStart_eq_iff.2 hp]
  have hwrite := @write_eq_ok _ disk b hs seekStart_offset_lt (by omega)
  have hread := @read_eq_ok _ (overwrite disk p b) out hs seekStart_offset_lt
    (by omega) (by omega)
  rw [hpos] at hwrite
  rw [hpos, hout, readDisk_overwrite] at hread
  exact ⟨seek_start self p, hwrite, seek_start _ p, hread⟩

theorem write_then_read_back_last_byte :
    (new.seek (.start 511)).run = some (.ok (511, seekStart 511)) ∧
      ((seekStart 511).write (fun _ => 0) [7]).run =
        some (.ok (1, overwrite (fun _ => 0) 511 [7], seekStart (511 + 1))) ∧
      ((seekStart (511 + 1)).seek (.start 511)).run = some (.ok (511, seekStart 511)) ∧
      ((seekStart 511).read (overwrite (fun _ => 0) 511 [7]) [0]).run =
        some (.ok (1, [7], seekStart (511 + 1))) :=
  write_then_read_back (fun _ => 0) new 511 [7] [0] (by decide) (by decide) (by decide) rfl

end Fat32FileSystem

end Fs

end LanternOS
