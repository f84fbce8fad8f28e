/-
# `LanternOS.Boot.Reserve` — the ranges the bootloader reserves

`reserve_memory_regions` builds the memory map the rest of the boot works
from.  It adds the `reg` of every `memory@` node of the device tree as
`Free`, and then reserves, in this order: the pages of the device tree blob
(`DtReserved`), the GPU's memory as the mailbox reports it (`Firmware`), the
board's peripherals (`Mmio`), and the bootloader's stack and image
(`Bootloader`).  The device tree parser and the mailbox are outside the
model; what they report is the `Platform` record.

## Where the reservations start and end

Three of the ranges are rounded to pages, each its own way:

* the blob: `get_page_addr(dtb_ptr)` down, then `start + totalsize` up;
* the stack: both ends down, the exclusive `__BL_STACK` included;
* the image: `__BL_START` down, `__BL_END` up.

For a power-of-two page size `get_page_addr` rounds down (`getPageAddr_eq`),
so all three are page aligned at both ends.  What each covers differs
(`dtbReservation_spec`, `stackReservation_spec`,
`bootloaderReservation_spec`): the image always; the stack exactly when
`__BL_STACK` is page aligned; the blob exactly when its offset in its first
page fits in what its size alone rounds up to.  A blob that does not start
on a page boundary can leave its last bytes outside the reservation, and so
in free memory (`reserved_entries_miss_unaligned_ends`).

Every entry the function adds is well formed, so the function keeps the
map's invariant (`reserveMemoryRegions_inv`).
-/
import LanternOS.Memory.MemoryMapInvariant
import LanternOS.Lib.Align

namespace LanternOS

/-- `e` covers all of `[lo, hi)`. -/
def MemoryMapEntry.Spans (e : MemoryMapEntry) (lo hi : Nat) : Prop :=
  e.baseAddr ≤ lo ∧ hi ≤ e.endAddr

/-- Both ends of `e` are multiples of `p`. -/
def MemoryMapEntry.Aligned (p : Nat) (e : MemoryMapEntry) : Prop :=
  e.baseAddr % p = 0 ∧ e.endAddr % p = 0

instance (e : MemoryMapEntry) (lo hi : Nat) : Decidable (e.Spans lo hi) :=
  inferInstanceAs (Decidable (_ ∧ _))

instance (p : Nat) (e : MemoryMapEntry) : Decidable (e.Aligned p) :=
  inferInstanceAs (Decidable (_ ∧ _))

namespace Bootloader

/-- The `DevTreeError`s `reserve_memory_regions` returns itself. -/
inductive DevTreeError where
  | parseError
  | notEnoughMemory
  deriving DecidableEq, Repr

/-- What `reserve_memory_regions` learns from outside: the `reg` of each
`memory@` node as `(base_addr, size_bytes)`, the blob's `totalsize`, the
`GetGpuMemory` reply as `(base, size)` (`none` when its code is not
`RESP_SUCCESS`) and `get_board_peripheral_range()`. -/
structure Platform where
  memoryNodes : List (Nat × Nat)
  totalsize : Nat
  gpuMemory : Option (Nat × Nat)
  peripherals : Nat × Nat

/-- The linker symbols the bootloader reserves by. -/
structure LinkerSymbols where
  pgSize : Nat
  blStackEnd : Nat
  blStack : Nat
  blStart : Nat
  blEnd : Nat

/-- `get_page_addr`: `addr & !(__PG_SIZE - 1)`, in `u64`. -/
def getPageAddr (pgSize addr : Nat) : Option Nat := do
  let mask ← Checked.sub pgSize 1
  pure (addr &&& (mask ^^^ (2 ^ 64 - 1)))

/-- An entry for `[baseAddr, endAddr)`, its size `end - base` in `u64`. -/
def entryTo (baseAddr endAddr : Nat) (entryType : EntryType) : Option MemoryMapEntry := do
  let size ← Checked.sub endAddr baseAddr
  pure ⟨baseAddr, ⟨size⟩, endAddr, entryType⟩

/-- An entry of `size` bytes at `baseAddr`, its end `base + size` in `u64`. -/
def entryOf (baseAddr size : Nat) (entryType : EntryType) : Option MemoryMapEntry := do
  let endAddr ← Checked.add 64 baseAddr size
  pure ⟨baseAddr, ⟨size⟩, endAddr, entryType⟩

/-- The pages of the blob: from `get_page_addr(dtb_ptr)` to `(dtb_page_start
+ totalsize).next_multiple_of(page_size)`. -/
def dtbReservation (pageSize dtbPtr totalsize : Nat) : Option MemoryMapEntry := do
  let dtbPageStart ← getPageAddr pageSize dtbPtr
  let top ← Checked.add 64 dtbPageStart totalsize
  let dtbPageEnd ← Checked.nextMultipleOf 64 top pageSize
  entryTo dtbPageStart dtbPageEnd .dtReserved

/-- The GPU's memory, `start + size` in `u64`. -/
def firmwareReservation (start size : Nat) : Option MemoryMapEntry :=
  entryOf start size .firmware

/-- The peripherals, their size `end - base` in `u64`. -/
def mmioReservation (base endAddr : Nat) : Option MemoryMapEntry :=
  entryTo base endAddr .mmio

/-- The stack, both ends through `get_page_addr` ("Stack end is
exclusive"). -/
def stackReservation (sym : LinkerSymbols) : Option MemoryMapEntry := do
  let stackStartPageAddr ← getPageAddr sym.pgSize sym.blStackEnd
  let stackEndPageAddr ← getPageAddr sym.pgSize sym.blStack
  entryTo stackStartPageAddr stackEndPageAddr .bootloader

/-- The image, from `get_page_addr(__BL_START)` to
`__BL_END.next_multiple_of(page_size)`. -/
def bootloaderReservation (sym : LinkerSymbols) : Option MemoryMapEntry := do
  let blStartPageAddr ← getPageAddr sym.pgSize sym.blStart
  let blEndPageAddr ← Checked.nextMultipleOf 64 sym.blEnd sym.pgSize
  entryTo blStartPageAddr blEndPageAddr .bootloader

variable (srt : ArrayVec.UnstableSort MemoryMapEntry MemoryMapEntry.baseAddr)

/-- `map.lock().add_entry(entry).map_err(|_| DevTreeError::NotEnoughMemory)?`. -/
def reserve (map : MemoryMap) (entry : MemoryMapEntry) : ExceptT DevTreeError Option MemoryMap :=
  ExceptT.mk do
    let (r, map) ← map.addEntry srt entry
    pure (match r with
      | .ok () => .ok map
      | .error () => .error .notEnoughMemory)

/-- One `memory@` node: `max_addr` grows to its end, and its range is added
as `Free`. -/
def addMemoryNode (acc : MemoryMap × Nat) (reg : Nat × Nat) :
    ExceptT DevTreeError Option (MemoryMap × Nat) := do
  let (map, maxAddr) := acc
  let (baseAddr, sizeBytes) := reg
  let top ← Checked.add 64 baseAddr sizeBytes
  let maxAddr := if top > maxAddr then top else maxAddr
  let map ← reserve srt map (← entryOf baseAddr sizeBytes .free)
  pure (map, maxAddr)

/-- `reserve_memory_regions`, with page size and linker symbols `sym`, on
the map it is given (`MemoryMap::new` in `main`). -/
def reserveMemoryRegions (sym : LinkerSymbols) (dtbPtr : Nat) (p : Platform) (map : MemoryMap) :
    ExceptT DevTreeError Option MemoryMap := do
  let (map, maxAddr) ← p.memoryNodes.foldlM (addMemoryNode srt) (map, 0)
  let map ← reserve srt map (← dtbReservation sym.pgSize dtbPtr p.totalsize)
  let some (start, size) := p.gpuMemory | throw .parseError
  let map ← reserve srt map (← firmwareReservation start size)
  let map ← reserve srt map (← mmioReservation p.peripherals.1 p.peripherals.2)
  let map ← reserve srt map (← stackReservation sym)
  let map ← reserve srt map (← bootloaderReservation sym)
  pure (map.setTotalMem maxAddr)

/-! ## Every entry is well formed -/

section WellFormed

variable {b e t : Nat} {ty : EntryType} {x : MemoryMapEntry}

theorem entryTo_wellFormed (h : entryTo b e ty = some x) : x.WellFormed := by
  obtain ⟨size, hsize, hx⟩ := Option.bind_eq_some_iff.1 h
  obtain ⟨hle, rfl⟩ := Checked.sub_eq_some.1 hsize
  cases hx
  exact ⟨hle, rfl⟩

theorem entryOf_wellFormed (h : entryOf b t ty = some x) : x.WellFormed := by
  obtain ⟨endAddr, hend, hx⟩ := Option.bind_eq_some_iff.1 h
  obtain ⟨-, rfl⟩ := Checked.add_eq_some.1 hend
  cases hx
  exact ⟨Nat.le_add_right _ _, by simp⟩

theorem entryTo_of_le (h : b ≤ e) : entryTo b e ty = some ⟨b, ⟨e - b⟩, e, ty⟩ := by
  simp [entryTo, Checked.sub_of_le h]

theorem dtbReservation_wellFormed {pageSize dtbPtr totalsize : Nat}
    (h : dtbReservation pageSize dtbPtr totalsize = some x) : x.WellFormed := by
  obtain ⟨_, -, h⟩ := Option.bind_eq_some_iff.1 h
  obtain ⟨_, -, h⟩ := Option.bind_eq_some_iff.1 h
  obtain ⟨_, -, h⟩ := Option.bind_eq_some_iff.1 h
  exact entryTo_wellFormed h

theorem stackReservation_wellFormed {sym : LinkerSymbols} (h : stackReservation sym = some x) :
    x.WellFormed := by
  obtain ⟨_, -, h⟩ := Option.bind_eq_some_iff.1 h
  obtain ⟨_, -, h⟩ := Option.bind_eq_some_iff.1 h
  exact entryTo_wellFormed h

theorem bootloaderReservation_wellFormed {sym : LinkerSymbols}
    (h : bootloaderReservation sym = some x) : x.WellFormed := by
  obtain ⟨_, -, h⟩ := Option.bind_eq_some_iff.1 h
  obtain ⟨_, -, h⟩ := Option.bind_eq_some_iff.1 h
  exact entryTo_wellFormed h

end WellFormed

/-! ## Where the rounded reservations lie -/

section Rounding

variable {k : Nat}

theorem getPageAddr_eq {addr : Nat} (hk : k ≤ 64) (ha : addr < 2 ^ 64) :
    getPageAddr (2 ^ k) addr = some (Align.roundDown addr (2 ^ k)) := by
  have hsub : Checked.sub (2 ^ k) 1 = some (2 ^ k - 1) := Checked.sub_of_le Nat.one_le_two_pow
  simp only [getPageAddr, hsub, Option.pure_def, Option.bind_eq_bind, Option.bind_some,
    Align.land_compl_eq_roundDown hk ha]

/-- For a power-of-two page size and no overflow, the blob's entry runs from
`dtb_ptr` rounded down to `start + totalsize` rounded up. -/
theorem dtbReservation_eq {dtbPtr totalsize : Nat} (hk : k ≤ 64) (hptr : dtbPtr < 2 ^ 64)
    (hend : Align.roundUp (Align.roundDown dtbPtr (2 ^ k) + totalsize) (2 ^ k) < 2 ^ 64) :
    dtbReservation (2 ^ k) dtbPtr totalsize =
      entryTo (Align.roundDown dtbPtr (2 ^ k))
        (Align.roundUp (Align.roundDown dtbPtr (2 ^ k) + totalsize) (2 ^ k)) .dtReserved := by
  have htop : Align.roundDown dtbPtr (2 ^ k) + totalsize < 2 ^ 64 :=
    Nat.lt_of_le_of_lt Align.le_roundUp hend
  simp only [dtbReservation, getPageAddr_eq hk hptr, Checked.add_of_lt htop,
    Checked.nextMultipleOf_of_lt (Nat.two_pow_pos k) hend, Option.bind_eq_bind, Option.bind_some]

/-- The stack's entry, both ends rounded down. -/
theorem stackReservation_eq {sym : LinkerSymbols} (hk : k ≤ 64) (hpg : sym.pgSize = 2 ^ k)
    (hle : sym.blStackEnd ≤ sym.blStack) (hstack : sym.blStack < 2 ^ 64) :
    stackReservation sym =
      entryTo (Align.roundDown sym.blStackEnd (2 ^ k)) (Align.roundDown sym.blStack (2 ^ k))
        .bootloader := by
  simp only [stackReservation, hpg, getPageAddr_eq hk (Nat.lt_of_le_of_lt hle hstack),
    getPageAddr_eq hk hstack, Option.bind_eq_bind, Option.bind_some]

/-- The image's entry, `__BL_START` rounded down and `__BL_END` rounded up. -/
theorem bootloaderReservation_eq {sym : LinkerSymbols} (hk : k ≤ 64) (hpg : sym.pgSize = 2 ^ k)
    (hle : sym.blStart ≤ sym.blEnd) (hend : Align.roundUp sym.blEnd (2 ^ k) < 2 ^ 64) :
    bootloaderReservation sym =
      entryTo (Align.roundDown sym.blStart (2 ^ k)) (Align.roundUp sym.blEnd (2 ^ k))
        .bootloader := by
  have hstart : sym.blStart < 2 ^ 64 :=
    Nat.lt_of_le_of_lt (Nat.le_trans hle Align.le_roundUp) hend
  simp only [bootloaderReservation, hpg, getPageAddr_eq hk hstart,
    Checked.nextMultipleOf_of_lt (Nat.two_pow_pos k) hend, Option.bind_eq_bind, Option.bind_some]

/-- The blob's entry is page aligned, and covers the blob exactly when the
blob's offset in its page fits in what `totalsize` rounds up to. -/
theorem dtbReservation_spec {dtbPtr totalsize : Nat} (hk : k ≤ 64) (hptr : dtbPtr < 2 ^ 64)
    (hend : Align.roundUp (Align.roundDown dtbPtr (2 ^ k) + totalsize) (2 ^ k) < 2 ^ 64) :
    ∃ x, dtbReservation (2 ^ k) dtbPtr totalsize = some x ∧ x.Aligned (2 ^ k) ∧
      (x.Spans dtbPtr (dtbPtr + totalsize) ↔
        dtbPtr % 2 ^ k + totalsize ≤ Align.roundUp totalsize (2 ^ k)) := by
  rw [dtbReservation_eq hk hptr hend]
  set start := Align.roundDown dtbPtr (2 ^ k)
  have hle : start ≤ Align.roundUp (start + totalsize) (2 ^ k) :=
    Nat.le_trans (Nat.le_add_right _ _) Align.le_roundUp
  refine ⟨_, entryTo_of_le hle, ⟨Align.roundDown_mod, Align.roundUp_mod (Nat.two_pow_pos k)⟩, ?_⟩
  -- the start is a page boundary, so the end is `start + roundUp totalsize`
  have hstop : Align.roundUp (start + totalsize) (2 ^ k) =
      start + Align.roundUp totalsize (2 ^ k) :=
    Align.roundUp_add_of_mod Align.roundDown_mod
  have hsplit : start + dtbPtr % 2 ^ k = dtbPtr := Align.roundDown_add_mod
  simp only [MemoryMapEntry.Spans, hstop]
  constructor
  · rintro ⟨-, h⟩
    omega
  · intro h
    exact ⟨Align.roundDown_le, by omega⟩

/-- The stack's entry has both ends rounded down, so it covers a non-empty
stack exactly when `__BL_STACK` is page aligned. -/
theorem stackReservation_spec {sym : LinkerSymbols} (hk : k ≤ 64) (hpg : sym.pgSize = 2 ^ k)
    (hle : sym.blStackEnd ≤ sym.blStack) (hstack : sym.blStack < 2 ^ 64) :
    ∃ x, stackReservation sym = some x ∧ x.Aligned (2 ^ k) ∧
      (sym.blStackEnd < sym.blStack →
        (x.Spans sym.blStackEnd sym.blStack ↔ sym.blStack % 2 ^ k = 0)) := by
  rw [stackReservation_eq hk hpg hle hstack]
  set hi := Align.roundDown sym.blStack (2 ^ k)
  refine ⟨_, entryTo_of_le (Align.roundDown_mono hle), ⟨Align.roundDown_mod, Align.roundDown_mod⟩,
    fun _ => ?_⟩
  have hsplit : hi + sym.blStack % 2 ^ k = sym.blStack := Align.roundDown_add_mod
  simp only [MemoryMapEntry.Spans]
  constructor
  · rintro ⟨-, h⟩
    omega
  · intro h
    exact ⟨Align.roundDown_le, by omega⟩

/-- The image's entry runs from `__BL_START` rounded down to `__BL_END`
rounded up, and always covers the image. -/
theorem bootloaderReservation_spec {sym : LinkerSymbols} (hk : k ≤ 64) (hpg : sym.pgSize = 2 ^ k)
    (hle : sym.blStart ≤ sym.blEnd) (hend : Align.roundUp sym.blEnd (2 ^ k) < 2 ^ 64) :
    ∃ x, bootloaderReservation sym = some x ∧ x.Aligned (2 ^ k) ∧
      x.Spans sym.blStart sym.blEnd := by
  have hbound : Align.roundDown sym.blStart (2 ^ k) ≤ Align.roundUp sym.blEnd (2 ^ k) :=
    Nat.le_trans Align.roundDown_le (Nat.le_trans hle Align.le_roundUp)
  rw [bootloaderReservation_eq hk hpg hle hend, entryTo_of_le hbound]
  exact ⟨_, rfl, ⟨Align.roundDown_mod, Align.roundUp_mod (Nat.two_pow_pos k)⟩,
    Align.roundDown_le, Align.le_roundUp⟩

/-- The linker's own symbols: a 4 KiB page, the image at `0x80000` to
`0x90000`. -/
theorem bootloaderReservation_spec_raspi :
    12 ≤ 64 ∧ (⟨0x1000, 0x7F000, 0x80000, 0x80000, 0x90000⟩ : LinkerSymbols).pgSize = 2 ^ 12 ∧
      0x80000 ≤ 0x90000 ∧ Align.roundUp 0x90000 (2 ^ 12) < 2 ^ 64 ∧
      ∃ x, bootloaderReservation ⟨0x1000, 0x7F000, 0x80000, 0x80000, 0x90000⟩ = some x ∧
        x.Aligned (2 ^ 12) ∧ x.Spans 0x80000 0x90000 :=
  ⟨by norm_num, rfl, by norm_num, by decide,
    bootloaderReservation_spec (by norm_num) rfl (by norm_num) (by decide)⟩

/-- A blob one page long that starts `0x100` into its page, and a stack
whose exclusive top is `0x10` past a page boundary. -/
theorem reserved_entries_miss_unaligned_ends :
    dtbReservation 0x1000 0x100 0x1000 = some ⟨0, ⟨0x1000⟩, 0x1000, .dtReserved⟩ ∧
      ¬ (⟨0, ⟨0x1000⟩, 0x1000, .dtReserved⟩ : MemoryMapEntry).Spans 0x100 (0x100 + 0x1000) ∧
    stackReservation ⟨0x1000, 0x7FF00, 0x80010, 0x80010, 0x90000⟩ =
        some ⟨0x7F000, ⟨0x1000⟩, 0x80000, .bootloader⟩ ∧
      ¬ (⟨0x7F000, ⟨0x1000⟩, 0x80000, .bootloader⟩ : MemoryMapEntry).Spans 0x7FF00 0x80010 := by
  have hdtb : dtbReservation 0x1000 0x100 0x1000 = some ⟨0, ⟨0x1000⟩, 0x1000, .dtReserved⟩ :=
    (@dtbReservation_eq 12 0x100 0x1000 (by norm_num) (by norm_num) (by decide)).trans (by decide)
  have hstack : stackReservation ⟨0x1000, 0x7FF00, 0x80010, 0x80010, 0x90000⟩ =
      some ⟨0x7F000, ⟨0x1000⟩, 0x80000, .bootloader⟩ :=
    (@stackReservation_eq 12 _ (by norm_num) rfl (by norm_num) (by norm_num)).trans (by decide)
  obtain ⟨x, hx, -, hxSpans⟩ := @dtbReservation_spec 12 0x100 0x1000 (by norm_num) (by norm_num)
    (by decide)
  obtain ⟨y, hy, -, hySpans⟩ := @stackReservation_spec 12
    ⟨0x1000, 0x7FF00, 0x80010, 0x80010, 0x90000⟩ (by norm_num) rfl (by norm_num) (by norm_num)
  obtain rfl := Option.some.inj (hx.symm.trans hdtb)
  obtain rfl := Option.some.inj (hy.symm.trans hstack)
  exact ⟨hdtb, mt hxSpans.1 (by decide), hstack, mt (hySpans (by norm_num)).1 (by decide)⟩

end Rounding

/-! ## The map stays well formed -/

section Inv

variable {m m' : MemoryMap} {x : MemoryMapEntry}

theorem reserve_inv (hm : m.Inv) (hx : x.WellFormed)
    (h : (reserve srt m x).run = some (.ok m')) : m'.Inv := by
  obtain ⟨⟨r, m₁⟩, hcall, h⟩ := Option.bind_eq_some_iff.1 h
  cases r with
  | ok u =>
      cases h
      exact MemoryMap.addEntry_inv srt hm hx hcall
  | error u => cases h

/-- One reservation, `reserve(map, built?)?` followed by the rest `k`: when
what it builds is well formed, the rest runs from a map that keeps the
invariant. -/
theorem reserveStep_inv {β : Type} {o : Option MemoryMapEntry}
    {k : MemoryMap → ExceptT DevTreeError Option β} {b : β}
    (hm : m.Inv) (hwf : ∀ y, o = some y → y.WellFormed)
    (h : (liftM o >>= fun y => reserve srt m y >>= k).run = some (.ok b)) :
    ∃ m₁, m₁.Inv ∧ (k m₁).run = some (.ok b) := by
  obtain ⟨y, hy, h⟩ := Checked.run_bind_eq_ok h
  obtain ⟨m₁, h₁, h⟩ := Checked.run_bind_eq_ok h
  exact ⟨m₁, reserve_inv srt hm (hwf y (Checked.run_liftM_eq_ok hy)) h₁, h⟩

theorem addMemoryNode_inv {t t' : Nat} {reg : Nat × Nat} (hm : m.Inv)
    (h : (addMemoryNode srt (m, t) reg).run = some (.ok (m', t'))) : m'.Inv := by
  obtain ⟨top, -, h⟩ := Checked.run_bind_eq_ok h
  obtain ⟨m₁, hm₁, h⟩ := reserveStep_inv srt hm (fun _ => entryOf_wellFormed) h
  cases h
  exact hm₁

/-- `reserve_memory_regions` only adds well-formed entries, so a map that
satisfies the invariant still does when it returns. -/
theorem reserveMemoryRegions_inv {sym : LinkerSymbols} {dtbPtr : Nat} {p : Platform}
    (hm : m.Inv) (h : (reserveMemoryRegions srt sym dtbPtr p m).run = some (.ok m')) :
    m'.Inv := by
  obtain ⟨⟨m₁, maxAddr⟩, h₁, h⟩ := Checked.run_bind_eq_ok h
  have hm₁ := Checked.foldlM_inv (fun acc : MemoryMap × Nat => acc.1.Inv) (addMemoryNode srt)
    (fun s _ _ hs hstep => addMemoryNode_inv srt hs hstep) p.memoryNodes (m, 0) _ hm h₁
  obtain ⟨m₂, hm₂, h⟩ := reserveStep_inv srt hm₁ (fun _ => dtbReservation_wellFormed) h
  rcases hgpu : p.gpuMemory with _ | ⟨start, size⟩
  · simp only [hgpu] at h
    cases h
  · simp only [hgpu] at h
    obtain ⟨m₃, hm₃, h⟩ := reserveStep_inv srt hm₂ (fun _ => entryOf_wellFormed) h
    obtain ⟨m₄, hm₄, h⟩ := reserveStep_inv srt hm₃ (fun _ => entryTo_wellFormed) h
    obtain ⟨m₅, hm₅, h⟩ := reserveStep_inv srt hm₄ (fun _ => stackReservation_wellFormed) h
    obtain ⟨m₆, hm₆, h⟩ := reserveStep_inv srt hm₅ (fun _ => bootloaderReservation_wellFormed) h
    cases h
    exact ⟨hm₆.wellFormed, hm₆.apart, hm₆.sorted, hm₆.length_le⟩

/-- A board with one `memory@` node below the GPU's memory, the blob in the
second page and the linker's own symbols, from `MemoryMap::new`. -/
theorem reserveMemoryRegions_inv_raspi :
    ∃ m', MemoryMap.new.Inv ∧
      (reserveMemoryRegions (ArrayVec.UnstableSort.insertionSort _)
        ⟨0x1000, 0x7F000, 0x80000, 0x80000, 0x90000⟩ 0x1000
        ⟨[(0, 0x3c000000)], 0x1000, some (0x3b000000, 0x1000000), (0x3f000000, 0x40000000)⟩
        MemoryMap.new).run = some (.ok m') ∧ m'.Inv := by
  have hrun : (reserveMemoryRegions (ArrayVec.UnstableSort.insertionSort _)
      ⟨0x1000, 0x7F000, 0x80000, 0x80000, 0x90000⟩ 0x1000
      ⟨[(0, 0x3c000000)], 0x1000, some (0x3b000000, 0x1000000), (0x3f000000, 0x40000000)⟩
      MemoryMap.new).run = some (.ok _) := rfl
  exact ⟨_, MemoryMap.inv_new, hrun, reserveMemoryRegions_inv _ MemoryMap.inv_new hrun⟩

end Inv

end Bootloader

end LanternOS
