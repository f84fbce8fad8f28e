/-
# `LanternOS.Boot.FrameAlloc` — the bootloader's frames, and its accounting

After seeding its `PageFrameAllocator` from the `Free` entries of the memory
map, the bootloader hands out frames only through `FrameAlloc::allocate_frame`
(`boot_alloc.rs`): pop a frame, zero it, and record it in the memory map as a
one-page `BLReserved` entry.  At the end of `main` it adds up the sizes of the
`BLReserved` entries, divides by the page size, and asserts that the result is
the number of frames handed out since seeding.

## The invariant

`Inv P s st` holds between calls: the allocator stores the stack `st`, the
map keeps its invariant and fits in `u64`s, and the page of every frame on
the freelist is `Free` in the map.  Seeding establishes it when the `Free`
entries are page-aligned (`inv_of_seed`); each call that returns `Ok` keeps
it, and its `add_entry` carves a free page, so that the view of the map is
painted there (`Inv.allocateFrame`): `BLReserved` memory grows by a page and
free memory shrinks by one (`Inv.trace`).

## The assertion

So after `n` calls the `BLReserved` entries hold `n` pages more than at
seeding, and the assertion holds when the map held no `BLReserved` memory
then — as in the bootloader, where only `allocate_frame` adds such entries
(`bootloader_allocation_accounting`).  A map that already holds some breaks
it with no call at all (`allocation_sanity_check_counts_earlier_blReserved`).
-/
import LanternOS.Boot.Seeding

namespace LanternOS

namespace Bootloader

open MemoryMap MemoryMapEntry PageFrameAllocator

/-- What the bootloader's `FrameAlloc` works on: its allocator and memory,
and the memory map `MEM_MAP` that records what it hands out. -/
structure State where
  alloc : PageFrameAllocator
  mem : UInt64 → UInt64
  map : MemoryMap

/-- `write_bytes(frame, 0, len)`: zero the words of `[frame, frame + len)`. -/
def writeBytesZero (mem : UInt64 → UInt64) (frame len : UInt64) : UInt64 → UInt64 :=
  fun a => if frame.toNat ≤ a.toNat ∧ a.toNat < frame.toNat + len.toNat then 0 else mem a

variable (srt : ArrayVec.UnstableSort MemoryMapEntry MemoryMapEntry.baseAddr)

/-- The bootloader's `FrameAlloc::allocate_frame`, with page size `pgSize`:
pop a frame (an empty freelist is a panic, the `expect`), zero it, and add
it to the memory map as a `BLReserved` entry. -/
def allocateFrame (pgSize : UInt64) (s : State) : Option (Except Unit UInt64 × State) := do
  let (r, alloc) ← s.alloc.allocFrame s.mem
  match r with
  | .error () => none
  | .ok frame =>
      let mem := writeBytesZero s.mem frame pgSize
      let endAddr ← Checked.add 64 frame.toNat pgSize.toNat
      let (res, map) ← s.map.addEntry srt
        { baseAddr := frame.toNat, size := ⟨pgSize.toNat⟩, endAddr := endAddr,
          entryType := .blReserved }
      match res with
      | .ok () => pure (.ok frame, ⟨alloc, mem, map⟩)
      | .error () => pure (.error (), ⟨alloc, mem, map⟩)

/-- A call of `allocate_frame` that returns `Ok frame`. -/
def AllocStep (pgSize : UInt64) (s : State) (frame : UInt64) (s' : State) : Prop :=
  allocateFrame srt pgSize s = some (.ok frame, s')

/-- `bl_reserved_count` in the bootloader's `main`: the sizes of the
`BLReserved` entries, summed with `u64` additions. -/
def blReservedCount (map : MemoryMap) : Option Nat :=
  (map.entries.filter (·.entryType = .blReserved)).foldlM
    (fun count entry => Checked.add 64 count entry.size.bytes) 0

/-- The sanity check at the end of the bootloader's `main`: the
`bl_reserved_count / page_size` it prints, `final_allocated_pages`, and the
`assert!` comparing them.  `none` is a panic of the arithmetic. -/
def allocationSanityCheck (pageSize startFreeFrames : Nat) (s : State) : Option Bool := do
  let count ← blReservedCount s.map
  let pages ← Checked.div count pageSize
  let finalAllocatedPages ← Checked.sub startFreeFrames s.alloc.numFreeFrames
  pure (pages == finalAllocatedPages)

/-! ## One call -/

section Call

variable {srt} {P : UInt64} {s s' : State} {f : UInt64}

/-- What a call that returns `Ok` did: popped `f`, zeroed its page, and
added the entry `[f, f + P)` to the map successfully. -/
theorem allocateFrame_eq_ok (h : allocateFrame srt P s = some (.ok f, s')) :
    ∃ alloc endAddr, s.alloc.allocFrame s.mem = some (.ok f, alloc) ∧
      Checked.add 64 f.toNat P.toNat = some endAddr ∧
      s.map.addEntry srt ⟨f.toNat, ⟨P.toNat⟩, endAddr, .blReserved⟩ = some (.ok (), s'.map) ∧
      s'.alloc = alloc ∧ s'.mem = writeBytesZero s.mem f P := by
  unfold allocateFrame at h
  cases halloc : s.alloc.allocFrame s.mem with
  | none => simp [halloc] at h
  | some p =>
      obtain ⟨r, alloc⟩ := p
      cases r with
      | error u => simp [halloc] at h
      | ok frame =>
          cases hend : Checked.add 64 frame.toNat P.toNat with
          | none => simp [halloc, hend] at h
          | some endAddr =>
              cases hadd : s.map.addEntry srt ⟨frame.toNat, ⟨P.toNat⟩, endAddr, .blReserved⟩ with
              | none => simp [halloc, hend, hadd] at h
              | some q =>
                  obtain ⟨res, map⟩ := q
                  cases res with
                  | error u => simp [halloc, hend, hadd] at h
                  | ok u =>
                      simp only [halloc, hend, hadd, Option.pure_def, Option.bind_eq_bind,
                        Option.bind_some, Option.some.injEq, Prod.mk.injEq, Except.ok.injEq] at h
                      obtain ⟨rfl, rfl⟩ := h
                      exact ⟨alloc, endAddr, rfl, hend, hadd, rfl, rfl⟩

end Call

/-! ## The invariant between calls -/

/-- Between calls after seeding: the allocator stores `st`, the map keeps
its invariant and fits in `u64`s, and the page of every frame on the
freelist is free memory. -/
structure Inv (P : UInt64) (s : State) (st : List UInt64) : Prop where
  refines : Refines P ⟨s.alloc, s.mem⟩ st
  map : s.map.Inv
  bound : ∀ x ∈ s.map.entries, x.endAddr < 2 ^ 64
  free : ∀ f ∈ st, ∀ a, f.toNat ≤ a → a < f.toNat + P.toNat → s.map.view a = some .free

section Inv

variable {srt} {P : UInt64} {s s' : State} {st : List UInt64} {f : UInt64}

/-- Zeroing the page of a frame popped off the freelist leaves the rest of
the list alone: the other frames are aligned and distinct from it. -/
theorem refines_writeBytesZero {alloc : PageFrameAllocator} {mem : UInt64 → UInt64}
    (hr : Refines P ⟨alloc, mem⟩ st) (hfa : f.toNat % P.toNat = 0) (hf : f ∉ st) :
    Refines P ⟨alloc, Bootloader.writeBytesZero mem f P⟩ st := by
  refine ⟨hr.pageSize, hr.heapList.congr (fun x hx => ?_), hr.numFree, hr.aligned⟩
  show (if f.toNat ≤ x.toNat ∧ x.toNat < f.toNat + P.toNat then 0 else mem x) = mem x
  rw [if_neg]
  rintro ⟨hlo, hhi⟩
  have hxf := Layout.eq_of_aligned_of_mem_page (hr.aligned x hx) hfa hlo hhi
  exact hf (UInt64.toNat_inj.1 hxf ▸ hx)

/-- A call that returns `Ok` pops the top frame `f` and paints its page
`BLReserved` in the view of the map, keeping the invariant. -/
theorem Inv.allocateFrame (hP : 0 < P.toNat) (hinv : Inv P s st)
    (h : allocateFrame srt P s = some (.ok f, s')) :
    ∃ st', st = f :: st' ∧ Inv P s' st' ∧
      s'.map.view = Layout.paint s.map.view f.toNat (f.toNat + P.toNat) .blReserved ∧
      f.toNat + P.toNat < 2 ^ 64 ∧ s'.alloc.numFree + 1 = s.alloc.numFree := by
  obtain ⟨alloc, endAddr, halloc, hend, hadd, halloc', hmem'⟩ := allocateFrame_eq_ok h
  have hr := hinv.refines
  have hstep : Step ⟨s.alloc, s.mem⟩ (.allocFrame (.ok f)) ⟨alloc, s.mem⟩ := Step.allocFrame halloc
  obtain ⟨st', rfl⟩ := List.head?_eq_some_iff.1 (hr.head_of_allocFrame hstep)
  have hnd := hr.heapList.nodup
  rw [List.nodup_cons] at hnd
  have hfa : f.toNat % P.toNat = 0 := hr.aligned f List.mem_cons_self
  have hr' : Refines P ⟨s'.alloc, s'.mem⟩ st' := by
    rw [halloc', hmem']
    exact refines_writeBytesZero (hr.allocFrame halloc) hfa hnd.1
  -- the recorded entry is the frame's page, and that page is free memory
  rw [Checked.add_eq_some] at hend
  obtain ⟨hlt, rfl⟩ := hend
  have he : (⟨f.toNat, ⟨P.toNat⟩, f.toNat + P.toNat, .blReserved⟩ : MemoryMapEntry).WellFormed :=
    ⟨Nat.le_add_right _ _, by simp⟩
  have hcarve : CarvesFree s.map ⟨f.toNat, ⟨P.toNat⟩, f.toNat + P.toNat, .blReserved⟩ := by
    intro x hx hxb hxe
    have hfree := hinv.free f List.mem_cons_self f.toNat le_rfl (by omega)
    rw [view_eq_some_iff hinv.map] at hfree
    have hxe' : f.toNat + P.toNat < x.endAddr := hxe
    have hx' : s.map.TypeAt f.toNat x.entryType := ⟨x, hx, ⟨Nat.le_of_lt hxb, by omega⟩, rfl⟩
    exact typeAt_unique hinv.map hx' hfree
  have hview := view_addEntry srt hinv.map he hcarve hadd
  refine ⟨st', rfl, ⟨hr', addEntry_inv srt hinv.map he hadd, ?_, ?_⟩, hview, hlt, ?_⟩
  · have hle := addEntry_endAddr_le srt hinv.map he hadd (N := 2 ^ 64 - 1)
      (fun x hx => by have := hinv.bound x hx; omega) (by simp only; omega)
    intro x hx
    have := hle x hx
    omega
  · intro g hg a hlo hhi
    rw [hview, Layout.paint_of_not_mem]
    · exact hinv.free g (List.mem_cons_of_mem _ hg) a hlo hhi
    · rintro ⟨hflo, hfhi⟩
      have hgf := Layout.eq_of_pages_meet (hr'.aligned g hg) hfa ⟨hlo, hhi⟩ ⟨hflo, hfhi⟩
      exact hnd.1 (UInt64.toNat_inj.1 hgf ▸ hg)
  · rw [hr'.numFree, hr.numFree, List.length_cons]

/-- Over `n` calls that return `Ok`, `BLReserved` memory grows by `n` pages
and free memory shrinks by as many; the freelist loses `n` frames. -/
theorem Inv.trace (hP : 0 < P.toNat) {frames : List UInt64} (hinv : Inv P s st)
    (h : Transition.Trace (AllocStep srt P) s frames s') :
    ∃ st', Inv P s' st' ∧
      typeSize .blReserved s'.map.entries =
        typeSize .blReserved s.map.entries + frames.length * P.toNat ∧
      typeSize .free s'.map.entries + frames.length * P.toNat = typeSize .free s.map.entries ∧
      s'.alloc.numFree + frames.length = s.alloc.numFree := by
  induction h with
  | nil => exact ⟨st, hinv, by simp, by simp, by simp⟩
  | @snoc t u frames f _ hstep ih =>
      obtain ⟨st₁, hinv₁, hbl, hfree, hnum⟩ := ih
      obtain ⟨st₂, rfl, hinv₂, hview, hlt, hnum₂⟩ := hinv₁.allocateFrame hP hstep
      obtain ⟨hbl₂, hfree₂⟩ := typeSize_paint_free hinv₁.map hinv₂.map (N := 2 ^ 64 - 1)
        (by decide) (fun x hx => by have := hinv₁.bound x hx; omega)
        (fun x hx => by have := hinv₂.bound x hx; omega) (by omega) hview
        (hinv₁.free f List.mem_cons_self)
      rw [Nat.add_sub_cancel_left] at hbl₂ hfree₂
      rw [List.length_append, List.length_singleton, Nat.add_mul, Nat.one_mul]
      exact ⟨st₂, hinv₂, by omega, by omega, by omega⟩

/-- Below `2 ^ 64` the checked sum of the `BLReserved` sizes does not
overflow. -/
theorem blReservedCount_eq (hinv : Inv P s st) :
    blReservedCount s.map = some (typeSize .blReserved s.map.entries) := by
  have hle := typeSize_le (t := .blReserved) hinv.map (N := 2 ^ 64 - 1)
    (fun x hx => by have := hinv.bound x hx; omega)
  have hsum := Checked.foldlM_add_of_lt (w := 64) (fun entry : MemoryMapEntry => entry.size.bytes)
    (s.map.entries.filter (·.entryType = .blReserved)) 0 (by simp only [typeSize] at hle; omega)
  rw [Nat.zero_add] at hsum
  exact hsum

end Inv

/-! ## Seeding, and the assertion -/

/-- Seeding from page-aligned `Free` entries does not panic and establishes
the invariant: every accepted address starts a page inside a `Free` entry. -/
theorem inv_of_seed {P : UInt64} (hP : 0 < P.toNat) {m : MemoryMap} (hm : m.Inv)
    (hbound : ∀ x ∈ m.entries, x.endAddr < 2 ^ 64)
    (haligned : ∀ x ∈ m.entries, x.entryType = .free →
      x.baseAddr % P.toNat = 0 ∧ x.endAddr % P.toNat = 0)
    (mem₀ : UInt64 → UInt64) :
    ∃ s₀, seedFrameAllocator bootloaderSeeded P.toNat m.entries
        ⟨PageFrameAllocator.new P, mem₀⟩ = some s₀ ∧
      ∃ st, Inv P ⟨s₀.alloc, s₀.mem, m⟩ st := by
  obtain ⟨addrs, haddrs⟩ : ∃ addrs, seedAddrs bootloaderSeeded P.toNat m.entries = some addrs :=
    seedAddrs_isSome hP m.entries
  have hlt : ∀ a ∈ addrs, a < 2 ^ 64 := by
    intro a ha
    obtain ⟨x, hx, -, -, hax, -⟩ := (mem_seedAddrs haddrs).1 ha
    have := hbound x hx
    omega
  obtain ⟨s₀, st, hdeal, hr, hmem⟩ := deallocateAll_refines (Nat.pos_iff_ne_zero.1 hP)
    (refines_new P mem₀) (seedAddrs_nodup hm.apart haddrs) hlt (by simp)
  have hseed : seedFrameAllocator bootloaderSeeded P.toNat m.entries
      ⟨PageFrameAllocator.new P, mem₀⟩ = some s₀ := by
    rw [seedFrameAllocator_eq, haddrs, Option.bind_some]
    exact hdeal
  refine ⟨s₀, hseed, st, hr, hm, hbound, ?_⟩
  intro f hf a hlo hhi
  have hfa : f.toNat ∈ addrs := by
    rcases (hmem f).1 hf with hnil | ⟨hfa, -, -⟩
    · cases hnil
    · exact hfa
  obtain ⟨x, hx, hfree, hxlo, hxhi, -⟩ := frame_within_of_aligned haddrs
    (fun x hx hs => haligned x hx (bootloaderSeeded_iff.1 hs)) hfa
  rw [view_eq_some_iff hm]
  exact ⟨x, hx, ⟨by omega, by omega⟩, bootloaderSeeded_iff.1 hfree⟩

/-- Seeding the bootloader's allocator from a reachable map whose `Free`
entries are page-aligned does not panic.  After any number `n` of
`allocate_frame` calls that return `Ok`, the sizes of the `BLReserved`
entries have grown by `n` pages and `get_free_mem` has dropped by as much;
when the map held no `BLReserved` entry at seeding, `bl_reserved_count` is
`n` pages and the sanity check of `main` holds. -/
theorem bootloader_allocation_accounting {P : UInt64} (hP : 0 < P) {m : MemoryMap}
    (hm : MemoryMap.Reachable srt m) (hbound : ∀ x ∈ m.entries, x.endAddr < 2 ^ 64)
    (haligned : ∀ x ∈ m.entries, x.entryType = .free →
      x.baseAddr % P.toNat = 0 ∧ x.endAddr % P.toNat = 0)
    (mem₀ : UInt64 → UInt64) :
    ∃ s₀, seedFrameAllocator bootloaderSeeded P.toNat m.entries
        ⟨PageFrameAllocator.new P, mem₀⟩ = some s₀ ∧
      ∀ frames s, Transition.Trace (AllocStep srt P) ⟨s₀.alloc, s₀.mem, m⟩ frames s →
        typeSize .blReserved s.map.entries =
          typeSize .blReserved m.entries + frames.length * P.toNat ∧
        s.map.getFreeMem.bytes + frames.length * P.toNat = m.getFreeMem.bytes ∧
        ((∀ x ∈ m.entries, x.entryType ≠ .blReserved) →
          blReservedCount s.map = some (frames.length * P.toNat) ∧
          allocationSanityCheck P.toNat s₀.alloc.numFreeFrames s = some true) := by
  have hP' : 0 < P.toNat := by
    have := UInt64.lt_iff_toNat_lt.1 hP
    rw [UInt64.toNat_zero] at this
    exact this
  obtain ⟨s₀, hseed, st, hinv₀⟩ := inv_of_seed hP' hm.inv hbound haligned mem₀
  refine ⟨s₀, hseed, ?_⟩
  intro frames s htrace
  obtain ⟨st', hinv, hbl, hfree, hnum⟩ := hinv₀.trace hP' htrace
  refine ⟨hbl, ?_, ?_⟩
  · rw [getFreeMem_eq, getFreeMem_eq]
    exact hfree
  · intro hnone
    -- no `BLReserved` memory at seeding, so the count is the pages handed out
    have hzero : typeSize .blReserved m.entries = 0 := by
      have hnil : m.entries.filter (·.entryType = .blReserved) = [] :=
        List.filter_eq_nil_iff.2 (fun x hx => by simpa using hnone x hx)
      simp only [typeSize, hnil, List.map_nil, List.sum_nil]
    rw [hzero, Nat.zero_add] at hbl
    have hcount : blReservedCount s.map = some (frames.length * P.toNat) := by
      rw [← hbl]
      exact blReservedCount_eq hinv
    have hpages : Checked.div (frames.length * P.toNat) P.toNat = some frames.length := by
      rw [Checked.div_of_ne_zero (by omega), Nat.mul_div_cancel _ hP']
    have hfinal : Checked.sub s₀.alloc.numFreeFrames s.alloc.numFreeFrames =
        some frames.length := by
      have hnum' : s.alloc.numFree + frames.length = s₀.alloc.numFree := hnum
      unfold numFreeFrames
      rw [Checked.sub_eq_some]
      exact ⟨by omega, by omega⟩
    refine ⟨hcount, ?_⟩
    simp only [allocationSanityCheck, hcount, hpages, hfinal, Option.pure_def,
      Option.bind_eq_bind, Option.bind_some, beq_self_eq_true]

theorem bootloader_allocation_accounting_one_free_range :
    (0 : UInt64) < 0x1000 ∧
    MemoryMap.Reachable (ArrayVec.UnstableSort.insertionSort _)
      ⟨[⟨0x1000, ⟨0x2000⟩, 0x3000, .free⟩], 0⟩ ∧
    (∀ x ∈ (⟨[⟨0x1000, ⟨0x2000⟩, 0x3000, .free⟩], 0⟩ : MemoryMap).entries, x.endAddr < 2 ^ 64) ∧
    (∀ x ∈ (⟨[⟨0x1000, ⟨0x2000⟩, 0x3000, .free⟩], 0⟩ : MemoryMap).entries,
      x.entryType = .free →
        x.baseAddr % (0x1000 : UInt64).toNat = 0 ∧ x.endAddr % (0x1000 : UInt64).toNat = 0) ∧
    ∃ s₀, seedFrameAllocator bootloaderSeeded (0x1000 : UInt64).toNat
        (⟨[⟨0x1000, ⟨0x2000⟩, 0x3000, .free⟩], 0⟩ : MemoryMap).entries
        ⟨PageFrameAllocator.new 0x1000, fun _ => 0⟩ = some s₀ ∧
      ∀ frames s, Transition.Trace (AllocStep (ArrayVec.UnstableSort.insertionSort _) 0x1000)
          ⟨s₀.alloc, s₀.mem, ⟨[⟨0x1000, ⟨0x2000⟩, 0x3000, .free⟩], 0⟩⟩ frames s →
        typeSize .blReserved s.map.entries =
          typeSize .blReserved [⟨0x1000, ⟨0x2000⟩, 0x3000, .free⟩] +
            frames.length * (0x1000 : UInt64).toNat ∧
        s.map.getFreeMem.bytes + frames.length * (0x1000 : UInt64).toNat =
          (⟨[⟨0x1000, ⟨0x2000⟩, 0x3000, .free⟩], 0⟩ : MemoryMap).getFreeMem.bytes ∧
        ((∀ x ∈ (⟨[⟨0x1000, ⟨0x2000⟩, 0x3000, .free⟩], 0⟩ : MemoryMap).entries,
            x.entryType ≠ .blReserved) →
          blReservedCount s.map = some (frames.length * (0x1000 : UInt64).toNat) ∧
          allocationSanityCheck (0x1000 : UInt64).toNat s₀.alloc.numFreeFrames s = some true) := by
  have hreach : MemoryMap.Reachable (ArrayVec.UnstableSort.insertionSort _)
      ⟨[⟨0x1000, ⟨0x2000⟩, 0x3000, .free⟩], 0⟩ :=
    Reachable.new.addEntry (e := ⟨0x1000, ⟨0x2000⟩, 0x3000, .free⟩) (r := .ok ()) ⟨by decide, rfl⟩ rfl
  have hbound : ∀ x ∈ (⟨[⟨0x1000, ⟨0x2000⟩, 0x3000, .free⟩], 0⟩ : MemoryMap).entries,
      x.endAddr < 2 ^ 64 := by decide
  have haligned : ∀ x ∈ (⟨[⟨0x1000, ⟨0x2000⟩, 0x3000, .free⟩], 0⟩ : MemoryMap).entries,
      x.entryType = .free →
        x.baseAddr % (0x1000 : UInt64).toNat = 0 ∧ x.endAddr % (0x1000 : UInt64).toNat = 0 := by
    decide
  exact ⟨by decide, hreach, hbound, haligned,
    bootloader_allocation_accounting _ (by decide) hreach hbound haligned _⟩

/-- A map that holds a `BLReserved` page before seeding, and no call at all:
`bl_reserved_count` is a page where no frame was handed out, and the
assertion of `main` fails. -/
theorem allocation_sanity_check_counts_earlier_blReserved :
    ∃ m s₀, MemoryMap.Reachable (ArrayVec.UnstableSort.insertionSort _) m ∧
      (∀ x ∈ m.entries, x.endAddr < 2 ^ 64) ∧
      (∀ x ∈ m.entries, x.entryType = .free → x.baseAddr % 0x1000 = 0 ∧ x.endAddr % 0x1000 = 0) ∧
      seedFrameAllocator bootloaderSeeded 0x1000 m.entries
        ⟨PageFrameAllocator.new 0x1000, fun _ => 0⟩ = some s₀ ∧
      Transition.Trace (AllocStep (ArrayVec.UnstableSort.insertionSort _) 0x1000)
        ⟨s₀.alloc, s₀.mem, m⟩ [] ⟨s₀.alloc, s₀.mem, m⟩ ∧
      blReservedCount m = some 0x1000 ∧
      allocationSanityCheck 0x1000 s₀.alloc.numFreeFrames ⟨s₀.alloc, s₀.mem, m⟩ = some false := by
  refine ⟨⟨[⟨0, ⟨0x1000⟩, 0x1000, .blReserved⟩], 0⟩, ⟨PageFrameAllocator.new 0x1000, fun _ => 0⟩,
    ?_, by decide, by decide, rfl, .nil _, rfl, rfl⟩
  exact Reachable.new.addEntry (e := ⟨0, ⟨0x1000⟩, 0x1000, .blReserved⟩) (r := .ok ())
    ⟨by decide, rfl⟩ rfl

end Bootloader

end LanternOS
