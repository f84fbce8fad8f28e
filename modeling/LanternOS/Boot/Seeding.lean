/-
# `LanternOS.Boot.Seeding` — filling a frame allocator from the memory map

Both stages of the boot hand physical memory to a `PageFrameAllocator` the
same way: walk the entries of the memory map and, for each entry of a type
they seed from, pass every `page_size`-th address of
`base_addr..end_addr` to `FrameAlloc::deallocate_frame`, ignoring the
result.  The bootloader's `main` seeds from `Free` entries, the kernel's
`kernel_early_init` from `Free` and `Bootloader` ones.  `seedFrameAllocator`
is that loop, with the seeded types as a parameter.

## What the loop hands over

`seedAddrs` lists the addresses the loop passes, in order
(`seedFrameAllocator_eq`).  The entries of a map are disjoint, so no address
is passed twice (`seedAddrs_nodup`) and the precondition of `free_frame`
holds all along the loop.  Each address lies in its entry, but the frame it
starts lies in the entry only when the entry's end is a multiple of the page
size (`frame_within_of_aligned`).  An entry that ends mid-page gives away its
last frame partly out of the entry after it
(`seeding_frame_crosses_entry_end`).

## The allocator after seeding

From a state storing a stack, handing over distinct addresses that are not
on it leaves a state storing the stack with the accepted addresses, the
non-null aligned ones, added (`deallocateAll_refines`).
-/
import LanternOS.Memory.MemoryMapView
import LanternOS.Memory.PageFrameAllocator

namespace LanternOS

open MemoryMap MemoryMapEntry PageFrameAllocator

/-- `FrameAlloc::deallocate_frame`, the same in the bootloader and the
kernel: `let _ = self.0.free_frame(frame as *mut u64)`. -/
def deallocateFrame (s : PageFrameAllocator.State) (frame : UInt64) :
    Option PageFrameAllocator.State := do
  let (_, alloc, mem) ← s.alloc.freeFrame s.mem frame
  pure ⟨alloc, mem⟩

/-- The inner loop: hand every address of a list to `deallocate_frame`. -/
def deallocateAll (s : PageFrameAllocator.State) (addrs : List Nat) :
    Option PageFrameAllocator.State :=
  addrs.foldlM (fun s addr => deallocateFrame s (UInt64.ofNat addr)) s

/-- The entry types the bootloader's `main` seeds its allocator from. -/
def bootloaderSeeded : EntryType → Bool
  | .free => true
  | _ => false

@[simp] theorem bootloaderSeeded_iff {t : EntryType} : bootloaderSeeded t = true ↔ t = .free := by
  cases t <;> simp [bootloaderSeeded]

/-- The entry types `kernel_early_init` seeds its allocator from: the
bootloader's memory is no longer needed. -/
def kernelSeeded : EntryType → Bool
  | .bootloader | .free => true
  | _ => false

/-- The seeding loop: for each entry of a seeded type, every
`page_size`-th address from its base below its end goes to
`deallocate_frame`.  `step_by` panics on a zero page size. -/
def seedFrameAllocator (seeded : EntryType → Bool) (pageSize : Nat)
    (entries : List MemoryMapEntry) (s : PageFrameAllocator.State) :
    Option PageFrameAllocator.State :=
  entries.foldlM (fun s entry =>
    if seeded entry.entryType then do
      let addrs ← Checked.stepBy entry.baseAddr entry.endAddr pageSize
      deallocateAll s addrs
    else pure s) s

/-! ## The addresses handed over -/

/-- The addresses the seeding loop passes to `deallocate_frame` for one
entry. -/
def entryAddrs (seeded : EntryType → Bool) (pageSize : Nat) (entry : MemoryMapEntry) :
    Option (List Nat) :=
  if seeded entry.entryType then Checked.stepBy entry.baseAddr entry.endAddr pageSize else some []

/-- The addresses the seeding loop passes to `deallocate_frame`, in order. -/
def seedAddrs (seeded : EntryType → Bool) (pageSize : Nat) :
    List MemoryMapEntry → Option (List Nat)
  | [] => some []
  | entry :: entries => do
      let addrs ← entryAddrs seeded pageSize entry
      let rest ← seedAddrs seeded pageSize entries
      pure (addrs ++ rest)

section SeedAddrs

variable {seeded : EntryType → Bool} {pageSize : Nat}

theorem deallocateAll_append (s : PageFrameAllocator.State) (l l' : List Nat) :
    deallocateAll s (l ++ l') = (deallocateAll s l).bind (fun s' => deallocateAll s' l') :=
  List.foldlM_append

/-- The loop hands over the addresses of `seedAddrs`, in order. -/
theorem seedFrameAllocator_eq (seeded : EntryType → Bool) (pageSize : Nat) :
    ∀ (entries : List MemoryMapEntry) (s : PageFrameAllocator.State),
      seedFrameAllocator seeded pageSize entries s =
        (seedAddrs seeded pageSize entries).bind (deallocateAll s)
  | [], _ => rfl
  | entry :: entries, s => by
      show (if seeded entry.entryType then
          (Checked.stepBy entry.baseAddr entry.endAddr pageSize).bind (deallocateAll s)
        else some s).bind (fun s' => seedFrameAllocator seeded pageSize entries s') = _
      have hentry : (if seeded entry.entryType then
          (Checked.stepBy entry.baseAddr entry.endAddr pageSize).bind (deallocateAll s)
        else some s) = (entryAddrs seeded pageSize entry).bind (deallocateAll s) := by
        unfold entryAddrs
        split <;> rfl
      rw [hentry]
      simp only [seedFrameAllocator_eq seeded pageSize entries, seedAddrs, Option.pure_def,
        Option.bind_eq_bind]
      cases entryAddrs seeded pageSize entry with
      | none => rfl
      | some addrs =>
          cases seedAddrs seeded pageSize entries with
          | none => simp
          | some rest => simp [deallocateAll_append]

/-- The inversion lemma for one more entry. -/
theorem seedAddrs_cons_eq_some {entry : MemoryMapEntry} {entries : List MemoryMapEntry}
    {addrs : List Nat} (h : seedAddrs seeded pageSize (entry :: entries) = some addrs) :
    ∃ l rest, entryAddrs seeded pageSize entry = some l ∧
      seedAddrs seeded pageSize entries = some rest ∧ addrs = l ++ rest := by
  simp only [seedAddrs, Option.pure_def, Option.bind_eq_bind, Option.bind_eq_some_iff,
    Option.some.injEq] at h
  obtain ⟨l, hl, rest, hrest, rfl⟩ := h
  exact ⟨l, rest, hl, hrest, rfl⟩

/-- The addresses of one entry: its steps, if it is seeded. -/
theorem mem_entryAddrs {entry : MemoryMapEntry} {l : List Nat} {a : Nat}
    (hl : entryAddrs seeded pageSize entry = some l) :
    a ∈ l ↔ seeded entry.entryType = true ∧ entry.baseAddr ≤ a ∧ a < entry.endAddr ∧
      (a - entry.baseAddr) % pageSize = 0 := by
  unfold entryAddrs at hl
  by_cases hs : seeded entry.entryType = true
  · rw [if_pos hs] at hl
    rw [Checked.mem_stepBy hl]
    simp [hs]
  · rw [if_neg hs, Option.some.injEq] at hl
    subst hl
    simp [hs]

theorem entryAddrs_nodup {entry : MemoryMapEntry} {l : List Nat}
    (hl : entryAddrs seeded pageSize entry = some l) : l.Nodup := by
  unfold entryAddrs at hl
  split at hl
  · exact Checked.stepBy_nodup hl
  · rw [Option.some.injEq] at hl
    subst hl
    exact List.nodup_nil

/-- An address is handed over exactly when it is a step from the base of a
seeded entry, below its end. -/
theorem mem_seedAddrs {a : Nat} :
    ∀ {entries : List MemoryMapEntry} {addrs : List Nat},
      seedAddrs seeded pageSize entries = some addrs →
      (a ∈ addrs ↔ ∃ x ∈ entries, seeded x.entryType = true ∧ x.baseAddr ≤ a ∧
        a < x.endAddr ∧ (a - x.baseAddr) % pageSize = 0)
  | [], addrs, h => by
      rw [seedAddrs, Option.some.injEq] at h
      subst h
      simp
  | entry :: entries, addrs, h => by
      obtain ⟨l, rest, hl, hrest, rfl⟩ := seedAddrs_cons_eq_some h
      rw [List.mem_append, mem_entryAddrs hl, mem_seedAddrs hrest]
      simp only [List.mem_cons, or_and_right, exists_or, exists_eq_left]

/-- The loop panics only on a zero page size. -/
theorem seedAddrs_isSome (hP : 0 < pageSize) :
    ∀ entries : List MemoryMapEntry, ∃ addrs, seedAddrs seeded pageSize entries = some addrs
  | [] => ⟨[], rfl⟩
  | entry :: entries => by
      obtain ⟨rest, hrest⟩ := seedAddrs_isSome hP entries
      have hl : ∃ l, entryAddrs seeded pageSize entry = some l := by
        unfold entryAddrs
        split
        · exact ⟨_, Checked.stepBy_of_pos hP⟩
        · exact ⟨[], rfl⟩
      obtain ⟨l, hl⟩ := hl
      refine ⟨l ++ rest, ?_⟩
      simp only [seedAddrs, Option.pure_def, Option.bind_eq_bind]
      rw [hl, Option.bind_some, hrest, Option.bind_some]

/-- Entries that are apart hand over distinct addresses: no address is
passed to `free_frame` twice. -/
theorem seedAddrs_nodup :
    ∀ {entries : List MemoryMapEntry} {addrs : List Nat}, entries.Pairwise Apart →
      seedAddrs seeded pageSize entries = some addrs → addrs.Nodup
  | [], addrs, _, h => by
      rw [seedAddrs, Option.some.injEq] at h
      subst h
      exact List.nodup_nil
  | entry :: entries, addrs, hap, h => by
      obtain ⟨l, rest, hl, hrest, rfl⟩ := seedAddrs_cons_eq_some h
      rw [List.pairwise_cons] at hap
      refine List.nodup_append.2 ⟨entryAddrs_nodup hl, seedAddrs_nodup hap.2 hrest, ?_⟩
      intro a ha b hb hab
      subst hab
      obtain ⟨-, hlo, hhi, -⟩ := (mem_entryAddrs hl).1 ha
      obtain ⟨y, hy, -, hylo, hyhi, -⟩ := (mem_seedAddrs hrest).1 hb
      exact apart_iff_covers.1 (hap.1 y hy) a ⟨hlo, hhi⟩ ⟨hylo, hyhi⟩

/-- When the seeded entries are aligned to the page size, every address
handed over is aligned and its frame lies inside the entry it came from. -/
theorem frame_within_of_aligned {entries : List MemoryMapEntry} {addrs : List Nat}
    (h : seedAddrs seeded pageSize entries = some addrs)
    (haligned : ∀ x ∈ entries, seeded x.entryType = true →
      x.baseAddr % pageSize = 0 ∧ x.endAddr % pageSize = 0)
    {a : Nat} (ha : a ∈ addrs) :
    ∃ x ∈ entries, seeded x.entryType = true ∧ x.baseAddr ≤ a ∧ a + pageSize ≤ x.endAddr ∧
      a % pageSize = 0 := by
  obtain ⟨x, hx, hs, hlo, hhi, hstep⟩ := (mem_seedAddrs h).1 ha
  have hal := haligned x hx hs
  have ha_al : a % pageSize = 0 := Layout.aligned_of_step hal.1 hlo hstep
  exact ⟨x, hx, hs, hlo, Layout.add_le_of_aligned ha_al hal.2 hhi, ha_al⟩

end SeedAddrs

section SplitPage

variable (srt : ArrayVec.UnstableSort MemoryMapEntry MemoryMapEntry.baseAddr)

/-- Firmware at `[0x1800, 0x3000)` reserved out of free memory at
`[0, 0x3000)` leaves a `Free` entry that ends mid-page.  With 4 KiB pages the
bootloader's loop hands over `0x1000`, which `free_frame` accepts and puts on
top of the freelist: its frame `[0x1000, 0x2000)` lies in no `Free` entry,
and its upper half is firmware. -/
theorem seeding_frame_crosses_entry_end :
    ∃ m₁ m₂, new.addEntry srt ⟨0, ⟨0x3000⟩, 0x3000, .free⟩ = some (.ok (), m₁) ∧
      m₁.addEntry srt ⟨0x1800, ⟨0x1800⟩, 0x3000, .firmware⟩ = some (.ok (), m₂) ∧
      seedAddrs bootloaderSeeded 0x1000 m₂.entries = some [0, 0x1000] ∧
      (∃ s, seedFrameAllocator bootloaderSeeded 0x1000 m₂.entries
          ⟨PageFrameAllocator.new 0x1000, fun _ => 0⟩ = some s ∧
        s.alloc.freelist = 0x1000 ∧ s.alloc.numFree = 1) ∧
      m₂.TypeAt 0x1800 .firmware ∧
      ¬ ∃ x ∈ m₂.entries, bootloaderSeeded x.entryType = true ∧ x.baseAddr ≤ 0x1000 ∧
        0x1000 + 0x1000 ≤ x.endAddr := by
  -- both calls are evaluated: sorting lists with increasing bases changes nothing
  have hone : srt.sort [⟨0, ⟨0x3000⟩, 0x3000, .free⟩] = [⟨0, ⟨0x3000⟩, 0x3000, .free⟩] :=
    srt.sort_eq_self (List.pairwise_singleton _ _)
  have htwo : srt.sort [⟨0, ⟨0x1800⟩, 0x1800, .free⟩, ⟨0x1800, ⟨0x1800⟩, 0x3000, .firmware⟩] =
      [⟨0, ⟨0x1800⟩, 0x1800, .free⟩, ⟨0x1800, ⟨0x1800⟩, 0x3000, .firmware⟩] :=
    srt.sort_eq_self (by decide)
  have h₁ : new.addEntry srt ⟨0, ⟨0x3000⟩, 0x3000, .free⟩ =
      some (.ok (), ⟨[⟨0, ⟨0x3000⟩, 0x3000, .free⟩], 0⟩) := by
    rw [← hone]
    rfl
  have h₂ : MemoryMap.addEntry srt ⟨[⟨0, ⟨0x3000⟩, 0x3000, .free⟩], 0⟩
        ⟨0x1800, ⟨0x1800⟩, 0x3000, .firmware⟩ =
      some (.ok (), ⟨[⟨0, ⟨0x1800⟩, 0x1800, .free⟩, ⟨0x1800, ⟨0x1800⟩, 0x3000, .firmware⟩], 0⟩) := by
    rw [← htwo]
    rfl
  refine ⟨_, _, h₁, h₂, rfl, ⟨_, rfl, rfl, rfl⟩, ⟨_, List.mem_cons_of_mem _ List.mem_cons_self,
    by decide, rfl⟩, ?_⟩
  simp [bootloaderSeeded]

end SplitPage

/-! ## The allocator after seeding -/

section Refines

variable {ps : UInt64}

theorem mem_stackStep_freeFrame {st : List UInt64} {a x : UInt64} {r : Except Unit Unit} :
    x ∈ stackStep st (.freeFrame a r) ↔ x ∈ st ∨ (r = .ok () ∧ x = a) := by
  cases r with
  | error => simp [stackStep]
  | ok u =>
      rw [stackStep, List.mem_cons]
      simp [or_comm]

/-- Handing over distinct `u64` addresses that are not on the stack pushes
the accepted ones, the non-null aligned addresses, and nothing else; no call
panics. -/
theorem deallocateAll_refines (hps : ps.toNat ≠ 0) :
    ∀ {addrs : List Nat} {s : PageFrameAllocator.State} {st : List UInt64},
      Refines ps s st → addrs.Nodup → (∀ a ∈ addrs, a < 2 ^ 64) →
      (∀ a ∈ addrs, UInt64.ofNat a ∉ st) →
      ∃ s' st', deallocateAll s addrs = some s' ∧ Refines ps s' st' ∧
        ∀ x : UInt64, x ∈ st' ↔ x ∈ st ∨ (x.toNat ∈ addrs ∧ x ≠ 0 ∧ x.toNat % ps.toNat = 0)
  | [], s, st, hr, _, _, _ => ⟨s, st, rfl, hr, by simp⟩
  | a :: addrs, s, st, hr, hnd, hlt, hfresh => by
      rw [List.nodup_cons] at hnd
      have ha := hlt a List.mem_cons_self
      have hval : (UInt64.ofNat a).toNat = a := UInt64.toNat_ofNat_of_lt' ha
      obtain ⟨r, alloc, mem, hcall, hiff, -⟩ :=
        hr.freeFrame_spec hps (hfresh a List.mem_cons_self)
      have hr₁ := hr.freeFrame hps (hfresh a List.mem_cons_self) hcall
      have hfresh₁ : ∀ b ∈ addrs, UInt64.ofNat b ∉ stackStep st (.freeFrame (UInt64.ofNat a) r) := by
        intro b hb hmem
        rcases mem_stackStep_freeFrame.1 hmem with hst | ⟨-, hba⟩
        · exact hfresh b (List.mem_cons_of_mem _ hb) hst
        · have := congrArg UInt64.toNat hba
          rw [hval, UInt64.toNat_ofNat_of_lt' (hlt b (List.mem_cons_of_mem _ hb))] at this
          exact hnd.1 (this ▸ hb)
      obtain ⟨s', st', hrest, hr', hmem'⟩ :=
        deallocateAll_refines hps hr₁ hnd.2 (fun b hb => hlt b (List.mem_cons_of_mem _ hb)) hfresh₁
      refine ⟨s', st', ?_, hr', ?_⟩
      · show (deallocateFrame s (UInt64.ofNat a)).bind (fun s => deallocateAll s addrs) = some s'
        simp only [deallocateFrame, hcall, Option.pure_def, Option.bind_eq_bind, Option.bind_some]
        exact hrest
      · intro x
        rw [hmem', mem_stackStep_freeFrame, List.mem_cons]
        -- `free_frame` accepted `a` exactly when it is non-null and aligned
        have hok : r = .ok () ↔ UInt64.ofNat a ≠ 0 ∧ a % ps.toNat = 0 := by
          rw [hval] at hiff
          cases r with
          | ok u =>
              have hacc := hiff.not.1 (by simp)
              rw [not_or, not_not] at hacc
              exact iff_of_true rfl hacc
          | error u =>
              refine iff_of_false (by simp) ?_
              rw [not_and_or, not_not]
              exact hiff.1 rfl
        constructor
        · rintro ((hst | ⟨hr, rfl⟩) | ⟨hx, hx0, hxal⟩)
          · exact Or.inl hst
          · obtain ⟨h0, hal⟩ := hok.1 hr
            exact Or.inr ⟨Or.inl hval, h0, by rw [hval]; exact hal⟩
          · exact Or.inr ⟨Or.inr hx, hx0, hxal⟩
        · rintro (hst | ⟨hx | hx, hx0, hxal⟩)
          · exact Or.inl (Or.inl hst)
          · have hxa : x = UInt64.ofNat a := by
              apply UInt64.toNat_inj.1
              rw [hval, hx]
            subst hxa
            rw [hval] at hxal
            exact Or.inl (Or.inr ⟨hok.2 ⟨hx0, hxal⟩, rfl⟩)
          · exact Or.inr ⟨hx, hx0, hxal⟩

end Refines

end LanternOS
