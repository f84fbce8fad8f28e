/-
# `LanternOS.Memory.PageFrameAllocator` — the freelist of physical frames

`page_frame_allocator.rs` keeps the free frames of physical memory as a
singly linked list stored in the frames themselves: the first word of a free
frame holds the address of the next free frame, `freelist` holds the address
of the first, and `0` ends the list.  `free_frame` writes the old head into
the frame it is given and makes that frame the head; `alloc_frame` returns
the head and moves `freelist` to the word stored there.  A counter
`num_free` is kept beside the list.

## The model

Memory is what the allocator reads of it: a function from an address to the
pointer stored there, written by `free_frame` and by the rest of the system.
The allocator's fields are those of the source; the counter is a `Nat` whose
`+= 1` and `-= 1` are checked.  The system is a step relation (`Step`) on the
allocator and memory, labelled by what happened: a `free_frame` call and its
result, an `alloc_frame` call and its result, or a write by anything else.
The two obligations of the caller stated in the source's `# Safety` sections
are guards of the steps: a frame is not freed while it is on the freelist,
and nothing else writes to a frame while it is free.  A call that panics has
no step.

## The abstract stack

What the allocator is for is a stack of frames, the most recently freed on
top: `stackOf` computes it from the labels of a run.  `Refines` ties a state
to a stack: the freelist is that stack threaded through memory (`HeapList`),
its length is `num_free`, and its frames are aligned.  Every step keeps it
(`Refines.step`), so every run from `new` does (`Refines.trace`).  What each
call does from any state of a run, and that no frame is handed out twice
without being freed in between, follow from it.
-/
import LanternOS.Lib.Checked
import LanternOS.Lib.HeapList
import LanternOS.Lib.Transition

namespace LanternOS

/-- `PageFrameAllocator`: the head of the freelist (`0` is null), the number
of free frames, and the page size. -/
structure PageFrameAllocator where
  freelist : UInt64
  numFree : Nat
  pageSize : UInt64
  deriving DecidableEq, Repr

namespace PageFrameAllocator

/-- `PageFrameAllocator::new`: an empty freelist. -/
def new (pageSize : UInt64) : PageFrameAllocator :=
  { freelist := 0, numFree := 0, pageSize := pageSize }

/-- `num_free_frames`. -/
def numFreeFrames (self : PageFrameAllocator) : Nat := self.numFree

/-- `free_frame`: push `frameAddr` onto the freelist, writing the old head
into it.  Returns the memory with the allocator. -/
def freeFrame (self : PageFrameAllocator) (mem : UInt64 → UInt64) (frameAddr : UInt64) :
    Option (Except Unit Unit × PageFrameAllocator × (UInt64 → UInt64)) := do
  -- `|` does not short-circuit: the `%` is evaluated, and panics on a zero
  -- page size, for a null address too
  let misalignment ← Checked.rem frameAddr.toNat self.pageSize.toNat
  if frameAddr = 0 ∨ misalignment ≠ 0 then
    pure (.error (), self, mem)
  else do
    -- `ptr::write(frame_addr as *mut Node, new_node)`
    let mem := Function.update mem frameAddr self.freelist
    let numFree ← Checked.add 64 self.numFree 1
    pure (.ok (), { self with freelist := frameAddr, numFree := numFree }, mem)

/-- `alloc_frame`: pop the head of the freelist. -/
def allocFrame (self : PageFrameAllocator) (mem : UInt64 → UInt64) :
    Option (Except Unit UInt64 × PageFrameAllocator) :=
  if self.freelist = 0 then
    pure (.error (), self)
  else do
    let frame := self.freelist
    let nextNode := mem self.freelist
    let numFree ← Checked.sub self.numFree 1
    pure (.ok frame, { self with freelist := nextNode, numFree := numFree })

/-! ## What each call returns -/

section Spec

variable {self : PageFrameAllocator} {mem : UInt64 → UInt64} {a : UInt64}

theorem freeFrame_of_invalid (hps : self.pageSize.toNat ≠ 0)
    (ha : a = 0 ∨ a.toNat % self.pageSize.toNat ≠ 0) :
    self.freeFrame mem a = some (.error (), self, mem) := by
  simp only [freeFrame, Checked.rem_of_ne_zero hps, Option.bind_eq_bind, Option.bind_some]
  rw [if_pos ha]
  rfl

theorem freeFrame_of_valid (hps : self.pageSize.toNat ≠ 0) (ha : a ≠ 0)
    (hal : a.toNat % self.pageSize.toNat = 0) (hn : self.numFree + 1 < 2 ^ 64) :
    self.freeFrame mem a = some (.ok (), { self with freelist := a, numFree := self.numFree + 1 },
      Function.update mem a self.freelist) := by
  have hvalid : ¬ (a = 0 ∨ a.toNat % self.pageSize.toNat ≠ 0) := by
    rw [not_or, not_not]
    exact ⟨ha, hal⟩
  simp only [freeFrame, Checked.rem_of_ne_zero hps, Option.bind_eq_bind, Option.bind_some]
  rw [if_neg hvalid, Checked.add_of_lt hn]
  rfl

theorem allocFrame_of_null (h : self.freelist = 0) :
    self.allocFrame mem = some (.error (), self) := by
  simp [allocFrame, h]

theorem allocFrame_of_ne_null (h : self.freelist ≠ 0) (hn : 0 < self.numFree) :
    self.allocFrame mem = some (.ok self.freelist,
      { self with freelist := mem self.freelist, numFree := self.numFree - 1 }) := by
  simp [allocFrame, h, Checked.sub_of_le hn]

end Spec

/-! ## The system: calls, and writes by everything else -/

/-- The allocator and the memory its freelist is threaded through. -/
structure State where
  alloc : PageFrameAllocator
  mem : UInt64 → UInt64

/-- `a` is a frame on the freelist of `s`. -/
def State.OnFreelist (s : State) (a : UInt64) : Prop :=
  ∃ l, HeapList s.mem 0 s.alloc.freelist l ∧ a ∈ l

/-- What happened in a step: a call and its result, or a write to memory by
anything other than the allocator. -/
inductive Event where
  | freeFrame (frameAddr : UInt64) (result : Except Unit Unit)
  | allocFrame (result : Except Unit UInt64)
  | write (addr value : UInt64)

/-- The steps of the system.  The guards are the caller's obligations: no
frame is freed while on the freelist, and no one else writes a free frame. -/
inductive Step : State → Event → State → Prop
  | freeFrame {s : State} {a : UInt64} {r : Except Unit Unit} {alloc : PageFrameAllocator}
      {mem : UInt64 → UInt64} :
      ¬ s.OnFreelist a → s.alloc.freeFrame s.mem a = some (r, alloc, mem) →
      Step s (.freeFrame a r) ⟨alloc, mem⟩
  | allocFrame {s : State} {r : Except Unit UInt64} {alloc : PageFrameAllocator} :
      s.alloc.allocFrame s.mem = some (r, alloc) → Step s (.allocFrame r) ⟨alloc, s.mem⟩
  | write {s : State} {a v : UInt64} :
      ¬ s.OnFreelist a → Step s (.write a v) ⟨s.alloc, Function.update s.mem a v⟩

/-! ## The abstract stack -/

/-- What a step does to the stack of free frames: a successful `free_frame`
pushes its frame, a successful `alloc_frame` pops, nothing else touches it. -/
def stackStep (st : List UInt64) : Event → List UInt64
  | .freeFrame a (.ok ()) => a :: st
  | .allocFrame (.ok _) => st.tail
  | _ => st

/-- The frames freed and not yet reallocated over a run, the most recently
freed first. -/
def stackOf (evs : List Event) : List UInt64 :=
  evs.foldl stackStep []

theorem stackOf_append (evs₁ evs₂ : List Event) :
    stackOf (evs₁ ++ evs₂) = evs₂.foldl stackStep (stackOf evs₁) :=
  List.foldl_append

/-- A step that frees no `x` does not put `x` on the stack. -/
theorem not_mem_stackStep {x : UInt64} {st : List UInt64} {ev : Event} (hx : x ∉ st)
    (hev : ev ≠ .freeFrame x (.ok ())) : x ∉ stackStep st ev := by
  cases ev with
  | freeFrame a r =>
      cases r with
      | error => exact hx
      | ok u =>
          have hax : a ≠ x := fun hax => hev (by rw [hax])
          rw [stackStep, List.mem_cons, not_or]
          exact ⟨Ne.symm hax, hx⟩
  | allocFrame r =>
      cases r with
      | error => exact hx
      | ok _ => exact fun h => hx (List.mem_of_mem_tail h)
  | write => exact hx

theorem not_mem_foldl_stackStep {x : UInt64} :
    ∀ {evs : List Event} {st : List UInt64}, x ∉ st → Event.freeFrame x (.ok ()) ∉ evs →
      x ∉ evs.foldl stackStep st
  | [], _, hx, _ => hx
  | ev :: evs, _, hx, hev => by
      rw [List.mem_cons, not_or] at hev
      rw [List.foldl_cons]
      exact not_mem_foldl_stackStep (not_mem_stackStep hx (Ne.symm hev.1)) hev.2

/-! ## The refinement -/

/-- The state `s` stores the stack `st`: its freelist is `st` threaded
through memory, `num_free` counts it, and its frames are aligned to `ps`. -/
structure Refines (ps : UInt64) (s : State) (st : List UInt64) : Prop where
  pageSize : s.alloc.pageSize = ps
  heapList : HeapList s.mem 0 s.alloc.freelist st
  numFree : s.alloc.numFree = st.length
  aligned : ∀ x ∈ st, x.toNat % ps.toNat = 0

section Refines

variable {ps : UInt64} {s : State} {st : List UInt64}

theorem refines_new (ps : UInt64) (mem : UInt64 → UInt64) : Refines ps ⟨new ps, mem⟩ [] :=
  ⟨rfl, .nil, rfl, by simp⟩

theorem Refines.not_mem {a : UInt64} (hr : Refines ps s st) (hnot : ¬ s.OnFreelist a) : a ∉ st :=
  fun ha => hnot ⟨st, hr.heapList, ha⟩

/-- The counter does not overflow on a push: the freelist and the pushed
frame are distinct non-null `u64`s, fewer than `2 ^ 64`. -/
theorem Refines.numFree_succ_lt {a : UInt64} (hr : Refines ps s st) (ha : a ≠ 0) (hfresh : a ∉ st) :
    s.alloc.numFree + 1 < 2 ^ 64 := by
  have hlen := (hr.heapList.push ha hfresh).length_lt_card
  rw [← FinEnum.card_eq_fintypeCard, FinEnum.card_UInt64, List.length_cons] at hlen
  rw [hr.numFree]
  exact hlen

theorem Refines.freeFrame {a : UInt64} {r : Except Unit Unit} {alloc : PageFrameAllocator}
    {mem : UInt64 → UInt64} (hps : ps.toNat ≠ 0) (hr : Refines ps s st) (hfresh : a ∉ st)
    (h : s.alloc.freeFrame s.mem a = some (r, alloc, mem)) :
    Refines ps ⟨alloc, mem⟩ (stackStep st (.freeFrame a r)) := by
  have hps' : s.alloc.pageSize.toNat ≠ 0 := by
    rw [hr.pageSize]
    exact hps
  by_cases hbad : a = 0 ∨ a.toNat % ps.toNat ≠ 0
  · rw [← hr.pageSize] at hbad
    rw [freeFrame_of_invalid hps' hbad, Option.some.injEq, Prod.mk.injEq, Prod.mk.injEq] at h
    obtain ⟨rfl, rfl, rfl⟩ := h
    exact hr
  · rw [not_or, not_not] at hbad
    obtain ⟨ha, hal⟩ := hbad
    have hal' : a.toNat % s.alloc.pageSize.toNat = 0 := by
      rw [hr.pageSize]
      exact hal
    rw [freeFrame_of_valid hps' ha hal' (hr.numFree_succ_lt ha hfresh), Option.some.injEq,
      Prod.mk.injEq, Prod.mk.injEq] at h
    obtain ⟨rfl, rfl, rfl⟩ := h
    refine ⟨hr.pageSize, hr.heapList.push ha hfresh, ?_, ?_⟩
    · show s.alloc.numFree + 1 = (a :: st).length
      rw [hr.numFree, List.length_cons]
    · intro x hx
      rcases List.mem_cons.1 hx with rfl | hx
      · exact hal
      · exact hr.aligned x hx

theorem Refines.allocFrame {r : Except Unit UInt64} {alloc : PageFrameAllocator}
    (hr : Refines ps s st) (h : s.alloc.allocFrame s.mem = some (r, alloc)) :
    Refines ps ⟨alloc, s.mem⟩ (stackStep st (.allocFrame r)) := by
  cases st with
  | nil =>
      have hnull := hr.heapList.eq_nil_iff.1 rfl
      rw [allocFrame_of_null hnull, Option.some.injEq, Prod.mk.injEq] at h
      obtain ⟨rfl, rfl⟩ := h
      exact hr
  | cons x xs =>
      obtain ⟨rfl, hne, htail⟩ := hr.heapList.cons_inv
      have hn : 0 < s.alloc.numFree := by
        rw [hr.numFree, List.length_cons]
        exact Nat.succ_pos _
      rw [allocFrame_of_ne_null hne hn, Option.some.injEq, Prod.mk.injEq] at h
      obtain ⟨rfl, rfl⟩ := h
      refine ⟨hr.pageSize, htail, ?_, fun y hy => hr.aligned y (List.mem_cons_of_mem _ hy)⟩
      show s.alloc.numFree - 1 = xs.length
      rw [hr.numFree, List.length_cons, Nat.add_sub_cancel]

theorem Refines.write {a v : UInt64} (hr : Refines ps s st) (ha : a ∉ st) :
    Refines ps ⟨s.alloc, Function.update s.mem a v⟩ (stackStep st (.write a v)) :=
  ⟨hr.pageSize, hr.heapList.update_of_not_mem ha, hr.numFree, hr.aligned⟩

/-- Every step keeps the refinement, the stack doing what the step's label
says. -/
theorem Refines.step {ev : Event} {s' : State} (hps : ps.toNat ≠ 0) (hr : Refines ps s st)
    (h : Step s ev s') : Refines ps s' (stackStep st ev) := by
  cases h with
  | freeFrame hnot hcall => exact hr.freeFrame hps (hr.not_mem hnot) hcall
  | allocFrame hcall => exact hr.allocFrame hcall
  | write hnot => exact hr.write (hr.not_mem hnot)

/-- Every run from `new` stores the stack of its labels. -/
theorem Refines.trace {mem₀ : UInt64 → UInt64} {evs : List Event} (hps : ps.toNat ≠ 0)
    (h : Transition.Trace Step ⟨new ps, mem₀⟩ evs s) : Refines ps s (stackOf evs) := by
  induction h with
  | nil => exact refines_new ps mem₀
  | snoc _ hstep ih =>
      rw [stackOf_append]
      exact ih.step hps hstep

/-- `free_frame` of a frame off the freelist does not panic; it fails exactly
on a null or misaligned address, and then changes nothing. -/
theorem Refines.freeFrame_spec {a : UInt64} (hps : ps.toNat ≠ 0) (hr : Refines ps s st)
    (hfresh : a ∉ st) :
    ∃ r alloc mem, s.alloc.freeFrame s.mem a = some (r, alloc, mem) ∧
      (r = .error () ↔ a = 0 ∨ a.toNat % ps.toNat ≠ 0) ∧
      (r = .error () → alloc = s.alloc ∧ mem = s.mem) := by
  have hps' : s.alloc.pageSize.toNat ≠ 0 := by
    rw [hr.pageSize]
    exact hps
  by_cases hbad : a = 0 ∨ a.toNat % ps.toNat ≠ 0
  · have hbad' := hbad
    rw [← hr.pageSize] at hbad'
    exact ⟨_, _, _, freeFrame_of_invalid hps' hbad', iff_of_true rfl hbad, fun _ => ⟨rfl, rfl⟩⟩
  · have hvalid := hbad
    rw [not_or, not_not] at hvalid
    have hal' : a.toNat % s.alloc.pageSize.toNat = 0 := by
      rw [hr.pageSize]
      exact hvalid.2
    refine ⟨_, _, _, freeFrame_of_valid hps' hvalid.1 hal' (hr.numFree_succ_lt hvalid.1 hfresh),
      iff_of_false (by simp) hbad, ?_⟩
    intro h
    cases h

/-- `alloc_frame` does not panic; it fails exactly when `num_free` is zero,
and then changes nothing; otherwise it returns the top of the stack. -/
theorem Refines.allocFrame_spec (hr : Refines ps s st) :
    ∃ r alloc, s.alloc.allocFrame s.mem = some (r, alloc) ∧
      (r = .error () ↔ s.alloc.numFree = 0) ∧ (r = .error () → alloc = s.alloc) ∧
      ∀ x, r = .ok x → st.head? = some x := by
  cases st with
  | nil =>
      have hnull := hr.heapList.eq_nil_iff.1 rfl
      refine ⟨_, _, allocFrame_of_null hnull, iff_of_true rfl hr.numFree, fun _ => rfl, ?_⟩
      intro x hx
      cases hx
  | cons y ys =>
      obtain ⟨rfl, hne, -⟩ := hr.heapList.cons_inv
      have hn : 0 < s.alloc.numFree := by
        rw [hr.numFree, List.length_cons]
        exact Nat.succ_pos _
      refine ⟨_, _, allocFrame_of_ne_null hne hn, iff_of_false (by simp) (by omega), ?_, ?_⟩
      · intro h
        cases h
      · intro x hx
        cases hx
        rfl

/-- A frame that `alloc_frame` returns is the top of the stack. -/
theorem Refines.head_of_allocFrame {x : UInt64} {s' : State} (hr : Refines ps s st)
    (h : Step s (.allocFrame (.ok x)) s') : st.head? = some x := by
  cases h with
  | allocFrame hcall =>
      obtain ⟨r, alloc, hcall', -, -, hhead⟩ := hr.allocFrame_spec
      rw [hcall', Option.some.injEq, Prod.mk.injEq] at hcall
      exact hhead x hcall.1

end Refines

/-- Between two allocations of one frame in a run from `new`, that frame was
freed: it left the stack at the first, and only a free puts it back. -/
theorem freeFrame_between_allocFrames {ps : UInt64} {mem₀ : UInt64 → UInt64} {s : State}
    {evs₁ evs₂ evs₃ : List Event} {x : UInt64} (hps : ps.toNat ≠ 0)
    (h : Transition.Trace Step ⟨new ps, mem₀⟩
      (evs₁ ++ .allocFrame (.ok x) :: evs₂ ++ .allocFrame (.ok x) :: evs₃) s) :
    Event.freeFrame x (.ok ()) ∈ evs₂ := by
  obtain ⟨t₂, t₂', h₂, hstep₂, -⟩ := h.of_append_cons
  obtain ⟨t₁, t₁', h₁, hstep₁, -⟩ := h₂.of_append_cons
  have hr₁ := Refines.trace hps h₁
  have hr₂ := Refines.trace hps h₂
  -- at the first allocation `x` was the top of a stack without repetitions
  obtain ⟨rest, hst⟩ := List.head?_eq_some_iff.1 (hr₁.head_of_allocFrame hstep₁)
  have hx : x ∉ rest := by
    have hnd := hr₁.heapList.nodup
    rw [hst, List.nodup_cons] at hnd
    exact hnd.1
  by_contra hfree
  -- so after it `x` was off the stack, and nothing in `evs₂` put it back
  have hoff : x ∉ stackOf (evs₁ ++ .allocFrame (.ok x) :: evs₂) := by
    rw [stackOf_append, List.foldl_cons, hst]
    exact not_mem_foldl_stackStep hx hfree
  exact hoff (List.mem_of_mem_head? (hr₂.head_of_allocFrame hstep₂))

/-! ## The allocator over any run -/

/-- Over any run from `PageFrameAllocator::new` with a nonzero page size:
the freelist is a finite, acyclic, null-terminated list of distinct,
non-null, aligned frames counted by `num_free`; `free_frame` and
`alloc_frame` never panic, fail exactly on a null or misaligned frame and on
an empty list, and change nothing when they fail; `alloc_frame` returns the
most recently freed frame not yet reallocated; and no frame is handed out
twice without being freed in between. -/
theorem freelist_refines_stack {ps : UInt64} (hps : 0 < ps) {mem₀ : UInt64 → UInt64}
    {evs : List Event} {s : State} (h : Transition.Trace Step ⟨new ps, mem₀⟩ evs s) :
    (HeapList s.mem 0 s.alloc.freelist (stackOf evs) ∧ (stackOf evs).Nodup ∧
      (∀ x ∈ stackOf evs, x ≠ 0 ∧ x.toNat % ps.toNat = 0) ∧
      (stackOf evs).length = s.alloc.numFreeFrames) ∧
    (∀ a, ¬ s.OnFreelist a → ∃ r alloc mem, s.alloc.freeFrame s.mem a = some (r, alloc, mem) ∧
      (r = .error () ↔ a = 0 ∨ a.toNat % ps.toNat ≠ 0) ∧
      (r = .error () → alloc = s.alloc ∧ mem = s.mem)) ∧
    (∃ r alloc, s.alloc.allocFrame s.mem = some (r, alloc) ∧
      (r = .error () ↔ s.alloc.numFreeFrames = 0) ∧ (r = .error () → alloc = s.alloc) ∧
      ∀ x, r = .ok x → (stackOf evs).head? = some x) ∧
    (∀ evs₁ evs₂ evs₃ x,
      evs = evs₁ ++ .allocFrame (.ok x) :: evs₂ ++ .allocFrame (.ok x) :: evs₃ →
      Event.freeFrame x (.ok ()) ∈ evs₂) := by
  have hps' : ps.toNat ≠ 0 := by
    have := UInt64.lt_iff_toNat_lt.1 hps
    rw [UInt64.toNat_zero] at this
    omega
  have hr := Refines.trace hps' h
  refine ⟨⟨hr.heapList, hr.heapList.nodup, ?_, hr.numFree.symm⟩,
    fun a hnot => hr.freeFrame_spec hps' (hr.not_mem hnot), hr.allocFrame_spec, ?_⟩
  · intro x hx
    exact ⟨fun h0 => hr.heapList.null_not_mem (h0 ▸ hx), hr.aligned x hx⟩
  · rintro evs₁ evs₂ evs₃ x rfl
    exact freeFrame_between_allocFrames hps' h

theorem freelist_refines_stack_one_frame :
    (0 : UInt64) < 4096 ∧
    Transition.Trace Step ⟨new 4096, fun _ => 0⟩ [.freeFrame 4096 (.ok ())]
      ⟨⟨4096, 1, 4096⟩, Function.update (fun _ => (0 : UInt64)) 4096 0⟩ ∧
    ((HeapList (Function.update (fun _ => (0 : UInt64)) 4096 0) 0 4096
        (stackOf [.freeFrame 4096 (.ok ())]) ∧ (stackOf [.freeFrame 4096 (.ok ())]).Nodup ∧
      (∀ x ∈ stackOf [.freeFrame 4096 (.ok ())], x ≠ 0 ∧ x.toNat % (4096 : UInt64).toNat = 0) ∧
      (stackOf [.freeFrame 4096 (.ok ())]).length =
        (⟨4096, 1, 4096⟩ : PageFrameAllocator).numFreeFrames) ∧
    (∀ a, ¬ State.OnFreelist
        ⟨⟨4096, 1, 4096⟩, Function.update (fun _ => (0 : UInt64)) 4096 0⟩ a →
      ∃ r alloc mem, (⟨4096, 1, 4096⟩ : PageFrameAllocator).freeFrame
        (Function.update (fun _ => (0 : UInt64)) 4096 0) a = some (r, alloc, mem) ∧
      (r = .error () ↔ a = 0 ∨ a.toNat % (4096 : UInt64).toNat ≠ 0) ∧
      (r = .error () →
        alloc = ⟨4096, 1, 4096⟩ ∧ mem = Function.update (fun _ => (0 : UInt64)) 4096 0)) ∧
    (∃ r alloc, (⟨4096, 1, 4096⟩ : PageFrameAllocator).allocFrame
        (Function.update (fun _ => (0 : UInt64)) 4096 0) = some (r, alloc) ∧
      (r = .error () ↔ (⟨4096, 1, 4096⟩ : PageFrameAllocator).numFreeFrames = 0) ∧
      (r = .error () → alloc = ⟨4096, 1, 4096⟩) ∧
      ∀ x, r = .ok x → (stackOf [.freeFrame 4096 (.ok ())]).head? = some x) ∧
    (∀ evs₁ evs₂ evs₃ x,
      [.freeFrame 4096 (.ok ())] =
        evs₁ ++ .allocFrame (.ok x) :: evs₂ ++ .allocFrame (.ok x) :: evs₃ →
      Event.freeFrame x (.ok ()) ∈ evs₂)) := by
  have hnot : ¬ State.OnFreelist ⟨new 4096, fun _ => 0⟩ 4096 := by
    rintro ⟨l, hl, hmem⟩
    rw [hl.eq_nil_iff.2 rfl] at hmem
    cases hmem
  have htrace : Transition.Trace Step ⟨new 4096, fun _ => 0⟩ [.freeFrame 4096 (.ok ())]
      ⟨⟨4096, 1, 4096⟩, Function.update (fun _ => 0) 4096 0⟩ :=
    (Transition.Trace.nil _).snoc (Step.freeFrame hnot rfl)
  exact ⟨by decide, htrace, freelist_refines_stack (by decide) htrace⟩

end PageFrameAllocator

end LanternOS
