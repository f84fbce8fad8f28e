/-
# `LanternOS.Concurrency.Barrier` — the single-use barrier

`barrier.rs` holds the number of threads, a `u8`, and the number that have
arrived, a `u8` behind a `Mutex`.  `wait` takes the lock three times over:

* the reuse check: if every thread has already arrived, panic;
* the increment, `+= 1` on the `u8`, which panics on overflow;
* the spin loop, one lock per turn, until every thread has arrived.

Each of these critical sections is one atomic step here; that they are
atomic is the mutex's mutual exclusion (`RawMutex`).  A thread makes one
call of `wait`: its `Phase` says where in that call it is, and a thread that
panicked stops there.  The kernel makes `Barrier::new(4)` and calls `wait`
once on each of its four cores.

## No thread is released early

With as many threads as the barrier was made for, the invariant `Inv` says
that the count is the number of threads past their increment (`arrived`),
that no thread has panicked, and that once a thread has returned every
thread is past its increment.  A thread at its reuse check or its increment
has not arrived, so the count is below the number of threads: the check
passes, and the increment stays within the `u8`.  The poll that returns
sees the count at the number of threads, so at that moment every thread has
arrived (`barrier_releases_no_thread_early`).

## More threads than expected

The reuse check and the increment are two critical sections.  A surplus
thread whose check runs before the last expected thread's increment passes
it and increments too, so the count passes the number of threads
(`barrier_second_call_increments`).  From there no step lowers the count
and no poll sees it equal (`overfull_run`): every thread still in `wait`
spins for ever.
-/
import LanternOS.Lib.Checked
import LanternOS.Lib.Transition

namespace LanternOS

/-- The `Barrier` struct: `num_threads`, and `num_arrived` behind its lock. -/
structure Barrier where
  numThreads : Nat
  numArrived : Nat
  deriving DecidableEq, Repr

namespace Barrier

/-- `Barrier::new`. -/
def new (numThreads : Nat) : Barrier :=
  ⟨numThreads, 0⟩

/-- Where a thread is in its one call of `wait`. -/
inductive Phase where
  | notCalled
  /-- before the reuse check -/
  | check
  /-- before the increment -/
  | increment
  /-- in the spin loop -/
  | poll
  | returned
  /-- at the reuse panic, or at the overflow of the increment -/
  | panicked
  deriving DecidableEq, Repr

/-- The thread has made its increment. -/
def Phase.arrived : Phase → Bool
  | .poll | .returned => true
  | _ => false

/-- The barrier and where each thread is. -/
structure State (ι : Type) where
  barrier : Barrier
  phase : ι → Phase

variable {ι : Type} [DecidableEq ι]

/-- `Barrier::new(n)`, before any thread has called `wait`. -/
def init (n : Nat) : State ι :=
  ⟨Barrier.new n, fun _ => .notCalled⟩

namespace State

def setPhase (s : State ι) (c : ι) (p : Phase) : State ι :=
  { s with phase := Function.update s.phase c p }

def setArrived (s : State ι) (v : Nat) : State ι :=
  { s with barrier := { s.barrier with numArrived := v } }

/-- The next atomic step of thread `c`: its call of `wait`, or the next of
its critical sections. -/
def step (s : State ι) (c : ι) : Option (State ι) :=
  match s.phase c with
  | .notCalled => some (s.setPhase c .check)
  -- `if *lock == self.num_threads { panic!(...) }`
  | .check =>
      if s.barrier.numArrived = s.barrier.numThreads then some (s.setPhase c .panicked)
      else some (s.setPhase c .increment)
  -- `*self.num_arrived.lock() += 1` on a `u8`
  | .increment =>
      match Checked.add 8 s.barrier.numArrived 1 with
      | some v => some ((s.setArrived v).setPhase c .poll)
      | none => some (s.setPhase c .panicked)
  -- one turn of the spin loop: the lock is taken and dropped again
  | .poll =>
      if s.barrier.numArrived = s.barrier.numThreads then some (s.setPhase c .returned)
      else some s
  | .returned | .panicked => none

/-- The threads that have made their increment. -/
def arrived [Fintype ι] (s : State ι) : Finset ι :=
  Transition.census (fun p => p.arrived = true) s.phase

@[simp] theorem setPhase_barrier (s : State ι) (c : ι) (p : Phase) :
    (s.setPhase c p).barrier = s.barrier := rfl
@[simp] theorem setPhase_phase (s : State ι) (c : ι) (p : Phase) :
    (s.setPhase c p).phase = Function.update s.phase c p := rfl
omit [DecidableEq ι] in
@[simp] theorem setArrived_phase (s : State ι) (v : Nat) : (s.setArrived v).phase = s.phase := rfl
omit [DecidableEq ι] in
@[simp] theorem setArrived_numArrived (s : State ι) (v : Nat) :
    (s.setArrived v).barrier.numArrived = v := rfl
omit [DecidableEq ι] in
@[simp] theorem setArrived_numThreads (s : State ι) (v : Nat) :
    (s.setArrived v).barrier.numThreads = s.barrier.numThreads := rfl

/-- What one step of a thread can do: one case per critical section and
outcome. -/
theorem step_cases {s s' : State ι} {c : ι} (h : s.step c = some s') :
    (s.phase c = .notCalled ∧ s' = s.setPhase c .check) ∨
    (s.phase c = .check ∧ s.barrier.numArrived ≠ s.barrier.numThreads ∧
      s' = s.setPhase c .increment) ∨
    (s.phase c = .check ∧ s.barrier.numArrived = s.barrier.numThreads ∧
      s' = s.setPhase c .panicked) ∨
    (s.phase c = .increment ∧ s.barrier.numArrived + 1 < 2 ^ 8 ∧
      s' = (s.setArrived (s.barrier.numArrived + 1)).setPhase c .poll) ∨
    (s.phase c = .increment ∧ 2 ^ 8 ≤ s.barrier.numArrived + 1 ∧
      s' = s.setPhase c .panicked) ∨
    (s.phase c = .poll ∧ s.barrier.numArrived = s.barrier.numThreads ∧
      s' = s.setPhase c .returned) ∨
    (s.phase c = .poll ∧ s.barrier.numArrived ≠ s.barrier.numThreads ∧ s' = s) := by
  unfold step at h
  cases hc : s.phase c <;> simp only [hc, reduceCtorEq] at h
  case notCalled =>
    exact .inl ⟨rfl, (Option.some.inj h).symm⟩
  case check =>
    split at h <;> rename_i heq <;> cases h
    · exact .inr (.inr (.inl ⟨rfl, heq, rfl⟩))
    · exact .inr (.inl ⟨rfl, heq, rfl⟩)
  case increment =>
    by_cases hlt : s.barrier.numArrived + 1 < 2 ^ 8
    · rw [Checked.add_of_lt hlt] at h
      cases h
      exact .inr (.inr (.inr (.inl ⟨rfl, hlt, rfl⟩)))
    · rw [Checked.add_eq_none.2 (by omega)] at h
      cases h
      exact .inr (.inr (.inr (.inr (.inl ⟨rfl, by omega, rfl⟩))))
  case poll =>
    split at h <;> rename_i heq <;> cases h
    · exact .inr (.inr (.inr (.inr (.inr (.inl ⟨rfl, heq, rfl⟩)))))
    · exact .inr (.inr (.inr (.inr (.inr (.inr ⟨rfl, heq, rfl⟩)))))

end State

/-- One step of the system, of any thread. -/
def Next (s s' : State ι) : Prop :=
  ∃ c, s.step c = some s'

/-- The states reachable from `Barrier::new(n)`. -/
def Reachable (n : Nat) : State ι → Prop :=
  Transition.Reachable (· = init n) Next

/-! ## The invariant with as many threads as the barrier expects -/

namespace State

section Exact

variable [Fintype ι]

/-- The invariant of a barrier made for `n` threads. -/
structure Inv (n : Nat) (s : State ι) : Prop where
  numThreads : s.barrier.numThreads = n
  count : s.barrier.numArrived = s.arrived.card
  noPanic : ∀ c, s.phase c ≠ .panicked
  released : ∀ c, s.phase c = .returned → ∀ d, (s.phase d).arrived

variable {n : Nat} {s : State ι} {c : ι}

omit [DecidableEq ι] in
theorem inv_init : (init n : State ι).Inv n where
  numThreads := rfl
  count := by simp [init, Barrier.new, State.arrived, Transition.census, Phase.arrived]
  noPanic := by simp [init]
  released := by simp [init]

omit [Fintype ι] in
/-- Moving one thread to a phase other than a panic keeps every thread out
of a panic. -/
theorem noPanic_update {f : ι → Phase} {p : Phase} (hf : ∀ d, f d ≠ .panicked)
    (hp : p ≠ .panicked) : ∀ d, Function.update f c p d ≠ .panicked := by
  intro d
  by_cases hd : d = c
  · subst hd
    simpa using hp
  · simpa [Function.update_of_ne hd] using hf d

omit [DecidableEq ι] in
/-- While a thread has not arrived, none has returned. -/
theorem Inv.not_returned (hs : s.Inv n) (hc : (s.phase c).arrived = false) (d : ι) :
    s.phase d ≠ .returned := by
  intro hd
  have := hs.released d hd c
  rw [hc] at this
  cases this

/-- A thread that has not arrived moves to another phase that is not an
arrival, a return or a panic. -/
theorem Inv.setPhase {p : Phase} (hs : s.Inv n) (hc : (s.phase c).arrived = false)
    (hp : p.arrived = false) (hpp : p ≠ .panicked) : (s.setPhase c p).Inv n where
  numThreads := hs.numThreads
  count := by
    rw [State.setPhase_barrier, hs.count, State.arrived, State.arrived, State.setPhase_phase,
      Transition.census_update_of_iff (by rw [hc, hp])]
  noPanic := noPanic_update hs.noPanic hpp
  released := by
    intro d hd
    by_cases hdc : d = c
    · subst hdc
      simp only [State.setPhase_phase, Function.update_self] at hd
      rw [hd] at hp
      cases hp
    · simp only [State.setPhase_phase, Function.update_of_ne hdc] at hd
      exact absurd hd (hs.not_returned hc d)

/-- The increment adds the thread to the arrived ones. -/
theorem Inv.increment (hs : s.Inv n) (hc : s.phase c = .increment) :
    ((s.setArrived (s.barrier.numArrived + 1)).setPhase c .poll).Inv n where
  numThreads := hs.numThreads
  count := by
    rw [State.setPhase_barrier, State.setArrived_numArrived, State.arrived, State.setPhase_phase,
      State.setArrived_phase, Transition.card_census_update_of_not (by rw [hc]; decide) (by decide),
      hs.count]
    rfl
  noPanic := noPanic_update hs.noPanic (by decide)
  released := by
    intro d hd
    by_cases hdc : d = c
    · subst hdc
      simp at hd
    · simp only [State.setPhase_phase, Function.update_of_ne hdc] at hd
      exact absurd hd (hs.not_returned (by rw [hc]; rfl) d)

section Counted

variable (hcard : Fintype.card ι = n)
include hcard

omit [DecidableEq ι] in
/-- While a thread has not arrived, the count is below the number of
threads. -/
theorem Inv.count_lt (hs : s.Inv n) (hc : (s.phase c).arrived = false) :
    s.barrier.numArrived < n := by
  rw [hs.count, ← hcard]
  exact Transition.card_census_lt (by rw [hc]; decide)

/-- The poll that sees every thread arrived returns. -/
theorem Inv.release (hs : s.Inv n) (hc : s.phase c = .poll)
    (hall : s.barrier.numArrived = s.barrier.numThreads) :
    (s.setPhase c .returned).Inv n where
  numThreads := hs.numThreads
  count := by
    rw [State.setPhase_barrier, hs.count, State.arrived, State.arrived, State.setPhase_phase,
      Transition.census_update_of_iff (by rw [hc]; decide)]
  noPanic := noPanic_update hs.noPanic (by decide)
  released := by
    have hevery : ∀ d, (s.phase d).arrived = true := by
      refine (Transition.card_census_eq_iff (P := fun p : Phase => p.arrived = true)).1 ?_
      show s.arrived.card = _
      rw [hcard, ← hs.count, hall, hs.numThreads]
    intro _ _ d
    by_cases hdc : d = c
    · subst hdc
      simp [Phase.arrived]
    · simpa [Function.update_of_ne hdc] using hevery d

/-- Every step keeps the invariant: the reuse check passes and the increment
fits, since the thread making them has not arrived. -/
theorem Inv.step (hn : n < 2 ^ 8) (hs : s.Inv n) {s' : State ι} (h : s.step c = some s') :
    s'.Inv n := by
  rcases State.step_cases h with
    ⟨hc, rfl⟩ | ⟨hc, -, rfl⟩ | ⟨hc, heq, -⟩ | ⟨hc, -, rfl⟩ | ⟨hc, hover, -⟩ |
      ⟨hc, hall, rfl⟩ | ⟨-, -, rfl⟩
  · exact hs.setPhase (by rw [hc]; rfl) rfl (by decide)
  · exact hs.setPhase (by rw [hc]; rfl) rfl (by decide)
  · -- the reuse check cannot fire: the count is below the number of threads
    have := hs.count_lt hcard (c := c) (by rw [hc]; rfl)
    rw [hs.numThreads] at heq
    omega
  · exact hs.increment hc
  · -- the increment cannot overflow: the count is below `n < 2 ^ 8`
    have := hs.count_lt hcard (c := c) (by rw [hc]; rfl)
    omega
  · exact hs.release hcard hc hall
  · exact hs

end Counted

end Exact

end State

section Counted

variable [Fintype ι] {n : Nat} (hcard : Fintype.card ι = n)
include hcard

theorem Reachable.inv (hn : n < 2 ^ 8) {s : State ι} (h : Reachable n s) : s.Inv n := by
  refine Transition.Reachable.induction ?_ ?_ h
  · rintro _ rfl
    exact State.inv_init
  · rintro s t hs ⟨c, hstep⟩
    exact hs.step hcard hn hstep

/-- With as many threads as `Barrier::new(n)` expects, each calling `wait`
once, in any interleaving: no thread panics, the count never exceeds `n`,
and a thread has returned from `wait` only once every thread has made its
increment. -/
theorem barrier_releases_no_thread_early (hn : n < 2 ^ 8) {s : State ι}
    (hs : Reachable n s) :
    (∀ c, s.phase c ≠ .panicked) ∧ s.barrier.numArrived ≤ n ∧
      ∀ c, s.phase c = .returned → ∀ d, (s.phase d).arrived := by
  have hinv := hs.inv hcard hn
  refine ⟨hinv.noPanic, ?_, hinv.released⟩
  rw [hinv.count, ← hcard]
  exact Finset.card_le_univ _

end Counted

/-- The kernel's schedule: each of the four cores calls `wait` and makes
its check and its increment in turn, then each polls once. -/
def kernelRun : List (Fin 4) :=
  [0, 0, 0, 1, 1, 1, 2, 2, 2, 3, 3, 3, 0, 1, 2, 3]

theorem barrier_releases_no_thread_early_kernel :
    ∃ s : State (Fin 4), Reachable 4 s ∧ s.phase 0 = .returned ∧
      ∀ d, (s.phase d).arrived := by
  have hrun : Transition.runSteps State.step (init 4) kernelRun = some _ := rfl
  have hs : Reachable 4 _ := Transition.Reachable.runSteps (Transition.Reachable.of_init rfl) hrun
  exact ⟨_, hs, rfl, (barrier_releases_no_thread_early (by decide) (by decide) hs).2.2 0 rfl⟩

/-! ## More threads than the barrier expects -/

namespace State

/-- A thread returned after another thread moved to a phase other than a
return had returned before. -/
theorem returned_of_setPhase {s : State ι} {c d : ι} {p : Phase}
    (hp : p ≠ .returned) (hd : (s.setPhase c p).phase d = .returned) : s.phase d = .returned := by
  by_cases hdc : d = c
  · subst hdc
    simp only [setPhase_phase, Function.update_self] at hd
    exact absurd hd hp
  · simpa [Function.update_of_ne hdc] using hd

/-- Past the number of threads, a step keeps the count past it: no step
lowers the count, and a poll cannot see it equal, so no thread returns. -/
theorem step_overfull {s s' : State ι} {c : ι}
    (hover : s.barrier.numThreads < s.barrier.numArrived) (h : s.step c = some s') :
    s'.barrier.numThreads < s'.barrier.numArrived ∧
      ∀ d, s'.phase d = .returned → s.phase d = .returned := by
  rcases step_cases h with
    ⟨-, rfl⟩ | ⟨-, -, rfl⟩ | ⟨-, -, rfl⟩ | ⟨-, -, rfl⟩ | ⟨-, -, rfl⟩ | ⟨-, hall, -⟩ | ⟨-, -, rfl⟩
  · exact ⟨hover, fun _ => returned_of_setPhase (by decide)⟩
  · exact ⟨hover, fun _ => returned_of_setPhase (by decide)⟩
  · exact ⟨hover, fun _ => returned_of_setPhase (by decide)⟩
  · refine ⟨?_, fun _ => returned_of_setPhase (by decide)⟩
    simp only [setPhase_barrier, setArrived_numArrived, setArrived_numThreads]
    omega
  · exact ⟨hover, fun _ => returned_of_setPhase (by decide)⟩
  · omega
  · exact ⟨hover, fun _ hd => hd⟩

end State

/-- Once the count is past the number of threads it stays past it, in any
interleaving: no thread that is still in `wait` ever returns. -/
theorem overfull_run {s t : State ι} (hover : s.barrier.numThreads < s.barrier.numArrived)
    (h : Transition.Reachable (· = s) Next t) :
    t.barrier.numThreads < t.barrier.numArrived ∧
      ∀ d, t.phase d = .returned → s.phase d = .returned := by
  refine Transition.Reachable.induction (P := fun u => u.barrier.numThreads < u.barrier.numArrived ∧
    ∀ d, u.phase d = .returned → s.phase d = .returned) ?_ ?_ h
  · rintro _ rfl
    exact ⟨hover, fun _ hd => hd⟩
  · rintro u v ⟨hu, hret⟩ ⟨c, hstep⟩
    obtain ⟨hv, hvret⟩ := State.step_overfull hu hstep
    exact ⟨hv, fun d hd => hret d (hvret d hd)⟩

/-- Two threads `c` and `d` on `Barrier::new(1)`: each calls `wait` and
makes its check before either increments, then each increments. -/
def reuseRun (c d : ι) : List ι :=
  [c, d, c, d, c, d]

/-- The second call is not stopped by the reuse check: both checks see a
count of 0, both increments are made, and the count reaches 2 on a barrier
for one thread.  Both threads are then in the spin loop, and from there no
interleaving returns either of them. -/
theorem barrier_second_call_increments :
    ∃ s : State (Fin 2), Reachable 1 s ∧ s.barrier.numArrived = 2 ∧
      s.phase 0 = .poll ∧ s.phase 1 = .poll ∧
      ∀ t, Transition.Reachable (· = s) Next t → ∀ d, t.phase d ≠ .returned := by
  have hrun : Transition.runSteps State.step (init 1) (reuseRun (0 : Fin 2) 1) = some _ := rfl
  have hs : Reachable 1 _ := Transition.Reachable.runSteps (Transition.Reachable.of_init rfl) hrun
  refine ⟨_, hs, rfl, rfl, rfl, fun t ht d hd => ?_⟩
  have hbefore := (overfull_run (by decide) ht).2 d hd
  fin_cases d <;> exact absurd hbefore (by decide)

end Barrier

end LanternOS
