/-
# `LanternOS.Concurrency.Spinlock` — `RawMutex` on the exclusive monitor

`mutex.rs` implements `lock_api::RawMutex` with three short loops of
AArch64 assembly over one lock word:

* `lock`: `2: ldaxr`; if the word is `1`, back to `2`; `stlxr` of `1`; if
  the store failed, back to `2`;
* `try_lock`: `ldaxr`; if the word is `1`, return `false` (the monitor stays
  armed); `stlxr` of `1`; return whether the store succeeded;
* `unlock`: `2: ldaxr`; `stlxr` of `0`; if the store failed, back to `2`.

## The machine

Each core has a program counter into this code (`Pc`), carrying the register
the next instruction tests.  An `ldr` of a constant is folded into the
`stlxr` after it.  The exclusive monitor follows the architecture: `ldaxr`
arms the core's monitor; `stlxr` stores, and reports `0`, only while the
monitor is armed, and may also fail spuriously; a successful store clears
every core's monitor, and a failed one the core's own.  A step is one
instruction of one core, or a call of one of the three functions; `unlock`
is called only by the core that holds the lock.

## Mutual exclusion

A core *owns* the word from the `stlxr` that stores `1` to the `stlxr` that
stores `0`.  The invariant `Inv` says that the word is `0` or `1`, is `1`
exactly when some core owns it, that at most one core does, and that an
armed monitor still sees the value its `ldaxr` read.  So at most one core at
a time has returned from `lock()` (or from a `try_lock()` that returned
`true`) without having released the lock by its `stlxr`
(`rawMutex_mutual_exclusion`).  Counting a core as a holder until `unlock()`
*returns* is one instruction too long: between its releasing `stlxr` and its
return another core can acquire (`rawMutex_holders_overlap_in_unlock`).
-/
import LanternOS.Lib.Transition

namespace LanternOS

namespace RawMutex

/-- Where a core is in the lock's code, with the register the next
instruction tests. -/
inductive Pc where
  /-- outside the lock's code, not holding the lock -/
  | idle
  /-- returned from `lock()`, or from `try_lock()` with `true` -/
  | critical
  | lockLdaxr
  | lockCmp (temp : Nat)
  | lockStlxr
  | lockCheck (res : Nat)
  | tryLdaxr
  | tryCmp (temp : Nat)
  | tryStlxr
  /-- the label `2:` of `try_lock`, before `lock_succeed == 0` -/
  | tryRet (res : Nat)
  | unlockLdaxr
  | unlockStlxr
  | unlockCheck (res : Nat)
  deriving DecidableEq, Repr

/-- The lock word, each core's exclusive monitor, and each core's place in
the code. -/
structure Machine (ι : Type) where
  word : Nat
  monitor : ι → Bool
  pc : ι → Pc

/-- A step of the system: a call made on a core, or the next instruction of
a core.  `exec ok` lets an `stlxr` that may succeed succeed when `ok`, and
fail spuriously otherwise. -/
inductive Action where
  | lock
  | tryLock
  | unlock
  | exec (ok : Bool)
  deriving DecidableEq, Repr

variable {ι : Type} [DecidableEq ι]

/-- `RawMutex::INIT`: the word is `0`, no monitor is armed, no core is in
the code. -/
def init : Machine ι := ⟨0, fun _ => false, fun _ => .idle⟩

namespace Machine

def setPc (m : Machine ι) (c : ι) (p : Pc) : Machine ι :=
  { m with pc := Function.update m.pc c p }

/-- `ldaxr`: arm the core's monitor.  The value read is `m.word`. -/
def ldaxr (m : Machine ι) (c : ι) : Machine ι :=
  { m with monitor := Function.update m.monitor c true }

/-- `stlxr` of `v`: with the monitor armed, and unless it fails spuriously,
store `v`, clear every monitor and report `0`; otherwise clear the core's
monitor and report `1`. -/
def stlxr (m : Machine ι) (c : ι) (v : Nat) (ok : Bool) : Nat × Machine ι :=
  if ok && m.monitor c then (0, { m with word := v, monitor := fun _ => false })
  else (1, { m with monitor := Function.update m.monitor c false })

/-- The next instruction of core `c`. -/
def exec (m : Machine ι) (c : ι) (ok : Bool) : Option (Machine ι) :=
  match m.pc c with
  | .idle | .critical => none
  -- `lock`
  | .lockLdaxr => some ((m.ldaxr c).setPc c (.lockCmp m.word))
  | .lockCmp temp => some (m.setPc c (if temp = 1 then .lockLdaxr else .lockStlxr))
  | .lockStlxr => some ((m.stlxr c 1 ok).2.setPc c (.lockCheck (m.stlxr c 1 ok).1))
  | .lockCheck res => some (m.setPc c (if res = 0 then .critical else .lockLdaxr))
  -- `try_lock`: on `beq 2f` the result register keeps `lock_succeed = 1`
  | .tryLdaxr => some ((m.ldaxr c).setPc c (.tryCmp m.word))
  | .tryCmp temp => some (m.setPc c (if temp = 1 then .tryRet 1 else .tryStlxr))
  | .tryStlxr => some ((m.stlxr c 1 ok).2.setPc c (.tryRet (m.stlxr c 1 ok).1))
  | .tryRet res => some (m.setPc c (if res = 0 then .critical else .idle))
  -- `unlock`
  | .unlockLdaxr => some ((m.ldaxr c).setPc c .unlockStlxr)
  | .unlockStlxr => some ((m.stlxr c 0 ok).2.setPc c (.unlockCheck (m.stlxr c 0 ok).1))
  | .unlockCheck res => some (m.setPc c (if res = 0 then .idle else .unlockLdaxr))

/-- One step on core `c`. -/
def step (m : Machine ι) (c : ι) : Action → Option (Machine ι)
  | .lock => if m.pc c = .idle then some (m.setPc c .lockLdaxr) else none
  | .tryLock => if m.pc c = .idle then some (m.setPc c .tryLdaxr) else none
  | .unlock => if m.pc c = .critical then some (m.setPc c .unlockLdaxr) else none
  | .exec ok => m.exec c ok

/-- A sequence of steps, one core and action at a time. -/
def run (m : Machine ι) : List (ι × Action) → Option (Machine ι)
  | [] => some m
  | (c, a) :: steps => (m.step c a).bind (fun m' => run m' steps)

@[simp] theorem setPc_word (m : Machine ι) (c : ι) (p : Pc) : (m.setPc c p).word = m.word := rfl
@[simp] theorem setPc_monitor (m : Machine ι) (c : ι) (p : Pc) :
    (m.setPc c p).monitor = m.monitor := rfl
@[simp] theorem setPc_pc (m : Machine ι) (c : ι) (p : Pc) :
    (m.setPc c p).pc = Function.update m.pc c p := rfl
@[simp] theorem ldaxr_word (m : Machine ι) (c : ι) : (m.ldaxr c).word = m.word := rfl
@[simp] theorem ldaxr_pc (m : Machine ι) (c : ι) : (m.ldaxr c).pc = m.pc := rfl
@[simp] theorem ldaxr_monitor (m : Machine ι) (c : ι) :
    (m.ldaxr c).monitor = Function.update m.monitor c true := rfl
@[simp] theorem stlxr_pc (m : Machine ι) (c : ι) (v : Nat) (ok : Bool) :
    (m.stlxr c v ok).2.pc = m.pc := by
  unfold stlxr
  split <;> rfl

/-- A step of core `d` moves `d` and no other core. -/
theorem step_pc {m m' : Machine ι} {d : ι} {a : Action} (h : m.step d a = some m') :
    ∃ p, m'.pc = Function.update m.pc d p := by
  cases a with
  | lock | tryLock | unlock =>
      simp only [step] at h
      split at h
      · cases h
        exact ⟨_, rfl⟩
      · cases h
  | exec ok =>
      simp only [step, exec] at h
      split at h <;> simp only [Option.some.injEq, reduceCtorEq] at h <;> subst h <;>
        exact ⟨_, by simp only [setPc_pc, ldaxr_pc, stlxr_pc]; rfl⟩

end Machine

/-- One step of the system, on any core. -/
def Next (m m' : Machine ι) : Prop :=
  ∃ c a, m.step c a = some m'

/-- The states reachable from `RawMutex::INIT`. -/
def Reachable : Machine ι → Prop :=
  Transition.Reachable (· = init) Next

theorem reachable_of_run {m m' : Machine ι} (hm : Reachable m) :
    ∀ {steps : List (ι × Action)}, m.run steps = some m' → Reachable m'
  | [], h => by
      rw [Machine.run, Option.some.injEq] at h
      exact h ▸ hm
  | (c, a) :: steps, h => by
      simp only [Machine.run, Option.bind_eq_some_iff] at h
      obtain ⟨m₁, h₁, hrun⟩ := h
      exact reachable_of_run (hm.tail ⟨c, a, h₁⟩) hrun

/-! ## Ownership -/

/-- The core has stored `1` with its `stlxr` and not yet stored `0`. -/
def Pc.owns : Pc → Bool
  | .lockCheck 0 | .tryRet 0 | .critical | .unlockLdaxr | .unlockStlxr => true
  | .unlockCheck res => res != 0
  | _ => false

/-- The core has returned from `lock()`, or from a `try_lock()` that
returned `true`, and has not returned from `unlock()`. -/
def Pc.holds : Pc → Bool
  | .critical | .unlockLdaxr | .unlockStlxr | .unlockCheck _ => true
  | _ => false

/-- A holder owns the word unless its releasing `stlxr` has succeeded. -/
theorem Pc.owns_of_holds {p : Pc} (h : p.holds) (hp : p ≠ .unlockCheck 0) : p.owns := by
  cases p <;> simp_all [Pc.holds, Pc.owns]

/-- What an armed monitor guarantees at each point of the code: no store
since the `ldaxr`, so the word still holds what it read. -/
def Pc.Fresh (w : Nat) : Pc → Prop
  | .lockCmp temp | .tryCmp temp => w = temp
  | .lockStlxr | .tryStlxr => w = 0
  | _ => True

namespace Machine

/-- The invariant of the lock. -/
structure Inv (m : Machine ι) : Prop where
  word : m.word = 0 ∨ m.word = 1
  unique : ∀ c d, (m.pc c).owns → (m.pc d).owns → c = d
  owned : m.word = 1 ↔ ∃ c, (m.pc c).owns
  fresh : ∀ c, m.monitor c = true → (m.pc c).Fresh m.word

omit [DecidableEq ι] in
theorem inv_init : (init : Machine ι).Inv where
  word := Or.inl rfl
  unique := by simp [init, Pc.owns]
  owned := by simp [init, Pc.owns]
  fresh := by simp [init]

variable {m m' : Machine ι} {c : ι} {p : Pc}

theorem owns_setPc (d : ι) :
    ((m.setPc c p).pc d).owns = if d = c then p.owns else (m.pc d).owns := by
  by_cases hd : d = c
  · subst hd
    simp
  · simp [hd]

/-- Moving a core within the code keeps the invariant when the core neither
takes nor gives up the word, and its armed monitor stays valid. -/
theorem Inv.setPc (hm : m.Inv) (hown : p.owns = (m.pc c).owns)
    (hfresh : m.monitor c = true → p.Fresh m.word) : (m.setPc c p).Inv := by
  have ho : ∀ d, ((m.setPc c p).pc d).owns = (m.pc d).owns := by
    intro d
    rw [owns_setPc]
    split
    · rename_i hdc
      rw [hdc, hown]
    · rfl
  refine ⟨hm.word, ?_, ?_, ?_⟩
  · intro d e hd he
    rw [ho] at hd he
    exact hm.unique d e hd he
  · simp only [Machine.setPc_word, ho]
    exact hm.owned
  · intro d hd
    by_cases hdc : d = c
    · subst hdc
      simpa using hfresh hd
    · simpa [Function.update_of_ne hdc] using hm.fresh d hd

/-- `ldaxr` at a point where the monitor promises nothing. -/
theorem Inv.ldaxr (hm : m.Inv) (hp : (m.pc c).Fresh m.word) : (m.ldaxr c).Inv := by
  refine ⟨hm.word, hm.unique, hm.owned, ?_⟩
  intro d hd
  by_cases hdc : d = c
  · subst hdc
    exact hp
  · simp only [Machine.ldaxr_monitor, Function.update_of_ne hdc] at hd
    exact hm.fresh d hd

/-- A failed `stlxr` clears the core's monitor. -/
theorem Inv.clear (hm : m.Inv) :
    ({ m with monitor := Function.update m.monitor c false } : Machine ι).Inv := by
  refine ⟨hm.word, hm.unique, hm.owned, ?_⟩
  intro d hd
  by_cases hdc : d = c
  · subst hdc
    simp at hd
  · simp only [Function.update_of_ne hdc] at hd
    exact hm.fresh d hd

/-- A successful `stlxr` of `1` on a free word: the core becomes the one
owner. -/
theorem Inv.acquire (hm : m.Inv) (h0 : m.word = 0) (hp : p.owns = true) :
    ({ m with word := 1, monitor := fun _ => false } : Machine ι).setPc c p |>.Inv := by
  have hnone : ∀ d, (m.pc d).owns = false := by
    intro d
    by_contra hd
    have := hm.owned.2 ⟨d, by simpa using hd⟩
    omega
  refine ⟨Or.inr rfl, ?_, ?_, ?_⟩
  · intro d e hd he
    rw [owns_setPc] at hd he
    split at hd <;> split at he
    · rename_i h₁ h₂
      rw [h₁, h₂]
    all_goals simp_all
  · simp only [Machine.setPc_word, true_iff]
    exact ⟨c, by rw [owns_setPc, if_pos rfl]; exact hp⟩
  · intro d hd
    simp at hd

/-- A successful `stlxr` of `0` by the owner: no core owns the word. -/
theorem Inv.release (hm : m.Inv) (hown : (m.pc c).owns = true) (hp : p.owns = false) :
    ({ m with word := 0, monitor := fun _ => false } : Machine ι).setPc c p |>.Inv := by
  have hnone : ∀ d, (({ m with word := 0, monitor := fun _ => false } : Machine ι).setPc c p
      |>.pc d).owns = false := by
    intro d
    rw [owns_setPc]
    split
    · exact hp
    · rename_i hdc
      by_contra hd
      exact hdc (hm.unique d c (by simpa using hd) hown)
  refine ⟨Or.inl rfl, ?_, ?_, ?_⟩
  · intro d e hd
    rw [hnone d] at hd
    cases hd
  · constructor
    · intro h
      cases h
    · rintro ⟨d, hd⟩
      rw [hnone d] at hd
      cases hd
  · intro d hd
    simp at hd

/-- An `stlxr` of `1` where an armed monitor means a free word: it acquires
and the core moves to `next 0`, which owns, or it fails and moves to
`next 1`, which does not. -/
theorem Inv.stlxr_one {ok : Bool} {next : Nat → Pc} (hm : m.Inv)
    (hfresh : (m.pc c).Fresh m.word → m.word = 0) (hnot : (m.pc c).owns = false)
    (h0 : (next 0).owns = true) (h1 : (next 1).owns = false) :
    ((m.stlxr c 1 ok).2.setPc c (next (m.stlxr c 1 ok).1)).Inv := by
  unfold Machine.stlxr
  split
  · rename_i hok
    rw [Bool.and_eq_true] at hok
    exact hm.acquire (hfresh (hm.fresh c hok.2)) h0
  · exact hm.clear.setPc (by rw [h1, hnot]) (fun h => by simp at h)

/-- The `stlxr` of `0` in `unlock`: it releases and the core moves to
`next 0`, which does not own, or it fails and moves to `next 1`, which
still does. -/
theorem Inv.stlxr_zero {ok : Bool} {next : Nat → Pc} (hm : m.Inv)
    (hown : (m.pc c).owns = true) (h0 : (next 0).owns = false) (h1 : (next 1).owns = true) :
    ((m.stlxr c 0 ok).2.setPc c (next (m.stlxr c 0 ok).1)).Inv := by
  unfold Machine.stlxr
  split
  · exact hm.release hown h0
  · exact hm.clear.setPc (by rw [h1, hown]) (fun h => by simp at h)

/-- Every instruction keeps the invariant, one case per place in the code. -/
theorem Inv.exec {ok : Bool} (hm : m.Inv) (h : m.exec c ok = some m') : m'.Inv := by
  cases hpc : m.pc c with
  | idle => simp [Machine.exec, hpc] at h
  | critical => simp [Machine.exec, hpc] at h
  | lockLdaxr =>
      simp only [Machine.exec, hpc, Option.some.injEq] at h
      subst h
      exact (hm.ldaxr (by rw [hpc]; trivial)).setPc (by simp [hpc, Pc.owns]) (fun _ => rfl)
  | lockCmp temp =>
      simp only [Machine.exec, hpc, Option.some.injEq] at h
      subst h
      refine hm.setPc (by split <;> simp [hpc, Pc.owns]) (fun harmed => ?_)
      -- the word is still `temp`, which is `0` when it is not `1`
      have hw : m.word = temp := by simpa [hpc, Pc.Fresh] using hm.fresh c harmed
      split
      · trivial
      · show m.word = 0
        rcases hm.word with h0 | h1
        · exact h0
        · omega
  | lockStlxr =>
      simp only [Machine.exec, hpc, Option.some.injEq] at h
      subst h
      exact hm.stlxr_one (by rw [hpc]; exact id) (by rw [hpc]; rfl) rfl rfl
  | lockCheck res =>
      simp only [Machine.exec, hpc, Option.some.injEq] at h
      subst h
      refine hm.setPc ?_ (fun _ => by split <;> trivial)
      by_cases hres : res = 0
      · subst hres
        simp [hpc, Pc.owns]
      · simp [hres, hpc, Pc.owns]
  | tryLdaxr =>
      simp only [Machine.exec, hpc, Option.some.injEq] at h
      subst h
      exact (hm.ldaxr (by rw [hpc]; trivial)).setPc (by simp [hpc, Pc.owns]) (fun _ => rfl)
  | tryCmp temp =>
      simp only [Machine.exec, hpc, Option.some.injEq] at h
      subst h
      refine hm.setPc (by split <;> simp [hpc, Pc.owns]) (fun harmed => ?_)
      have hw : m.word = temp := by simpa [hpc, Pc.Fresh] using hm.fresh c harmed
      split
      · trivial
      · show m.word = 0
        rcases hm.word with h0 | h1
        · exact h0
        · omega
  | tryStlxr =>
      simp only [Machine.exec, hpc, Option.some.injEq] at h
      subst h
      exact hm.stlxr_one (by rw [hpc]; exact id) (by rw [hpc]; rfl) rfl rfl
  | tryRet res =>
      simp only [Machine.exec, hpc, Option.some.injEq] at h
      subst h
      refine hm.setPc ?_ (fun _ => by split <;> trivial)
      by_cases hres : res = 0
      · subst hres
        simp [hpc, Pc.owns]
      · simp [hres, hpc, Pc.owns]
  | unlockLdaxr =>
      simp only [Machine.exec, hpc, Option.some.injEq] at h
      subst h
      exact (hm.ldaxr (by rw [hpc]; trivial)).setPc (by simp [hpc, Pc.owns]) (fun _ => trivial)
  | unlockStlxr =>
      simp only [Machine.exec, hpc, Option.some.injEq] at h
      subst h
      exact hm.stlxr_zero (by rw [hpc]; rfl) rfl rfl
  | unlockCheck res =>
      simp only [Machine.exec, hpc, Option.some.injEq] at h
      subst h
      refine hm.setPc ?_ (fun _ => by split <;> trivial)
      by_cases hres : res = 0
      · subst hres
        simp [hpc, Pc.owns]
      · simp [hres, hpc, Pc.owns]

/-- Every step keeps the invariant: a call moves a core into the code, an
instruction is `Inv.exec`. -/
theorem Inv.step {a : Action} (hm : m.Inv) (h : m.step c a = some m') : m'.Inv := by
  cases a with
  | lock =>
      simp only [Machine.step] at h
      split at h
      · rename_i hidle
        cases h
        exact hm.setPc (by simp [hidle, Pc.owns]) (fun _ => trivial)
      · cases h
  | tryLock =>
      simp only [Machine.step] at h
      split at h
      · rename_i hidle
        cases h
        exact hm.setPc (by simp [hidle, Pc.owns]) (fun _ => trivial)
      · cases h
  | unlock =>
      simp only [Machine.step] at h
      split at h
      · rename_i hcrit
        cases h
        exact hm.setPc (by simp [hcrit, Pc.owns]) (fun _ => trivial)
      · cases h
  | exec ok => exact hm.exec h

/-- `try_lock` reaches its `true` return only through its own successful
`stlxr`, which stores `1` into a free word. -/
theorem Inv.tryRet_zero {d : ι} {a : Action} (hm : m.Inv) (h : m.step d a = some m')
    (hc : m.pc c ≠ .tryRet 0) (hc' : m'.pc c = .tryRet 0) :
    d = c ∧ a = .exec true ∧ m.pc c = .tryStlxr ∧ m.monitor c = true ∧
      m.word = 0 ∧ m'.word = 1 := by
  have hdc : d = c := by
    by_contra hne
    obtain ⟨p, hp⟩ := step_pc h
    rw [hp, Function.update_of_ne (Ne.symm hne)] at hc'
    exact hc hc'
  subst hdc
  cases a with
  | lock | tryLock | unlock =>
      simp only [Machine.step] at h
      split at h
      · cases h
        simp at hc'
      · cases h
  | exec ok =>
      simp only [Machine.step, Machine.exec] at h
      cases hpc : m.pc d <;> simp only [hpc, Option.some.injEq, reduceCtorEq] at h <;> subst h
      case tryStlxr =>
        simp only [Machine.setPc_pc, Function.update_self, Pc.tryRet.injEq] at hc'
        unfold Machine.stlxr at hc' ⊢
        split at hc'
        · rename_i hok
          rw [Bool.and_eq_true] at hok
          obtain ⟨rfl, harmed⟩ := hok
          -- the armed monitor of `tryStlxr` saw a free word
          have h0 : m.word = 0 := by simpa [hpc, Pc.Fresh] using hm.fresh d harmed
          simp [harmed, h0]
        · cases hc'
      all_goals
        simp only [Machine.setPc_pc, Function.update_self] at hc'
        first
          | cases hc'
          | (split at hc' <;> cases hc')

end Machine

theorem Reachable.inv {m : Machine ι} (h : Reachable m) : m.Inv := by
  refine Transition.Reachable.induction ?_ ?_ h
  · rintro _ rfl
    exact Machine.inv_init
  · rintro m m' hm ⟨c, a, hstep⟩
    exact hm.step hstep

/-! ## Mutual exclusion -/

/-- Core `0` takes the lock and releases it by its `stlxr`; before it tests
the result, core `1` takes the lock. -/
def handoverRun : List (Fin 2 × Action) :=
  [(0, .lock)] ++ List.replicate 4 (0, .exec true) ++ [(0, .unlock)] ++
    List.replicate 2 (0, .exec true) ++ [(1, .lock)] ++ List.replicate 4 (1, .exec true)

theorem rawMutex_holders_overlap_in_unlock :
    ∃ m : Machine (Fin 2), Reachable m ∧ (m.pc 0).holds ∧ (m.pc 1).holds := by
  have hrun : (init : Machine (Fin 2)).run handoverRun = some _ := rfl
  exact ⟨_, reachable_of_run (Transition.Reachable.of_init rfl) hrun, rfl, rfl⟩

/-- In every reachable state the word is `0` or `1` and has at most one
owner; two cores that have both returned from `lock()` (or from a
`try_lock()` that returned `true`) and not yet from `unlock()` include one
whose releasing `stlxr` has already succeeded; and `try_lock()` reaches its
`true` return only by its own `stlxr` storing `1` into a free word. -/
theorem rawMutex_mutual_exclusion {m : Machine ι} (hm : Reachable m) :
    (m.word = 0 ∨ m.word = 1) ∧
    (∀ c d, (m.pc c).owns → (m.pc d).owns → c = d) ∧
    (∀ c d, c ≠ d → (m.pc c).holds → (m.pc d).holds →
      m.pc c = .unlockCheck 0 ∨ m.pc d = .unlockCheck 0) ∧
    (∀ c d a m', m.step d a = some m' → m.pc c ≠ .tryRet 0 → m'.pc c = .tryRet 0 →
      d = c ∧ a = .exec true ∧ m.pc c = .tryStlxr ∧ m.monitor c = true ∧
        m.word = 0 ∧ m'.word = 1) := by
  have hinv := hm.inv
  refine ⟨hinv.word, hinv.unique, ?_, fun c d a m' h => hinv.tryRet_zero h⟩
  intro c d hcd hc hd
  by_contra hno
  rw [not_or] at hno
  exact hcd (hinv.unique c d (Pc.owns_of_holds hc hno.1) (Pc.owns_of_holds hd hno.2))

theorem rawMutex_mutual_exclusion_after_handover :
    ∃ m : Machine (Fin 2), Reachable m ∧ m.pc 0 = .unlockCheck 0 ∧ m.pc 1 = .critical ∧
      m.word = 1 ∧ ∀ c d, (m.pc c).owns → (m.pc d).owns → c = d := by
  have hrun : (init : Machine (Fin 2)).run handoverRun = some _ := rfl
  have hm := reachable_of_run (Transition.Reachable.of_init rfl) hrun
  exact ⟨_, hm, rfl, rfl, rfl, (rawMutex_mutual_exclusion hm).2.1⟩

end RawMutex

end LanternOS
