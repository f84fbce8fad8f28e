/-
# `Transition` — reachable states of a step relation

Every stateful component of the development is a step relation on an
explicit state: a data structure under the calls its users make, or a
shared-memory machine under the steps of all its cores in any interleaving.
Its properties are properties of the states it can reach, so the one rule
that every such proof ends with is stated here once: a property that holds
initially and that every step preserves holds in every reachable state.

Reachability is Mathlib's reflexive-transitive closure; only the invariant
rule and the two ways of extending a run are added.

Where a property is about the history of a run (what a call returned, given
the calls before it), the steps carry labels, the calls and their results, and a
`Trace` records them in order.  A trace splits at any label into the run
before it, the step, and the run after it (`Trace.of_append_cons`), which is
how a property of two calls of one run is reduced to the states they were
made in.

A system of processes `ι` moves one process at a time: the local states are
a function on `ι`, updated at one point per step.  How many processes are in
a given kind of local state (`census`) then changes by at most one per step,
and the three counting facts such proofs need are stated once: a process
that enters the kind adds one, a process that stays in or out of it changes
nothing, and the count reaches the number of processes only when every
process is of that kind.
-/
import Mathlib

namespace Transition

variable {σ : Type} (init : σ → Prop) (step : σ → σ → Prop)

/-- `s` is reached from a state satisfying `init` by finitely many steps. -/
def Reachable (s : σ) : Prop :=
  ∃ s₀, init s₀ ∧ Relation.ReflTransGen step s₀ s

variable {init step}

theorem Reachable.of_init {s : σ} (h : init s) : Reachable init step s :=
  ⟨s, h, .refl⟩

theorem Reachable.tail {s t : σ} (hs : Reachable init step s) (h : step s t) :
    Reachable init step t := by
  obtain ⟨s₀, h₀, hrun⟩ := hs
  exact ⟨s₀, h₀, hrun.tail h⟩

/-- The invariant rule: what holds initially and survives every step holds
in every reachable state. -/
theorem Reachable.induction {P : σ → Prop} (h₀ : ∀ s, init s → P s)
    (hstep : ∀ s t, P s → step s t → P t) {s : σ} (hs : Reachable init step s) : P s := by
  obtain ⟨s₀, hi, hrun⟩ := hs
  induction hrun with
  | refl => exact h₀ s₀ hi
  | tail _ hst ih => exact hstep _ _ ih hst

/-- The invariant rule for an invariant that needs reachability of the state
it is preserved from. -/
theorem Reachable.induction_on_reachable {P : σ → Prop} (h₀ : ∀ s, init s → P s)
    (hstep : ∀ s t, Reachable init step s → P s → step s t → P t) {s : σ}
    (hs : Reachable init step s) : P s := by
  have h : Reachable init step s ∧ P s := by
    refine Reachable.induction (P := fun s => Reachable init step s ∧ P s) ?_ ?_ hs
    · intro s hi
      exact ⟨.of_init hi, h₀ s hi⟩
    · rintro s t ⟨hr, hp⟩ hst
      exact ⟨hr.tail hst, hstep s t hr hp hst⟩
  exact h.2

/-- Run a partial step function along a list of choices (of a process, or
of a call), stopping at the first choice that cannot be taken. -/
def runSteps {ε : Type} (step : σ → ε → Option σ) : σ → List ε → Option σ
  | s, [] => some s
  | s, e :: es => (step s e).bind (fun t => runSteps step t es)

/-- The end of a run that can be taken is reachable. -/
theorem Reachable.runSteps {ε : Type} {step : σ → ε → Option σ} {s t : σ}
    (hs : Reachable init (fun s t => ∃ e, step s e = some t) s) :
    ∀ {es : List ε}, Transition.runSteps step s es = some t →
      Reachable init (fun s t => ∃ e, step s e = some t) t
  | [], h => by
      rw [Transition.runSteps, Option.some.injEq] at h
      exact h ▸ hs
  | e :: es, h => by
      simp only [Transition.runSteps, Option.bind_eq_some_iff] at h
      obtain ⟨s₁, h₁, hrun⟩ := h
      exact Reachable.runSteps (hs.tail ⟨e, h₁⟩) hrun

/-! ## Counting processes -/

section Census

variable {ι α : Type} [Fintype ι] (P : α → Prop) [DecidablePred P]

/-- The processes whose local state satisfies `P`. -/
def census (f : ι → α) : Finset ι :=
  Finset.univ.filter (fun c => P (f c))

variable {P} {f : ι → α} {c : ι} {a : α}

theorem mem_census {d : ι} : d ∈ census P f ↔ P (f d) := by
  simp [census]

/-- A process outside the kind keeps the count below the number of
processes. -/
theorem card_census_lt (hc : ¬ P (f c)) : (census P f).card < Fintype.card ι := by
  rw [← Finset.card_univ]
  exact Finset.card_lt_card (Finset.filter_ssubset.2 ⟨c, Finset.mem_univ c, hc⟩)

theorem card_census_eq_iff : (census P f).card = Fintype.card ι ↔ ∀ c, P (f c) := by
  rw [← Finset.card_univ, census, Finset.card_filter_eq_iff]
  simp

variable [DecidableEq ι]

/-- A process that stays in or out of the kind changes nothing. -/
theorem census_update_of_iff (h : P a ↔ P (f c)) :
    census P (Function.update f c a) = census P f := by
  ext d
  by_cases hd : d = c
  · subst hd
    simp [mem_census, h]
  · simp [mem_census, Function.update_of_ne hd]

/-- A process that enters the kind adds one. -/
theorem card_census_update_of_not (hc : ¬ P (f c)) (ha : P a) :
    (census P (Function.update f c a)).card = (census P f).card + 1 := by
  have hins : census P (Function.update f c a) = insert c (census P f) := by
    ext d
    by_cases hd : d = c
    · subst hd
      simp [mem_census, ha]
    · simp [mem_census, hd]
  rw [hins, Finset.card_insert_of_notMem (by rwa [mem_census])]

end Census

/-! ## Labelled runs -/

section Trace

variable {ε : Type}

/-- A run of a labelled step relation: from `s`, through the labels `ls` in
order, to `t`. -/
inductive Trace (step : σ → ε → σ → Prop) : σ → List ε → σ → Prop
  | nil (s : σ) : Trace step s [] s
  | snoc {s t u : σ} {ls : List ε} {l : ε} :
      Trace step s ls t → step t l u → Trace step s (ls ++ [l]) u

variable {step : σ → ε → σ → Prop}

theorem Trace.snoc_inv {s u : σ} {ls : List ε} {l : ε} (h : Trace step s (ls ++ [l]) u) :
    ∃ t, Trace step s ls t ∧ step t l u := by
  generalize hls : ls ++ [l] = ls' at h
  cases h with
  | nil => exact absurd hls (List.append_ne_nil_of_right_ne_nil _ (List.cons_ne_nil _ _))
  | snoc ht hstep =>
      obtain ⟨rfl, hl⟩ := List.append_inj' hls rfl
      rw [List.singleton_inj] at hl
      rw [hl]
      exact ⟨_, ht, hstep⟩

/-- A trace splits into a prefix and a suffix, through an intermediate state. -/
theorem Trace.of_append {s u : σ} {ls₁ ls₂ : List ε} (h : Trace step s (ls₁ ++ ls₂) u) :
    ∃ t, Trace step s ls₁ t ∧ Trace step t ls₂ u := by
  induction ls₂ using List.reverseRecOn generalizing u with
  | nil =>
      rw [List.append_nil] at h
      exact ⟨u, h, .nil u⟩
  | append_singleton ls₂ l ih =>
      rw [← List.append_assoc] at h
      obtain ⟨t, ht, hstep⟩ := h.snoc_inv
      obtain ⟨t', h₁, h₂⟩ := ih ht
      exact ⟨t', h₁, h₂.snoc hstep⟩

/-- A trace splits at any of its labels. -/
theorem Trace.of_append_cons {s u : σ} {ls₁ ls₂ : List ε} {l : ε}
    (h : Trace step s (ls₁ ++ l :: ls₂) u) :
    ∃ t t', Trace step s ls₁ t ∧ step t l t' ∧ Trace step t' ls₂ u := by
  rw [← List.singleton_append, ← List.append_assoc] at h
  obtain ⟨t', hpre, hpost⟩ := h.of_append
  obtain ⟨t, h₁, hstep⟩ := hpre.snoc_inv
  exact ⟨t, t', h₁, hstep, hpost⟩

end Trace

end Transition
