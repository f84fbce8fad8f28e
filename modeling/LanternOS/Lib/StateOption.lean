/-
# `StateOption` — stateful code that can panic

Code that reads and updates a state and can panic runs in `StateT σ Option`:
`none` is the panic, and `some (a, s')` is a return of `a` that leaves the
state `s'`.  A device driver is such code, with its state the record it
keeps, the registers it has written and the answers it has read.

What a proof about a caller needs is how a chain of steps returns.  It
returned exactly when its first step returned and the rest returned from
there (`run_bind_eq_some`), and a first step known to return hands its value
on (`run_bind_of_some`).  The other lemmas evaluate the primitive steps.

A property of every return is `Keeps R x`: each run of `x` that returns
relates the state it started in to the state it left by `R`.  For a
reflexive and transitive `R` it is built the way the code is, step by step
(`Keeps.bind`, `Keeps.ite`, `Keeps.pure`, `Keeps.foldlM`), so a fact such as "the
transcript only grows, and only by reads" is proved once per primitive and
then follows for every function made of them.
-/
import Mathlib

namespace StateOption

variable {σ α β : Type}

/-! ## Evaluating a chain of steps -/

/-- A chain that returned: its first step did, and the rest did from the
state that step left. -/
theorem run_bind_eq_some {x : StateT σ Option α} {f : α → StateT σ Option β} {s s'' : σ} {b : β} :
    (x >>= f).run s = some (b, s'') ↔
      ∃ a s', x.run s = some (a, s') ∧ (f a).run s' = some (b, s'') := by
  rw [StateT.run_bind, Option.bind_eq_bind, Option.bind_eq_some_iff]
  constructor
  · rintro ⟨⟨a, s'⟩, hx, hf⟩
    exact ⟨a, s', hx, hf⟩
  · rintro ⟨a, s', hx, hf⟩
    exact ⟨(a, s'), hx, hf⟩

/-- A first step that returned `a` in `s'` hands both to the rest. -/
theorem run_bind_of_some {x : StateT σ Option α} {f : α → StateT σ Option β} {s s' : σ} {a : α}
    (hx : x.run s = some (a, s')) : (x >>= f).run s = (f a).run s' := by
  rw [StateT.run_bind, hx]
  rfl

/-- A first step that panicked ends the chain in a panic. -/
theorem run_bind_of_none {x : StateT σ Option α} {f : α → StateT σ Option β} {s : σ}
    (hx : x.run s = none) : (x >>= f).run s = none := by
  rw [StateT.run_bind, hx]
  rfl

@[simp] theorem run_pure_some (a : α) (s : σ) : (pure a : StateT σ Option α).run s = some (a, s) := rfl

/-- A step whose value is only transformed returned as the step did. -/
theorem run_map_eq_some {x : StateT σ Option α} {f : α → β} {s s' : σ} {b : β}
    (h : (x >>= fun a => pure (f a)).run s = some (b, s')) : ∃ a, x.run s = some (a, s') ∧ b = f a := by
  obtain ⟨a, s₁, hx, hret⟩ := run_bind_eq_some.1 h
  rw [run_pure_some, Option.some.injEq, Prod.mk.injEq] at hret
  obtain ⟨rfl, rfl⟩ := hret
  exact ⟨a, hx, rfl⟩

/-- A step that can only panic, lifted into the chain, leaves the state. -/
@[simp] theorem run_liftM_map (o : Option α) (s : σ) :
    (liftM o : StateT σ Option α).run s = o.map (fun a => (a, s)) := by
  cases o <;> rfl

/-! ## Properties of every return -/

/-- Every run of `x` that returns relates its first state to its last by
`R`. -/
def Keeps (R : σ → σ → Prop) (x : StateT σ Option α) : Prop :=
  ∀ s a s', x.run s = some (a, s') → R s s'

section Keeps

variable {R : σ → σ → Prop}

theorem Keeps.pure (hR : ∀ s, R s s) (a : α) : Keeps R (Pure.pure a : StateT σ Option α) := by
  intro s b s' h
  rw [run_pure_some, Option.some.injEq, Prod.mk.injEq] at h
  exact h.2 ▸ hR s

theorem Keeps.bind (hR : ∀ s₁ s₂ s₃, R s₁ s₂ → R s₂ s₃ → R s₁ s₃) {x : StateT σ Option α}
    {f : α → StateT σ Option β} (hx : Keeps R x) (hf : ∀ a, Keeps R (f a)) : Keeps R (x >>= f) := by
  intro s b s'' h
  obtain ⟨a, s', h₁, h₂⟩ := run_bind_eq_some.1 h
  exact hR _ _ _ (hx s a s' h₁) (hf a s' b s'' h₂)

theorem Keeps.ite {c : Prop} [Decidable c] {x y : StateT σ Option α} (hx : Keeps R x) (hy : Keeps R y) :
    Keeps R (if c then x else y) := by
  split
  · exact hx
  · exact hy

theorem Keeps.liftM (hR : ∀ s, R s s) (o : Option α) : Keeps R (liftM o : StateT σ Option α) := by
  intro s a s' h
  rw [run_liftM_map, Option.map_eq_some_iff] at h
  obtain ⟨_, -, h⟩ := h
  rw [Prod.mk.injEq] at h
  exact h.2 ▸ hR s

/-- A fold keeps what each of its steps keeps. -/
theorem Keeps.foldlM (hR : ∀ s, R s s) (htrans : ∀ s₁ s₂ s₃, R s₁ s₂ → R s₂ s₃ → R s₁ s₃)
    {f : β → α → StateT σ Option β} (hf : ∀ b a, Keeps R (f b a)) :
    ∀ (l : List α) (init : β), Keeps R (l.foldlM f init)
  | [], init => Keeps.pure hR init
  | a :: l, init => by
      rw [List.foldlM_cons]
      exact Keeps.bind htrans (hf init a) fun b => Keeps.foldlM hR htrans hf l b

end Keeps

end StateOption
