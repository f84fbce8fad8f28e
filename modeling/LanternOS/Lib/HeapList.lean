/-
# `HeapList` — singly linked lists threaded through memory

An intrusive free list keeps its nodes in the memory it manages: each node
is a cell holding the address of the next one, and a distinguished `null`
ends the list.  `HeapList next null p l` says that following `next` from `p`
visits the addresses of `l`, in order, and then reaches `null`; memory is the
function `next` from an address to the pointer stored there.

Because the list is finite and ends in `null`, it is acyclic: `nodup` says
that no address is visited twice, since a second visit would start the same
list again, strictly shorter.  The rest is what the operations of a stack
stored this way need: the list is determined by its head (`unique`), it is
empty exactly when the head is `null` and otherwise starts with the head, a write outside the list leaves it
alone (`congr`, the frame rule), and writing the old head into a
fresh cell pushes that cell (`push`).  Over a finite type of addresses the
list is shorter than the number of addresses, `null` being none of its cells.
-/
import Mathlib

variable {α : Type} {next : α → α} {null : α}

/-- Following `next` from the head visits the cells of the list, in order,
and then reaches `null`. -/
inductive HeapList (next : α → α) (null : α) : α → List α → Prop
  | nil : HeapList next null null []
  | cons {p : α} {l : List α} :
      p ≠ null → HeapList next null (next p) l → HeapList next null p (p :: l)

namespace HeapList

variable {p : α} {l : List α}

theorem eq_nil_iff (h : HeapList next null p l) : l = [] ↔ p = null := by
  cases h with
  | nil => simp
  | cons hp _ => simp [hp]

theorem cons_inv {x : α} (h : HeapList next null p (x :: l)) :
    x = p ∧ p ≠ null ∧ HeapList next null (next p) l := by
  cases h with
  | cons hp h => exact ⟨rfl, hp, h⟩

theorem null_not_mem (h : HeapList next null p l) : null ∉ l := by
  induction h with
  | nil => simp
  | cons hp _ ih =>
      rw [List.mem_cons, not_or]
      exact ⟨Ne.symm hp, ih⟩

/-- The list is determined by its head. -/
theorem unique {l' : List α} (h : HeapList next null p l) (h' : HeapList next null p l') :
    l = l' := by
  induction h generalizing l' with
  | nil =>
      cases h' with
      | nil => rfl
      | cons hp _ => exact absurd rfl hp
  | cons hp _ ih =>
      cases h' with
      | nil => exact absurd rfl hp
      | cons _ h' => rw [ih h']

/-- Every cell of the list heads the rest of it. -/
theorem of_append {x : α} {l₁ l₂ : List α} (h : HeapList next null p (l₁ ++ x :: l₂)) :
    HeapList next null x (x :: l₂) := by
  induction l₁ generalizing p with
  | nil =>
      rw [List.nil_append] at h
      cases h with
      | cons hp h => exact .cons hp h
  | cons y l₁ ih =>
      cases h with
      | cons _ h => exact ih h

/-- The list is acyclic: a finite walk that reaches `null` visits no cell
twice. -/
theorem nodup (h : HeapList next null p l) : l.Nodup := by
  induction h with
  | nil => exact List.nodup_nil
  | @cons p l hp hl ih =>
      refine List.nodup_cons.2 ⟨?_, ih⟩
      intro hmem
      -- a second visit to `p` would start the whole list again from a shorter suffix
      obtain ⟨l₁, l₂, rfl⟩ := List.append_of_mem hmem
      have hsame := (HeapList.cons hp hl).unique hl.of_append
      have hlen := congrArg List.length hsame
      simp only [List.length_cons, List.length_append] at hlen
      omega

/-- Over a finite type of cells the list is shorter than the number of
cells: `null` is not one of them. -/
theorem length_lt_card [Fintype α] (h : HeapList next null p l) : l.length < Fintype.card α := by
  have hnd : (null :: l).Nodup := List.nodup_cons.2 ⟨h.null_not_mem, h.nodup⟩
  exact hnd.length_le_card

/-- The frame rule: the list survives any memory that agrees on its cells. -/
theorem congr {next' : α → α} (h : HeapList next null p l) (hagree : ∀ x ∈ l, next' x = next x) :
    HeapList next' null p l := by
  induction h with
  | nil => exact .nil
  | @cons q l hq _ ih =>
      refine .cons hq ?_
      rw [hagree q List.mem_cons_self]
      exact ih (fun x hx => hagree x (List.mem_cons_of_mem _ hx))

variable [DecidableEq α]

/-- A write to a cell off the list leaves the list alone. -/
theorem update_of_not_mem {a v : α} (h : HeapList next null p l) (ha : a ∉ l) :
    HeapList (Function.update next a v) null p l := by
  refine h.congr (fun x hx => ?_)
  -- `x` is on the list and `a` is not
  have hxa : x ≠ a := fun hxa => ha (hxa ▸ hx)
  exact Function.update_of_ne hxa _ _

/-- Writing the head into a fresh cell `a` pushes `a` onto the list. -/
theorem push {a : α} (h : HeapList next null p l) (ha : a ≠ null) (hfresh : a ∉ l) :
    HeapList (Function.update next a p) null a (a :: l) := by
  refine .cons ha ?_
  rw [Function.update_self]
  exact h.update_of_not_mem hfresh

end HeapList
