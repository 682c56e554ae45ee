import Mathlib.Data.List.Nodup
import Mathlib.Data.List.Basic
import Mathlib.Logic.Function.Basic

/-!
# Null-terminated chains of cells

A chain is described by the function that reads a cell's `next` field.
`Linked next start cells` says that the pointer walk beginning at `start`
visits exactly `cells` and then meets the null pointer.
-/

namespace PointerChain

variable {α : Type} {next other : α → Option α}

def Linked (next : α → Option α) : Option α → List α → Prop
  | start, [] => start = none
  | start, cell :: cells => start = some cell ∧ Linked next (next cell) cells

@[simp] theorem linked_nil {start : Option α} :
    Linked next start [] ↔ start = none :=
  Iff.rfl

@[simp] theorem linked_cons {start : Option α} {cell : α} {cells : List α} :
    Linked next start (cell :: cells) ↔
      start = some cell ∧ Linked next (next cell) cells :=
  Iff.rfl

theorem Linked.start_eq {start : Option α} {cells : List α}
    (linked : Linked next start cells) : start = cells.head? := by
  cases cells with
  | nil => exact linked
  | cons cell cells => exact linked.1

theorem Linked.eq_nil {cells : List α} (linked : Linked next none cells) :
    cells = [] := by
  cases cells with
  | nil => rfl
  | cons cell cells => cases linked.1

/-- The walk only reads the cells it visits. -/
theorem Linked.congr {start : Option α} {cells : List α}
    (linked : Linked next start cells)
    (same : ∀ cell ∈ cells, other cell = next cell) :
    Linked other start cells := by
  induction cells generalizing start with
  | nil => exact linked
  | cons cell cells induction =>
      refine ⟨linked.1, ?_⟩
      rw [same cell List.mem_cons_self]
      exact induction linked.2 fun later member =>
        same later (List.mem_cons_of_mem cell member)

/-- A chain is determined by where it starts. -/
theorem Linked.unique {start : Option α} {left right : List α}
    (leftLinked : Linked next start left)
    (rightLinked : Linked next start right) : left = right := by
  induction left generalizing start right with
  | nil =>
      cases (show start = none from leftLinked)
      exact rightLinked.eq_nil.symm
  | cons cell cells induction =>
      cases right with
      | nil => exact absurd (leftLinked.1.symm.trans rightLinked) (by simp)
      | cons cell' cells' =>
          have same : cell = cell' :=
            Option.some.inj (leftLinked.1.symm.trans rightLinked.1)
          subst same
          rw [induction leftLinked.2 rightLinked.2]

/-- Redirecting the null pointer of the last cell to a cell that ends there
appends that cell. -/
theorem Linked.append_last {start : Option α} {cells : List α}
    {last fresh : α}
    (linked : Linked next start (cells ++ [last]))
    (kept : ∀ cell ∈ cells, other cell = next cell)
    (redirected : other last = some fresh) (ended : other fresh = none) :
    Linked other start (cells ++ [last, fresh]) := by
  induction cells generalizing start with
  | nil =>
      simp only [List.nil_append, linked_cons, linked_nil] at linked ⊢
      exact ⟨linked.1, redirected, ended⟩
  | cons cell cells induction =>
      simp only [List.cons_append, linked_cons] at linked ⊢
      refine ⟨linked.1, ?_⟩
      rw [kept cell List.mem_cons_self]
      exact induction linked.2 fun later member =>
        kept later (List.mem_cons_of_mem cell member)

end PointerChain
