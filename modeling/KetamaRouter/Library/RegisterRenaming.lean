import Mathlib.Algebra.Group.End

/-!
# Registers that change places

A loop whose body assigns one register and then moves all of them leaves what
straight-line code leaves that has no moves and calls the registers by other
names each time.
-/

namespace RegisterRenaming

variable {Register Word : Type} [DecidableEq Register]

/-- `target := value`, where the value may depend on every register. -/
structure Assignment (Register Word : Type) where
  target : Register
  value : (Register → Word) → Word

namespace Assignment

def run (assignment : Assignment Register Word) (registers : Register → Word) :
    Register → Word :=
  Function.update registers assignment.target (assignment.value registers)

/-- The assignment, where register `r` goes by the name `names r`. -/
def renamed (assignment : Assignment Register Word)
    (names : Equiv.Perm Register) : Assignment Register Word :=
  { target := names assignment.target
    value := fun registers => assignment.value (registers ∘ names) }

theorem renamed_run (assignment : Assignment Register Word)
    (names : Equiv.Perm Register) (registers : Register → Word) :
    (assignment.renamed names).run registers ∘ names =
      assignment.run (registers ∘ names) :=
  Function.update_comp_eq_of_injective registers names.injective
    assignment.target (assignment.value (registers ∘ names))

end Assignment

/-- An assignment, and then every register `r` takes what is in `turn r`. -/
def movingPass (turn : Equiv.Perm Register)
    (body : Nat → Assignment Register Word) (registers : Register → Word)
    (pass : Nat) : Register → Word :=
  (body pass).run registers ∘ turn

/-- The same assignment where the registers stay. -/
def stayingPass (turn : Equiv.Perm Register)
    (body : Nat → Assignment Register Word) (registers : Register → Word)
    (pass : Nat) : Register → Word :=
  ((body pass).renamed (turn ^ pass)).run registers

theorem moving_eq_staying (turn : Equiv.Perm Register)
    (body : Nat → Assignment Register Word) (registers : Register → Word)
    (passes : Nat) :
    (List.range passes).foldl (movingPass turn body) registers =
      (List.range passes).foldl (stayingPass turn body) registers ∘
        ⇑(turn ^ passes) := by
  induction passes with
  | zero => rfl
  | succ passes induction =>
      simp only [List.range_succ, List.foldl_append, List.foldl_cons,
        List.foldl_nil, induction]
      calc (body passes).run
              ((List.range passes).foldl (stayingPass turn body) registers ∘
                ⇑(turn ^ passes)) ∘ turn
          = (stayingPass turn body
              ((List.range passes).foldl (stayingPass turn body) registers)
              passes ∘ ⇑(turn ^ passes)) ∘ turn := by
            rw [← Assignment.renamed_run]
            rfl
        _ = stayingPass turn body
              ((List.range passes).foldl (stayingPass turn body) registers)
              passes ∘ ⇑(turn ^ (passes + 1)) := by
            rw [pow_succ, Equiv.Perm.coe_mul]
            rfl

/-- After as many passes as bring every register back to its place, the moves
have made no difference. -/
theorem moving_eq_staying_of_full (turn : Equiv.Perm Register)
    (body : Nat → Assignment Register Word) (registers : Register → Word)
    {passes : Nat} (full : turn ^ passes = 1) :
    (List.range passes).foldl (movingPass turn body) registers =
      (List.range passes).foldl (stayingPass turn body) registers := by
  rw [moving_eq_staying, full]
  rfl

end RegisterRenaming
