import Mathlib.Data.List.Induction

/-!
# Runs of a labelled transition system

A run records the labels of its steps, oldest first.  What holds at the start
and is kept by every step holds at the end; a run is restricted by what its
steps may be from the states they start in.
-/

namespace LabelledRun

variable {State Label : Type} {takes : State → Label → State → Prop}
  {start last : State}

inductive Run (takes : State → Label → State → Prop) (start : State) :
    List Label → State → Prop where
  | nil : Run takes start [] start
  | snoc {labels : List Label} {state after : State} {label : Label}
      (run : Run takes start labels state) (step : takes state label after) :
      Run takes start (labels ++ [label]) after

/-- The steps that are allowed in the state they start from. -/
def Restricted (allowed : State → Label → Prop)
    (takes : State → Label → State → Prop) (state : State) (label : Label)
    (after : State) : Prop :=
  allowed state label ∧ takes state label after

namespace Run

theorem keeps {inv : State → Prop} {labels : List Label}
    (run : Run takes start labels last) (holds : inv start)
    (kept : ∀ {state label after}, inv state → takes state label after →
      inv after) : inv last := by
  induction run with
  | nil => exact holds
  | snoc _ step induction => exact kept induction step

theorem mono {other : State → Label → State → Prop} {labels : List Label}
    (run : Run takes start labels last)
    (weaken : ∀ {state label after}, takes state label after →
      other state label after) : Run other start labels last := by
  induction run with
  | nil => exact .nil
  | snoc _ step induction => exact induction.snoc (weaken step)

/-- A run whose steps are all allowed. -/
theorem restrict {allowed : State → Label → Prop} {labels : List Label}
    (run : Run takes start labels last)
    (fine : ∀ label ∈ labels, ∀ state, allowed state label) :
    Run (Restricted allowed takes) start labels last := by
  induction run with
  | nil => exact .nil
  | snoc _ step induction =>
      have earlier := induction fun label member =>
        fine label (List.mem_append_left _ member)
      exact earlier.snoc ⟨fine _ (List.mem_append_right _ List.mem_cons_self) _,
        step⟩

theorem of_nil (run : Run takes start [] last) : last = start := by
  generalize same : ([] : List Label) = labels at run
  cases run with
  | nil => rfl
  | snoc run step => exact absurd same.symm (List.append_ne_nil_of_right_ne_nil _
      (List.cons_ne_nil _ _))

theorem of_snoc {labels : List Label} {label : Label}
    (run : Run takes start (labels ++ [label]) last) :
    ∃ state, Run takes start labels state ∧ takes state label last := by
  generalize same : labels ++ [label] = whole at run
  cases run with
  | nil => exact absurd same (List.append_ne_nil_of_right_ne_nil _
      (List.cons_ne_nil _ _))
  | snoc run step =>
      obtain ⟨sameLabels, sameLabel⟩ := List.append_inj' same rfl
      cases sameLabels
      cases sameLabel
      exact ⟨_, run, step⟩

/-- Labels determine where a run ends if they determine every step. -/
theorem unique {labels : List Label} {other : State}
    (run : Run takes start labels last) (again : Run takes start labels other)
    (determined : ∀ {state label after after'}, takes state label after →
      takes state label after' → after = after') : last = other := by
  induction run generalizing other with
  | nil => exact again.of_nil.symm
  | snoc run step induction =>
      obtain ⟨state, before, last⟩ := again.of_snoc
      have same := induction before
      subst same
      exact determined step last

/-- Runs one after the other. -/
theorem append {first later : List Label} {middle : State}
    (run : Run takes start first middle) (next : Run takes middle later last) :
    Run takes start (first ++ later) last := by
  induction next with
  | nil =>
      rw [List.append_nil]
      exact run
  | snoc _ step induction =>
      rw [← List.append_assoc]
      exact induction.snoc step

/-- The state after the first part of a run. -/
theorem split {first later : List Label}
    (run : Run takes start (first ++ later) last) :
    ∃ middle, Run takes start first middle ∧ Run takes middle later last := by
  induction later using List.reverseRecOn generalizing last with
  | nil =>
      rw [List.append_nil] at run
      exact ⟨last, run, .nil⟩
  | append_singleton later label induction =>
      rw [← List.append_assoc] at run
      obtain ⟨state, before, step⟩ := run.of_snoc
      obtain ⟨middle, begins, continues⟩ := induction before
      exact ⟨middle, begins, continues.snoc step⟩

/-- Where allowed steps keep a property and no other step does, the property
holds all along a run if and only if every step of the run is allowed. -/
theorem all_along_iff {allowed : State → Label → Prop} {holds : State → Prop}
    {labels : List Label} (run : Run takes start labels last)
    (determined : ∀ {state label after after'}, takes state label after →
      takes state label after' → after = after')
    (kept : ∀ {labels state},
      Run (Restricted allowed takes) start labels state → holds state)
    (lost : ∀ {labels state label after},
      Run (Restricted allowed takes) start labels state →
        takes state label after → ¬ allowed state label → ¬ holds after) :
    (∀ soFar state, soFar <+: labels → Run takes start soFar state →
        holds state) ↔ Run (Restricted allowed takes) start labels last := by
  constructor
  · intro always
    induction run with
    | nil => exact .nil
    | @snoc labels state after label run step induction =>
        have before := induction fun soFar state part =>
          always soFar state (part.trans (List.prefix_append _ _))
        have good := always _ after (List.prefix_refl _) (run.snoc step)
        have fine : allowed state label := by
          by_contra bad
          exact lost before step bad good
        exact before.snoc ⟨fine, step⟩
  · intro allowed soFar state part reached
    obtain ⟨later, whole⟩ := part
    rw [← whole] at allowed
    obtain ⟨middle, begins, -⟩ := allowed.split
    have same := reached.unique (begins.mono fun step => step.2) determined
    rw [same]
    exact kept begins

/-- If every step lowers a measure by one, the measure counts the steps. -/
theorem counts_down {inv : State → Prop} {measure : State → Nat}
    {labels : List Label} (run : Run takes start labels last)
    (holds : inv start)
    (lowers : ∀ {state label after}, inv state → takes state label after →
      inv after ∧ measure state = measure after + 1) :
    inv last ∧ measure start = labels.length + measure last := by
  induction run with
  | nil => exact ⟨holds, (Nat.zero_add _).symm⟩
  | snoc _ step induction =>
      obtain ⟨middle, counted⟩ := induction
      obtain ⟨after, lower⟩ := lowers middle step
      refine ⟨after, ?_⟩
      rw [List.length_append, List.length_singleton]
      omega

end Run

end LabelledRun
