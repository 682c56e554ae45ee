import KetamaRouter.Library.FaultProgram

/-!
# Forward simulation of programs

`Simulates related program other`: whenever `program` returns, `other` returns
the same value from every related state, and the final states are related.
-/

namespace FaultProgram

variable {ε σ τ α β : Type}

structure Simulates (related : σ → σ → Prop)
    (program other : EStateM ε σ α) : Prop where
  follow : ∀ {state twin value final}, related state twin →
    program state = .ok value final →
      ∃ after, related final after ∧ other twin = .ok value after

namespace Simulates

variable {related : σ → σ → Prop} {program other : EStateM ε σ α}

theorem pure (value : α) :
    Simulates related (Pure.pure value : EStateM ε σ α) (Pure.pure value) where
  follow alike ran := by
    cases ran
    exact ⟨_, alike, rfl⟩

theorem throw (fault : ε) :
    Simulates related (MonadExcept.throw fault : EStateM ε σ α) other where
  follow _ ran := by
    cases ran

theorem bind {rest next : α → EStateM ε σ β}
    (first : Simulates related program other)
    (later : ∀ value, Simulates related (rest value) (next value)) :
    Simulates related (program >>= rest) (other >>= next) where
  follow alike ran := by
    obtain ⟨value, middle, ranFirst, ranRest⟩ := of_bind_ok ran
    obtain ⟨twin, alikeMiddle, followed⟩ := first.follow alike ranFirst
    obtain ⟨after, alikeAfter, finished⟩ :=
      (later value).follow alikeMiddle ranRest
    exact ⟨after, alikeAfter, (bind_run_ok followed).trans finished⟩

/-- Reading the state: what follows may differ, but only for related states. -/
theorem get_bind {rest next : σ → EStateM ε σ β}
    (later : ∀ state twin, related state twin →
      Simulates related (rest state) (next twin)) :
    Simulates related (MonadState.get >>= rest) (MonadState.get >>= next) where
  follow {state twin _ _} alike ran := (later state twin alike).follow alike ran

theorem ite {condition : Prop} [Decidable condition]
    {program' other' : EStateM ε σ α} (yes : Simulates related program other)
    (no : Simulates related program' other') :
    Simulates related (if condition then program else program')
      (if condition then other else other') := by
  split
  · exact yes
  · exact no

theorem modify {change step : σ → σ}
    (keeps : ∀ state twin, related state twin →
      related (change state) (step twin)) :
    Simulates related (modify change : EStateM ε σ PUnit) (modify step) where
  follow alike ran := by
    cases ran
    exact ⟨_, keeps _ _ alike, rfl⟩

/-- Working on a component that related states share. -/
theorem focus {view : σ → τ} {put : σ → τ → σ} {inner : EStateM ε τ α}
    (shared : ∀ state twin, related state twin → view state = view twin)
    (keeps : ∀ state twin part, related state twin →
      related (put state part) (put twin part)) :
    Simulates related (FaultProgram.focus view put inner)
      (FaultProgram.focus view put inner) where
  follow {state twin _ _} alike ran := by
    unfold FaultProgram.focus at ran ⊢
    rw [← shared state twin alike]
    cases known : inner (view state) with
    | ok result part =>
        rw [known] at ran
        cases ran
        exact ⟨_, keeps state twin part alike, rfl⟩
    | error fault part =>
        rw [known] at ran
        cases ran

end Simulates

end FaultProgram
