import KetamaRouter.Library.FaultProgram

/-!
# Programs that do not see a part of their state

`Oblivious change view program`: the program runs alike before and after a
change of the state, which it carries along, and when it returns it has left
`view` as it was.
-/

namespace FaultProgram

variable {ε σ τ υ α β : Type}

/-- Change the state in which a run ends. -/
def mapFinal (change : σ → σ) :
    EStateM.Result ε σ α → EStateM.Result ε σ α
  | .ok value state => .ok value (change state)
  | .error fault state => .error fault (change state)

structure Oblivious (change : σ → σ) (view : σ → τ)
    (program : EStateM ε σ α) : Prop where
  commutes : ∀ state,
    program (change state) = mapFinal change (program state)
  keeps : ∀ state value after,
    program state = .ok value after → view after = view state

namespace Oblivious

variable {change : σ → σ} {view : σ → τ}

theorem pure (value : α) :
    Oblivious change view (Pure.pure value : EStateM ε σ α) where
  commutes _ := rfl
  keeps _ _ _ ran := by cases ran; rfl

theorem throw (fault : ε) :
    Oblivious change view (MonadExcept.throw fault : EStateM ε σ α) where
  commutes _ := rfl
  keeps _ _ _ ran := by cases ran

theorem bind {program : EStateM ε σ α} {rest : α → EStateM ε σ β}
    (first : Oblivious change view program)
    (next : ∀ value, Oblivious change view (rest value)) :
    Oblivious change view (program >>= rest) where
  commutes state := by
    have start := first.commutes state
    cases ran : program state with
    | ok value after =>
        rw [ran] at start
        rw [bind_run_ok ran, bind_run_ok start]
        exact (next value).commutes after
    | error fault after =>
        rw [ran] at start
        rw [bind_run_error ran, bind_run_error start]
        rfl
  keeps state value after finished := by
    cases ran : program state with
    | ok middle between =>
        rw [bind_run_ok ran] at finished
        exact ((next middle).keeps _ _ _ finished).trans
          (first.keeps _ _ _ ran)
    | error fault between =>
        rw [bind_run_error ran] at finished
        cases finished

/-- Reading the state, when what follows does not see the change in it. -/
theorem get_bind {rest : σ → EStateM ε σ β}
    (blind : ∀ state, rest (change state) = rest state)
    (next : ∀ state, Oblivious change view (rest state)) :
    Oblivious change view (get >>= rest) where
  commutes state := by
    change rest (change state) (change state) = mapFinal change (rest state state)
    rw [blind, (next state).commutes]
  keeps state := (next state).keeps state

theorem modify {step : σ → σ}
    (commutes : ∀ state, step (change state) = change (step state))
    (keeps : ∀ state, view (step state) = view state) :
    Oblivious change view (modify step : EStateM ε σ PUnit) where
  commutes state := by
    change EStateM.Result.ok _ (step (change state)) = .ok _ (change (step state))
    rw [commutes]
  keeps state _ _ ran := by
    cases ran
    exact keeps state

/-- A program on a component that neither the change nor the view touches. -/
theorem focus {part : σ → υ} {put : σ → υ → σ} {program : EStateM ε υ α}
    (unseen : ∀ state, part (change state) = part state)
    (commutes : ∀ state inner,
      put (change state) inner = change (put state inner))
    (keeps : ∀ state inner, view (put state inner) = view state) :
    Oblivious change view (FaultProgram.focus part put program) where
  commutes state := by
    unfold FaultProgram.focus
    rw [unseen]
    cases program (part state) <;> simp only [mapFinal, commutes]
  keeps state value after ran := by
    unfold FaultProgram.focus at ran
    cases inner : program (part state) with
    | ok value' part' =>
        rw [inner] at ran
        cases ran
        exact keeps state part'
    | error fault part' =>
        rw [inner] at ran
        cases ran

end Oblivious

end FaultProgram
