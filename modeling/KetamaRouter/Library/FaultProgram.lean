import Mathlib.Logic.Function.Basic

/-!
# Imperative programs that may fault

A program is a state transformer that either returns a value or stops at a
fault, keeping the state it had reached.  `Yields program state post` is total
correctness from one starting state: the program returns, and its result and
final state satisfy `post`.
-/

namespace FaultProgram

variable {ε σ τ α β : Type}

/-- From `state` the program returns a value, with `post` of that value and of
the state it ends in. -/
def Yields (program : EStateM ε σ α) (state : σ)
    (post : α → σ → Prop) : Prop :=
  ∃ value final, program state = .ok value final ∧ post value final

@[simp] theorem pure_run (value : α) (state : σ) :
    (pure value : EStateM ε σ α) state = .ok value state :=
  rfl

@[simp] theorem get_run (state : σ) :
    (get : EStateM ε σ σ) state = .ok state state :=
  rfl

@[simp] theorem set_run (next state : σ) :
    (set next : EStateM ε σ PUnit) state = .ok ⟨⟩ next :=
  rfl

@[simp] theorem modify_run (change : σ → σ) (state : σ) :
    (modify change : EStateM ε σ PUnit) state = .ok ⟨⟩ (change state) :=
  rfl

@[simp] theorem throw_run (fault : ε) (state : σ) :
    (throw fault : EStateM ε σ α) state = .error fault state :=
  rfl

theorem bind_run_ok {program : EStateM ε σ α} {rest : α → EStateM ε σ β}
    {state middle : σ} {value : α}
    (ran : program state = .ok value middle) :
    (program >>= rest) state = rest value middle := by
  change EStateM.bind program rest state = rest value middle
  simp [EStateM.bind, ran]

theorem bind_run_error {program : EStateM ε σ α} {rest : α → EStateM ε σ β}
    {state middle : σ} {fault : ε}
    (stopped : program state = .error fault middle) :
    (program >>= rest) state = .error fault middle := by
  change EStateM.bind program rest state = .error fault middle
  simp [EStateM.bind, stopped]

theorem bind_run_congr {first second : EStateM ε σ α}
    {rest : α → EStateM ε σ β} {state other : σ}
    (same : first state = second other) :
    (first >>= rest) state = (second >>= rest) other := by
  change EStateM.bind first rest state = EStateM.bind second rest other
  simp only [EStateM.bind, same]

/-- A sequence that returns has returned from its first part. -/
theorem of_bind_ok {program : EStateM ε σ α} {rest : α → EStateM ε σ β}
    {state final : σ} {value : β}
    (ran : (program >>= rest) state = .ok value final) :
    ∃ first middle, program state = .ok first middle ∧
      rest first middle = .ok value final := by
  cases known : program state with
  | ok first middle =>
      rw [bind_run_ok known] at ran
      exact ⟨first, middle, rfl, ran⟩
  | error fault middle =>
      rw [bind_run_error known] at ran
      cases ran

/-- The state in which a run ends, normally or at a fault. -/
def final : EStateM.Result ε σ α → σ
  | .ok _ state => state
  | .error _ state => state

namespace Yields

variable {program : EStateM ε σ α} {state : σ} {post weaker : α → σ → Prop}

theorem pure {value : α} (holds : post value state) :
    Yields (Pure.pure value : EStateM ε σ α) state post :=
  ⟨value, state, rfl, holds⟩

theorem mono (yields : Yields program state post)
    (weaken : ∀ value final, post value final → weaker value final) :
    Yields program state weaker := by
  obtain ⟨value, final, ran, holds⟩ := yields
  exact ⟨value, final, ran, weaken value final holds⟩

/-- What the program is known to yield is what it returned. -/
theorem result {value : α} {final : σ} (yields : Yields program state post)
    (ran : program state = .ok value final) : post value final := by
  obtain ⟨value', final', ran', holds⟩ := yields
  rw [ran] at ran'
  cases ran'
  exact holds

/-- Programs whose runs end alike have the same properties. -/
theorem congr {other : EStateM ε σ α} {start : σ}
    (same : program state = other start)
    (yields : Yields other start post) : Yields program state post := by
  obtain ⟨value, final, ran, holds⟩ := yields
  exact ⟨value, final, same.trans ran, holds⟩

theorem bind {rest : α → EStateM ε σ β} {last : β → σ → Prop}
    (first : Yields program state post)
    (next : ∀ value middle, post value middle →
      Yields (rest value) middle last) :
    Yields (program >>= rest) state last := by
  obtain ⟨value, middle, ran, holds⟩ := first
  obtain ⟨result, final, finished, reached⟩ := next value middle holds
  exact ⟨result, final, (bind_run_ok ran).trans finished, reached⟩

/-- A program known to return a value can be replaced by that value. -/
theorem bind_run {rest : α → EStateM ε σ β} {last : β → σ → Prop}
    {middle : σ} {value : α} (ran : program state = .ok value middle)
    (next : Yields (rest value) middle last) :
    Yields (program >>= rest) state last := by
  obtain ⟨result, final, finished, reached⟩ := next
  exact ⟨result, final, (bind_run_ok ran).trans finished, reached⟩

theorem get_bind {rest : σ → EStateM ε σ β} {last : β → σ → Prop}
    (next : Yields (rest state) state last) :
    Yields (MonadState.get >>= rest) state last :=
  next

theorem set_bind {rest : PUnit → EStateM ε σ β} {last : β → σ → Prop}
    {stored : σ} (next : Yields (rest ⟨⟩) stored last) :
    Yields (set stored >>= rest) state last :=
  next

theorem modify_bind {rest : PUnit → EStateM ε σ β} {last : β → σ → Prop}
    {change : σ → σ} (next : Yields (rest ⟨⟩) (change state) last) :
    Yields (modify change >>= rest) state last :=
  next

theorem set {post : PUnit → σ → Prop} {stored : σ}
    (holds : post ⟨⟩ stored) :
    Yields (MonadStateOf.set stored : EStateM ε σ PUnit) state post :=
  ⟨⟨⟩, stored, rfl, holds⟩

theorem modify {change : σ → σ} {post : PUnit → σ → Prop}
    (holds : post ⟨⟩ (change state)) :
    Yields (modify change : EStateM ε σ PUnit) state post :=
  ⟨⟨⟩, change state, rfl, holds⟩

end Yields

/-- Run a program on one component of a larger state. -/
def focus (view : σ → τ) (put : σ → τ → σ) (program : EStateM ε τ α) :
    EStateM ε σ α := fun state =>
  match program (view state) with
  | .ok value inner => .ok value (put state inner)
  | .error fault inner => .error fault (put state inner)

theorem Yields.focus {view : σ → τ} {put : σ → τ → σ}
    {program : EStateM ε τ α} {state : σ} {post : α → τ → Prop}
    (inner : Yields program (view state) post) :
    Yields (FaultProgram.focus view put program) state fun value final =>
      ∃ part, final = put state part ∧ post value part := by
  obtain ⟨value, part, ran, holds⟩ := inner
  exact ⟨value, put state part, by simp [FaultProgram.focus, ran],
    part, rfl, holds⟩

/-- A program that returned from a component has returned there. -/
theorem of_focus_ok {view : σ → τ} {put : σ → τ → σ} {inner : EStateM ε τ α}
    {state final : σ} {value : α}
    (ran : focus view put inner state = .ok value final) :
    ∃ part, inner (view state) = .ok value part ∧ final = put state part := by
  unfold focus at ran
  cases known : inner (view state) with
  | ok result part =>
      rw [known] at ran
      cases ran
      exact ⟨part, rfl, rfl⟩
  | error fault part =>
      rw [known] at ran
      cases ran

/-- What a program that leaves the state as it is returns. -/
def outcome (program : EStateM ε σ α) (state : σ) : Except ε α :=
  match program state with
  | .ok value _ => .ok value
  | .error fault _ => .error fault

theorem outcome_ok {program : EStateM ε σ α} {state : σ} {value : α}
    (ran : program state = .ok value state) :
    outcome program state = .ok value := by
  unfold outcome
  rw [ran]

theorem ofExcept_run (value : α) (state : σ) :
    (ofExcept (.ok value : Except ε α) : EStateM ε σ α) state =
      .ok value state :=
  rfl

/-- Whenever the program returns, it has kept the invariant. -/
structure Preserves (inv : σ → Prop) (program : EStateM ε σ α) : Prop where
  kept : ∀ {state value final}, inv state →
    program state = .ok value final → inv final

namespace Preserves

variable {inv : σ → Prop} {program : EStateM ε σ α}

theorem pure (value : α) :
    Preserves inv (Pure.pure value : EStateM ε σ α) where
  kept holds ran := by
    cases ran
    exact holds

theorem throw (fault : ε) :
    Preserves inv (MonadExcept.throw fault : EStateM ε σ α) where
  kept holds ran := by
    cases ran

theorem bind {rest : α → EStateM ε σ β} (first : Preserves inv program)
    (next : ∀ value, Preserves inv (rest value)) :
    Preserves inv (program >>= rest) where
  kept holds ran := by
    obtain ⟨value, middle, ranFirst, ranRest⟩ := of_bind_ok ran
    exact (next value).kept (first.kept holds ranFirst) ranRest

theorem get_bind {rest : σ → EStateM ε σ β}
    (next : ∀ state, Preserves inv (rest state)) :
    Preserves inv (MonadState.get >>= rest) where
  kept {state _ _} holds ran := (next state).kept holds ran

theorem modify {change : σ → σ}
    (keeps : ∀ state, inv state → inv (change state)) :
    Preserves inv (modify change : EStateM ε σ PUnit) where
  kept holds ran := by
    cases ran
    exact keeps _ holds

theorem focus {view : σ → τ} {put : σ → τ → σ} {inner : EStateM ε τ α}
    (keeps : ∀ state part, inv state → inv (put state part)) :
    Preserves inv (FaultProgram.focus view put inner) where
  kept {state _ _} holds ran := by
    obtain ⟨part, -, ended⟩ := of_focus_ok ran
    rw [ended]
    exact keeps state part holds

end Preserves

/-- Wherever the program ends, by returning or by a fault, the invariant
holds. -/
structure Maintains (inv : σ → Prop) (program : EStateM ε σ α) : Prop where
  ends : ∀ {state}, inv state → inv (final (program state))

namespace Maintains

variable {inv : σ → Prop} {program : EStateM ε σ α}

theorem kept {state after : σ} {value : α} (maintains : Maintains inv program)
    (holds : inv state) (ran : program state = .ok value after) : inv after := by
  have ends := maintains.ends holds
  rw [ran] at ends
  exact ends

theorem pure (value : α) :
    Maintains inv (Pure.pure value : EStateM ε σ α) where
  ends holds := holds

theorem throw (fault : ε) :
    Maintains inv (MonadExcept.throw fault : EStateM ε σ α) where
  ends holds := holds

theorem bind {rest : α → EStateM ε σ β} (first : Maintains inv program)
    (next : ∀ value, Maintains inv (rest value)) :
    Maintains inv (program >>= rest) where
  ends {state} holds := by
    have middle := first.ends holds
    cases ran : program state with
    | ok value after =>
        rw [ran] at middle
        rw [bind_run_ok ran]
        exact (next value).ends middle
    | error fault after =>
        rw [ran] at middle
        rw [bind_run_error ran]
        exact middle

/-- What is read may be taken from a state where the invariant holds. -/
theorem get_bind {rest : σ → EStateM ε σ β}
    (next : ∀ state, inv state → Maintains inv (rest state)) :
    Maintains inv (MonadState.get >>= rest) where
  ends {state} holds := (next state holds).ends holds

theorem modify {change : σ → σ}
    (keeps : ∀ state, inv state → inv (change state)) :
    Maintains inv (modify change : EStateM ε σ PUnit) where
  ends holds := keeps _ holds

theorem set {stored : σ} (holds : inv stored) :
    Maintains inv (MonadState.set stored : EStateM ε σ PUnit) where
  ends _ := holds

/-- A program on a part of the state maintains what it maintains of the
part. -/
theorem focus {view : σ → τ} {put : σ → τ → σ} {inner : EStateM ε τ α}
    (part : ∀ state, inv state → inv (put state (final (inner (view state))))) :
    Maintains inv (FaultProgram.focus view put inner) where
  ends {state} holds := by
    have ends := part state holds
    unfold FaultProgram.focus
    cases ran : inner (view state) with
    | ok value after =>
        rw [ran] at ends
        exact ends
    | error fault after =>
        rw [ran] at ends
        exact ends

end Maintains

end FaultProgram
