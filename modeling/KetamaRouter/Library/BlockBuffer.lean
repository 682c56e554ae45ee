import Mathlib.Data.List.Basic

/-!
# Messages absorbed block by block

`absorb` lets a process see the whole blocks of a message; `rest` is what stands
after the last of them.  A message that arrives in pieces needs no more memory
than a state and one block: `Buffers` says what these two hold of the pieces so
far, with anything at all behind the rest.
-/

namespace BlockBuffer

variable {σ α : Type} {process : σ → List α → σ} {size : Nat} {initial state : σ}
  {message piece buffer block tail : List α}

/-- The state after the whole blocks of a message. -/
def absorb (process : σ → List α → σ) (size : Nat) (initial : σ)
    (message : List α) : σ :=
  (List.range (message.length / size)).foldl
    (fun state block => process state ((message.drop (size * block)).take size))
    initial

/-- What stands after the last whole block. -/
def rest (size : Nat) (message : List α) : List α :=
  message.drop (size * (message.length / size))

@[simp] theorem rest_length (size : Nat) (message : List α) :
    (rest size message).length = message.length % size := by
  rw [rest, List.length_drop, Nat.mod_eq_sub]

@[simp] theorem absorb_nil : absorb process size initial [] = initial := by
  simp [absorb]

@[simp] theorem rest_nil (size : Nat) : rest size ([] : List α) = [] := by
  simp [rest]

/-- The blocks after the first are those of the rest of the message. -/
theorem absorb_block (some : 0 < size) (whole : block.length = size)
    (tail : List α) :
    absorb process size initial (block ++ tail) =
      absorb process size (process initial block) tail := by
  have count : (block ++ tail).length / size = tail.length / size + 1 := by
    rw [List.length_append, whole, Nat.add_comm, Nat.add_div_right _ some]
  have later (place : Nat) : (block ++ tail).drop (size * (place + 1)) =
      tail.drop (size * place) := by
    rw [Nat.mul_succ, Nat.add_comm, ← List.drop_drop, List.drop_left' whole]
  unfold absorb
  rw [count, List.range_succ_eq_map, List.foldl_cons, List.foldl_map]
  simp only [Nat.mul_zero, List.drop_zero, List.take_left' whole,
    Nat.succ_eq_add_one, later]

theorem rest_block (some : 0 < size) (whole : block.length = size)
    (tail : List α) : rest size (block ++ tail) = rest size tail := by
  unfold rest
  rw [List.length_append, whole, Nat.add_comm, Nat.add_div_right _ some,
    Nat.mul_succ, Nat.add_comm, ← List.drop_drop, List.drop_left' whole]

theorem absorb_short (short : message.length < size) :
    absorb process size initial message = initial := by
  simp [absorb, Nat.div_eq_of_lt short]

theorem rest_short (short : message.length < size) :
    rest size message = message := by
  simp [rest, Nat.div_eq_of_lt short]

/-- A message is cut into its first block and what follows. -/
theorem exists_block (long : size ≤ message.length) :
    ∃ block tail, message = block ++ tail ∧ block.length = size :=
  ⟨message.take size, message.drop size, (List.take_append_drop _ _).symm,
    List.length_take_of_le long⟩

/-- Absorbing can be resumed from the state and the rest. -/
theorem absorb_append (some : 0 < size) (initial : σ) (message tail : List α) :
    absorb process size initial (message ++ tail) =
      absorb process size (absorb process size initial message)
        (rest size message ++ tail) := by
  induction count : message.length using Nat.strongRecOn
    generalizing message initial with
  | ind length induction =>
      by_cases short : message.length < size
      · rw [absorb_short short, rest_short short]
      · obtain ⟨block, later, cut, whole⟩ := exists_block (Nat.not_lt.mp short)
        subst cut
        have fewer : later.length < length := by
          rw [List.length_append] at count
          omega
        rw [List.append_assoc, absorb_block some whole, absorb_block some whole,
          rest_block some whole]
        exact induction later.length fewer (process initial block) later rfl

theorem rest_append (some : 0 < size) (message tail : List α) :
    rest size (message ++ tail) = rest size (rest size message ++ tail) := by
  induction count : message.length using Nat.strongRecOn
    generalizing message with
  | ind length induction =>
      by_cases short : message.length < size
      · rw [rest_short short]
      · obtain ⟨block, later, cut, whole⟩ := exists_block (Nat.not_lt.mp short)
        subst cut
        have fewer : later.length < length := by
          rw [List.length_append] at count
          omega
        rw [List.append_assoc, rest_block some whole, rest_block some whole]
        exact induction later.length fewer later rfl

/-- A state and a buffer hold the pieces so far. -/
structure Buffers (process : σ → List α → σ) (size : Nat) (initial : σ)
    (message : List α) (state : σ) (buffer : List α) : Prop where
  absorbed : state = absorb process size initial message
  kept : buffer.take (message.length % size) = rest size message

namespace Buffers

theorem start (initial : σ) (buffer : List α) :
    Buffers process size initial [] initial buffer where
  absorbed := absorb_nil.symm
  kept := by simp

/-- A piece that leaves the block short is put behind the rest. -/
theorem fill (holds : Buffers process size initial message state buffer)
    (short : message.length % size + piece.length < size) (stale : List α) :
    Buffers process size initial (message ++ piece) state
      (buffer.take (message.length % size) ++ piece ++ stale) where
  absorbed := by
    rw [absorb_append (by omega), ← holds.absorbed, absorb_short]
    rw [List.length_append, rest_length]
    exact short
  kept := by
    have count : (message ++ piece).length % size =
        (rest size message ++ piece).length := by
      rw [List.length_append, List.length_append, rest_length,
        ← Nat.mod_add_mod, Nat.mod_eq_of_lt short]
    rw [rest_append (by omega), rest_short, holds.kept, count, List.take_left]
    rw [List.length_append, rest_length]
    exact short

/-- A piece that completes the block is processed with the rest. -/
theorem complete (holds : Buffers process size initial message state buffer)
    (some : 0 < size) (whole : message.length % size + piece.length = size)
    (stale : List α) :
    Buffers process size initial (message ++ piece)
      (process state (buffer.take (message.length % size) ++ piece)) stale where
  absorbed := by
    have block : (rest size message ++ piece).length = size := by
      rw [List.length_append, rest_length]
      exact whole
    have done : absorb process size state (rest size message ++ piece ++ []) =
        absorb process size (process state (rest size message ++ piece)) [] :=
      absorb_block some block []
    rw [List.append_nil, absorb_nil] at done
    rw [absorb_append some, ← holds.absorbed, holds.kept]
    exact done.symm
  kept := by
    have block : (rest size message ++ piece).length = size := by
      rw [List.length_append, rest_length]
      exact whole
    have done := rest_block some block []
    rw [List.append_nil, rest_nil] at done
    rw [rest_append some, done, List.length_append, ← Nat.mod_add_mod, whole,
      Nat.mod_self, List.take_zero]

/-- A block is processed where it stands if nothing is left over. -/
theorem direct (holds : Buffers process size initial message state buffer)
    (some : 0 < size) (aligned : message.length % size = 0)
    (whole : block.length = size) (stale : List α) :
    Buffers process size initial (message ++ block) (process state block)
      stale := by
  have completing : message.length % size + block.length = size := by
    rw [aligned, Nat.zero_add, whole]
  have completed := holds.complete some completing stale
  rw [aligned, List.take_zero, List.nil_append] at completed
  exact completed

end Buffers

end BlockBuffer
