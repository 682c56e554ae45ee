import Mathlib.Data.List.TakeWhile

/-!
# Texts cut at a delimiter

`cutAt` takes what stands before the first delimiter, and `split` all the
pieces a delimiter ends, with the rest that none ends.  Splitting can be
resumed: a rest carries everything that later text needs.
-/

namespace Delimited

variable {α : Type} [DecidableEq α] {stop : α} {text head tail : List α}

/-- The text before the first `stop` and the text after it. -/
def cutAt (stop : α) (text : List α) : Option (List α × List α) :=
  match text.dropWhile (· ≠ stop) with
  | [] => none
  | _ :: tail => some (text.takeWhile (· ≠ stop), tail)

@[simp] theorem cutAt_nil : cutAt stop [] = none :=
  rfl

theorem cutAt_cons (first : α) (text : List α) :
    cutAt stop (first :: text) =
      if first = stop then some ([], text)
      else (cutAt stop text).map fun (head, tail) => (first :: head, tail) := by
  unfold cutAt
  by_cases same : first = stop
  · simp [same]
  · simp only [ne_eq, same, not_false_eq_true, decide_true,
      List.dropWhile_cons_of_pos, List.takeWhile_cons_of_pos, if_false]
    cases text.dropWhile (· ≠ stop) <;> rfl

/-- Cutting a text at the first occurrence of a delimiter its head avoids. -/
theorem cutAt_append (tail : List α) (avoids : stop ∉ head) :
    cutAt stop (head ++ stop :: tail) = some (head, tail) := by
  induction head with
  | nil => simp [cutAt_cons]
  | cons first head induction =>
      have different : first ≠ stop := fun same =>
        avoids (same ▸ List.mem_cons_self)
      have rest := induction fun member =>
        avoids (List.mem_cons_of_mem first member)
      simp [cutAt_cons, different, rest]

theorem cutAt_none (avoids : stop ∉ text) : cutAt stop text = none := by
  induction text with
  | nil => rfl
  | cons first text induction =>
      have different : first ≠ stop := fun same =>
        avoids (same ▸ List.mem_cons_self)
      have rest := induction fun member =>
        avoids (List.mem_cons_of_mem first member)
      simp [cutAt_cons, different, rest]

/-- The pieces that `stop` ends, and the rest. -/
def split (stop : α) : List α → List (List α) × List α
  | [] => ([], [])
  | first :: text =>
      if first = stop then ([] :: (split stop text).1, (split stop text).2)
      else
        match split stop text with
        | ([], rest) => ([], first :: rest)
        | (piece :: pieces, rest) => ((first :: piece) :: pieces, rest)

theorem split_cons (first : α) (text : List α) :
    split stop (first :: text) =
      if first = stop then ([] :: (split stop text).1, (split stop text).2)
      else
        match split stop text with
        | ([], rest) => ([], first :: rest)
        | (piece :: pieces, rest) => ((first :: piece) :: pieces, rest) :=
  rfl

/-- Splitting takes one piece after the other. -/
theorem split_of_cut (cut : cutAt stop text = some (head, tail)) :
    split stop text = (head :: (split stop tail).1, (split stop tail).2) := by
  induction text generalizing head with
  | nil => cases cut
  | cons first text induction =>
      rw [cutAt_cons] at cut
      split at cut
      · rename_i same
        cases cut
        simp [split, same]
      · rename_i different
        obtain ⟨⟨head', tail'⟩, inner, same⟩ := Option.map_eq_some_iff.mp cut
        cases same
        simp [split, different, induction inner]

theorem split_of_no_cut (whole : cutAt stop text = none) :
    split stop text = ([], text) := by
  induction text with
  | nil => rfl
  | cons first text induction =>
      rw [cutAt_cons] at whole
      split at whole
      · cases whole
      · rename_i different
        have inner := Option.map_eq_none_iff.mp whole
        simp [split, different, induction inner]

/-- Splitting a text in two steps. -/
theorem split_append (left right : List α) :
    split stop (left ++ right) =
      ((split stop left).1 ++ (split stop ((split stop left).2 ++ right)).1,
        (split stop ((split stop left).2 ++ right)).2) := by
  induction left with
  | nil => simp [split]
  | cons first left induction =>
      rw [List.cons_append, split_cons first (left ++ right),
        split_cons first left, induction]
      by_cases same : first = stop
      · simp only [same, if_true, List.cons_append]
      · simp only [same, if_false]
        cases shape : split stop left with
        | mk pieces rest =>
            cases pieces with
            | nil =>
                simp only [List.nil_append, List.cons_append]
                rw [split_cons first (rest ++ right), if_neg same]
            | cons piece pieces => rfl

/-- Each piece has a delimiter of its own. -/
theorem split_length_le (stop : α) (text : List α) :
    (split stop text).1.length ≤ text.length := by
  induction text with
  | nil => exact Nat.le_refl 0
  | cons first text induction =>
      unfold split
      split
      · exact Nat.succ_le_succ induction
      · cases shape : split stop text with
        | mk pieces rest =>
            rw [shape] at induction
            cases pieces with
            | nil => exact Nat.zero_le _
            | cons piece pieces => exact Nat.le_succ_of_le induction

/-- Pieces that avoid the delimiter are recovered from their concatenation. -/
theorem split_pieces {pieces : List (List α)} (rest : List α)
    (avoids : ∀ piece ∈ pieces, stop ∉ piece) (restAvoids : stop ∉ rest) :
    split stop (pieces.flatMap (· ++ [stop]) ++ rest) = (pieces, rest) := by
  induction pieces with
  | nil => simpa using split_of_no_cut (cutAt_none restAvoids)
  | cons piece pieces induction =>
      have cut := cutAt_append (pieces.flatMap (· ++ [stop]) ++ rest)
        (avoids piece List.mem_cons_self)
      have later := induction fun other member =>
        avoids other (List.mem_cons_of_mem piece member)
      have shape : (piece :: pieces).flatMap (· ++ [stop]) ++ rest =
          piece ++ stop :: (pieces.flatMap (· ++ [stop]) ++ rest) := by
        simp
      rw [shape, split_of_cut cut, later]

end Delimited
