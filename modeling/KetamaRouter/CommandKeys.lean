import Mathlib.Data.List.Find
import KetamaRouter.Dispatch

/-!
# The keys of the command table

The table of commands compares keys with `str_equal` and finds their buckets with
`str_hash`.  The hash is taken over all bytes of a key; the comparison ends at
the first NUL.
-/

namespace KetamaRouter

variable {a b : Bytes}

/-- What a hash table needs of its keys. -/
structure KeyContract (a b : Bytes) : Prop where
  equal : strEqual a b = true ↔ a = b
  hash : strEqual a b = true → strHash a = strHash b

/-- A NUL that both keys have in one place hides that they differ behind it. -/
def NulHides (a b : Bytes) : Prop :=
  ∃ shared tailA tailB, a = shared ++ 0 :: tailA ∧ b = shared ++ 0 :: tailB ∧
    tailA.length = tailB.length ∧ tailA ≠ tailB

theorem strEqual_eq_true :
    strEqual a b = true ↔ a.length = b.length ∧ cStr a = cStr b := by
  unfold strEqual strncmpEqual
  by_cases same : a.length = b.length
  · rw [if_neg (not_not.mpr same), decide_eq_true_eq]
    exact (and_iff_right same).symm
  · rw [if_pos same]
    simp [same]

theorem strEqual_comm : strEqual a b = true ↔ strEqual b a = true := by
  rw [strEqual_eq_true, strEqual_eq_true]
  exact ⟨fun ⟨length, text⟩ => ⟨length.symm, text.symm⟩,
    fun ⟨length, text⟩ => ⟨length.symm, text.symm⟩⟩

/-- The string functions do not look behind a NUL. -/
theorem cStr_append_nul (shared tail : Bytes) :
    cStr (shared ++ 0 :: tail) = cStr shared := by
  induction shared with
  | nil => rfl
  | cons first shared induction =>
      change List.takeWhile _ _ = List.takeWhile _ _ at induction ⊢
      rw [List.cons_append, List.takeWhile_cons, List.takeWhile_cons, induction]

theorem cStr_cut {text : Bytes} (nul : 0 ∈ text) :
    ∃ tail, text = cStr text ++ 0 :: tail := by
  obtain ⟨head, tail, cut, avoids⟩ := List.eq_append_cons_of_mem nul
  have seen : cStr text = head := by
    rw [cut, cStr_append_nul, cStr_eq_self avoids]
  exact ⟨tail, by rw [seen, cut]⟩

theorem NulHides.strEqual (hides : NulHides a b) :
    strEqual a b = true ∧ a ≠ b := by
  obtain ⟨shared, tailA, tailB, cutA, cutB, lengths, differ⟩ := hides
  constructor
  · rw [strEqual_eq_true, cutA, cutB, cStr_append_nul, cStr_append_nul]
    simp [lengths]
  · intro same
    rw [cutA, cutB] at same
    have tails := List.append_cancel_left same
    exact differ (List.tail_eq_of_cons_eq tails)

/-- Different keys that compare equal differ behind a NUL they share. -/
theorem nulHides_of_strEqual (equal : strEqual a b = true) (differ : a ≠ b) :
    NulHides a b := by
  have nulA : 0 ∈ a := by
    by_contra noNul
    exact differ ((strEqual_iff noNul).mp equal)
  have nulB : 0 ∈ b := by
    by_contra noNul
    exact differ ((strEqual_iff noNul).mp (strEqual_comm.mp equal)).symm
  obtain ⟨lengths, same⟩ := strEqual_eq_true.mp equal
  obtain ⟨tailA, cutA⟩ := cStr_cut nulA
  obtain ⟨tailB, cutB⟩ := cStr_cut nulB
  rw [← same] at cutB
  refine ⟨cStr a, tailA, tailB, cutA, cutB, ?_, ?_⟩
  · rw [cutA, cutB] at lengths
    simpa using lengths
  · intro tails
    rw [tails] at cutA
    exact differ (cutA.trans cutB.symm)

/-- Two keys keep the contract unless they differ only behind a common NUL. -/
theorem keyContract_iff (a b : Bytes) : KeyContract a b ↔ ¬ NulHides a b := by
  constructor
  · intro contract hides
    obtain ⟨equal, differ⟩ := hides.strEqual
    exact differ (contract.equal.mp equal)
  · intro apart
    have same : strEqual a b = true → a = b := by
      intro equal
      by_contra differ
      exact apart (nulHides_of_strEqual equal differ)
    constructor
    · refine ⟨same, ?_⟩
      intro equal
      rw [strEqual_eq_true, equal]
      exact ⟨rfl, rfl⟩
    · intro equal
      rw [same equal]

/-- Two keys of three bytes that are taken for one and have different hashes. -/
theorem keyContract_fails :
    ¬ KeyContract [65, 0, 66] [65, 0, 67] ∧
      strEqual [65, 0, 66] [65, 0, 67] = true ∧
      strHash [65, 0, 66] ≠ strHash [65, 0, 67] := by
  have differ : strHash [65, 0, 66] ≠ strHash [65, 0, 67] := by decide
  have equal : strEqual [65, 0, 66] [65, 0, 67] = true := by decide
  refine ⟨?_, equal, differ⟩
  intro contract
  exact differ (contract.hash equal)

/-- A table none of whose keys hides a name finds commands by their bytes. -/
theorem commandListGetl_bytes {commands : List Command} {name : Bytes}
    (contract : ∀ command ∈ commands, KeyContract command.name name) :
    commandListGetl commands name =
      commands.find? fun command => command.name = name := by
  unfold commandListGetl
  apply List.find?_congr
  intro command member
  have key := contract command member
  rw [Bool.eq_iff_iff, Bool.and_eq_true, decide_eq_true_eq, key.equal,
    decide_eq_true_eq]
  constructor
  · exact And.right
  · intro same
    exact ⟨congrArg strHash same, same⟩

end KetamaRouter
