import Mathlib.Data.Nat.Basic

/-!
# Balanced loads

Work goes to a party with least load, found by a scan.  Giving one unit to such a
party keeps the spread of the loads, except that it may raise a spread of zero to
one.
-/

namespace Balance

variable {Party : Type} {parties : List Party} {load after : Party → Nat}
  {bound : Nat}

/-! ## Finding a party with least load -/

/-- The scan keeps the party it has unless a later one has less. -/
def leastFrom (load : Party → Nat) (least : Party) (parties : List Party) :
    Party :=
  parties.foldl (fun least next => if load least > load next then next else least)
    least

theorem leastFrom_mem (load : Party → Nat) (least : Party)
    (parties : List Party) :
    leastFrom load least parties ∈ least :: parties := by
  unfold leastFrom
  induction parties generalizing least with
  | nil => exact List.mem_cons_self
  | cons next parties induction =>
      rw [List.foldl_cons]
      split
      · exact List.mem_cons_of_mem least (induction next)
      · cases List.mem_cons.mp (induction least) with
        | inl same =>
            rw [same]
            exact List.mem_cons_self
        | inr found =>
            exact List.mem_cons_of_mem _ (List.mem_cons_of_mem _ found)

/-- Nobody the scan has met has less than the party it found. -/
theorem leastFrom_le (load : Party → Nat) (least : Party)
    (parties : List Party) :
    ∀ party ∈ least :: parties,
      load (leastFrom load least parties) ≤ load party := by
  unfold leastFrom
  induction parties generalizing least with
  | nil =>
      intro party member
      rw [List.mem_singleton.mp member]
      exact Nat.le_refl _
  | cons next parties induction =>
      intro party member
      rw [List.foldl_cons]
      split
      · rename_i lighter
        have below := induction next
        cases List.mem_cons.mp member with
        | inl first =>
            rw [first]
            exact Nat.le_trans (below next List.mem_cons_self)
              (Nat.le_of_lt lighter)
        | inr later => exact below party later
      · rename_i heavier
        have below := induction least
        cases List.mem_cons.mp member with
        | inl first =>
            rw [first]
            exact below least List.mem_cons_self
        | inr later =>
            cases List.mem_cons.mp later with
            | inl second =>
                rw [second]
                exact Nat.le_trans (below least List.mem_cons_self)
                  (Nat.not_lt.mp heavier)
            | inr rest => exact below party (List.mem_cons_of_mem _ rest)

/-! ## Spreads -/

/-- The largest load minus the smallest. -/
def spread (parties : List Party) (load : Party → Nat) : Nat :=
  (parties.map load).max?.getD 0 - (parties.map load).min?.getD 0

theorem spread_le_iff :
    spread parties load ≤ bound ↔
      ∀ one ∈ parties, ∀ other ∈ parties, load one ≤ load other + bound := by
  unfold spread
  constructor
  · intro small one oneIn other otherIn
    have most := List.le_max?_getD_of_mem (k := 0)
      (List.mem_map_of_mem (f := load) oneIn)
    have least := List.min?_getD_le_of_mem (k := 0)
      (List.mem_map_of_mem (f := load) otherIn)
    omega
  · intro close
    cases most : (parties.map load).max? with
    | none => simp
    | some high =>
        cases least : (parties.map load).min? with
        | none =>
            rw [List.min?_eq_none_iff] at least
            rw [least] at most
            cases most
        | some low =>
            obtain ⟨one, oneIn, sameHigh⟩ :=
              List.mem_map.mp (List.max?_mem most)
            obtain ⟨other, otherIn, sameLow⟩ :=
              List.mem_map.mp (List.min?_mem least)
            have near := close one oneIn other otherIn
            rw [Option.getD_some, Option.getD_some]
            omega

/-- One unit more for a party with least load. -/
theorem spread_gives {least : Party} (minimal : ∀ party ∈ parties,
      load least ≤ load party)
    (grows : after least = load least + 1)
    (others : ∀ party ∈ parties, party ≠ least → after party = load party) :
    spread parties after ≤ max 1 (spread parties load) := by
  have before : ∀ one ∈ parties, ∀ other ∈ parties,
      load one ≤ load other + spread parties load :=
    spread_le_iff.mp (Nat.le_refl _)
  apply spread_le_iff.mpr
  intro one oneIn other otherIn
  have near := before one oneIn other otherIn
  have low := minimal other otherIn
  by_cases first : one = least
  · rw [first, grows]
    by_cases second : other = least
    · rw [second, grows]
      omega
    · rw [others other otherIn second]
      omega
  · rw [others one oneIn first]
    by_cases second : other = least
    · rw [second] at near ⊢
      rw [grows]
      omega
    · rw [others other otherIn second]
      omega

end Balance
