import Mathlib.Data.List.Induction
import Mathlib.Order.MinMax

/-!
# A value between moving bounds

At each moment the value moves no further than it has to, to lie above the lower
bound of that moment and, unless that forbids it, below the upper one.  So it
stands as high as some lower bound has pushed it with no upper bound below that
height since.
-/

namespace Clamped

variable {α β : Type} [LinearOrder α] {lower upper : β → α} {start value x : α}

def clamp (lower upper : β → α) (value : α) (moment : β) : α :=
  max (lower moment) (min value (upper moment))

/-- The value after these moments, oldest first. -/
def track (lower upper : β → α) (start : α) (moments : List β) : α :=
  moments.foldl (clamp lower upper) start

/-- A lower bound has pushed the value to `x`, and it may have stayed there. -/
def Pushed (lower upper : β → α) (x : α) (moments : List β) : Prop :=
  ∃ before moment after, moments = before ++ moment :: after ∧
    x ≤ lower moment ∧ ∀ later ∈ after, x ≤ upper later

theorem le_clamp_iff (moment : β) :
    x ≤ clamp lower upper value moment ↔
      x ≤ lower moment ∨ x ≤ value ∧ x ≤ upper moment := by
  rw [clamp, le_max_iff, le_min_iff]

theorem track_snoc (moments : List β) (last : β) :
    track lower upper start (moments ++ [last]) =
      clamp lower upper (track lower upper start moments) last := by
  rw [track, List.foldl_append]
  rfl

theorem not_pushed_nil : ¬ Pushed lower upper x [] := by
  rintro ⟨before, moment, after, split, -⟩
  exact List.append_ne_nil_of_right_ne_nil _ (List.cons_ne_nil _ _) split.symm

theorem pushed_snoc (moments : List β) (last : β) :
    Pushed lower upper x (moments ++ [last]) ↔
      x ≤ lower last ∨ Pushed lower upper x moments ∧ x ≤ upper last := by
  constructor
  · rintro ⟨before, moment, after, split, low, high⟩
    cases after using List.reverseRecOn with
    | nil =>
        obtain ⟨-, same⟩ := List.append_inj' split rfl
        cases same
        exact .inl low
    | append_singleton after other =>
        rw [← List.cons_append, ← List.append_assoc] at split
        obtain ⟨whole, same⟩ := List.append_inj' split rfl
        cases same
        refine .inr ⟨⟨before, moment, after, whole, low, ?_⟩, ?_⟩
        · exact fun later member => high later (List.mem_append_left _ member)
        · exact high last (List.mem_append_right _ List.mem_cons_self)
  · rintro (low | ⟨⟨before, moment, after, split, low, high⟩, top⟩)
    · exact ⟨moments, last, [], rfl, low, fun _ member => nomatch member⟩
    · refine ⟨before, moment, after ++ [last], ?_, low, ?_⟩
      · rw [split, List.append_assoc, List.cons_append]
      · intro later member
        rcases List.mem_append.mp member with old | new
        · exact high later old
        · rw [List.mem_singleton.mp new]
          exact top

/-- What the value has reached was there from the start, or was pushed to. -/
theorem le_track_iff (moments : List β) :
    x ≤ track lower upper start moments ↔
      (x ≤ start ∧ ∀ moment ∈ moments, x ≤ upper moment) ∨
        Pushed lower upper x moments := by
  induction moments using List.reverseRecOn with
  | nil => simp [track, not_pushed_nil]
  | append_singleton moments last induction =>
      rw [track_snoc, le_clamp_iff, induction, pushed_snoc]
      have all : (∀ moment ∈ moments ++ [last], x ≤ upper moment) ↔
          (∀ moment ∈ moments, x ≤ upper moment) ∧ x ≤ upper last := by
        simp [or_imp, forall_and]
      rw [all]
      tauto

/-- A start that is below every bound is forgotten. -/
theorem le_track_iff_pushed {first : β} {moments : List β}
    (low : start ≤ lower first) :
    x ≤ track lower upper start (first :: moments) ↔
      Pushed lower upper x (first :: moments) := by
  rw [le_track_iff, or_iff_right_iff_imp]
  rintro ⟨reached, high⟩
  exact ⟨[], first, moments, rfl, reached.trans low, fun later member =>
    high later (List.mem_cons_of_mem first member)⟩

end Clamped
