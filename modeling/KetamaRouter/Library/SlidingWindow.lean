import Mathlib.Algebra.Order.BigOperators.Group.Finset
import Mathlib.Algebra.Order.BigOperators.Group.List
import Mathlib.Algebra.Order.Ring.Int
import Mathlib.Data.List.Induction
import Mathlib.Data.List.TakeWhile
import Mathlib.Tactic.Ring

/-!
# Counting events in a sliding window

Events with equal times are merged into slots, oldest slot first.  Slots that have
left the window are dropped from the front until a younger one stands there.  If
times never decrease, what is left is exactly the events inside the window.
-/

namespace SlidingWindow

/-- The events of one time. -/
@[ext] structure Slot (Time : Type) where
  time : Time
  count : Nat
  deriving DecidableEq, Repr

variable {Time : Type} [LinearOrder Time] {slots first rest : List (Slot Time)}
  {slot : Slot Time} {history : List Time} {time limit later : Time}

/-- Count an event in the last slot, if that has its time, or in a new one. -/
def record (slots : List (Slot Time)) (time : Time) : List (Slot Time) :=
  match slots with
  | [] => [⟨time, 1⟩]
  | [last] =>
      if last.time = time then [⟨time, last.count + 1⟩]
      else [last, ⟨time, 1⟩]
  | slot :: next :: rest => slot :: record (next :: rest) time

/-- Drop slots from the front until one is younger than `limit`. -/
def expire (limit : Time) (slots : List (Slot Time)) : List (Slot Time) :=
  slots.dropWhile fun slot => slot.time ≤ limit

/-- The slots that `expire` drops. -/
def expired (limit : Time) (slots : List (Slot Time)) : List (Slot Time) :=
  slots.takeWhile fun slot => slot.time ≤ limit

def total (slots : List (Slot Time)) : Nat :=
  (slots.map Slot.count).sum

/-- The slots of a history of events. -/
def merged (history : List Time) : List (Slot Time) :=
  history.foldl record []

/-! ## Totals -/

omit [LinearOrder Time] in
@[simp] theorem total_nil : total ([] : List (Slot Time)) = 0 :=
  rfl

omit [LinearOrder Time] in
@[simp] theorem total_cons (slot : Slot Time) (slots : List (Slot Time)) :
    total (slot :: slots) = slot.count + total slots := by
  simp [total]

omit [LinearOrder Time] in
theorem total_append (first later : List (Slot Time)) :
    total (first ++ later) = total first + total later := by
  simp [total]

omit [LinearOrder Time] in
theorem count_le_total (member : slot ∈ slots) : slot.count ≤ total slots :=
  List.single_le_sum (fun _ _ => Nat.zero_le _) _ (List.mem_map_of_mem member)

theorem record_cons (slot : Slot Time) (some : slots ≠ []) (time : Time) :
    record (slot :: slots) time = slot :: record slots time := by
  cases slots with
  | nil => exact absurd rfl some
  | cons next rest => rfl

theorem total_record (slots : List (Slot Time)) (time : Time) :
    total (record slots time) = total slots + 1 := by
  induction slots with
  | nil => rfl
  | cons slot slots induction =>
      by_cases none : slots = []
      · rw [none]
        unfold record
        split <;> simp
      · rw [record_cons slot none, total_cons, induction, total_cons,
          Nat.add_assoc]

theorem expired_append_expire (limit : Time) (slots : List (Slot Time)) :
    expired limit slots ++ expire limit slots = slots :=
  List.takeWhile_append_dropWhile

theorem total_expire (limit : Time) (slots : List (Slot Time)) :
    total (expired limit slots) + total (expire limit slots) = total slots := by
  rw [← total_append, expired_append_expire]

/-! ## Recording -/

/-- Only the last slot matters to a new event. -/
theorem record_append (first : List (Slot Time)) (some : rest ≠ [])
    (time : Time) :
    record (first ++ rest) time = first ++ record rest time := by
  induction first with
  | nil => rfl
  | cons slot first induction =>
      have more : first ++ rest ≠ [] := List.append_ne_nil_of_right_ne_nil _ some
      rw [List.cons_append, record_cons slot more, induction]
      rfl

theorem record_concat (slots : List (Slot Time)) (last : Slot Time)
    (time : Time) :
    record (slots ++ [last]) time =
      slots ++ if last.time = time then [⟨time, last.count + 1⟩]
        else [last, ⟨time, 1⟩] :=
  record_append slots (List.cons_ne_nil _ _) time

/-- The event that was recorded is in the last slot. -/
theorem record_last (slots : List (Slot Time)) (time : Time) :
    ∃ before count, record slots time = before ++ [⟨time, count + 1⟩] := by
  cases slots using List.reverseRecOn with
  | nil => exact ⟨[], 0, rfl⟩
  | append_singleton slots last =>
      rw [record_concat]
      split
      · exact ⟨slots, last.count, rfl⟩
      · exact ⟨slots ++ [last], 0, by simp⟩

theorem mem_record_same {count : Nat}
    (last : slots.getLast? = some ⟨time, count⟩) :
    ⟨time, count + 1⟩ ∈ record slots time := by
  obtain ⟨before, same⟩ := List.getLast?_eq_some_iff.mp last
  rw [same, record_concat, if_pos rfl]
  exact List.mem_append_right _ List.mem_cons_self

/-- What recording puts in the place of the last slot, or behind it. -/
inductive Recorded (slots : List (Slot Time)) (time : Time) :
    Slot Time → Prop where
  | fresh : Recorded slots time ⟨time, 1⟩
  | more {count : Nat} (last : slots.getLast? = some ⟨time, count⟩) :
      Recorded slots time ⟨time, count + 1⟩

theorem mem_record (member : slot ∈ record slots time) :
    slot ∈ slots ∨ Recorded slots time slot := by
  cases slots using List.reverseRecOn with
  | nil =>
      rw [List.mem_singleton.mp member]
      exact .inr .fresh
  | append_singleton slots last =>
      rw [record_concat] at member
      cases List.mem_append.mp member with
      | inl before => exact .inl (List.mem_append_left _ before)
      | inr new =>
          split at new
          · rename_i same
            rw [List.mem_singleton.mp new]
            subst same
            exact .inr (.more (by simp))
          · cases List.mem_cons.mp new with
            | inl old =>
                exact .inl (old ▸ List.mem_append_right _ List.mem_cons_self)
            | inr fresh =>
                rw [List.mem_singleton.mp fresh]
                exact .inr .fresh

/-! ## Expiry -/

theorem expire_cons_old (old : slot.time ≤ limit) (slots : List (Slot Time)) :
    expire limit (slot :: slots) = expire limit slots :=
  List.dropWhile_cons_of_pos (decide_eq_true old)

theorem expire_cons_young (young : limit < slot.time)
    (slots : List (Slot Time)) :
    expire limit (slot :: slots) = slot :: slots :=
  List.dropWhile_cons_of_neg (by simpa using young)

/-- An event that is not too old may be recorded before or after the expiry. -/
theorem expire_record (young : limit < time) (slots : List (Slot Time)) :
    expire limit (record slots time) = record (expire limit slots) time := by
  induction slots with
  | nil => exact expire_cons_young young []
  | cons slot slots induction =>
      cases le_or_gt slot.time limit with
      | inl old =>
          have apart : slot.time ≠ time := ne_of_lt (lt_of_le_of_lt old young)
          rw [expire_cons_old old]
          by_cases none : slots = []
          · rw [none]
            unfold record
            rw [if_neg apart, expire_cons_old old]
            exact expire_cons_young young []
          · rw [record_cons slot none, expire_cons_old old, induction]
      | inr young =>
          rw [expire_cons_young young]
          by_cases none : slots = []
          · rw [none]
            unfold record
            split
            · rename_i same
              exact expire_cons_young (same ▸ young) []
            · exact expire_cons_young young _
          · rw [record_cons slot none]
            exact expire_cons_young young _

/-! ## Histories -/

theorem merged_concat (history : List Time) (time : Time) :
    merged (history ++ [time]) = record (merged history) time := by
  simp [merged]

theorem total_merged (history : List Time) :
    total (merged history) = history.length := by
  induction history using List.reverseRecOn with
  | nil => rfl
  | append_singleton history time induction =>
      rw [merged_concat, total_record, induction, List.length_append]
      rfl

/-- The first event stays in the first slot. -/
theorem merged_head (time : Time) (history : List Time) :
    ∃ count rest, merged (time :: history) = ⟨time, count⟩ :: rest := by
  induction history using List.reverseRecOn with
  | nil => exact ⟨1, [], rfl⟩
  | append_singleton history later induction =>
      obtain ⟨count, rest, same⟩ := induction
      rw [← List.cons_append, merged_concat, same]
      by_cases alone : rest = []
      · rw [alone]
        unfold record
        split
        · rename_i merges
          exact ⟨count + 1, [], by rw [← merges]⟩
        · exact ⟨count, _, rfl⟩
      · exact ⟨count, record rest later, record_cons _ alone later⟩

/-- The times of the slots are those of the events. -/
theorem mem_merged (member : slot ∈ merged history) : slot.time ∈ history := by
  induction history using List.reverseRecOn with
  | nil => cases member
  | append_singleton history time induction =>
      rw [merged_concat] at member
      cases mem_record member with
      | inl old => exact List.mem_append_left _ (induction old)
      | inr new =>
          cases new <;> exact List.mem_append_right _ List.mem_cons_self

/-- If no event is older than the one before it, expiry leaves the events of the
window.  The induction is on the events from the last one back. -/
theorem expire_merged (ordered : history.Pairwise (· ≤ ·)) (limit : Time) :
    expire limit (merged history) =
      merged (history.filter fun time => limit < time) := by
  induction history using List.reverseRecOn with
  | nil => rfl
  | append_singleton history time induction =>
      obtain ⟨earlier, -, below⟩ := List.pairwise_append.mp ordered
      cases lt_or_ge limit time with
      | inl young =>
          have kept : [time].filter (fun time => limit < time) = [time] := by
            simp [young]
          rw [merged_concat, expire_record young, induction earlier,
            List.filter_append, kept, merged_concat]
      | inr old =>
          have none : (history ++ [time]).filter (fun time => limit < time) =
              [] := by
            apply List.filter_eq_nil_iff.mpr
            intro event member
            rw [decide_eq_true_eq, not_lt]
            cases List.mem_append.mp member with
            | inl before =>
                exact (below event before time List.mem_cons_self).trans old
            | inr last => exact List.mem_singleton.mp last ▸ old
          rw [none]
          apply List.dropWhile_eq_nil_iff.mpr
          intro slot member
          rw [decide_eq_true_eq]
          have event := mem_merged member
          cases List.mem_append.mp event with
          | inl before =>
              exact (below _ before time List.mem_cons_self).trans old
          | inr last => exact List.mem_singleton.mp last ▸ old

/-- The window moves on. -/
theorem expire_filtered (ordered : history.Pairwise (· ≤ ·))
    (earlier : limit ≤ later) :
    expire later (merged (history.filter fun time => limit < time)) =
      merged (history.filter fun time => later < time) := by
  rw [expire_merged (ordered.filter _), List.filter_filter]
  congr 1
  apply List.filter_congr
  intro time _
  rw [← Bool.decide_and]
  exact decide_eq_decide.mpr
    ⟨And.left, fun young => ⟨young, lt_of_le_of_lt earlier young⟩⟩

theorem record_filtered (young : limit < time) (history : List Time) :
    record (merged (history.filter fun time => limit < time)) time =
      merged ((history ++ [time]).filter fun time => limit < time) := by
  have kept : [time].filter (fun time => limit < time) = [time] := by
    simp [young]
  rw [List.filter_append, kept, merged_concat]

/-- A slot counts events of its time only. -/
theorem record_count
    (counts : ∀ slot ∈ slots, slot.count ≤ history.count slot.time)
    (member : slot ∈ record slots time) :
    slot.count ≤ (history ++ [time]).count slot.time := by
  rw [List.count_append]
  cases mem_record member with
  | inl old => exact (counts slot old).trans (Nat.le_add_right _ _)
  | inr new =>
      cases new with
      | fresh =>
          rw [List.count_singleton_self]
          exact Nat.le_add_left _ _
      | more before =>
          rw [List.count_singleton_self]
          exact Nat.add_le_add_right (counts _ (List.mem_of_getLast? before)) 1

theorem mem_expire (member : slot ∈ expire limit slots) : slot ∈ slots :=
  (List.dropWhile_sublist _).subset member

/-! ## Times on a grid -/

/-- A window of `width` steps holds at most `width` times of the grid, each with
its events. -/
theorem length_le_of_grid {history : List ℤ} {base period : ℤ}
    {width most : Nat} (positive : 0 < period) (onGrid : period ∣ base)
    (inside : ∀ time ∈ history,
      base - period * width < time ∧ time ≤ base ∧ period ∣ time)
    (few : ∀ time, history.count time ≤ most) :
    history.length ≤ width * most := by
  have places : history.toFinset ⊆
      (Finset.range width).image fun (k : Nat) => base - period * k := by
    intro time member
    obtain ⟨above, below, place, isPlace⟩ :=
      inside time (List.mem_toFinset.mp member)
    obtain ⟨last, isLast⟩ := onGrid
    rw [isPlace, isLast] at above below
    have start : last - width < place := by
      apply lt_of_mul_lt_mul_left _ positive.le
      rw [mul_sub]
      exact above
    have stop : place ≤ last := le_of_mul_le_mul_left below positive
    apply Finset.mem_image.mpr
    refine ⟨(last - place).toNat, Finset.mem_range.mpr (by omega), ?_⟩
    rw [Int.toNat_of_nonneg (by omega), isPlace, isLast]
    ring
  have card : history.toFinset.card ≤ width := by
    calc history.toFinset.card
        ≤ ((Finset.range width).image _).card := Finset.card_le_card places
      _ ≤ (Finset.range width).card := Finset.card_image_le
      _ = width := Finset.card_range width
  calc history.length
      = ∑ time ∈ history.toFinset, history.count time :=
        (List.sum_toFinset_count_eq_length history).symm
    _ ≤ history.toFinset.card * most := by
        have bound := Finset.sum_le_card_nsmul history.toFinset
          (fun time => history.count time) most fun time _ => few time
        rwa [Nat.nsmul_eq_mul] at bound
    _ ≤ width * most := Nat.mul_le_mul_right most card

end SlidingWindow
