import KetamaRouter.CountqueCalls

/-!
# The window of a counter

With a clock that does not go back, a counter holds exactly the events of the
window that ends at the time of the last call.
-/

namespace KetamaRouter

open FaultProgram SlidingWindow LabelledRun

variable {machine : SignedArithmetic} {initial memory : CountqueMemory}
  {others items : Multiset Nat} {item : Nat} {ticPerSec : Int64}
  {ticMaxCnt : UInt32} {call : CounterCall} {calls : List CounterCall}

/-! ## Clocks -/

/-- The times of the calls are not negative and never decrease. -/
structure ForwardClock (calls : List CounterCall) : Prop where
  nonneg : ∀ call ∈ calls, 0 ≤ call.time.toInt
  forward : calls.Pairwise fun earlier call =>
    earlier.time.toInt ≤ call.time.toInt

theorem ForwardClock.earlier (clock : ForwardClock (calls ++ [call])) :
    ForwardClock calls where
  nonneg other member := clock.nonneg other (List.mem_append_left _ member)
  forward := (List.pairwise_append.mp clock.forward).1

theorem ForwardClock.last_nonneg (clock : ForwardClock (calls ++ [call])) :
    0 ≤ call.time.toInt :=
  clock.nonneg call (List.mem_append_right _ List.mem_cons_self)

theorem ForwardClock.before_last (clock : ForwardClock (calls ++ [call])) :
    ∀ other ∈ calls, other.time.toInt ≤ call.time.toInt := fun other member =>
  (List.pairwise_append.mp clock.forward).2.2 other member call
    List.mem_cons_self

/-- The base times of the events that the calls record. -/
def recorded (ticPerSec : Int64) (calls : List CounterCall) : List ℤ :=
  calls.filterMap fun
    | .tic t => some (baseOf ticPerSec t)
    | .count _ => none

theorem mem_recorded {base : ℤ} (member : base ∈ recorded ticPerSec calls) :
    ∃ call ∈ calls, base = baseOf ticPerSec call.time := by
  obtain ⟨call, inside, event⟩ := List.mem_filterMap.mp member
  cases call with
  | tic t => exact ⟨_, inside, (Option.some.inj event).symm⟩
  | count now => cases event

theorem events_eq_recorded (perSec : 1 ≤ ticPerSec.toInt)
    (nonneg : ∀ call ∈ calls, 0 ≤ call.time.toInt) :
    events ticPerSec calls = recorded ticPerSec calls := by
  apply List.filterMap_congr
  intro call member
  cases call with
  | tic t =>
      exact congrArg some (baseTimeBy_toInt perSec (nonneg _ member))
  | count now => rfl

theorem recorded_ordered (perSec : 1 ≤ ticPerSec.toInt)
    (clock : ForwardClock calls) :
    (recorded ticPerSec calls).Pairwise (· ≤ ·) := by
  apply clock.forward.filterMap
  intro earlier call order base isBase base' isBase'
  cases earlier with
  | count now => cases isBase
  | tic t =>
      cases call with
      | count now => cases isBase'
      | tic t' =>
          rw [← Option.some.inj isBase, ← Option.some.inj isBase']
          exact baseOf_mono perSec order

/-! ## The slots of the window -/

section Window

variable (perSec : 1 ≤ ticPerSec.toInt) (maxCnt : 1 ≤ ticMaxCnt.toNat)
  (fits : windowLength ticPerSec ticMaxCnt < 2 ^ 31)

include perSec maxCnt fits

/-- A call moves the window to its own time. -/
theorem slots_window {limit : ℤ} (clock : ForwardClock (calls ++ [call]))
    (earlier : limit ≤ baseOf ticPerSec call.time -
      windowLength ticPerSec ticMaxCnt) :
    call.slots machine ticPerSec ticMaxCnt
        (merged ((recorded ticPerSec calls).filter fun base => limit < base)) =
      merged ((recorded ticPerSec (calls ++ [call])).filter fun base =>
        baseOf ticPerSec call.time - windowLength ticPerSec ticMaxCnt <
          base) := by
  have positive := windowLength_pos perSec maxCnt
  have ordered := recorded_ordered perSec clock
  have nonneg := clock.last_nonneg
  unfold CounterCall.slots CounterCall.record
  rw [CounterCall.ttl_eq perSec maxCnt fits nonneg]
  unfold recorded at ordered ⊢
  rw [List.filterMap_append] at ordered ⊢
  cases call with
  | tic t =>
      have young : limit < baseOf ticPerSec t := by
        change limit ≤ baseOf ticPerSec t - _ at earlier
        omega
      have event : (CounterCall.tic t).event ticPerSec =
          some (baseOf ticPerSec t) :=
        congrArg some (baseTimeBy_toInt perSec nonneg)
      rw [event, Option.elim_some, record_filtered young]
      exact expire_filtered ordered earlier
  | count now =>
      have event : (CounterCall.count now).event ticPerSec = none := rfl
      rw [event, Option.elim_none]
      simp only [List.filterMap_cons, List.filterMap_nil, List.append_nil]
        at ordered ⊢
      exact expire_filtered ordered earlier

/-- The slots are those of a window that is over when the next call comes.  The
induction is on the calls from the last one back. -/
theorem slotsAfter_window (clock : ForwardClock (calls ++ [call])) :
    ∃ limit ≤ baseOf ticPerSec call.time - windowLength ticPerSec ticMaxCnt,
      slotsAfter machine ticPerSec ticMaxCnt calls =
        merged ((recorded ticPerSec calls).filter fun base => limit < base) := by
  induction calls using List.reverseRecOn generalizing call with
  | nil => exact ⟨_, le_refl _, rfl⟩
  | append_singleton calls before induction =>
      obtain ⟨limit, earlier, slots⟩ := induction clock.earlier
      have order := clock.before_last before
        (List.mem_append_right _ List.mem_cons_self)
      refine ⟨_, sub_le_sub_right (baseOf_mono perSec order) _, ?_⟩
      rw [slotsAfter_concat, slots]
      exact slots_window perSec maxCnt fits clock.earlier earlier

end Window

/-! ## Counting -/

/-- The bases of the window that ends at the base time of `t`. -/
def inWindow (ticPerSec : Int64) (ticMaxCnt : UInt32) (t : Int64)
    (bases : List ℤ) : List ℤ :=
  bases.filter fun base =>
    baseOf ticPerSec t - ticPerSec.toInt * ticMaxCnt.toNat < base ∧
      base ≤ baseOf ticPerSec t

/-- With a clock that does not go back there are no events after the window. -/
theorem inWindow_recorded (perSec : 1 ≤ ticPerSec.toInt)
    (clock : ForwardClock (calls ++ [call])) :
    inWindow ticPerSec ticMaxCnt call.time
        (recorded ticPerSec (calls ++ [call])) =
      (recorded ticPerSec (calls ++ [call])).filter fun base =>
        baseOf ticPerSec call.time - windowLength ticPerSec ticMaxCnt < base := by
  apply List.filter_congr
  intro base member
  obtain ⟨other, inside, same⟩ := mem_recorded member
  have order : other.time.toInt ≤ call.time.toInt := by
    cases List.mem_append.mp inside with
    | inl before => exact clock.before_last other before
    | inr last => rw [List.mem_singleton.mp last]
  have below : base ≤ baseOf ticPerSec call.time :=
    same ▸ baseOf_mono perSec order
  exact decide_eq_decide.mpr ⟨And.left, fun young => ⟨young, below⟩⟩

/-- The window holds few events, since it has few base times. -/
theorem inWindow_length (perSec : 1 ≤ ticPerSec.toInt) (ticMaxCnt : UInt32)
    (few : ∀ base, (recorded ticPerSec calls).count base < 2 ^ 32) (t : Int64) :
    (inWindow ticPerSec ticMaxCnt t (recorded ticPerSec calls)).length ≤
      ticMaxCnt.toNat * 2 ^ 32 := by
  apply length_le_of_grid (lt_of_lt_of_le Int.one_pos perSec)
    (dvd_baseOf ticPerSec t)
  · intro base member
    obtain ⟨inside, window⟩ := List.mem_filter.mp member
    obtain ⟨other, -, same⟩ := mem_recorded inside
    obtain ⟨above, below⟩ := of_decide_eq_true window
    exact ⟨above, below, same ▸ dvd_baseOf ticPerSec other.time⟩
  · intro base
    calc (inWindow ticPerSec ticMaxCnt t (recorded ticPerSec calls)).count base
        ≤ (recorded ticPerSec calls).count base :=
          List.filter_sublist.count_le base
      _ ≤ 2 ^ 32 := (few base).le

/-- The value that a call returns is the number of events in its window. -/
theorem counter_counts_window (machine : SignedArithmetic)
    (perSec : 1 ≤ ticPerSec.toInt) (maxCnt : 1 ≤ ticMaxCnt.toNat)
    (fits : ticPerSec.toInt * ticMaxCnt.toNat < 2 ^ 31)
    (start : CounterStart ticPerSec ticMaxCnt others items item initial)
    (run : Run (CounterCall.Takes machine item) initial calls memory)
    (clock : ForwardClock (calls ++ [call]))
    (few : ∀ base, (recorded ticPerSec (calls ++ [call])).count base < 2 ^ 32) :
    Yields (call.run machine item) memory fun result _ =>
      result.toNat = (inWindow ticPerSec ticMaxCnt call.time
        (recorded ticPerSec (calls ++ [call]))).length := by
  have small : SmallTics machine ticPerSec ticMaxCnt (calls ++ [call]) := by
    apply SmallTics.of_few
    rw [events_eq_recorded perSec clock.nonneg]
    exact few
  obtain ⟨counter, reached, none⟩ := start.run_small run fun earlier call first =>
    small earlier call (first.trans (List.prefix_append _ _))
  apply (reached.step call).mono
  intro result after ran
  obtain ⟨full, counts, -, returned, reachedAfter⟩ := ran
  obtain ⟨limit, earlier, slots⟩ := slotsAfter_window perSec maxCnt fits clock
  have kept : (full.settle machine call).counted =
      (inWindow ticPerSec ticMaxCnt call.time
        (recorded ticPerSec (calls ++ [call]))).length := by
    unfold Counter.counted
    rw [reached.lost_small counts small, none, reachedAfter.slots,
      slotsAfter_concat, slots, slots_window perSec maxCnt fits clock earlier,
      total_merged, inWindow_recorded perSec clock]
    rfl
  have maxCntSmall : ticMaxCnt.toNat < 2 ^ 31 := by
    have count : (ticMaxCnt.toNat : ℤ) ≤ ticPerSec.toInt * ticMaxCnt.toNat := by
      nlinarith
    omega
  have window := inWindow_length perSec ticMaxCnt few call.time
  rw [returned, kept, UInt64.toNat_ofNat', Nat.mod_eq_of_lt]
  omega

/-- Of a tic that has expired, two events of one tic that is exactly a window old,
one inside the window and one at its end, the last two are counted. -/
theorem counter_counts_window_edge :
    ∃ item initial memory, CounterStart 10 6 0 0 item initial ∧
      Run (CounterCall.Takes .wrapping item) initial
        [.tic 30, .tic 100, .tic 103, .count 120, .tic 135] memory ∧
      Yields ((CounterCall.tic 160).run .wrapping item) memory
        fun result _ => result.toNat = 2 := by
  obtain ⟨item, initial, start⟩ := @CounterStart.possible 10 6 (by decide)
  obtain ⟨memory, run⟩ := start.takes .wrapping
    [.tic 30, .tic 100, .tic 103, .count 120, .tic 135]
  refine ⟨item, initial, memory, start, run, ?_⟩
  have clock : ForwardClock
      ([.tic 30, .tic 100, .tic 103, .count 120, .tic 135] ++ [.tic 160]) :=
    ⟨by decide, by decide⟩
  have few (base : ℤ) : (recorded 10 ([.tic 30, .tic 100, .tic 103, .count 120,
      .tic 135] ++ [.tic 160])).count base < 2 ^ 32 :=
    List.count_le_length.trans_lt (by decide)
  exact counter_counts_window .wrapping (by decide) (by decide) (by decide) start
    run clock few

end KetamaRouter
