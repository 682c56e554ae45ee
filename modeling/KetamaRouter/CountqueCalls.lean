import KetamaRouter.CountqueRecording
import KetamaRouter.CountqueTimes
import KetamaRouter.Library.LabelledRun

/-!
# Calls of a counter

What each call does to the counter it is given, and what is left of a counter
after any sequence of calls.  The slots of a counter change as in a sliding
window, whatever order the times come in.
-/

namespace KetamaRouter

open PointerChain FaultProgram SlidingWindow LabelledRun

/-! ## The sliding window of a counter -/

inductive CounterCall where
  | tic (t : Int64)
  | count (now : Int64)
  deriving DecidableEq

namespace CounterCall

def time : CounterCall → Int64
  | tic t => t
  | count now => now

def run (machine : SignedArithmetic) (item : Nat) :
    CounterCall → CountqueProgram UInt64
  | tic t => cqTicTime machine item t
  | count now => cqCount machine item now

def baseTime (ticPerSec : Int64) (call : CounterCall) : Int64 :=
  baseTimeBy ticPerSec call.time

/-- The base time of the event that a call records. -/
def event (ticPerSec : Int64) : CounterCall → Option ℤ
  | tic t => some (baseTimeBy ticPerSec t).toInt
  | count _ => none

def ttl (machine : SignedArithmetic) (ticPerSec : Int64) (ticMaxCnt : UInt32)
    (call : CounterCall) : ℤ :=
  (getTtlTime machine (call.baseTime ticPerSec) ticPerSec.toInt32
    ticMaxCnt.toInt32).toInt

/-- The slots with the event of a call. -/
def record (ticPerSec : Int64) (slots : List (Slot ℤ)) (call : CounterCall) :
    List (Slot ℤ) :=
  (call.event ticPerSec).elim slots (SlidingWindow.record slots)

/-- The slots that a call leaves. -/
def slots (machine : SignedArithmetic) (ticPerSec : Int64) (ticMaxCnt : UInt32)
    (slots : List (Slot ℤ)) (call : CounterCall) : List (Slot ℤ) :=
  expire (call.ttl machine ticPerSec ticMaxCnt) (call.record ticPerSec slots)

end CounterCall

def events (ticPerSec : Int64) (calls : List CounterCall) : List ℤ :=
  calls.filterMap (CounterCall.event ticPerSec)

def slotsAfter (machine : SignedArithmetic) (ticPerSec : Int64)
    (ticMaxCnt : UInt32) (calls : List CounterCall) : List (Slot ℤ) :=
  calls.foldl (CounterCall.slots machine ticPerSec ticMaxCnt) []

variable {machine : SignedArithmetic} {initial memory after : CountqueMemory}
  {counter : Counter} {others items : Multiset Nat} {item : Nat}
  {ticPerSec : Int64} {ticMaxCnt : UInt32} {call : CounterCall}
  {calls : List CounterCall} {slot : Slot ℤ}

theorem CounterCall.ttl_eq (perSec : 1 ≤ ticPerSec.toInt)
    (maxCnt : 1 ≤ ticMaxCnt.toNat)
    (fits : windowLength ticPerSec ticMaxCnt < 2 ^ 31)
    (nonneg : 0 ≤ call.time.toInt) :
    call.ttl machine ticPerSec ticMaxCnt =
      baseOf ticPerSec call.time - windowLength ticPerSec ticMaxCnt := by
  have base := baseTimeBy_toInt perSec nonneg
  unfold CounterCall.ttl CounterCall.baseTime
  rw [getTtlTime_toInt machine perSec maxCnt fits
    (base ▸ baseOf_nonneg perSec nonneg), base]

/-! ## Single calls -/

/-- The counter `full` has the event of a call besides those of `counter`. -/
structure Counter.Counts (counter : Counter) (call : CounterCall)
    (full : Counter) : Prop where
  item : full.item = counter.item
  ticPerSec : full.ticPerSec = counter.ticPerSec
  ticMaxCnt : full.ticMaxCnt = counter.ticMaxCnt
  lost : full.lost = counter.lost
  slots : full.slots = call.record counter.ticPerSec counter.slots
  ptrs : ∃ new : Option Nat, full.ptrs = counter.ptrs ++ new.toList

/-- What a call leaves once its event is counted. -/
def Counter.settle (machine : SignedArithmetic) (full : Counter)
    (call : CounterCall) : Counter :=
  full.expire (call.ttl machine full.ticPerSec full.ticMaxCnt)

def Counter.fresh (item : Nat) {ticPerSec : Int64} (ticMaxCnt : UInt32)
    (perSec : 1 ≤ ticPerSec.toInt) : Counter :=
  { item := item, ticPerSec := ticPerSec, ticMaxCnt := ticMaxCnt
    perSec := perSec, tics := [], lost := 0 }

theorem cqInit_spec (ticMaxCnt : UInt32) (perSec : 1 ≤ ticPerSec.toInt)
    (tics : memory.ticBuffer.Holds others)
    (held : memory.itemBuffer.Holds items) :
    Yields (cqInit ticPerSec ticMaxCnt) memory fun item after =>
      CounterAt after (.fresh item ticMaxCnt perSec) others ∧
        after.itemBuffer.Holds (item ::ₘ items) := by
  unfold cqInit
  apply Yields.bind (Yields.focus (numberedGet_spec held))
  intro item middle got
  obtain ⟨pool, same, -, holds⟩ := got
  subst same
  apply Yields.modify_bind
  apply Yields.pure
  refine ⟨⟨⟨?_, ?_, ?_, ?_, ?_, ?_⟩, ?_⟩, holds⟩
  · simp [Counter.fresh]
  · simp [Counter.fresh]
  · simp [Counter.fresh, Counter.ptrs]
  · intro tic member
    cases member
  · simp [Counter.fresh, Counter.counted, Counter.slots]
  · have alone : (↑(Counter.fresh item ticMaxCnt perSec).ptrs + others :
        Multiset Nat) = others :=
      zero_add others
    rw [alone]
    exact tics
  · simp [Counter.fresh, Counter.ptrs]

theorem Counter.Records.counts {full : Counter} {t : Int64}
    (records : counter.Records full
      (baseTimeBy counter.ticPerSec t).toInt) :
    counter.Counts (.tic t) full :=
  { item := records.item, ticPerSec := records.ticPerSec
    ticMaxCnt := records.ticMaxCnt, lost := records.lost
    slots := records.slots, ptrs := records.ptrs }

/-- Every call returns, and returns the total that it leaves. -/
theorem CounterCall.run_spec (machine : SignedArithmetic) (call : CounterCall)
    (counterAt : CounterAt memory counter others) :
    Yields (call.run machine counter.item) memory fun result after =>
      ∃ full, counter.Counts call full ∧ (∀ tic ∈ full.tics, TicAt after tic) ∧
        CounterAt after (full.settle machine call) others ∧
        result = UInt64.ofNat (full.settle machine call).counted ∧
        after.itemBuffer = memory.itemBuffer := by
  cases call with
  | tic t =>
      unfold run cqTicTime
      apply Yields.get_bind
      rw [counterAt.ticPerSec, getBaseTimeByTime_run counter.perSec, pure_bind]
      apply Yields.bind (cqRecord_spec _ counterAt)
      intro _ middle recorded
      obtain ⟨⟨full, records, counterMiddle⟩, items⟩ := recorded
      rw [← records.item, ← records.ticPerSec]
      apply Yields.bind (cqAdjust_spec machine _ counterMiddle)
      intro _ after adjusted
      obtain ⟨counterAfter, kept, tics⟩ := adjusted
      apply Yields.get_bind
      apply Yields.pure
      refine ⟨full, records.counts, ?_, counterAfter, counterAfter.count,
        kept.trans items⟩
      intro tic member
      have ticAt := counterMiddle.tics tic member
      exact ⟨tics ▸ ticAt.time, tics ▸ ticAt.count⟩
  | count now =>
      unfold run cqCount
      apply Yields.get_bind
      rw [counterAt.ticPerSec, getBaseTimeByTime_run counter.perSec, pure_bind]
      apply Yields.bind (cqAdjust_spec machine _ counterAt)
      intro _ after adjusted
      obtain ⟨counterAfter, kept, tics⟩ := adjusted
      apply Yields.get_bind
      apply Yields.pure
      have counts : counter.Counts (.count now) counter :=
        { item := rfl, ticPerSec := rfl, ticMaxCnt := rfl, lost := rfl
          slots := rfl, ptrs := ⟨none, (List.append_nil _).symm⟩ }
      refine ⟨counter, counts, ?_, counterAfter, counterAfter.count, kept⟩
      intro tic member
      have ticAt := counterAt.tics tic member
      exact ⟨tics ▸ ticAt.time, tics ▸ ticAt.count⟩

/-- A counter that was made with a period of zero ends the process at its first
call. -/
theorem CounterCall.run_zero (machine : SignedArithmetic) (call : CounterCall)
    (zero : (memory.item item).ticPerSec = 0) :
    call.run machine item memory = .error .division memory := by
  have stopped (t : Int64) : (fromExcept (getBaseTimeByTime
      (memory.item item).ticPerSec t) : CountqueProgram Int64) memory =
        .error .division memory := by
    rw [zero, getBaseTimeByTime_zero]
    rfl
  cases call with
  | tic t =>
      exact (bind_run_ok (get_run memory)).trans (bind_run_error (stopped t))
  | count now =>
      exact (bind_run_ok (get_run memory)).trans (bind_run_error (stopped now))

namespace Counter.Counts

variable {full : Counter}

theorem total (counts : counter.Counts call full) :
    SlidingWindow.total full.slots =
      SlidingWindow.total counter.slots +
        (call.event counter.ticPerSec).toList.length := by
  rw [counts.slots]
  unfold CounterCall.record
  cases call.event counter.ticPerSec with
  | none => rfl
  | some time => exact total_record counter.slots time

theorem settle_slots (counts : counter.Counts call full) :
    (full.settle machine call).slots =
      call.slots machine counter.ticPerSec counter.ticMaxCnt counter.slots := by
  unfold Counter.settle CounterCall.slots
  rw [Counter.expire_slots, counts.slots, counts.ticPerSec, counts.ticMaxCnt]

/-- A call adds at most its event to the total. -/
theorem settle_counted (machine : SignedArithmetic)
    (counts : counter.Counts call full) :
    (full.settle machine call).counted ≤
      counter.counted + (call.event counter.ticPerSec).toList.length := by
  have recorded := counts.total
  have kept := total_expire (call.ttl machine full.ticPerSec full.ticMaxCnt)
    full.slots
  have gone := Counter.wrapped_le_total
    (expired (call.ttl machine full.ticPerSec full.ticMaxCnt) full.slots)
  have lost := counts.lost
  unfold Counter.settle Counter.counted
  rw [Counter.expire_slots]
  unfold Counter.expire
  dsimp only
  omega

end Counter.Counts

/-! ## Sequences of calls -/

theorem slotsAfter_concat (machine : SignedArithmetic) (ticPerSec : Int64)
    (ticMaxCnt : UInt32) (calls : List CounterCall) (call : CounterCall) :
    slotsAfter machine ticPerSec ticMaxCnt (calls ++ [call]) =
      call.slots machine ticPerSec ticMaxCnt
        (slotsAfter machine ticPerSec ticMaxCnt calls) := by
  simp [slotsAfter]

theorem events_concat (ticPerSec : Int64) (calls : List CounterCall)
    (call : CounterCall) :
    events ticPerSec (calls ++ [call]) =
      events ticPerSec calls ++ (call.event ticPerSec).toList := by
  unfold events
  rw [List.filterMap_append]
  cases event : call.event ticPerSec <;> simp [event]

/-- `cq_init` made the counter, with a positive period, from pools that have
handed out `others` and `items`. -/
def CounterStart (ticPerSec : Int64) (ticMaxCnt : UInt32)
    (others items : Multiset Nat) (item : Nat) (initial : CountqueMemory) :
    Prop :=
  1 ≤ ticPerSec.toInt ∧ ∃ start : CountqueMemory,
    start.ticBuffer.Holds others ∧ start.itemBuffer.Holds items ∧
      cqInit ticPerSec ticMaxCnt start = .ok item initial

def CounterCall.Takes (machine : SignedArithmetic) (item : Nat)
    (memory : CountqueMemory) (call : CounterCall) (after : CountqueMemory) :
    Prop :=
  ∃ result, call.run machine item memory = .ok result after

/-- What the calls leave of the counter that `cq_init` made. -/
structure CounterAfter (machine : SignedArithmetic) (ticPerSec : Int64)
    (ticMaxCnt : UInt32) (others items : Multiset Nat) (item : Nat)
    (calls : List CounterCall) (memory : CountqueMemory) (counter : Counter) :
    Prop where
  counterAt : CounterAt memory counter others
  sameItem : counter.item = item
  samePerSec : counter.ticPerSec = ticPerSec
  sameMaxCnt : counter.ticMaxCnt = ticMaxCnt
  slots : counter.slots = slotsAfter machine ticPerSec ticMaxCnt calls
  counted_le : counter.counted ≤ (events ticPerSec calls).length
  held : memory.itemBuffer.Holds (item ::ₘ items)

theorem CounterStart.possible (ticMaxCnt : UInt32)
    (perSec : 1 ≤ ticPerSec.toInt) :
    ∃ item initial, CounterStart ticPerSec ticMaxCnt 0 0 item initial := by
  have tics : countqueMemory.ticBuffer.Holds 0 := numberedInit_holds 24
  have held : countqueMemory.itemBuffer.Holds 0 := numberedInit_holds 56
  obtain ⟨item, initial, init, -⟩ := cqInit_spec ticMaxCnt perSec tics held
  exact ⟨item, initial, perSec, countqueMemory, tics, held, init⟩

theorem CounterStart.counterAfter
    (start : CounterStart ticPerSec ticMaxCnt others items item initial) :
    CounterAfter machine ticPerSec ticMaxCnt others items item [] initial
      (.fresh item ticMaxCnt start.1) := by
  obtain ⟨perSec, memory, tics, held, init⟩ := start
  obtain ⟨counterAt, holds⟩ :=
    (cqInit_spec ticMaxCnt perSec tics held).result init
  exact { counterAt := counterAt, sameItem := rfl, samePerSec := rfl,
          sameMaxCnt := rfl, slots := rfl, counted_le := le_refl 0,
          held := holds }

theorem CounterAfter.step
    (reached : CounterAfter machine ticPerSec ticMaxCnt others items item calls
      memory counter) (call : CounterCall) :
    Yields (call.run machine item) memory fun result after =>
      ∃ full, counter.Counts call full ∧ (∀ tic ∈ full.tics, TicAt after tic) ∧
        result = UInt64.ofNat (full.settle machine call).counted ∧
        CounterAfter machine ticPerSec ticMaxCnt others items item
          (calls ++ [call]) after (full.settle machine call) := by
  rw [← reached.sameItem]
  apply (call.run_spec machine reached.counterAt).mono
  intro result after ran
  obtain ⟨full, counts, tics, counterAt, returned, kept⟩ := ran
  refine ⟨full, counts, tics, returned, counterAt, ?_, ?_, ?_, ?_, ?_, ?_⟩
  · exact counts.item
  · exact counts.ticPerSec.trans reached.samePerSec
  · exact counts.ticMaxCnt.trans reached.sameMaxCnt
  · rw [counts.settle_slots, reached.samePerSec, reached.sameMaxCnt,
      reached.slots, slotsAfter_concat]
  · have step := counts.settle_counted machine
    have before := reached.counted_le
    rw [reached.samePerSec] at step
    rw [events_concat, List.length_append]
    omega
  · rw [kept, reached.sameItem]
    exact reached.held

/-- The slots of a counter are those of its window, in every run. -/
theorem CounterStart.run
    (start : CounterStart ticPerSec ticMaxCnt others items item initial)
    (run : Run (CounterCall.Takes machine item) initial calls memory) :
    ∃ counter, CounterAfter machine ticPerSec ticMaxCnt others items item calls
      memory counter := by
  induction run with
  | nil => exact ⟨_, start.counterAfter⟩
  | snoc run step induction =>
      obtain ⟨counter, reached⟩ := induction
      obtain ⟨result, ran⟩ := step
      obtain ⟨full, -, -, -, reachedAfter⟩ := (reached.step _).result ran
      exact ⟨_, reachedAfter⟩

/-- Any calls can be made. -/
theorem CounterStart.takes (machine : SignedArithmetic)
    (start : CounterStart ticPerSec ticMaxCnt others items item initial)
    (calls : List CounterCall) :
    ∃ memory, Run (CounterCall.Takes machine item) initial calls memory := by
  induction calls using List.reverseRecOn with
  | nil => exact ⟨initial, .nil⟩
  | append_singleton calls call induction =>
      obtain ⟨memory, run⟩ := induction
      obtain ⟨counter, reached⟩ := start.run run
      obtain ⟨result, after, ran, -⟩ := reached.step call
      exact ⟨after, run.snoc ⟨result, ran⟩⟩

/-! ## Events of a tic -/

theorem CounterCall.record_count {slots : List (Slot ℤ)} {history : List ℤ}
    (counts : ∀ slot ∈ slots, slot.count ≤ history.count slot.time)
    (member : slot ∈ call.record ticPerSec slots) :
    slot.count ≤
      (history ++ (call.event ticPerSec).toList).count slot.time := by
  unfold CounterCall.record at member
  cases event : call.event ticPerSec with
  | none =>
      rw [event] at member
      simpa using counts slot member
  | some time =>
      rw [event] at member
      exact SlidingWindow.record_count counts member

/-- A tic holds events of its base time, in every run. -/
theorem slotsAfter_count (calls : List CounterCall) :
    ∀ slot ∈ slotsAfter machine ticPerSec ticMaxCnt calls,
      slot.count ≤ (events ticPerSec calls).count slot.time := by
  induction calls using List.reverseRecOn with
  | nil =>
      intro slot member
      cases member
  | append_singleton calls call induction =>
      intro slot member
      rw [slotsAfter_concat] at member
      rw [events_concat]
      exact CounterCall.record_count induction (mem_expire member)

/-- No tic ever counts 2 ^ 32 events. -/
def SmallTics (machine : SignedArithmetic) (ticPerSec : Int64)
    (ticMaxCnt : UInt32) (calls : List CounterCall) : Prop :=
  ∀ earlier call, earlier ++ [call] <+: calls →
    ∀ slot ∈ call.record ticPerSec
      (slotsAfter machine ticPerSec ticMaxCnt earlier), slot.count < 2 ^ 32

/-- It is enough that few events have the same base time. -/
theorem SmallTics.of_few
    (few : ∀ base, (events ticPerSec calls).count base < 2 ^ 32) :
    SmallTics machine ticPerSec ticMaxCnt calls := by
  intro earlier call first slot member
  have counts := CounterCall.record_count (slotsAfter_count earlier) member
  rw [← events_concat] at counts
  have inside : (events ticPerSec (earlier ++ [call])).Sublist
      (events ticPerSec calls) :=
    first.sublist.filterMap _
  calc slot.count
      ≤ (events ticPerSec (earlier ++ [call])).count slot.time := counts
    _ ≤ (events ticPerSec calls).count slot.time := inside.count_le _
    _ < 2 ^ 32 := few _

theorem Counter.wrapped_small {slots : List (Slot ℤ)}
    (small : ∀ slot ∈ slots, slot.count < 2 ^ 32) :
    Counter.wrapped slots = 0 := by
  apply List.sum_eq_zero
  intro lost member
  obtain ⟨slot, inside, same⟩ := List.mem_map.mp member
  rw [← same, Nat.mod_eq_of_lt (small slot inside), Nat.sub_self]

/-- Small tics lose no event. -/
theorem CounterAfter.lost_small
    (reached : CounterAfter machine ticPerSec ticMaxCnt others items item calls
      memory counter)
    {full : Counter} (counts : counter.Counts call full)
    (small : SmallTics machine ticPerSec ticMaxCnt (calls ++ [call])) :
    (full.settle machine call).lost = counter.lost := by
  have few := small calls call List.prefix_rfl
  rw [← reached.slots, ← reached.samePerSec, ← counts.slots] at few
  have none : Counter.wrapped
      (expired (call.ttl machine full.ticPerSec full.ticMaxCnt) full.slots) = 0 :=
    Counter.wrapped_small fun slot member =>
      few slot ((List.takeWhile_sublist _).subset member)
  unfold Counter.settle Counter.expire
  dsimp only
  rw [none, counts.lost, Nat.add_zero]

theorem CounterStart.run_small
    (start : CounterStart ticPerSec ticMaxCnt others items item initial)
    (run : Run (CounterCall.Takes machine item) initial calls memory)
    (small : SmallTics machine ticPerSec ticMaxCnt calls) :
    ∃ counter, CounterAfter machine ticPerSec ticMaxCnt others items item calls
      memory counter ∧ counter.lost = 0 := by
  induction run with
  | nil => exact ⟨_, start.counterAfter, rfl⟩
  | snoc run step induction =>
      obtain ⟨counter, reached, none⟩ := induction fun earlier call first =>
        small earlier call (first.trans (List.prefix_append _ _))
      obtain ⟨result, ran⟩ := step
      obtain ⟨full, counts, -, -, reachedAfter⟩ := (reached.step _).result ran
      exact ⟨_, reachedAfter, (reached.lost_small counts small).trans none⟩

end KetamaRouter
