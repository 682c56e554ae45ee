import Mathlib.Data.UInt
import KetamaRouter.CountqueCalls

/-!
# Retention of a recorded event

`get_ttl_time` takes the period and the number of tics as `int` and multiplies
them as `int`.  An event survives the call that records it, in every run, exactly
if the length of the window fits.
-/

namespace KetamaRouter

open PointerChain FaultProgram SlidingWindow LabelledRun

variable {machine : SignedArithmetic} {initial memory after : CountqueMemory}
  {counter full : Counter} {others items : Multiset Nat} {item : Nat}
  {ticPerSec : Int64} {ticMaxCnt : UInt32} {calls : List CounterCall}
  {t baseTime : Int64}

/-- The tic that holds the event of a call at `t`, which follows the calls
`calls`, is still in the chain when the call returns. -/
def EventKept (machine : SignedArithmetic) (ticPerSec : Int64) (item : Nat)
    (calls : List CounterCall) (memory : CountqueMemory) (t : Int64) : Prop :=
  Yields (cqTicTime machine item t) memory fun result after =>
    ∃ middle tic chain,
      cqRecord item (baseTimeBy ticPerSec t) memory = .ok ⟨⟩ middle ∧
      (middle.item item).last = some tic ∧
      (middle.tic tic).time = baseTimeBy ticPerSec t ∧
      Linked after.newer (after.item item).first chain ∧ tic ∈ chain ∧
      ((events ticPerSec calls).length + 1 < 2 ^ 64 → 1 ≤ result.toNat)

/-- The expiry time of a call at `t` is exact, and the event is kept. -/
structure Retains (machine : SignedArithmetic) (ticPerSec : Int64)
    (ticMaxCnt : UInt32) (item : Nat) (calls : List CounterCall)
    (memory : CountqueMemory) (t : Int64) : Prop where
  exact : (getTtlTime machine (baseTimeBy ticPerSec t) ticPerSec.toInt32
    ticMaxCnt.toInt32).toInt =
      baseOf ticPerSec t - ticPerSec.toInt * ticMaxCnt.toNat
  below : getTtlTime machine (baseTimeBy ticPerSec t) ticPerSec.toInt32
    ticMaxCnt.toInt32 < baseTimeBy ticPerSec t
  kept : EventKept machine ticPerSec item calls memory t

/-- The event is in the last tic of the counter. -/
theorem Counter.Records.last_tic {time : ℤ}
    (records : counter.Records full time) :
    ∃ tic, full.tics.getLast? = some tic ∧ tic.slot.time = time ∧
      1 ≤ tic.slot.count := by
  obtain ⟨before, count, slots⟩ := record_last counter.slots time
  have last := full.slots_getLast?
  rw [records.slots, slots, List.getLast?_concat] at last
  obtain ⟨tic, final, same⟩ := Option.map_eq_some_iff.mp last.symm
  refine ⟨tic, final, ?_, ?_⟩
  · rw [same]
  · rw [same]
    exact Nat.le_add_left 1 count

/-- A tic that is younger than the limit stays last. -/
theorem Counter.expire_keeps {limit : ℤ} {tic : TicShape}
    (last : full.tics.getLast? = some tic) (young : limit < tic.slot.time) :
    (full.expire limit).tics.getLast? = some tic := by
  have some : (full.expire limit).tics ≠ [] := by
    intro none
    have old := List.dropWhile_eq_nil_iff.mp none tic (List.mem_of_getLast? last)
    exact absurd (of_decide_eq_true old) (Int.not_le.mpr young)
  rw [full.expire_last limit some, last]

/-- An event that is younger than the expiry time is kept. -/
theorem CounterAfter.eventKept
    (reached : CounterAfter machine ticPerSec ticMaxCnt others items item calls
      memory counter)
    (young : getTtlTime machine (baseTimeBy ticPerSec t)
      ticPerSec.toInt32 ticMaxCnt.toInt32 < baseTimeBy ticPerSec t) :
    EventKept machine ticPerSec item calls memory t := by
  have counterAt := reached.counterAt
  have few := reached.counted_le
  rw [← reached.samePerSec, ← reached.sameMaxCnt] at young
  rw [← reached.samePerSec] at few ⊢
  rw [← reached.sameItem]
  obtain ⟨_, middle, recorded, ⟨full, records, counterMiddle⟩, -⟩ :=
    cqRecord_spec (baseTimeBy counter.ticPerSec t) counterAt
  obtain ⟨tic, last, time, counted⟩ := records.last_tic
  have ticAt := counterMiddle.tics tic (List.mem_of_getLast? last)
  have isLast := counterMiddle.last_eq
  rw [last, records.item] at isLast
  have adjusted := cqAdjust_spec machine
    (baseTimeBy counter.ticPerSec t) counterMiddle
  rw [records.item] at adjusted
  unfold EventKept cqTicTime
  apply Yields.get_bind
  rw [counterAt.ticPerSec, getBaseTimeByTime_run counter.perSec, pure_bind]
  apply Yields.bind_run recorded
  apply Yields.bind adjusted
  intro _ after done
  obtain ⟨counterAfter, -⟩ := done
  apply Yields.get_bind
  apply Yields.pure
  have limit : (full.ttl machine (baseTimeBy counter.ticPerSec t)).toInt <
      tic.slot.time := by
    unfold Counter.ttl
    rw [time, records.ticPerSec, records.ticMaxCnt]
    exact Int64.lt_iff_toInt_lt.mp young
  have stays := List.mem_of_getLast? (Counter.expire_keeps last limit)
  have linked := counterAfter.linked
  have count := counterAfter.count
  rw [Counter.expire_item, records.item] at linked count
  refine ⟨middle, tic.ptr, _, recorded, isLast, ?_, linked,
    List.mem_map_of_mem stays, ?_⟩
  · apply Int64.toInt_inj.mp
    rw [ticAt.time, time]
  · intro room
    have atLeast :=
      count_le_total (List.mem_map_of_mem (f := TicShape.slot) stays)
    have atMost := records.counts.settle_counted machine
    have settled : full.settle machine (.tic t) = full.expire
        (full.ttl machine (baseTimeBy counter.ticPerSec t)).toInt := by
      rw [← records.ticPerSec]
      rfl
    have one : ((CounterCall.tic t).event counter.ticPerSec).toList.length = 1 :=
      rfl
    rw [settled, one] at atMost
    have held : tic.slot.count ≤ (full.expire
        (full.ttl machine
          (baseTimeBy counter.ticPerSec t)).toInt).counted :=
      atLeast.trans (Nat.le_add_right _ _)
    rw [count, UInt64.toNat_ofNat', Nat.mod_eq_of_lt (by omega)]
    omega

theorem CounterAfter.retains (perSec : 1 ≤ ticPerSec.toInt)
    (maxCnt : 1 ≤ ticMaxCnt.toNat)
    (fits : windowLength ticPerSec ticMaxCnt < 2 ^ 31)
    (reached : CounterAfter machine ticPerSec ticMaxCnt others items item calls
      memory counter)
    (time : 0 ≤ t.toInt) :
    Retains machine ticPerSec ticMaxCnt item calls memory t := by
  have base := baseTimeBy_toInt perSec time
  have exact := getTtlTime_toInt machine perSec maxCnt fits
    (base ▸ baseOf_nonneg perSec time)
  have positive := windowLength_pos perSec maxCnt
  have below : getTtlTime machine (baseTimeBy ticPerSec t)
      ticPerSec.toInt32 ticMaxCnt.toInt32 < baseTimeBy ticPerSec t := by
    apply Int64.lt_iff_toInt_lt.mpr
    rw [exact]
    omega
  constructor
  · rw [exact, base]
    rfl
  · exact below
  · exact reached.eventKept below

/-- Calls at time zero show whether the window fits. -/
theorem Retains.fits (perSec : 1 ≤ ticPerSec.toInt)
    (retains : Retains machine ticPerSec ticMaxCnt item calls memory 0) :
    ticPerSec.toInt * ticMaxCnt.toNat < 2 ^ 31 := by
  have base : baseOf ticPerSec 0 = 0 := by
    simp [baseOf]
  have zero : baseTimeBy ticPerSec 0 = 0 := by
    apply Int64.toInt_inj.mp
    rw [baseTimeBy_toInt perSec (le_refl 0), base]
    rfl
  have exact := retains.exact
  rw [zero, base, getTtlTime_zero] at exact
  have bound := (machine.mulInt ticPerSec.toInt32 ticMaxCnt.toInt32).toInt_lt
  omega

/-- Every call of every run keeps the event that it records if and only if the
window is shorter than `2 ^ 31` seconds. -/
theorem retains_iff (machine : SignedArithmetic) (perSec : 1 ≤ ticPerSec.toInt)
    (maxCnt : 1 ≤ ticMaxCnt.toNat) :
    (∀ others items item initial calls memory,
      CounterStart ticPerSec ticMaxCnt others items item initial →
      Run (CounterCall.Takes machine item) initial calls memory →
      (∀ call ∈ calls, 0 ≤ call.time.toInt) → ∀ t : Int64, 0 ≤ t.toInt →
        Retains machine ticPerSec ticMaxCnt item calls memory t) ↔
      ticPerSec.toInt * ticMaxCnt.toNat < 2 ^ 31 := by
  constructor
  · intro always
    obtain ⟨item, initial, start⟩ := CounterStart.possible ticMaxCnt perSec
    have first := always 0 0 item initial [] initial start .nil
      (fun call member => absurd member List.not_mem_nil) 0 (le_refl 0)
    exact first.fits perSec
  · intro fits others items item initial calls memory start run _ t time
    obtain ⟨counter, reached⟩ := start.run run
    exact reached.retains perSec maxCnt fits time

theorem retains_iff_minutes :
    ∃ item initial, CounterStart 60 60 0 0 item initial ∧
      Retains .wrapping 60 60 item [] initial 1234 := by
  obtain ⟨item, initial, start⟩ := @CounterStart.possible 60 60 (by decide)
  have always := (@retains_iff 60 60 .wrapping (by decide) (by decide)).mpr
    (by decide)
  exact ⟨item, initial, start, always 0 0 item initial [] initial start .nil
    (fun call member => absurd member List.not_mem_nil) 1234 (by decide)⟩

/-- A window of `2 ^ 31` seconds lies in the future, and the first event is
lost. -/
theorem retains_fails :
    ∃ item initial, CounterStart 1 (2 ^ 31) 0 0 item initial ∧
      Yields (cqTicTime .wrapping item 1234) initial
        (fun result after =>
          (after.item item).first = none ∧ result = 0) ∧
      ¬ Retains .wrapping 1 (2 ^ 31) item [] initial 1234 := by
  obtain ⟨item, initial, start⟩ := @CounterStart.possible 1 (2 ^ 31) (by decide)
  refine ⟨item, initial, start, ?_, ?_⟩
  · have reached : CounterAfter .wrapping 1 (2 ^ 31) 0 0 item [] initial _ :=
      start.counterAfter
    apply (reached.step (.tic 1234)).mono
    intro result after ran
    obtain ⟨full, counts, -, returned, reachedAfter⟩ := ran
    have small : SmallTics .wrapping 1 (2 ^ 31) ([] ++ [.tic 1234]) :=
      SmallTics.of_few fun base => List.count_le_length.trans_lt (by decide)
    have none := reached.lost_small counts small
    have gone : slotsAfter .wrapping 1 (2 ^ 31) [.tic 1234] = [] := by decide
    have slots := reachedAfter.slots.trans gone
    have empty := List.map_eq_nil_iff.mp slots
    have linked := reachedAfter.counterAt.linked
    rw [reachedAfter.sameItem] at linked
    unfold Counter.ptrs at linked
    rw [empty] at linked
    constructor
    · exact linked
    · rw [returned]
      unfold Counter.counted
      rw [slots, none]
      rfl
  · intro retains
    exact absurd retains.exact (by decide)

end KetamaRouter
