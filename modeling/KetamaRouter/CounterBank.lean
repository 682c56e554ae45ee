import KetamaRouter.CounterFrame

/-!
# Counters that share their pools

Any number of counters take their records and tics from the same two pools, and
their calls come in any order.  Each of them behaves as if it had the pools to
itself, and between them they hold what the pools have handed out.
-/

namespace KetamaRouter

open PointerChain FaultProgram SlidingWindow LabelledRun

inductive BankCall where
  | init (ticPerSec : Int64) (ticMaxCnt : UInt32)
  | call (item : Nat) (call : CounterCall)
  | free (item : Nat)

inductive BankResult where
  | counter (item : Nat)
  | count (count : UInt64)
  | nothing

def BankCall.run (machine : SignedArithmetic) :
    BankCall → CountqueProgram BankResult
  | .init ticPerSec ticMaxCnt => do
      return .counter (← cqInit ticPerSec ticMaxCnt)
  | .call item taken => do
      return .count (← taken.run machine item)
  | .free item => do
      cqFree item
      return .nothing

/-- What a counter was made with, and its calls since. -/
structure CounterHistory where
  ticPerSec : Int64
  ticMaxCnt : UInt32
  calls : List CounterCall

/-- The history of a counter after one more call of the bank. -/
def CounterHistory.next (item : Nat) (history : Option CounterHistory) :
    BankCall × BankResult → Option CounterHistory
  | (.init ticPerSec ticMaxCnt, .counter made) =>
      if made = item then
        some { ticPerSec := ticPerSec, ticMaxCnt := ticMaxCnt, calls := [] }
      else history
  | (.init _ _, _) => history
  | (.call called call, _) =>
      if called = item then
        history.map fun old => { old with calls := old.calls ++ [call] }
      else history
  | (.free freed, _) => if freed = item then none else history

/-- The history of a counter, if it was made and not given back since. -/
def historyOf (item : Nat) (labels : List (BankCall × BankResult)) :
    Option CounterHistory :=
  labels.foldl (CounterHistory.next item) none

/-- Counters are made with a positive period, and calls are made of live
counters. -/
def BankCall.Legal (labels : List (BankCall × BankResult)) : BankCall → Prop
  | .init ticPerSec _ => 1 ≤ ticPerSec.toInt
  | .call item _ => historyOf item labels ≠ none
  | .free item => historyOf item labels ≠ none

inductive BankRun (machine : SignedArithmetic) :
    List (BankCall × BankResult) → CountqueMemory → Prop where
  | nil : BankRun machine [] countqueMemory
  | snoc {labels : List (BankCall × BankResult)}
      {memory after : CountqueMemory} {call : BankCall} {result : BankResult}
      (run : BankRun machine labels memory) (legal : call.Legal labels)
      (ran : call.run machine memory = .ok result after) :
      BankRun machine (labels ++ [(call, result)]) after

variable {machine : SignedArithmetic} {memory after : CountqueMemory}
  {counter other full : Counter} {counters rest : Multiset Counter}
  {items others : Multiset Nat} {item : Nat} {call : CounterCall}
  {labels : List (BankCall × BankResult)} {history : CounterHistory}

theorem historyOf_snoc (item : Nat) (labels : List (BankCall × BankResult))
    (label : BankCall × BankResult) :
    historyOf item (labels ++ [label]) =
      CounterHistory.next item (historyOf item labels) label := by
  simp [historyOf]

/-! ## Counters with the same window -/

/-- Two counters that differ only in where they are. -/
structure Counter.Alike (counter other : Counter) : Prop where
  ticPerSec : other.ticPerSec = counter.ticPerSec
  ticMaxCnt : other.ticMaxCnt = counter.ticMaxCnt
  slots : other.slots = counter.slots
  lost : other.lost = counter.lost

namespace Counter.Alike

theorem counted (alike : counter.Alike other) :
    other.counted = counter.counted := by
  unfold Counter.counted
  rw [alike.slots, alike.lost]

theorem expire (alike : counter.Alike other) (limit : ℤ) :
    (counter.expire limit).Alike (other.expire limit) where
  ticPerSec := alike.ticPerSec
  ticMaxCnt := alike.ticMaxCnt
  slots := by
    rw [Counter.expire_slots, Counter.expire_slots, alike.slots]
  lost := by
    unfold Counter.expire
    rw [alike.slots, alike.lost]

theorem counts {otherFull : Counter} (alike : counter.Alike other)
    (counts : counter.Counts call full)
    (otherCounts : other.Counts call otherFull) : full.Alike otherFull where
  ticPerSec :=
    (otherCounts.ticPerSec.trans alike.ticPerSec).trans counts.ticPerSec.symm
  ticMaxCnt :=
    (otherCounts.ticMaxCnt.trans alike.ticMaxCnt).trans counts.ticMaxCnt.symm
  slots := by
    rw [otherCounts.slots, counts.slots, alike.slots, alike.ticPerSec]
  lost := by
    rw [otherCounts.lost, counts.lost, alike.lost]

theorem settle (machine : SignedArithmetic) (alike : counter.Alike other)
    (call : CounterCall) :
    (counter.settle machine call).Alike (other.settle machine call) := by
  unfold Counter.settle
  rw [alike.ticPerSec, alike.ticMaxCnt]
  exact alike.expire _

end Counter.Alike

/-- A counter in pools of its own, after the same calls, is alike. -/
def Counter.AsAlone (machine : SignedArithmetic) (history : CounterHistory)
    (counter : Counter) : Prop :=
  1 ≤ history.ticPerSec.toInt ∧ ∃ start memory lone,
    cqInit history.ticPerSec history.ticMaxCnt countqueMemory =
      .ok lone.item start ∧
    Run (CounterCall.Takes machine lone.item) start history.calls memory ∧
    CounterAt memory lone 0 ∧ lone.Alike counter

theorem Counter.AsAlone.fresh (item : Nat) {ticPerSec : Int64}
    (ticMaxCnt : UInt32) (perSec : 1 ≤ ticPerSec.toInt) :
    (Counter.fresh item ticMaxCnt perSec).AsAlone machine
      { ticPerSec := ticPerSec, ticMaxCnt := ticMaxCnt, calls := [] } := by
  have tics : countqueMemory.ticBuffer.Holds 0 := numberedInit_holds 24
  have items : countqueMemory.itemBuffer.Holds 0 := numberedInit_holds 56
  obtain ⟨first, start, init, counterAt, -⟩ :=
    cqInit_spec ticMaxCnt perSec tics items
  exact ⟨perSec, start, start, .fresh first ticMaxCnt perSec, init, .nil,
    counterAt, rfl, rfl, rfl, rfl⟩

/-- The counter has as many tics as its window has slots. -/
theorem Counter.AsAlone.length (alone : counter.AsAlone machine history) :
    counter.ptrs.length = (slotsAfter machine history.ticPerSec
      history.ticMaxCnt history.calls).length := by
  obtain ⟨perSec, start, memory, lone, init, run, counterAt, alike⟩ := alone
  have made : CounterStart history.ticPerSec history.ticMaxCnt 0 0 lone.item
      start :=
    ⟨perSec, countqueMemory, numberedInit_holds 24, numberedInit_holds 56, init⟩
  obtain ⟨reached, after⟩ := made.run run
  have linked := after.counterAt.linked
  rw [after.sameItem] at linked
  calc counter.ptrs.length
      = counter.slots.length := counter.ptrs_length
    _ = lone.slots.length := by rw [alike.slots]
    _ = lone.ptrs.length := lone.ptrs_length.symm
    _ = reached.ptrs.length := by rw [counterAt.linked.unique linked]
    _ = reached.slots.length := reached.ptrs_length
    _ = (slotsAfter machine history.ticPerSec history.ticMaxCnt
          history.calls).length := by rw [after.slots]

theorem Counter.AsAlone.takes (alone : counter.AsAlone machine history)
    (counts : counter.Counts call full) :
    (full.settle machine call).AsAlone machine
      { history with calls := history.calls ++ [call] } := by
  obtain ⟨perSec, start, memory, lone, init, run, counterAt, alike⟩ := alone
  obtain ⟨result, after, ran, loneFull, loneCounts, -, counterAfter, -⟩ :=
    call.run_spec machine counterAt
  have item : (loneFull.settle machine call).item = lone.item := loneCounts.item
  refine ⟨perSec, start, after, loneFull.settle machine call, ?_, ?_,
    counterAfter, (alike.counts loneCounts counts).settle machine call⟩
  · rw [item]
    exact init
  · rw [item]
    exact run.snoc ⟨result, ran⟩

/-- The same call has the same result, wherever the counters are. -/
theorem Counter.Alike.sameResult {memory' : CountqueMemory}
    {others' : Multiset Nat} (alike : counter.Alike other)
    (counterAt : CounterAt memory counter others)
    (otherAt : CounterAt memory' other others') (machine : SignedArithmetic)
    (call : CounterCall) :
    ∃ result after after', call.run machine other.item memory' =
        .ok result after' ∧
      call.run machine counter.item memory = .ok result after := by
  obtain ⟨result, after, ran, full, counts, -, -, isResult, -⟩ :=
    call.run_spec machine counterAt
  obtain ⟨result', after', ran', full', counts', -, -, isResult', -⟩ :=
    call.run_spec machine otherAt
  have same := ((alike.counts counts counts').settle machine call).counted
  rw [isResult', same, ← isResult] at ran'
  exact ⟨result, after, after', ran', ran⟩

/-! ## The bank -/

/-- The tics of some counters. -/
def ticsOf (counters : Multiset Counter) : Multiset Nat :=
  (counters.map fun counter => (counter.ptrs : Multiset Nat)).sum

@[simp] theorem ticsOf_cons (counter : Counter) (counters : Multiset Counter) :
    ticsOf (counter ::ₘ counters) = ↑counter.ptrs + ticsOf counters := by
  simp [ticsOf]

/-- The pools have handed out the counters and their tics, which are in
place. -/
structure BankAt (memory : CountqueMemory) (counters : Multiset Counter) :
    Prop where
  items : memory.itemBuffer.Holds (counters.map Counter.item)
  tics : memory.ticBuffer.Holds (ticsOf counters)
  counterAt : ∀ counter rest, counters = counter ::ₘ rest →
    CounterAt memory counter (ticsOf rest)

namespace BankAt

theorem empty : BankAt countqueMemory 0 where
  items := numberedInit_holds 56
  tics := numberedInit_holds 24
  counterAt _ _ split := absurd split.symm (Multiset.cons_ne_zero)

theorem apart (bank : BankAt memory (counter ::ₘ rest)) (member : other ∈ rest) :
    other.item ≠ counter.item := by
  have distinct := bank.items.nodup
  rw [Multiset.map_cons, Multiset.nodup_cons] at distinct
  intro same
  exact distinct.1 (same ▸ Multiset.mem_map_of_mem Counter.item member)

/-- The counters that were spared stay in place. -/
theorem spared (bank : BankAt memory (counter ::ₘ rest))
    (spares : Spares counter.item (ticsOf rest) memory after)
    (others : Multiset Nat)
    (holds : after.ticBuffer.Holds (others + ticsOf rest)) :
    ∀ other left, rest = other ::ₘ left →
      CounterAt after other (others + ticsOf left) := by
  intro other left split
  subst split
  have apart := bank.apart (Multiset.mem_cons_self other left)
  have otherAt := bank.counterAt other (counter ::ₘ left)
    (Multiset.cons_swap counter other left)
  apply spares.counterAt otherAt apart
  · intro tic member
    rw [ticsOf_cons]
    exact Multiset.mem_add.mpr (.inl member)
  · rw [ticsOf_cons, add_left_comm] at holds
    exact holds

/-- One counter has changed, and the others were spared. -/
theorem change (bank : BankAt memory (counter ::ₘ rest))
    (spares : Spares counter.item (ticsOf rest) memory after)
    (counterAfter : CounterAt after full (ticsOf rest))
    (sameItem : full.item = counter.item)
    (sameBuffer : after.itemBuffer = memory.itemBuffer) :
    BankAt after (full ::ₘ rest) where
  items := by
    have items := bank.items
    rw [Multiset.map_cons] at items ⊢
    rw [sameBuffer, sameItem]
    exact items
  tics := by
    rw [ticsOf_cons]
    exact counterAfter.pool
  counterAt other left split := by
    rcases Multiset.cons_eq_cons.mp split with ⟨same, sameRest⟩ | ⟨-, both⟩
    · rw [← same, ← sameRest]
      exact counterAfter
    · obtain ⟨left', inside, same⟩ := both
      rw [same, ticsOf_cons]
      exact bank.spared spares full.ptrs counterAfter.pool other left' inside

end BankAt

theorem CounterAt.freed (counterAt : CounterAt memory counter others)
    (held : memory.itemBuffer.Holds (counter.item ::ₘ items)) :
    Yields (cqFree counter.item) memory fun _ after =>
      after.ticBuffer.Holds others ∧ after.itemBuffer.Holds items := by
  have enough : counter.ptrs.length ≤ ticFuel memory := by
    unfold Counter.ptrs
    rw [List.length_map]
    exact counterAt.toChainAt.enoughFuel.le
  unfold cqFree cqFreeTics
  apply Yields.bind (cqFreeLoop_spec counterAt.linked counterAt.pool enough)
  intro _ middle loop
  obtain ⟨tics, -, same⟩ := loop
  rw [← same] at held
  apply (itemBack_spec held).mono
  intro _ after back
  obtain ⟨pool, changed, holds, -⟩ := back
  rw [changed]
  exact ⟨tics, holds⟩

/-- The counters of the bank are the live ones, each as it would be alone. -/
structure Banked (machine : SignedArithmetic)
    (labels : List (BankCall × BankResult)) (memory : CountqueMemory)
    (counters : Multiset Counter) : Prop where
  bank : BankAt memory counters
  alone : ∀ counter ∈ counters, ∃ history,
    historyOf counter.item labels = some history ∧
      counter.AsAlone machine history
  live : ∀ item, historyOf item labels ≠ none →
    ∃ counter ∈ counters, counter.item = item

theorem Banked.empty : Banked machine [] countqueMemory 0 where
  bank := BankAt.empty
  alone counter member := absurd member (Multiset.notMem_zero counter)
  live _ some := absurd rfl some

theorem Banked.find {item : Nat} (banked : Banked machine labels memory counters)
    (live : historyOf item labels ≠ none) :
    ∃ counter rest, counters = counter ::ₘ rest ∧ counter.item = item := by
  obtain ⟨counter, member, same⟩ := banked.live item live
  obtain ⟨rest, split⟩ := Multiset.exists_cons_of_mem member
  exact ⟨counter, rest, split, same⟩

/-- A new counter gets a record nobody holds. -/
theorem Banked.init (banked : Banked machine labels memory counters)
    {ticPerSec : Int64} (ticMaxCnt : UInt32) (perSec : 1 ≤ ticPerSec.toInt) :
    Yields (cqInit ticPerSec ticMaxCnt) memory fun item after =>
      item ∉ counters.map Counter.item ∧
        Banked machine
          (labels ++ [(.init ticPerSec ticMaxCnt, .counter item)]) after
          (.fresh item ticMaxCnt perSec ::ₘ counters) := by
  have bank := banked.bank
  obtain ⟨item, after, ran, counterAfter, items⟩ :=
    cqInit_spec ticMaxCnt perSec bank.tics bank.items
  obtain ⟨outside, spares, same⟩ :=
    (cqInit_spares ticPerSec ticMaxCnt bank.items).result ran
  have apart {other : Counter} (member : other ∈ counters) : item ≠ other.item :=
    fun same => outside (same ▸ Multiset.mem_map_of_mem Counter.item member)
  have noTics : (Counter.fresh item ticMaxCnt perSec).ptrs = [] := rfl
  refine ⟨item, after, ran, outside, ⟨?_, ?_, ?_⟩, ?_, ?_⟩
  · rw [Multiset.map_cons]
    exact items
  · rw [ticsOf_cons]
    exact counterAfter.pool
  · intro other left split
    rcases Multiset.cons_eq_cons.mp split with ⟨isFresh, isRest⟩ | ⟨-, both⟩
    · rw [← isFresh, ← isRest]
      exact counterAfter
    · obtain ⟨left', inside, isLeft⟩ := both
      have member : other ∈ counters :=
        inside ▸ Multiset.mem_cons_self other left'
      have tics := bank.tics
      rw [inside, ticsOf_cons, ← same] at tics
      rw [isLeft, ticsOf_cons, noTics, Multiset.coe_nil, zero_add]
      apply (spares (ticsOf counters)).counterAt
        (bank.counterAt other left' inside) (apart member).symm _ tics
      intro tic chained
      rw [inside, ticsOf_cons]
      exact Multiset.mem_add.mpr (.inl chained)
  · intro other member
    rw [historyOf_snoc]
    rcases Multiset.mem_cons.mp member with isFresh | old
    · rw [isFresh]
      refine ⟨_, if_pos rfl, ?_⟩
      exact Counter.AsAlone.fresh item ticMaxCnt perSec
    · obtain ⟨history, known, alone⟩ := banked.alone other old
      refine ⟨history, ?_, alone⟩
      rw [← known]
      exact if_neg (apart old)
  · intro other live
    rw [historyOf_snoc] at live
    by_cases fresh : item = other
    · exact ⟨_, Multiset.mem_cons_self _ _, fresh⟩
    · have kept : historyOf other labels ≠ none := by
        intro gone
        apply live
        rw [gone]
        exact if_neg fresh
      obtain ⟨counter, member, isItem⟩ := banked.live other kept
      exact ⟨counter, Multiset.mem_cons_of_mem member, isItem⟩

/-- A call changes its counter alone. -/
theorem Banked.takes {item : Nat} (banked : Banked machine labels memory counters)
    (known : historyOf item labels = some history) (call : CounterCall) :
    Yields (call.run machine item) memory fun result after =>
      ∃ next, Banked machine (labels ++ [(.call item call, .count result)]) after
        next := by
  obtain ⟨counter, rest, split, same⟩ :=
    banked.find (known ▸ Option.some_ne_none history)
  subst split
  subst same
  have counterAt := banked.bank.counterAt counter rest rfl
  obtain ⟨history', known', asAlone⟩ :=
    banked.alone counter (Multiset.mem_cons_self counter rest)
  cases known.symm.trans known'
  obtain ⟨result, after, ran, full, counts, -, counterAfter, -, items⟩ :=
    call.run_spec machine counterAt
  have spares := CounterCall.run_spares machine call counterAt ran
  have bank := banked.bank.change spares counterAfter counts.item items
  refine ⟨result, after, ran, full.settle machine call ::ₘ rest, bank, ?_, ?_⟩
  · intro other member
    rw [historyOf_snoc]
    rcases Multiset.mem_cons.mp member with changed | old
    · refine ⟨_, ?_, changed ▸ asAlone.takes counts⟩
      rw [changed, show (full.settle machine call).item = counter.item from
        counts.item, known]
      exact if_pos rfl
    · obtain ⟨history', known', alone⟩ :=
        banked.alone other (Multiset.mem_cons_of_mem old)
      refine ⟨history', ?_, alone⟩
      rw [← known']
      exact if_neg (banked.bank.apart old).symm
  · intro other live
    rw [historyOf_snoc] at live
    have kept : historyOf other labels ≠ none := by
      intro gone
      apply live
      rw [gone]
      exact ite_self none
    obtain ⟨holder, member, isItem⟩ := banked.live other kept
    rcases Multiset.mem_cons.mp member with changed | old
    · exact ⟨_, Multiset.mem_cons_self _ _,
        (counts.item.trans (congrArg Counter.item changed).symm).trans isItem⟩
    · exact ⟨holder, Multiset.mem_cons_of_mem old, isItem⟩

/-- A counter that is given back leaves the others as they are. -/
theorem Banked.free {item : Nat} (banked : Banked machine labels memory counters)
    (live : historyOf item labels ≠ none) :
    Yields (cqFree item) memory fun _ after =>
      ∃ next, Banked machine (labels ++ [(.free item, .nothing)]) after next := by
  obtain ⟨counter, rest, split, same⟩ := banked.find live
  subst split
  subst same
  have bank := banked.bank
  have items := bank.items
  rw [Multiset.map_cons] at items
  obtain ⟨_, after, ran, tics, held⟩ :=
    (bank.counterAt counter rest rfl).freed items
  have spares := (cqFree_spares counter.item (ticsOf rest) memory).kept
    (Spares.refl _ _ _) ran
  refine ⟨⟨⟩, after, ran, rest, ⟨held, tics, ?_⟩, ?_, ?_⟩
  · intro other left split
    have spared := bank.spared spares 0 (by rw [zero_add]; exact tics) other left
      split
    rw [zero_add] at spared
    exact spared
  · intro other member
    obtain ⟨history, known, alone⟩ :=
      banked.alone other (Multiset.mem_cons_of_mem member)
    refine ⟨history, ?_, alone⟩
    rw [historyOf_snoc, ← known]
    exact if_neg (bank.apart member).symm
  · intro other live
    rw [historyOf_snoc] at live
    have apart : counter.item ≠ other := fun same => live (if_pos same)
    have kept : historyOf other labels ≠ none := by
      intro gone
      apply live
      rw [gone]
      exact if_neg apart
    obtain ⟨holder, member, isItem⟩ := banked.live other kept
    rcases Multiset.mem_cons.mp member with gone | old
    · exact absurd (gone ▸ isItem) apart
    · exact ⟨holder, old, isItem⟩

/-- Calls of live counters keep the bank, and return. -/
theorem Banked.step {call : BankCall}
    (banked : Banked machine labels memory counters) (legal : call.Legal labels) :
    Yields (call.run machine) memory fun result after =>
      (∀ item, result = .counter item → historyOf item labels = none) ∧
        ∃ next, Banked machine (labels ++ [(call, result)]) after next := by
  cases call with
  | init ticPerSec ticMaxCnt =>
      apply Yields.bind (banked.init ticMaxCnt legal)
      intro item after made
      obtain ⟨outside, bankedAfter⟩ := made
      apply Yields.pure
      refine ⟨?_, _, bankedAfter⟩
      intro other same
      cases same
      by_contra live
      obtain ⟨counter, member, isItem⟩ := banked.live item live
      exact outside (isItem ▸ Multiset.mem_map_of_mem Counter.item member)
  | call item taken =>
      obtain ⟨history, known⟩ := Option.ne_none_iff_exists'.mp legal
      apply Yields.bind (banked.takes known taken)
      intro result after done
      apply Yields.pure
      refine ⟨?_, done⟩
      intro other same
      cases same
  | free item =>
      apply Yields.bind (banked.free legal)
      intro _ after done
      apply Yields.pure
      refine ⟨?_, done⟩
      intro other same
      cases same

theorem BankRun.banked (run : BankRun machine labels memory) :
    ∃ counters, Banked machine labels memory counters := by
  induction run with
  | nil => exact ⟨0, Banked.empty⟩
  | snoc run legal ran induction =>
      obtain ⟨counters, banked⟩ := induction
      exact ((banked.step legal).result ran).2

/-- Counters can always be made. -/
theorem BankRun.init {ticPerSec : Int64} (run : BankRun machine labels memory)
    (ticMaxCnt : UInt32) (perSec : 1 ≤ ticPerSec.toInt) :
    ∃ item after, historyOf item labels = none ∧
      BankRun machine
        (labels ++ [(.init ticPerSec ticMaxCnt, .counter item)]) after := by
  obtain ⟨counters, banked⟩ := run.banked
  obtain ⟨item, after, ran, outside, -⟩ := banked.init ticMaxCnt perSec
  refine ⟨item, after, ?_, run.snoc perSec (bind_run_ok ran)⟩
  by_contra live
  obtain ⟨counter, member, same⟩ := banked.live item live
  exact outside (same ▸ Multiset.mem_map_of_mem Counter.item member)

/-- Live counters can always be called. -/
theorem BankRun.called (run : BankRun machine labels memory)
    (live : historyOf item labels ≠ none) (call : CounterCall) :
    ∃ count after,
      BankRun machine (labels ++ [(.call item call, .count count)]) after := by
  obtain ⟨counters, banked⟩ := run.banked
  obtain ⟨history, known⟩ := Option.ne_none_iff_exists'.mp live
  obtain ⟨count, after, ran, -⟩ := banked.takes known call
  exact ⟨count, after, run.snoc live (bind_run_ok ran)⟩

/-- A live counter has as many tics as its window has slots. -/
theorem BankRun.length {chain : List Nat} (run : BankRun machine labels memory)
    (known : historyOf item labels = some history)
    (linked : Linked memory.newer (memory.item item).first chain) :
    chain.length = (slotsAfter machine history.ticPerSec history.ticMaxCnt
      history.calls).length := by
  obtain ⟨counters, banked⟩ := run.banked
  obtain ⟨counter, rest, split, same⟩ :=
    banked.find (known ▸ Option.some_ne_none history)
  subst split
  subst same
  obtain ⟨history', known', alone⟩ :=
    banked.alone counter (Multiset.mem_cons_self counter rest)
  cases known.symm.trans known'
  rw [← alone.length]
  exact congrArg List.length
    (linked.unique (banked.bank.counterAt counter rest rfl).linked)

/-- A bank with two counters. -/
theorem BankRun.two (machine : SignedArithmetic) :
    ∃ first second, second ≠ first ∧ ∃ memory, BankRun machine
      [(.init 10 6, .counter first), (.init 60 5, .counter second)] memory := by
  obtain ⟨first, _, -, run⟩ :=
    (BankRun.nil : BankRun machine _ _).init 6 (show 1 ≤ Int64.toInt 10 by decide)
  obtain ⟨second, memory, fresh, run⟩ :=
    run.init 5 (show 1 ≤ Int64.toInt 60 by decide)
  refine ⟨first, second, ?_, memory, run⟩
  intro same
  rw [same] at fresh
  simp [historyOf, CounterHistory.next] at fresh

/-- Whatever the calls of the other counters are and however they come between its
own, a counter returns what it returns to the same calls in pools of its own. -/
theorem counters_independent {item : Nat} (run : BankRun machine labels memory)
    (live : historyOf item labels = some history) :
    ∃ lone start alone,
      cqInit history.ticPerSec history.ticMaxCnt countqueMemory =
        .ok lone start ∧
      Run (CounterCall.Takes machine lone) start history.calls alone ∧
      ∀ call : CounterCall, ∃ result after aloneAfter,
        call.run machine item memory = .ok result after ∧
        call.run machine lone alone = .ok result aloneAfter := by
  obtain ⟨counters, banked⟩ := run.banked
  obtain ⟨counter, rest, split, same⟩ :=
    banked.find (live ▸ Option.some_ne_none history)
  subst split
  subst same
  obtain ⟨history', known, -, start, alone, lone, init, loneRun, loneAt, alike⟩ :=
    banked.alone counter (Multiset.mem_cons_self counter rest)
  cases live.symm.trans known
  refine ⟨lone.item, start, alone, init, loneRun, ?_⟩
  intro call
  obtain ⟨result, aloneAfter, after, ran, ranAlone⟩ := alike.sameResult loneAt
    (banked.bank.counterAt counter rest rfl) machine call
  exact ⟨result, after, aloneAfter, ran, ranAlone⟩

theorem counters_independent_two :
    ∃ first second count memory,
      BankRun .wrapping
        [(.init 10 6, .counter first), (.init 60 5, .counter second),
          (.call first (.tic 7), .count count)] memory ∧
      ∃ lone start alone,
        cqInit 10 6 countqueMemory = .ok lone start ∧
        Run (CounterCall.Takes .wrapping lone) start [.tic 7] alone ∧
        ∀ call : CounterCall, ∃ result after aloneAfter,
          call.run .wrapping first memory = .ok result after ∧
          call.run .wrapping lone alone = .ok result aloneAfter := by
  obtain ⟨first, second, apart, _, run⟩ := BankRun.two .wrapping
  have live : historyOf first [(.init 10 6, .counter first),
      (.init 60 5, .counter second)] ≠ none := by
    simp [historyOf, CounterHistory.next, apart]
  obtain ⟨count, memory, run⟩ := run.called live (.tic 7)
  have known : historyOf first [(.init 10 6, .counter first),
      (.init 60 5, .counter second), (.call first (.tic 7), .count count)] =
        some { ticPerSec := 10, ticMaxCnt := 6, calls := [.tic 7] } := by
    simp [historyOf, CounterHistory.next, apart]
  exact ⟨first, second, count, memory, run, counters_independent run known⟩

/-- Between them, the live counters hold exactly what the two pools have handed
out and not got back, and every call of a live counter returns. -/
theorem bank_conserves (run : BankRun machine labels memory) :
    ∃ held : Multiset (Nat × List Nat),
      Ledger.outstanding memory.itemBuffer.ledger = some (held.map Prod.fst) ∧
      Ledger.outstanding memory.ticBuffer.ledger =
        some (held.map fun pair => (pair.2 : Multiset Nat)).sum ∧
      (∀ pair ∈ held, historyOf pair.1 labels ≠ none ∧
        Linked memory.newer (memory.item pair.1).first pair.2 ∧
        (memory.item pair.1).last = pair.2.getLast?) ∧
      (∀ item, historyOf item labels ≠ none → item ∈ held.map Prod.fst) ∧
      ∀ call : BankCall, call.Legal labels →
        Yields (call.run machine) memory fun result _ =>
          ∀ item, result = .counter item → historyOf item labels = none := by
  obtain ⟨counters, banked⟩ := run.banked
  refine ⟨counters.map fun counter => (counter.item, counter.ptrs), ?_, ?_, ?_,
    ?_, ?_⟩
  · rw [Multiset.map_map]
    exact banked.bank.items.ledger
  · rw [Multiset.map_map]
    exact banked.bank.tics.ledger
  · intro pair member
    obtain ⟨counter, inside, same⟩ := Multiset.mem_map.mp member
    obtain ⟨rest, split⟩ := Multiset.exists_cons_of_mem inside
    obtain ⟨history, known, -⟩ := banked.alone counter inside
    rw [← same]
    have counterAt := banked.bank.counterAt counter rest split
    exact ⟨known ▸ Option.some_ne_none history, counterAt.linked,
      counterAt.last⟩
  · intro item live
    obtain ⟨counter, member, same⟩ := banked.live item live
    rw [Multiset.map_map]
    exact same ▸ Multiset.mem_map_of_mem Counter.item member
  · intro call legal
    apply (banked.step legal).mono
    intro result after done
    exact done.1

/-- One counter has two tics, and the other one has one. -/
theorem bank_conserves_two :
    ∃ first second labels memory, BankRun .wrapping labels memory ∧
      ∃ (held : Multiset (Nat × List Nat)) (firstTics secondTics : List Nat),
        Ledger.outstanding memory.itemBuffer.ledger =
          some (held.map Prod.fst) ∧
        Ledger.outstanding memory.ticBuffer.ledger =
          some (held.map fun pair => (pair.2 : Multiset Nat)).sum ∧
        (first, firstTics) ∈ held ∧ firstTics.length = 2 ∧
        (second, secondTics) ∈ held ∧ secondTics.length = 1 := by
  obtain ⟨first, second, apart, _, run⟩ := BankRun.two .wrapping
  have live : historyOf first [(.init 10 6, .counter first),
      (.init 60 5, .counter second)] ≠ none := by
    simp [historyOf, CounterHistory.next, apart]
  obtain ⟨one, _, run⟩ := run.called live (.tic 7)
  have live : historyOf second [(.init 10 6, .counter first),
      (.init 60 5, .counter second), (.call first (.tic 7), .count one)] ≠
        none := by
    simp [historyOf, CounterHistory.next, apart.symm]
  obtain ⟨other, _, run⟩ := run.called live (.tic 65)
  have live : historyOf first [(.init 10 6, .counter first),
      (.init 60 5, .counter second), (.call first (.tic 7), .count one),
      (.call second (.tic 65), .count other)] ≠ none := by
    simp [historyOf, CounterHistory.next, apart]
  obtain ⟨two, memory, run⟩ := run.called live (.tic 25)
  have firstCalls : historyOf first [(.init 10 6, .counter first),
      (.init 60 5, .counter second), (.call first (.tic 7), .count one),
      (.call second (.tic 65), .count other),
      (.call first (.tic 25), .count two)] =
        some { ticPerSec := 10, ticMaxCnt := 6, calls := [.tic 7, .tic 25] } := by
    simp [historyOf, CounterHistory.next, apart]
  have secondCalls : historyOf second [(.init 10 6, .counter first),
      (.init 60 5, .counter second), (.call first (.tic 7), .count one),
      (.call second (.tic 65), .count other),
      (.call first (.tic 25), .count two)] =
        some { ticPerSec := 60, ticMaxCnt := 5, calls := [.tic 65] } := by
    simp [historyOf, CounterHistory.next, apart.symm]
  obtain ⟨held, items, tics, linked, live, -⟩ := bank_conserves run
  have inFirst := live first (firstCalls ▸ Option.some_ne_none _)
  have inSecond := live second (secondCalls ▸ Option.some_ne_none _)
  obtain ⟨⟨_, firstTics⟩, holdsFirst, rfl⟩ := Multiset.mem_map.mp inFirst
  obtain ⟨⟨_, secondTics⟩, holdsSecond, rfl⟩ := Multiset.mem_map.mp inSecond
  refine ⟨_, _, _, memory, run, held, firstTics, secondTics, items, tics,
    holdsFirst, ?_, holdsSecond, ?_⟩
  · rw [run.length firstCalls (linked _ holdsFirst).2.1]
    decide
  · rw [run.length secondCalls (linked _ holdsSecond).2.1]
    decide

end KetamaRouter
