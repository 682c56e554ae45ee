import KetamaRouter.CountqueExpiry

/-!
# Recording an event

An event is counted in the last tic of the chain, in the first tic of an empty
one, or in a new tic behind the last.
-/

namespace KetamaRouter

open PointerChain FaultProgram SlidingWindow

variable {memory after : CountqueMemory} {counter : Counter}
  {held others : Multiset Nat}

/-! ## New tics -/


theorem ticGet_spec (holds : memory.ticBuffer.Holds held) :
    Yields ticGet memory fun tic after =>
      tic ∉ held ∧ ∃ pool contents, pool.Holds (tic ::ₘ held) ∧
        after = (memory.setTicBuffer pool).setTic tic contents := by
  unfold ticGet
  apply Yields.get_bind
  apply Yields.bind (Yields.focus (numberedGet_spec holds))
  intro tic middle got
  obtain ⟨pool, same, outside, holdsAfter⟩ := got
  subst same
  by_cases fresh : tic = memory.ticBuffer.objBrk
  · rw [if_pos fresh, ← fresh]
    apply Yields.modify_bind
    apply Yields.pure
    exact ⟨outside, pool, _, holdsAfter, rfl⟩
  · rw [if_neg fresh]
    apply Yields.pure
    exact ⟨outside, pool, id, holdsAfter, (CountqueMemory.setTic_id tic).symm⟩

/-- A cleared tic keeps the time it had. -/
theorem cqTicInit_spec (holds : memory.ticBuffer.Holds held) :
    Yields cqTicInit memory fun tic after =>
      tic ∉ held ∧ ∃ pool, ∃ time : CountqueTic → Int64,
        pool.Holds (tic ::ₘ held) ∧
          after = (memory.setTicBuffer pool).setTic tic fun old =>
            { count := 0, time := time old, newer := none } := by
  unfold cqTicInit
  apply Yields.bind (ticGet_spec holds)
  intro tic middle got
  obtain ⟨outside, pool, contents, holdsAfter, same⟩ := got
  subst same
  apply Yields.modify_bind
  rw [CountqueMemory.setTic_setTic]
  apply Yields.pure
  exact ⟨outside, pool, fun old => (contents old).time, holdsAfter, rfl⟩

theorem cqTicFirst_spec (baseTime : Int64)
    (holds : memory.ticBuffer.Holds held) :
    Yields (cqTicFirst baseTime) memory fun tic after =>
      tic ∉ held ∧ ∃ pool, pool.Holds (tic ::ₘ held) ∧
        after = (memory.setTicBuffer pool).setTic tic fun _ =>
          { count := 1, time := baseTime, newer := none } := by
  unfold cqTicFirst
  apply Yields.bind (cqTicInit_spec holds)
  intro tic middle cleared
  obtain ⟨outside, pool, time, holdsAfter, same⟩ := cleared
  subst same
  apply Yields.modify_bind
  apply Yields.modify_bind
  rw [CountqueMemory.setTic_setTic, CountqueMemory.setTic_setTic]
  apply Yields.pure
  exact ⟨outside, pool, holdsAfter, rfl⟩

/-! ## Counters after an event -/

/-- What an event does to a counter. -/
structure Counter.Records (counter next : Counter) (time : ℤ) : Prop where
  item : next.item = counter.item
  ticPerSec : next.ticPerSec = counter.ticPerSec
  ticMaxCnt : next.ticMaxCnt = counter.ticMaxCnt
  lost : next.lost = counter.lost
  slots : next.slots = record counter.slots time
  ptrs : ∃ new : Option Nat, next.ptrs = counter.ptrs ++ new.toList

/-- The total after one more event. -/
theorem Counter.Records.counted {next : Counter} {time : ℤ}
    (records : counter.Records next time) :
    next.counted = counter.counted + 1 := by
  unfold Counter.counted
  rw [records.slots, records.lost, total_record, Nat.add_right_comm]

/-- The tic of the first event after a pause. -/
theorem CounterAt.recordFirst {baseTime : Int64} {tic : Nat}
    {pool : NumberedPool} (counterAt : CounterAt memory counter others)
    (empty : counter.tics = []) (holds : pool.Holds (tic ::ₘ others)) :
    ∃ next, counter.Records next baseTime.toInt ∧
      CounterAt
        ((((memory.setTicBuffer pool).setTic tic fun _ =>
            { count := 1, time := baseTime, newer := none }).setItem counter.item
          fun old => { old with first := some tic, last := some tic }).setItem
          counter.item fun old => { old with count := old.count + 1 })
        next others := by
  have records : counter.Records
      { counter with tics := [⟨tic, ⟨baseTime.toInt, 1⟩⟩] } baseTime.toInt := by
    constructor
    case slots => simp [Counter.slots, empty, record]
    case ptrs => exact ⟨some tic, by simp [Counter.ptrs, empty]⟩
    all_goals rfl
  refine ⟨_, records, ⟨⟨?_, ?_, ?_, ?_, ?_, ?_⟩, ?_⟩⟩
  · simpa using counterAt.ticPerSec
  · simpa using counterAt.ticMaxCnt
  · simp [Counter.ptrs, CountqueMemory.newer]
  · intro other member
    rw [List.mem_singleton.mp member]
    constructor <;> simp
  · rw [records.counted, UInt64.ofNat_add, ← counterAt.count]
    simp
  · simpa [Counter.ptrs] using holds
  · simp [Counter.ptrs]

section LastTic

variable {before : List TicShape} {last : TicShape}

theorem Counter.ptrs_concat (chain : counter.tics = before ++ [last]) :
    counter.ptrs = before.map TicShape.ptr ++ [last.ptr] := by
  simp [Counter.ptrs, chain]

theorem Counter.slots_concat (chain : counter.tics = before ++ [last]) :
    counter.slots = before.map TicShape.slot ++ [last.slot] := by
  simp [Counter.slots, chain]

/-- The last tic of a chain occurs there once. -/
theorem ChainAt.last_apart (chainAt : ChainAt memory counter others)
    (chain : counter.tics = before ++ [last]) :
    ∀ tic ∈ before, tic.ptr ≠ last.ptr := by
  have distinct := (Multiset.nodup_add.mp chainAt.pool.nodup).1
  rw [Counter.ptrs_concat chain] at distinct
  intro tic member same
  have twice := (List.nodup_append.mp (Multiset.coe_nodup.mp distinct)).2.2
  exact twice _ (List.mem_map_of_mem member) _ List.mem_cons_self same

theorem TicAt.setTic {tic : TicShape} {ptr : Nat} (ticAt : TicAt memory tic)
    (change : CountqueTic → CountqueTic) (apart : tic.ptr ≠ ptr) :
    TicAt (memory.setTic ptr change) tic := by
  have same : (memory.setTic ptr change).tic tic.ptr = memory.tic tic.ptr :=
    CountqueMemory.setTic_tic_of_ne change apart
  constructor
  · rw [same]
    exact ticAt.time
  · rw [same]
    exact ticAt.count

theorem TicAt.link {tic : TicShape} (ticAt : TicAt memory tic) (ptr : Nat)
    (newer : Option Nat) :
    TicAt (memory.setTic ptr fun old => { old with newer := newer }) tic := by
  by_cases same : tic.ptr = ptr
  · constructor
    · rw [← same, CountqueMemory.setTic_tic_self]
      exact ticAt.time
    · rw [← same, CountqueMemory.setTic_tic_self]
      exact ticAt.count
  · exact ticAt.setTic _ same

theorem TicAt.setItem {tic : TicShape} (ticAt : TicAt memory tic) (item : Nat)
    (change : Countque → Countque) : TicAt (memory.setItem item change) tic :=
  ⟨ticAt.time, ticAt.count⟩

/-- The last tic of a chain counts one more event of its time. -/
theorem CounterAt.recordSame (counterAt : CounterAt memory counter others)
    (chain : counter.tics = before ++ [last]) :
    ∃ next, counter.Records next last.slot.time ∧
      CounterAt
        ((memory.setTic last.ptr fun old =>
          { old with count := old.count + 1 }).setItem counter.item
          fun old => { old with count := old.count + 1 })
        next others := by
  have records : counter.Records
      { counter with
        tics := before ++
          [⟨last.ptr, ⟨last.slot.time, last.slot.count + 1⟩⟩] }
      last.slot.time := by
    constructor
    case slots =>
      rw [Counter.slots_concat chain, record_concat, if_pos rfl]
      simp [Counter.slots]
    case ptrs => exact ⟨none, by simp [Counter.ptrs, chain]⟩
    all_goals rfl
  have samePtrs := Counter.ptrs_concat chain
  refine ⟨_, records, ⟨⟨?_, ?_, ?_, ?_, ?_, ?_⟩, ?_⟩⟩
  · simpa using counterAt.ticPerSec
  · simpa using counterAt.ticMaxCnt
  · rw [Counter.ptrs_concat rfl, ← samePtrs]
    simp only [CountqueMemory.setItem_newer, CountqueMemory.setItem_item_self,
      CountqueMemory.setTic_item]
    apply counterAt.linked.congr
    intro cell _
    by_cases same : cell = last.ptr
    · rw [same, CountqueMemory.setTic_newer_self]
      rfl
    · exact CountqueMemory.setTic_newer_of_ne _ same
  · intro tic member
    have chained := fun tic member => counterAt.tics tic (chain ▸ member)
    cases List.mem_append.mp member with
    | inl earlier =>
        have ticAt := chained tic (List.mem_append_left _ earlier)
        apply TicAt.setItem
        exact ticAt.setTic _ (counterAt.last_apart chain tic earlier)
    | inr final =>
        have lastAt := chained last (List.mem_append_right _ List.mem_cons_self)
        rw [List.mem_singleton.mp final]
        constructor
        · simpa using lastAt.time
        · simp [lastAt.count, UInt32.ofNat_add]
  · rw [records.counted, UInt64.ofNat_add, ← counterAt.count]
    simp
  · rw [Counter.ptrs_concat rfl, ← samePtrs]
    exact counterAt.pool
  · rw [Counter.ptrs_concat rfl, ← samePtrs]
    simpa using counterAt.last

variable {baseTime : Int64} {tic : Nat}

/-- A new tic behind the last one extends the chain. -/
theorem ChainAt.linkNext (chainAt : ChainAt memory counter others)
    (chain : counter.tics = before ++ [last]) (outside : tic ∉ counter.ptrs) :
    Linked
      ((memory.setTic tic fun _ =>
          { count := 1, time := baseTime, newer := none }).setTic last.ptr
        fun old => { old with newer := some tic }).newer
      (memory.item counter.item).first
      (before.map TicShape.ptr ++ [last.ptr, tic]) := by
  have samePtrs := Counter.ptrs_concat chain
  have linked := chainAt.linked
  rw [samePtrs] at linked outside
  have freshLast : tic ≠ last.ptr := fun same =>
    outside (List.mem_append_right _ (List.mem_singleton.mpr same))
  apply linked.append_last
  · intro ptr member
    have apartLast : ptr ≠ last.ptr := by
      obtain ⟨shape, earlier, same⟩ := List.mem_map.mp member
      exact same ▸ chainAt.last_apart chain shape earlier
    have apartFresh : ptr ≠ tic := fun same =>
      outside (List.mem_append_left _ (same ▸ member))
    rw [CountqueMemory.setTic_newer_of_ne _ apartLast,
      CountqueMemory.setTic_newer_of_ne _ apartFresh]
  · rw [CountqueMemory.setTic_newer_self]
  · rw [CountqueMemory.setTic_newer_of_ne _ freshLast,
      CountqueMemory.setTic_newer_self]

/-- An event of another time gets a tic behind the last one. -/
theorem CounterAt.recordNext {pool : NumberedPool}
    (counterAt : CounterAt memory counter others)
    (chain : counter.tics = before ++ [last])
    (later : last.slot.time ≠ baseTime.toInt)
    (outside : tic ∉ (↑counter.ptrs + others : Multiset Nat))
    (holds : pool.Holds (tic ::ₘ (↑counter.ptrs + others))) :
    ∃ next, counter.Records next baseTime.toInt ∧
      CounterAt
        (((((memory.setTicBuffer pool).setTic tic fun _ =>
            { count := 1, time := baseTime, newer := none }).setTic last.ptr
          fun old => { old with newer := some tic }).setItem counter.item
          fun old => { old with last := some tic }).setItem counter.item
          fun old => { old with count := old.count + 1 })
        next others := by
  have records : counter.Records
      { counter with
        tics := before ++ [last, ⟨tic, ⟨baseTime.toInt, 1⟩⟩] }
      baseTime.toInt := by
    constructor
    case slots =>
      rw [Counter.slots_concat chain, record_concat, if_neg later]
      simp [Counter.slots]
    case ptrs => exact ⟨some tic, by simp [Counter.ptrs, chain]⟩
    all_goals rfl
  have samePtrs := Counter.ptrs_concat chain
  have nextPtrs : Counter.ptrs
      { counter with tics := before ++ [last, ⟨tic, ⟨baseTime.toInt, 1⟩⟩] } =
        before.map TicShape.ptr ++ [last.ptr, tic] := by
    simp [Counter.ptrs]
  have unchained : tic ∉ counter.ptrs := fun member =>
    outside (Multiset.mem_add.mpr (.inl member))
  refine ⟨_, records, ⟨⟨?_, ?_, ?_, ?_, ?_, ?_⟩, ?_⟩⟩
  · simpa using counterAt.ticPerSec
  · simpa using counterAt.ticMaxCnt
  · rw [nextPtrs]
    simp only [CountqueMemory.setItem_newer, CountqueMemory.setItem_item_self]
    exact counterAt.toChainAt.linkNext chain unchained
  · intro shape member
    have chained := fun shape member => counterAt.tics shape (chain ▸ member)
    apply TicAt.setItem
    apply TicAt.setItem
    apply TicAt.link
    rw [List.append_cons] at member
    cases List.mem_append.mp member with
    | inl old =>
        have ticAt := chained shape old
        have apartFresh : shape.ptr ≠ tic := by
          intro same
          apply unchained
          unfold Counter.ptrs
          rw [chain, ← same]
          exact List.mem_map_of_mem old
        apply TicAt.setTic _ _ apartFresh
        exact ⟨ticAt.time, ticAt.count⟩
    | inr new =>
        rw [List.mem_singleton.mp new]
        constructor <;> simp
  · rw [records.counted, UInt64.ofNat_add, ← counterAt.count]
    simp
  · have moved : (↑(before.map TicShape.ptr ++ [last.ptr, tic]) + others :
        Multiset Nat) = tic ::ₘ (↑counter.ptrs + others) := by
      rw [samePtrs, ← Multiset.cons_add, Multiset.cons_coe, List.append_cons]
      congr 1
      exact Multiset.coe_eq_coe.mpr (List.perm_append_singleton _ _)
    rw [nextPtrs, moved]
    exact holds
  · rw [nextPtrs]
    simp

end LastTic

/-- The event goes to the last slot or to a new one. -/
theorem cqRecord_spec (baseTime : Int64)
    (counterAt : CounterAt memory counter others) :
    Yields (cqRecord counter.item baseTime) memory fun _ after =>
      (∃ next, counter.Records next baseTime.toInt ∧
        CounterAt after next others) ∧
        after.itemBuffer = memory.itemBuffer := by
  have lastAt := counterAt.last
  unfold cqRecord
  apply Yields.get_bind
  cases chain : counter.tics using List.reverseRecOn with
  | nil =>
      have none : (memory.item counter.item).last = none := by
        rw [lastAt]
        simp [Counter.ptrs, chain]
      have holds := counterAt.pool
      unfold Counter.ptrs at holds
      rw [chain] at holds
      simp only [none]
      apply Yields.bind (cqTicFirst_spec baseTime (by simpa using holds))
      intro tic middle taken
      obtain ⟨-, pool, holdsAfter, same⟩ := taken
      subst same
      apply Yields.modify_bind
      apply Yields.modify
      exact ⟨counterAt.recordFirst chain holdsAfter, rfl⟩
  | append_singleton before last =>
      have some : (memory.item counter.item).last = some last.ptr := by
        rw [lastAt, Counter.ptrs_concat chain]
        simp
      have lastTic := counterAt.tics last
        (chain ▸ List.mem_append_right _ List.mem_cons_self)
      simp only [some]
      apply Yields.get_bind
      by_cases same : (memory.tic last.ptr).time = baseTime
      · rw [if_pos same]
        apply Yields.modify_bind
        apply Yields.modify
        rw [← same, lastTic.time]
        exact ⟨counterAt.recordSame chain, rfl⟩
      · have later : last.slot.time ≠ baseTime.toInt := by
          rw [← lastTic.time]
          exact fun equal => same (Int64.toInt_inj.mp equal)
        rw [if_neg same]
        apply Yields.bind (cqTicFirst_spec baseTime counterAt.pool)
        intro tic middle taken
        obtain ⟨outside, pool, holds, same⟩ := taken
        subst same
        apply Yields.modify_bind
        apply Yields.modify_bind
        apply Yields.modify
        exact ⟨counterAt.recordNext chain later outside holds, rfl⟩

end KetamaRouter
