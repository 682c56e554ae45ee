import KetamaRouter.CountqueCalls

/-!
# Structure of a counter

Whatever the clock does, the tics of a counter are chained from its first to its
last one, and they are the tics that it took and did not return.  The total is
the sum of their counters in the arithmetic of `uint64_t`.
-/

namespace KetamaRouter

open PointerChain FaultProgram SlidingWindow LabelledRun

variable {machine : SignedArithmetic} {initial memory after : CountqueMemory}
  {counter : Counter} {others items : Multiset Nat} {item : Nat}
  {ticPerSec : Int64} {ticMaxCnt : UInt32} {call : CounterCall}
  {calls : List CounterCall} {chain : List Nat}

/-! ## Giving a counter back -/

/-- The loop returns the chain, oldest tic first. -/
theorem cqFreeLoop_spec {fuel : Nat}
    (linked : Linked memory.newer (memory.item item).first chain)
    (holds : memory.ticBuffer.Holds (↑chain + others))
    (enough : chain.length ≤ fuel) :
    Yields (cqFreeLoop item fuel (memory.item item).first) memory
      fun _ after =>
        after.ticBuffer.Holds others ∧
          after.ticBuffer.ledger =
            (chain.map Ledger.Entry.returned).reverse ++
              memory.ticBuffer.ledger ∧
          after.itemBuffer = memory.itemBuffer := by
  induction chain generalizing memory fuel with
  | nil =>
      rw [linked_nil.mp linked]
      unfold cqFreeLoop
      apply Yields.pure
      exact ⟨by simpa using holds, rfl, rfl⟩
  | cons tic chain induction =>
      rw [linked.1]
      cases fuel with
      | zero => exact absurd enough (Nat.not_succ_le_zero _)
      | succ fuel =>
          rw [← Multiset.cons_coe, Multiset.cons_add] at holds
          unfold cqFreeLoop
          apply Yields.modify_bind
          apply Yields.bind (ticBack_spec (by exact holds))
          intro _ middle back
          obtain ⟨pool, same, holdsAfter, ledger⟩ := back
          subst same
          apply Yields.get_bind
          have rest : Linked memory.newer (memory.newer tic) chain := linked.2
          have freed := @induction
            ((memory.setItem item fun old =>
              { old with first := (memory.tic tic).newer }).setTicBuffer pool)
            fuel (by simpa [CountqueMemory.newer] using rest) holdsAfter
            (Nat.le_of_succ_le_succ enough)
          apply freed.mono
          intro _ after returned
          obtain ⟨holdsLast, entries, items⟩ := returned
          refine ⟨holdsLast, ?_, items⟩
          rw [entries, CountqueMemory.setTicBuffer_ticBuffer, ledger,
            List.map_cons, List.reverse_cons, List.append_assoc]
          rfl

theorem itemBack_spec (held : memory.itemBuffer.Holds (item ::ₘ items)) :
    Yields (itemBack item) memory fun _ after =>
      ∃ pool, after = memory.setItemBuffer pool ∧ pool.Holds items ∧
        pool.ledger = .returned item :: memory.itemBuffer.ledger :=
  Yields.focus (numberedBack_spec held)

/-- The counter returned its chain, and then itself. -/
structure CounterFreed (memory : CountqueMemory) (item : Nat)
    (others items : Multiset Nat) (chain : List Nat)
    (middle after : CountqueMemory) : Prop where
  tics : cqFreeTics item memory = .ok ⟨⟩ middle
  ticLedger : middle.ticBuffer.ledger =
    (chain.map Ledger.Entry.returned).reverse ++ memory.ticBuffer.ledger
  ticsHeld : Ledger.outstanding middle.ticBuffer.ledger = some others
  itemKept : middle.itemBuffer = memory.itemBuffer
  itself : itemBack item middle = .ok ⟨⟩ after
  itemLedger : after.itemBuffer.ledger =
    .returned item :: memory.itemBuffer.ledger
  itemsHeld : Ledger.outstanding after.itemBuffer.ledger = some items
  ticsKept : after.ticBuffer = middle.ticBuffer
  ran : cqFree item memory = .ok ⟨⟩ after

theorem CounterAt.free (counterAt : CounterAt memory counter others)
    (held : memory.itemBuffer.Holds (counter.item ::ₘ items)) :
    ∃ middle after,
      CounterFreed memory counter.item others items counter.ptrs middle
        after := by
  have chainAt := counterAt.toChainAt
  have enough : counter.ptrs.length ≤ ticFuel memory := by
    unfold Counter.ptrs
    rw [List.length_map]
    exact chainAt.enoughFuel.le
  obtain ⟨_, middle, loop, ticsAfter, ledger, items⟩ :=
    cqFreeLoop_spec chainAt.linked chainAt.pool enough
  rw [← items] at held
  obtain ⟨_, after, back, pool, same, holds, entry⟩ := itemBack_spec held
  have tics : cqFreeTics counter.item memory = .ok ⟨⟩ middle := loop
  refine ⟨middle, after, tics, ledger, ticsAfter.ledger, items, back, ?_, ?_, ?_,
    ?_⟩
  · rw [same, ← items]
    exact entry
  · rw [same]
    exact holds.ledger
  · rw [same]
    rfl
  · unfold cqFree
    exact (bind_run_ok tics).trans back

/-! ## Consistency -/

/-- The events in the counters of these tics. -/
def ticTotal (memory : CountqueMemory) (tics : List Nat) : Nat :=
  (tics.map fun tic => (memory.tic tic).count.toNat).sum

/-- The tics of the counter are `chain`; what else was taken is `others`. -/
structure Consistent (memory : CountqueMemory) (item : Nat)
    (others : Multiset Nat) (chain : List Nat) : Prop where
  linked : Linked memory.newer (memory.item item).first chain
  last : (memory.item item).last = chain.getLast?
  ends : (memory.item item).first = none ↔ (memory.item item).last = none
  distinct : chain.Nodup
  held : Ledger.outstanding memory.ticBuffer.ledger = some (↑chain + others)
  total : (memory.item item).count.toNat = ticTotal memory chain % 2 ^ 64

/-- What these tics store. -/
def ticSlots (memory : CountqueMemory) (tics : List Nat) : List (Slot ℤ) :=
  tics.map fun tic =>
    { time := (memory.tic tic).time.toInt
      count := (memory.tic tic).count.toNat }

/-- A tic that has not wrapped stores its count. -/
theorem ticSlots_eq {tics : List TicShape}
    (ticsAt : ∀ tic ∈ tics, TicAt memory tic)
    (small : ∀ slot ∈ tics.map TicShape.slot, slot.count < 2 ^ 32) :
    ticSlots memory (tics.map TicShape.ptr) = tics.map TicShape.slot := by
  unfold ticSlots
  rw [List.map_map]
  apply List.map_congr_left
  intro tic member
  have few := small tic.slot (List.mem_map_of_mem member)
  apply Slot.ext
  · exact (ticsAt tic member).time
  · rw [Function.comp_apply, (ticsAt tic member).count, UInt32.toNat_ofNat',
      Nat.mod_eq_of_lt few]

theorem ticTotal_eq {tics : List TicShape}
    (ticsAt : ∀ tic ∈ tics, TicAt memory tic)
    (small : ∀ slot ∈ tics.map TicShape.slot, slot.count < 2 ^ 32) :
    ticTotal memory (tics.map TicShape.ptr) = total (tics.map TicShape.slot) := by
  rw [← ticSlots_eq ticsAt small]
  unfold ticTotal ticSlots total
  simp only [List.map_map]
  rfl

theorem CounterAt.consistent (counterAt : CounterAt memory counter others)
    (small : ∀ slot ∈ counter.slots, slot.count < 2 ^ 32)
    (none : counter.lost = 0) :
    Consistent memory counter.item others counter.ptrs := by
  constructor
  case linked => exact counterAt.linked
  case last => exact counterAt.last
  case ends =>
    rw [counterAt.linked.start_eq, counterAt.last, List.head?_eq_none_iff,
      List.getLast?_eq_none_iff]
  case distinct =>
    exact Multiset.coe_nodup.mp (Multiset.nodup_add.mp counterAt.pool.nodup).1
  case held => exact counterAt.pool.ledger
  case total =>
    have stored : ticTotal memory counter.ptrs = total counter.slots :=
      ticTotal_eq counterAt.tics small
    rw [counterAt.count, UInt64.toNat_ofNat', stored]
    unfold Counter.counted
    rw [none, Nat.add_zero]

/-! ## Runs -/

/-- The call does not count a 2 ^ 32th event in a tic. -/
def CounterCall.Fits (item : Nat) (memory : CountqueMemory) :
    CounterCall → Prop
  | .tic t => ∀ last, (memory.item item).last = some last →
      (memory.tic last).time =
        baseTimeBy (memory.item item).ticPerSec t →
      (memory.tic last).count.toNat + 1 < 2 ^ 32
  | .count _ => True

theorem SmallTics.slots (small : SmallTics machine ticPerSec ticMaxCnt calls) :
    ∀ slot ∈ slotsAfter machine ticPerSec ticMaxCnt calls,
      slot.count < 2 ^ 32 := by
  intro slot member
  cases calls using List.reverseRecOn with
  | nil => cases member
  | append_singleton calls call =>
      rw [slotsAfter_concat] at member
      exact small calls call List.prefix_rfl slot (mem_expire member)

theorem SmallTics.concat (small : SmallTics machine ticPerSec ticMaxCnt calls)
    (last : ∀ slot ∈ call.record ticPerSec
      (slotsAfter machine ticPerSec ticMaxCnt calls), slot.count < 2 ^ 32) :
    SmallTics machine ticPerSec ticMaxCnt (calls ++ [call]) := by
  intro earlier other first
  cases List.prefix_concat_iff.mp first with
  | inl whole =>
      obtain ⟨same, sameCall⟩ := List.append_inj' whole rfl
      cases same
      cases sameCall
      exact last
  | inr inside => exact small earlier other inside

theorem CounterAfter.perSec
    (reached : CounterAfter machine ticPerSec ticMaxCnt others items item calls
      memory counter) : (memory.item item).ticPerSec = ticPerSec := by
  rw [← reached.sameItem, reached.counterAt.ticPerSec, reached.samePerSec]

/-- A call that fits keeps the tics small. -/
theorem CounterAfter.small_of_fits
    (reached : CounterAfter machine ticPerSec ticMaxCnt others items item calls
      memory counter)
    (small : SmallTics machine ticPerSec ticMaxCnt calls)
    (fits : call.Fits item memory) :
    SmallTics machine ticPerSec ticMaxCnt (calls ++ [call]) := by
  have counts := small.slots
  have counterAt := reached.counterAt
  have perSec := reached.perSec
  apply small.concat
  rw [← reached.slots] at counts ⊢
  cases call with
  | count now => exact counts
  | tic t =>
      intro slot member
      cases mem_record member with
      | inl old => exact counts slot old
      | inr new =>
          cases new with
          | fresh => exact Nat.one_lt_two_pow (by decide)
          | @more count last =>
              have few : count < 2 ^ 32 := counts _ (List.mem_of_getLast? last)
              rw [counter.slots_getLast?] at last
              obtain ⟨tic, final, same⟩ := Option.map_eq_some_iff.mp last
              have ticAt := counterAt.tics tic (List.mem_of_getLast? final)
              have isLast := counterAt.last_eq
              rw [final, reached.sameItem] at isLast
              have room := fits tic.ptr isLast
              rw [perSec, ticAt.count, same, UInt32.toNat_ofNat',
                Nat.mod_eq_of_lt few] at room
              apply room
              apply Int64.toInt_inj.mp
              rw [ticAt.time, same]

/-- A call that keeps the tics small fits. -/
theorem CounterAfter.fits_of_small
    (reached : CounterAfter machine ticPerSec ticMaxCnt others items item calls
      memory counter)
    (small : SmallTics machine ticPerSec ticMaxCnt (calls ++ [call])) :
    call.Fits item memory := by
  cases call with
  | count now => trivial
  | tic t =>
      intro ptr isLast time
      have counterAt := reached.counterAt
      rw [← reached.sameItem, counterAt.last_eq] at isLast
      obtain ⟨tic, final, same⟩ := Option.map_eq_some_iff.mp isLast
      have ticAt := counterAt.tics tic (List.mem_of_getLast? final)
      rw [reached.perSec] at time
      have slotTime : tic.slot.time =
          (baseTimeBy ticPerSec t).toInt := by
        rw [← ticAt.time, same, time]
      have last : counter.slots.getLast? =
          some ⟨(baseTimeBy ticPerSec t).toInt, tic.slot.count⟩ := by
        rw [counter.slots_getLast?, final, ← slotTime]
        rfl
      have counted := small calls (.tic t) List.prefix_rfl
      rw [← reached.slots] at counted
      have room : tic.slot.count + 1 < 2 ^ 32 :=
        counted _ (mem_record_same last)
      have stored := Nat.mod_le tic.slot.count (2 ^ 32)
      rw [← same, ticAt.count, UInt32.toNat_ofNat']
      exact lt_of_le_of_lt (Nat.add_le_add_right stored 1) room

/-- Runs of calls that fit keep the tics small and lose no event. -/
theorem CounterStart.run_fits
    (start : CounterStart ticPerSec ticMaxCnt others items item initial)
    (run : Run (Restricted (CounterCall.Fits item)
      (CounterCall.Takes machine item)) initial calls memory) :
    ∃ counter,
      CounterAfter machine ticPerSec ticMaxCnt others items item calls memory
        counter ∧
      SmallTics machine ticPerSec ticMaxCnt calls ∧ counter.lost = 0 := by
  induction run with
  | nil =>
      refine ⟨_, start.counterAfter, ?_, rfl⟩
      intro earlier call first
      exact absurd (List.prefix_nil.mp first)
        (List.append_ne_nil_of_right_ne_nil _ (List.cons_ne_nil _ _))
  | snoc run step induction =>
      obtain ⟨counter, reached, small, none⟩ := induction
      obtain ⟨fits, result, ran⟩ := step
      have smallAfter := reached.small_of_fits small fits
      obtain ⟨full, counts, -, -, reachedAfter⟩ := (reached.step _).result ran
      exact ⟨_, reachedAfter, smallAfter,
        (reached.lost_small counts smallAfter).trans none⟩

/-- The chain of a counter stores the slots of its window. -/
theorem CounterStart.chain_slots
    (start : CounterStart ticPerSec ticMaxCnt others items item initial)
    (run : Run (Restricted (CounterCall.Fits item)
      (CounterCall.Takes machine item)) initial calls memory)
    (linked : Linked memory.newer (memory.item item).first chain) :
    ticSlots memory chain = slotsAfter machine ticPerSec ticMaxCnt calls := by
  obtain ⟨counter, reached, small, -⟩ := start.run_fits run
  have counterLinked := reached.counterAt.linked
  rw [reached.sameItem] at counterLinked
  have stored := small.slots
  rw [← reached.slots] at stored ⊢
  rw [linked.unique counterLinked]
  exact ticSlots_eq reached.counterAt.tics stored

/-- Calls that keep the tics small can all be made. -/
theorem CounterStart.run_possible (machine : SignedArithmetic)
    (start : CounterStart ticPerSec ticMaxCnt others items item initial)
    (small : SmallTics machine ticPerSec ticMaxCnt calls) :
    ∃ memory, Run (Restricted (CounterCall.Fits item)
      (CounterCall.Takes machine item)) initial calls memory := by
  induction calls using List.reverseRecOn with
  | nil => exact ⟨initial, .nil⟩
  | append_singleton calls call induction =>
      obtain ⟨memory, run⟩ := induction fun earlier call first =>
        small earlier call (first.trans (List.prefix_append _ _))
      obtain ⟨counter, reached, -, -⟩ := start.run_fits run
      obtain ⟨result, after, ran, -⟩ := reached.step call
      exact ⟨after, run.snoc ⟨reached.fits_of_small small, result, ran⟩⟩

/-- The call put at most one tic behind the chain and returned the tics `gone`
from its front, and the total loses what these have counted. -/
structure Advances (ticPerSec : Int64) (item : Nat) (others : Multiset Nat)
    (memory : CountqueMemory) (chain : List Nat) (call : CounterCall)
    (result : UInt64) (after : CountqueMemory) (gone kept : List Nat) :
    Prop where
  consistent : Consistent after item others kept
  split : ∃ new : Option Nat, chain ++ new.toList = gone ++ kept
  returned : result = (after.item item).count
  total : ticTotal memory chain + (call.event ticPerSec).toList.length =
    ticTotal after gone + ticTotal after kept

/-- Below 2 ^ 64 events the total of a counter is exact, and what a call takes off
it was there. -/
theorem Advances.exact {result : UInt64} {gone kept : List Nat}
    (consistent : Consistent memory item others chain)
    (advances : Advances ticPerSec item others memory chain call result after
      gone kept)
    (few : ticTotal memory chain + (call.event ticPerSec).toList.length <
      2 ^ 64) :
    (memory.item item).count.toNat + (call.event ticPerSec).toList.length =
      ticTotal after gone + result.toNat := by
  have total := advances.total
  have before := consistent.total
  have later := advances.consistent.total
  rw [advances.returned]
  omega

theorem CounterAfter.small_slots
    (reached : CounterAfter machine ticPerSec ticMaxCnt others items item calls
      memory counter)
    (small : SmallTics machine ticPerSec ticMaxCnt calls) :
    ∀ slot ∈ counter.slots, slot.count < 2 ^ 32 := by
  rw [reached.slots]
  exact small.slots

theorem CounterAfter.advances
    (reached : CounterAfter machine ticPerSec ticMaxCnt others items item calls
      memory counter)
    (small : SmallTics machine ticPerSec ticMaxCnt calls)
    (none : counter.lost = 0) (fits : call.Fits item memory) :
    Yields (call.run machine item) memory fun result after =>
      ∃ gone kept, Advances ticPerSec item others memory counter.ptrs call
        result after gone kept := by
  have smallAfter := reached.small_of_fits small fits
  apply (reached.step call).mono
  intro result after ran
  obtain ⟨full, counts, ticsAt, returned, reachedAfter⟩ := ran
  have fullSmall := smallAfter calls call List.prefix_rfl
  rw [← reached.slots, ← reached.samePerSec, ← counts.slots] at fullSmall
  have whole := List.takeWhile_append_dropWhile
    (p := fun tic : TicShape => decide
      (tic.slot.time ≤ call.ttl machine full.ticPerSec full.ticMaxCnt))
    (l := full.tics)
  generalize full.tics.takeWhile _ = gone at whole
  have stored (tics : List TicShape) (inside : tics ⊆ full.tics) :
      ticTotal after (tics.map TicShape.ptr) =
        SlidingWindow.total (tics.map TicShape.slot) := by
    apply ticTotal_eq fun tic member => ticsAt tic (inside member)
    intro slot member
    exact fullSmall slot (List.map_subset _ inside member)
  have goneStored := stored gone (whole ▸ List.subset_append_left _ _)
  have keptStored := stored (full.settle machine call).tics
    (List.dropWhile_sublist _).subset
  have before : ticTotal memory counter.ptrs =
      SlidingWindow.total counter.slots :=
    ticTotal_eq reached.counterAt.tics (reached.small_slots small)
  refine ⟨gone.map TicShape.ptr, (full.settle machine call).ptrs, ?_⟩
  constructor
  case consistent =>
    have consistent := reachedAfter.counterAt.consistent
      (reachedAfter.small_slots smallAfter)
      ((reached.lost_small counts smallAfter).trans none)
    rwa [reachedAfter.sameItem] at consistent
  case split =>
    obtain ⟨new, ptrs⟩ := counts.ptrs
    refine ⟨new, ?_⟩
    rw [← ptrs]
    unfold Counter.ptrs
    rw [← whole, List.map_append]
    rfl
  case returned =>
    rw [returned, ← reachedAfter.counterAt.count, reachedAfter.sameItem]
  case total =>
    have full := counts.total
    rw [reached.samePerSec] at full
    rw [before, goneStored, ← full]
    unfold Counter.slots Counter.ptrs at *
    rw [keptStored, ← whole, List.map_append, total_append]
    rfl

/-- After every run of calls that fit, with times in any order, the counter is
consistent, the next call leaves it so, and giving it back returns exactly what
it took. -/
theorem counter_consistent (machine : SignedArithmetic)
    (start : CounterStart ticPerSec ticMaxCnt others items item initial)
    (run : Run (Restricted (CounterCall.Fits item)
      (CounterCall.Takes machine item)) initial calls memory) :
    ∃ chain, Consistent memory item others chain ∧
      (ticTotal memory chain < 2 ^ 64 →
        (memory.item item).count.toNat = ticTotal memory chain) ∧
      (∀ call, call.Fits item memory →
        Yields (call.run machine item) memory fun result after =>
          ∃ gone kept,
            Advances ticPerSec item others memory chain call result after gone
              kept ∧
            (ticTotal memory chain + (call.event ticPerSec).toList.length <
                2 ^ 64 →
              (memory.item item).count.toNat +
                  (call.event ticPerSec).toList.length =
                ticTotal after gone + result.toNat)) ∧
      ∃ middle after,
        CounterFreed memory item others items chain middle after := by
  obtain ⟨counter, reached, small, none⟩ := start.run_fits run
  have consistent := reached.counterAt.consistent (reached.small_slots small) none
  have held := reached.held
  rw [← reached.sameItem] at held
  have freed := reached.counterAt.free held
  rw [reached.sameItem] at consistent freed
  refine ⟨counter.ptrs, consistent, ?_, ?_, freed⟩
  · intro few
    rw [consistent.total, Nat.mod_eq_of_lt few]
  · intro call fits
    apply (reached.advances small none fits).mono
    intro result after ran
    obtain ⟨gone, kept, advances⟩ := ran
    exact ⟨gone, kept, advances, advances.exact consistent⟩

/-- The clock jumps back twice, and the tics from before the first jump and from
after it expire together. -/
theorem counter_consistent_backwards :
    ∃ item initial memory chain, CounterStart 10 6 0 0 item initial ∧
      Run (Restricted (CounterCall.Fits item)
        (CounterCall.Takes .wrapping item)) initial
        [.tic 100, .tic 103, .tic 50, .tic 130, .count 170, .tic 20] memory ∧
      ticSlots memory chain = [⟨130, 1⟩, ⟨20, 1⟩] ∧
      Consistent memory item 0 chain ∧
      Yields ((CounterCall.count 300).run .wrapping item) memory
        (fun result after => ∃ gone kept,
          Advances 10 item 0 memory chain (.count 300) result after gone kept ∧
          ticSlots after kept = []) ∧
      ∃ middle after, CounterFreed memory item 0 0 chain middle after := by
  obtain ⟨item, initial, start⟩ := @CounterStart.possible 10 6 (by decide)
  have small : SmallTics .wrapping 10 6
      [.tic 100, .tic 103, .tic 50, .tic 130, .count 170, .tic 20] :=
    SmallTics.of_few fun base => List.count_le_length.trans_lt (by decide)
  obtain ⟨memory, run⟩ := start.run_possible .wrapping small
  obtain ⟨chain, consistent, -, next, freed⟩ :=
    counter_consistent .wrapping start run
  refine ⟨item, initial, memory, chain, start, run, ?_, consistent, ?_, freed⟩
  · rw [start.chain_slots run consistent.linked]
    decide
  · obtain ⟨result, after, ran, gone, kept, advances, -⟩ :=
      next (.count 300) trivial
    have fits : CounterCall.Fits item memory (.count 300) := trivial
    refine ⟨result, after, ran, gone, kept, advances, ?_⟩
    rw [start.chain_slots (run.snoc ⟨fits, result, ran⟩)
      advances.consistent.linked]
    decide

/-! ## A total that wraps -/

theorem CounterCall.record_merged (call : CounterCall) (history : List ℤ) :
    call.record ticPerSec (merged history) =
      merged (history ++ (call.event ticPerSec).toList) := by
  unfold CounterCall.record
  cases call.event ticPerSec with
  | none => simp
  | some time => exact (merged_concat history time).symm

/-- If no call expires the first event, nothing is ever returned. -/
theorem slotsAfter_pinned {t : Int64}
    (pinned : ∀ call ∈ .tic t :: calls, call.ttl machine ticPerSec ticMaxCnt <
      (baseTimeBy ticPerSec t).toInt) :
    slotsAfter machine ticPerSec ticMaxCnt (.tic t :: calls) =
      merged (events ticPerSec (.tic t :: calls)) := by
  induction calls using List.reverseRecOn with
  | nil =>
      have young := pinned _ List.mem_cons_self
      exact expire_cons_young young []
  | append_singleton calls call induction =>
      have earlier := induction fun other member =>
        pinned other (List.mem_cons.mpr ((List.mem_cons.mp member).imp_right
          (List.mem_append_left _)))
      have young := pinned call (List.mem_cons_of_mem _
        (List.mem_append_right _ List.mem_cons_self))
      rw [← List.cons_append, slotsAfter_concat, earlier, events_concat]
      unfold CounterCall.slots
      rw [CounterCall.record_merged]
      obtain ⟨count, rest, head⟩ := merged_head
        (baseTimeBy ticPerSec t).toInt
        (events ticPerSec calls ++ (call.event ticPerSec).toList)
      have first : events ticPerSec (.tic t :: calls) =
          (baseTimeBy ticPerSec t).toInt :: events ticPerSec calls :=
        rfl
      rw [first, List.cons_append, head]
      exact expire_cons_young young rest

/-- A clock that jumps back from `2 ^ 40` seconds to zero and counts `each` events
in each of the first `places` seconds. -/
def crowd (places each : Nat) : List CounterCall :=
  .tic (2 ^ 40) :: (List.range places).flatMap fun second =>
    List.replicate each (.tic (Int64.ofNat second))

theorem crowd_time {places : Nat} (each : Nat) (few : places ≤ 2 ^ 33) :
    ∀ call ∈ crowd places each,
      0 ≤ call.time.toInt ∧ call.time.toInt ≤ 2 ^ 40 := by
  intro call member
  cases List.mem_cons.mp member with
  | inl first =>
      rw [first]
      decide
  | inr later =>
      obtain ⟨second, range, same⟩ := List.mem_flatMap.mp later
      have bound := List.mem_range.mp range
      rw [List.eq_of_mem_replicate same]
      change 0 ≤ (Int64.ofNat second).toInt ∧ (Int64.ofNat second).toInt ≤ 2 ^ 40
      rw [Int64.toInt_ofNat_of_lt (by omega)]
      omega

theorem crowd_events {places : Nat} (each : Nat) (few : places ≤ 2 ^ 33) :
    events 1 (crowd places each) =
      2 ^ 40 :: (List.range places).flatMap fun (second : Nat) =>
        List.replicate each (second : ℤ) := by
  have event (t : Int64) (nonneg : 0 ≤ t.toInt) :
      (CounterCall.tic t).event 1 = some t.toInt := by
    have base : baseOf 1 t = t.toInt := by
      simp [baseOf]
    exact congrArg some ((baseTimeBy_toInt (by decide) nonneg).trans base)
  unfold events crowd
  rw [List.filterMap_cons_some (event _ (by decide)), List.filterMap_flatMap]
  congr 1
  apply List.flatMap_congr
  intro second range
  have bound := List.mem_range.mp range
  have time : (Int64.ofNat second).toInt = second :=
    Int64.toInt_ofNat_of_lt (by omega)
  rw [List.filterMap_replicate_of_some (event _ (by omega)), time]

/-- No second has more than its own events. -/
theorem crowd_count (places each : Nat) (base : ℤ) :
    ((List.range places).flatMap fun (second : Nat) =>
      List.replicate each (second : ℤ)).count base ≤ each := by
  induction places with
  | zero => exact Nat.zero_le _
  | succ places induction =>
      rw [List.range_succ, List.flatMap_append, List.count_append,
        List.flatMap_singleton, List.count_replicate]
      split
      · rename_i last
        have here : (places : ℤ) = base := by simpa using last
        have none : ((List.range places).flatMap fun (second : Nat) =>
            List.replicate each (second : ℤ)).count base = 0 := by
          apply List.count_eq_zero.mpr
          intro member
          obtain ⟨second, range, same⟩ := List.mem_flatMap.mp member
          have bound := List.mem_range.mp range
          have time := List.eq_of_mem_replicate same
          omega
        rw [none, Nat.zero_add]
      · exact induction

theorem crowd_few {places each : Nat} (few : places ≤ 2 ^ 33)
    (small : each + 1 < 2 ^ 32) (base : ℤ) :
    (events 1 (crowd places each)).count base < 2 ^ 32 := by
  have counts := crowd_count places each base
  rw [crowd_events each few, List.count_cons]
  split <;> omega

/-- The event of the far second stays in front, so that none is returned. -/
theorem crowd_slots {places : Nat} (each : Nat) (few : places ≤ 2 ^ 33) :
    slotsAfter machine 1 1 (crowd places each) =
      merged (events 1 (crowd places each)) := by
  have times := crowd_time each few
  unfold crowd at times ⊢
  apply slotsAfter_pinned
  intro call member
  obtain ⟨nonneg, below⟩ := times call member
  have far : (2 ^ 40 : Int64).toInt = 2 ^ 40 := by decide
  have order : baseOf 1 call.time ≤ baseOf 1 (2 ^ 40) :=
    baseOf_mono (by decide) (far ▸ below)
  have positive : 0 < windowLength 1 1 := windowLength_pos (by decide) (by decide)
  rw [CounterCall.ttl_eq (by decide) (by decide) (by decide) nonneg,
    baseTimeBy_toInt (by decide) (by decide)]
  omega

/-- The chain of a crowd holds all its events. -/
theorem crowd_run (machine : SignedArithmetic)
    (start : CounterStart 1 1 others items item initial) {places each : Nat}
    (few : places ≤ 2 ^ 33) (small : each + 1 < 2 ^ 32) :
    ∃ memory chain, Run (Restricted (CounterCall.Fits item)
        (CounterCall.Takes machine item)) initial (crowd places each) memory ∧
      Consistent memory item others chain ∧
      ticTotal memory chain = places * each + 1 := by
  obtain ⟨memory, run⟩ :=
    start.run_possible machine (SmallTics.of_few (crowd_few few small))
  obtain ⟨counter, reached, tics, none⟩ := start.run_fits run
  have consistent := reached.counterAt.consistent (reached.small_slots tics) none
  rw [reached.sameItem] at consistent
  have stored : ticTotal memory counter.ptrs = total counter.slots :=
    ticTotal_eq reached.counterAt.tics (reached.small_slots tics)
  refine ⟨memory, counter.ptrs, run, consistent, ?_⟩
  rw [stored, reached.slots, crowd_slots each few, total_merged,
    crowd_events each few, List.length_cons, List.length_flatMap]
  simp

/-- With 2 ^ 64 + 1 events in the chain, the total is 1. -/
theorem counter_total_wraps :
    ∃ item initial calls memory, CounterStart 1 1 0 0 item initial ∧
      (∀ call ∈ calls, 0 ≤ call.time.toInt) ∧
      (∀ base, (events 1 calls).count base < 2 ^ 32) ∧
      Run (Restricted (CounterCall.Fits item)
        (CounterCall.Takes .wrapping item)) initial calls memory ∧
      ∀ chain, Linked memory.newer (memory.item item).first chain →
        (memory.item item).count.toNat ≠ ticTotal memory chain := by
  obtain ⟨item, initial, start⟩ := @CounterStart.possible 1 1 (by decide)
  have places : 2 ^ 33 ≤ 2 ^ 33 := le_refl _
  have each : 2 ^ 31 + 1 < 2 ^ 32 := by decide
  obtain ⟨memory, held, run, consistent, stored⟩ :=
    crowd_run .wrapping start places each
  refine ⟨item, initial, crowd (2 ^ 33) (2 ^ 31), memory, start, ?_,
    crowd_few places each, run, ?_⟩
  · intro call member
    exact (crowd_time (2 ^ 31) places call member).1
  · intro chain linked
    rw [linked.unique consistent.linked, consistent.total, stored]
    decide

end KetamaRouter
