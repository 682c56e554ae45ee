import KetamaRouter.CountqueShape

/-!
# Expiry of a counter

`cq_adjust` returns the tics that have left the window, from the front of the
chain.  The total keeps what a tic has lost by wrapping.
-/

namespace KetamaRouter

open PointerChain FaultProgram SlidingWindow

variable {memory after : CountqueMemory} {counter : Counter}
  {held others : Multiset Nat} {tics : List TicShape} {tic : TicShape}

namespace CountqueMemory

@[simp] theorem setTic_tic_self (tic : Nat) (change : CountqueTic → CountqueTic) :
    (memory.setTic tic change).tic tic = change (memory.tic tic) :=
  Function.update_self _ _ _

theorem setTic_tic_of_ne {tic other : Nat} (change : CountqueTic → CountqueTic)
    (apart : other ≠ tic) :
    (memory.setTic tic change).tic other = memory.tic other :=
  Function.update_of_ne apart _ _

@[simp] theorem setTic_item (tic : Nat) (change : CountqueTic → CountqueTic) :
    (memory.setTic tic change).item = memory.item :=
  rfl

@[simp] theorem setTic_ticBuffer (tic : Nat)
    (change : CountqueTic → CountqueTic) :
    (memory.setTic tic change).ticBuffer = memory.ticBuffer :=
  rfl

@[simp] theorem setItem_item_self (item : Nat) (change : Countque → Countque) :
    (memory.setItem item change).item item = change (memory.item item) :=
  Function.update_self _ _ _

@[simp] theorem setItem_tic (item : Nat) (change : Countque → Countque) :
    (memory.setItem item change).tic = memory.tic :=
  rfl

@[simp] theorem setItem_ticBuffer (item : Nat) (change : Countque → Countque) :
    (memory.setItem item change).ticBuffer = memory.ticBuffer :=
  rfl

@[simp] theorem setTicBuffer_tic (pool : NumberedPool) :
    (memory.setTicBuffer pool).tic = memory.tic :=
  rfl

@[simp] theorem setItem_newer (item : Nat) (change : Countque → Countque) :
    (memory.setItem item change).newer = memory.newer :=
  rfl

@[simp] theorem setTicBuffer_newer (pool : NumberedPool) :
    (memory.setTicBuffer pool).newer = memory.newer :=
  rfl

@[simp] theorem setTicBuffer_item (pool : NumberedPool) :
    (memory.setTicBuffer pool).item = memory.item :=
  rfl

@[simp] theorem setTic_newer_self (tic : Nat)
    (change : CountqueTic → CountqueTic) :
    (memory.setTic tic change).newer tic = (change (memory.tic tic)).newer := by
  simp [newer]

theorem setTic_newer_of_ne {tic other : Nat} (change : CountqueTic → CountqueTic)
    (apart : other ≠ tic) :
    (memory.setTic tic change).newer other = memory.newer other := by
  simp [newer, setTic_tic_of_ne change apart]

theorem setTic_setTic (tic : Nat) (first second : CountqueTic → CountqueTic) :
    (memory.setTic tic first).setTic tic second =
      memory.setTic tic fun old => second (first old) := by
  simp [setTic]

@[simp] theorem setTicBuffer_ticBuffer (pool : NumberedPool) :
    (memory.setTicBuffer pool).ticBuffer = pool :=
  rfl

theorem setTic_id (tic : Nat) : memory.setTic tic id = memory := by
  simp [setTic]

end CountqueMemory

/-! ## Expiry -/

theorem ticBack_spec {tic : Nat} (holds : memory.ticBuffer.Holds (tic ::ₘ held)) :
    Yields (ticBack tic) memory fun _ after =>
      ∃ pool, after = memory.setTicBuffer pool ∧ pool.Holds held ∧
        pool.ledger = .returned tic :: memory.ticBuffer.ledger := by
  apply (Yields.focus (numberedBack_spec holds)).mono
  intro _ after back
  obtain ⟨pool, same, holdsAfter, ledger⟩ := back
  exact ⟨pool, same, holdsAfter, ledger⟩

/-- The counter of a tic drops full multiples of its range. -/
theorem stored_toUInt64 (count : Nat) :
    (UInt32.ofNat count).toUInt64 = UInt64.ofNat (count % 2 ^ 32) := by
  apply UInt64.toNat_inj.mp
  rw [UInt32.toNat_toUInt64, UInt32.toNat_ofNat', UInt64.toNat_ofNat']
  omega

/-- What the total keeps of a tic that goes. -/
theorem total_after (count rest lost : Nat) :
    UInt64.ofNat (count + rest + lost) - (UInt32.ofNat count).toUInt64 =
      UInt64.ofNat (rest + (lost + (count - count % 2 ^ 32))) := by
  have whole : count + rest + lost =
      rest + (lost + (count - count % 2 ^ 32)) + count % 2 ^ 32 := by
    have small := Nat.mod_le count (2 ^ 32)
    omega
  rw [stored_toUInt64, whole, UInt64.ofNat_add, UInt64.add_sub_cancel]

namespace Counter

@[simp] theorem expire_item (limit : ℤ) :
    (counter.expire limit).item = counter.item :=
  rfl

theorem expire_slots (counter : Counter) (limit : ℤ) :
    (counter.expire limit).slots = SlidingWindow.expire limit counter.slots := by
  unfold slots expire SlidingWindow.expire
  rw [List.dropWhile_map]
  rfl

/-- The counter without its first tic. -/
def dropFirst (counter : Counter) (tic : TicShape) (tics : List TicShape) :
    Counter :=
  { counter with
    tics := tics
    lost := counter.lost + (tic.slot.count - tic.slot.count % 2 ^ 32) }

theorem expire_old {limit : ℤ} (chain : counter.tics = tic :: tics)
    (old : tic.slot.time ≤ limit) :
    counter.expire limit = (counter.dropFirst tic tics).expire limit := by
  have dropped : counter.tics.dropWhile (fun tic => tic.slot.time ≤ limit) =
      tics.dropWhile fun tic => tic.slot.time ≤ limit := by
    rw [chain]
    exact List.dropWhile_cons_of_pos (decide_eq_true old)
  have gone : expired limit counter.slots =
      tic.slot :: expired limit (tics.map TicShape.slot) := by
    unfold slots expired
    rw [chain, List.map_cons]
    exact List.takeWhile_cons_of_pos (decide_eq_true old)
  unfold expire dropFirst slots
  rw [dropped]
  change Counter.mk _ _ _ _ _ (_ + wrapped (expired limit counter.slots)) = _
  rw [gone]
  simp [wrapped, Nat.add_assoc]

theorem expire_young {limit : ℤ}
    (young : ∀ tic ∈ counter.tics.head?, limit < tic.slot.time) :
    counter.expire limit = counter := by
  cases chain : counter.tics with
  | nil =>
      unfold expire slots
      rw [chain]
      obtain ⟨item, ticPerSec, ticMaxCnt, perSec, tics, lost⟩ := counter
      cases chain
      rfl
  | cons tic tics =>
      have first : limit < tic.slot.time := young tic (by simp [chain])
      have stays : decide (tic.slot.time ≤ limit) = false := by
        simpa using first
      unfold expire slots expired
      rw [chain, List.map_cons, List.dropWhile_cons, List.takeWhile_cons]
      simp only [stays]
      obtain ⟨item, ticPerSec, ticMaxCnt, perSec, tics, lost⟩ := counter
      cases chain
      rfl

end Counter

/-- The memory after the first tic of a chain went back to its pool. -/
theorem ChainAt.dropFirst {pool : NumberedPool}
    (chainAt : ChainAt memory counter others)
    (chain : counter.tics = tic :: tics)
    (holds : pool.Holds (↑(tics.map TicShape.ptr) + others)) :
    ChainAt
      (((memory.setItem counter.item fun old =>
          { old with first := (memory.tic tic.ptr).newer }).setItem counter.item
        fun old =>
          { old with
            count := old.count - (memory.tic tic.ptr).count.toUInt64
          }).setTicBuffer pool)
      (counter.dropFirst tic tics) others := by
  have linked := chainAt.linked
  have count := chainAt.count
  have ticAt := chainAt.tics tic (chain ▸ List.mem_cons_self)
  unfold Counter.ptrs at linked
  unfold Counter.counted Counter.slots at count
  rw [chain, List.map_cons] at linked count
  constructor
  · simpa [Counter.dropFirst] using chainAt.ticPerSec
  · simpa [Counter.dropFirst] using chainAt.ticMaxCnt
  · have rest : Linked memory.newer (memory.newer tic.ptr)
        (tics.map TicShape.ptr) := linked.2
    simpa [Counter.dropFirst, Counter.ptrs, CountqueMemory.newer] using rest
  · intro other member
    have old := chainAt.tics other (chain ▸ List.mem_cons_of_mem tic member)
    exact ⟨old.time, old.count⟩
  · have kept := total_after tic.slot.count (total (tics.map TicShape.slot))
      counter.lost
    rw [total_cons] at count
    rw [← count, ← ticAt.count] at kept
    simpa [Counter.dropFirst, Counter.counted, Counter.slots] using kept
  · exact holds

/-- The loop stops at the first tic that is young enough.  The induction is on the
tics of the chain. -/
theorem cqAdjustLoop_spec {ttl : Int64} {fuel : Nat}
    (chainAt : ChainAt memory counter others)
    (enough : counter.tics.length < fuel) :
    Yields (cqAdjustLoop counter.item ttl fuel (memory.item counter.item).first)
      memory fun tic after =>
        ChainAt after (counter.expire ttl.toInt) others ∧
          tic = (counter.expire ttl.toInt).ptrs.head? ∧
          (after.item counter.item).last = (memory.item counter.item).last ∧
          after.itemBuffer = memory.itemBuffer ∧ after.tic = memory.tic := by
  generalize chain : counter.tics = tics at enough
  induction tics generalizing counter memory fuel with
  | nil =>
      have linked := chainAt.linked
      unfold Counter.ptrs at linked
      rw [chain] at linked
      have none : (memory.item counter.item).first = none := linked
      have same : counter.expire ttl.toInt = counter :=
        Counter.expire_young (by simp [chain])
      rw [none, same]
      unfold cqAdjustLoop
      apply Yields.pure
      refine ⟨chainAt, ?_, rfl, rfl, rfl⟩
      simp [Counter.ptrs, chain]
  | cons tic tics induction =>
      have linked := chainAt.linked
      have holds := chainAt.pool
      unfold Counter.ptrs at linked holds
      rw [chain, List.map_cons] at linked holds
      have ticAt := chainAt.tics tic (chain ▸ List.mem_cons_self)
      rw [linked.1]
      cases fuel with
      | zero => exact absurd enough (Nat.not_lt_zero _)
      | succ fuel =>
          unfold cqAdjustLoop
          apply Yields.get_bind
          dsimp only
          by_cases expires : (memory.tic tic.ptr).time ≤ ttl
          · have old : tic.slot.time ≤ ttl.toInt := by
              rw [← ticAt.time]
              exact Int64.le_iff_toInt_le.mp expires
            rw [if_pos expires]
            apply Yields.modify_bind
            apply Yields.modify_bind
            rw [← Multiset.cons_coe, Multiset.cons_add] at holds
            apply Yields.bind (ticBack_spec (by exact holds))
            intro _ middle back
            obtain ⟨pool, same, holdsAfter, -⟩ := back
            subst same
            have dropped := chainAt.dropFirst chain holdsAfter
            apply Yields.get_bind
            have rest := induction dropped rfl (Nat.lt_of_succ_lt_succ enough)
            rw [← Counter.expire_old chain old] at rest
            apply rest.mono
            intro result after reached
            obtain ⟨chainAfter, head, last, items⟩ := reached
            refine ⟨chainAfter, head, ?_, items⟩
            simpa [Counter.dropFirst] using last
          · have young : ttl.toInt < tic.slot.time := by
              rw [← ticAt.time]
              exact Int.not_le.mp (expires ∘ Int64.le_iff_toInt_le.mpr)
            have same : counter.expire ttl.toInt = counter :=
              Counter.expire_young (by simp [chain, young])
            rw [if_neg expires, same]
            apply Yields.pure
            refine ⟨chainAt, ?_, rfl, rfl, rfl⟩
            simp [Counter.ptrs, chain]

/-- The expiry time that `cq_adjust` computes for a counter. -/
def Counter.ttl (machine : SignedArithmetic) (counter : Counter)
    (baseTime : Int64) : Int64 :=
  getTtlTime machine baseTime counter.ticPerSec.toInt32
    counter.ticMaxCnt.toInt32

theorem Counter.expire_last (counter : Counter) (limit : ℤ)
    (some : (counter.expire limit).tics ≠ []) :
    (counter.expire limit).tics.getLast? = counter.tics.getLast? := by
  have whole := List.takeWhile_append_dropWhile
    (p := fun tic : TicShape => decide (tic.slot.time ≤ limit))
    (l := counter.tics)
  rw [← whole, List.getLast?_append]
  cases last : (counter.expire limit).tics.getLast? with
  | none => exact absurd (List.getLast?_eq_none_iff.mp last) some
  | some final =>
      change _ = (counter.expire limit).tics.getLast?.or _
      rw [last]
      rfl

/-- There is fuel for the whole chain. -/
theorem ChainAt.enoughFuel (chainAt : ChainAt memory counter others) :
    counter.tics.length < ticFuel memory := by
  have card := chainAt.pool.card_le
  rw [Multiset.card_add, Multiset.coe_card] at card
  unfold Counter.ptrs at card
  rw [List.length_map] at card
  unfold ticFuel
  omega

theorem cqAdjust_spec (machine : SignedArithmetic) (baseTime : Int64)
    (counterAt : CounterAt memory counter others) :
    Yields (cqAdjust machine counter.item baseTime) memory fun _ after =>
      CounterAt after (counter.expire (counter.ttl machine baseTime).toInt)
          others ∧
        after.itemBuffer = memory.itemBuffer ∧ after.tic = memory.tic := by
  have chainAt := counterAt.toChainAt
  unfold cqAdjust
  apply Yields.get_bind
  dsimp only
  rw [chainAt.ticPerSec, chainAt.ticMaxCnt]
  apply Yields.bind (cqAdjustLoop_spec chainAt chainAt.enoughFuel)
  intro tic middle stopped
  obtain ⟨chainMiddle, head, last, items⟩ := stopped
  change ChainAt middle (counter.expire (counter.ttl machine baseTime).toInt)
    others at chainMiddle
  change tic = (counter.expire (counter.ttl machine baseTime).toInt).ptrs.head?
    at head
  cases chain : (counter.expire
      (counter.ttl machine baseTime).toInt).tics with
  | nil =>
      have empty : (counter.expire
          (counter.ttl machine baseTime).toInt).ptrs = [] := by
        simp [Counter.ptrs, chain]
      rw [empty] at head
      rw [head]
      simp only [List.head?_nil, if_true]
      apply Yields.modify
      refine ⟨⟨⟨?_, ?_, ?_, ?_, ?_, chainMiddle.pool⟩, ?_⟩, items⟩
      · simpa using chainMiddle.ticPerSec
      · simpa using chainMiddle.ticMaxCnt
      · rw [empty]
        simp
      · rw [chain]
        intro tic member
        cases member
      · simpa using chainMiddle.count
      · rw [empty]
        simp
  | cons first rest =>
      have some : (counter.expire
          (counter.ttl machine baseTime).toInt).tics ≠ [] := by
        rw [chain]
        exact List.cons_ne_nil _ _
      have found : tic = Option.some first.ptr := by
        rw [head]
        simp [Counter.ptrs, chain]
      rw [found]
      simp only [reduceCtorEq, if_false]
      apply Yields.pure
      refine ⟨⟨chainMiddle, ?_⟩, items⟩
      unfold Counter.ptrs
      rw [List.getLast?_map, Counter.expire_last counter _ some]
      exact last.trans counterAt.last_eq

end KetamaRouter
