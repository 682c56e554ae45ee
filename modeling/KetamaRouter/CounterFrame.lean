import KetamaRouter.CounterStructure

/-!
# What a counter leaves alone

Counters share the two pools.  A call of one of them changes no other counter and
no tic that another counter holds.
-/

namespace KetamaRouter

open PointerChain FaultProgram SlidingWindow

variable {machine : SignedArithmetic} {start memory after : CountqueMemory}
  {counter other : Counter} {others items rest : Multiset Nat} {item tic : Nat}
  {call : CounterCall}

/-- Nothing changed but the counter `item` and tics outside of `others`. -/
structure Spares (item : Nat) (others : Multiset Nat)
    (memory after : CountqueMemory) : Prop where
  items : ∀ other, other ≠ item → after.item other = memory.item other
  tics : ∀ tic ∈ others, after.tic tic = memory.tic tic

namespace Spares

theorem refl (item : Nat) (others : Multiset Nat) (memory : CountqueMemory) :
    Spares item others memory memory :=
  ⟨fun _ _ => rfl, fun _ _ => rfl⟩

theorem setItem (spares : Spares item others start memory)
    (change : Countque → Countque) :
    Spares item others start (memory.setItem item change) where
  items other apart :=
    (Function.update_of_ne apart _ _).trans (spares.items other apart)
  tics := spares.tics

theorem setTic (spares : Spares item others start memory)
    (outside : tic ∉ others) (change : CountqueTic → CountqueTic) :
    Spares item others start (memory.setTic tic change) where
  items := spares.items
  tics other member := by
    have apart : other ≠ tic := fun same => outside (same ▸ member)
    rw [CountqueMemory.setTic_tic_of_ne change apart]
    exact spares.tics other member

theorem setTicBuffer (spares : Spares item others start memory)
    (pool : NumberedPool) :
    Spares item others start (memory.setTicBuffer pool) :=
  ⟨spares.items, spares.tics⟩

theorem setItemBuffer (spares : Spares item others start memory)
    (pool : NumberedPool) :
    Spares item others start (memory.setItemBuffer pool) :=
  ⟨spares.items, spares.tics⟩

/-- A counter that was spared is where it was, whatever the pool did. -/
theorem counterAt (spares : Spares item others memory after)
    (otherAt : CounterAt memory other rest) (apart : other.item ≠ item)
    (inside : ∀ tic ∈ other.ptrs, tic ∈ others) {left : Multiset Nat}
    (holds : after.ticBuffer.Holds (↑other.ptrs + left)) :
    CounterAt after other left := by
  have same := spares.items other.item apart
  refine ⟨⟨?_, ?_, ?_, ?_, ?_, holds⟩, ?_⟩
  · rw [same]
    exact otherAt.ticPerSec
  · rw [same]
    exact otherAt.ticMaxCnt
  · rw [same]
    apply otherAt.linked.congr
    intro tic member
    unfold CountqueMemory.newer
    rw [spares.tics tic (inside tic member)]
  · intro tic member
    have kept := spares.tics tic.ptr (inside _ (List.mem_map_of_mem member))
    have ticAt := otherAt.tics tic member
    exact ⟨kept ▸ ticAt.time, kept ▸ ticAt.count⟩
  · rw [same]
    exact otherAt.count
  · rw [same]
    exact otherAt.last

end Spares

theorem ticBack_spares (item : Nat) (others : Multiset Nat)
    (start : CountqueMemory) (tic : Nat) :
    Preserves (Spares item others start) (ticBack tic) := by
  apply Preserves.focus
  intro memory pool spares
  exact spares.setTicBuffer pool

theorem cqAdjustLoop_spares (item : Nat) (others : Multiset Nat)
    (start : CountqueMemory) (ttl : Int64) (fuel : Nat) (first : Option Nat) :
    Preserves (Spares item others start)
      (cqAdjustLoop item ttl fuel first) := by
  induction fuel generalizing first with
  | zero =>
      cases first with
      | none => exact Preserves.pure none
      | some tic => exact Preserves.throw Fault.diverges
  | succ fuel induction =>
      cases first with
      | none => exact Preserves.pure none
      | some tic =>
          unfold cqAdjustLoop
          apply Preserves.get_bind
          intro memory
          dsimp only
          split
          · apply Preserves.bind
            · apply Preserves.modify
              intro memory spares
              exact spares.setItem _
            intro _
            apply Preserves.bind
            · apply Preserves.modify
              intro memory spares
              exact spares.setItem _
            intro _
            apply Preserves.bind (ticBack_spares item others start tic)
            intro _
            apply Preserves.get_bind
            intro memory
            exact induction _
          · exact Preserves.pure (some tic)

theorem cqAdjust_spares (machine : SignedArithmetic) (item : Nat)
    (others : Multiset Nat) (start : CountqueMemory) (baseTime : Int64) :
    Preserves (Spares item others start) (cqAdjust machine item baseTime) := by
  unfold cqAdjust
  apply Preserves.get_bind
  intro memory
  apply Preserves.bind
    (cqAdjustLoop_spares item others start _ _ _)
  intro tic
  split
  · apply Preserves.modify
    intro memory spares
    exact spares.setItem _
  · exact Preserves.pure _

theorem cqFreeLoop_spares (item : Nat) (others : Multiset Nat)
    (start : CountqueMemory) (fuel : Nat) (first : Option Nat) :
    Preserves (Spares item others start) (cqFreeLoop item fuel first) := by
  induction fuel generalizing first with
  | zero =>
      cases first with
      | none => exact Preserves.pure _
      | some tic => exact Preserves.throw Fault.diverges
  | succ fuel induction =>
      cases first with
      | none => exact Preserves.pure _
      | some tic =>
          unfold cqFreeLoop
          apply Preserves.bind
          · apply Preserves.modify
            intro memory spares
            exact spares.setItem _
          intro _
          apply Preserves.bind (ticBack_spares item others start tic)
          intro _
          apply Preserves.get_bind
          intro memory
          exact induction _

theorem cqFree_spares (item : Nat) (others : Multiset Nat)
    (start : CountqueMemory) :
    Preserves (Spares item others start) (cqFree item) := by
  unfold cqFree
  apply Preserves.bind
  · unfold cqFreeTics
    apply Preserves.get_bind
    intro memory
    exact cqFreeLoop_spares item others start _ _
  intro _
  apply Preserves.focus
  intro memory pool spares
  exact spares.setItemBuffer pool

/-- The tic that an event goes to is the counter's own last one, or new. -/
theorem cqRecord_spares (baseTime : Int64)
    (counterAt : CounterAt memory counter others) :
    Yields (cqRecord counter.item baseTime) memory fun _ after =>
      Spares counter.item others memory after := by
  have spares := Spares.refl counter.item others memory
  have holds := counterAt.pool
  have lastAt := counterAt.last
  unfold cqRecord
  apply Yields.get_bind
  cases ends : (memory.item counter.item).last with
  | none =>
      apply Yields.bind (cqTicFirst_spec baseTime holds)
      intro tic middle taken
      obtain ⟨outside, pool, -, same⟩ := taken
      subst same
      apply Yields.modify_bind
      apply Yields.modify
      apply Spares.setItem
      apply Spares.setItem
      apply (spares.setTicBuffer pool).setTic
      exact fun member => outside (Multiset.mem_add.mpr (.inr member))
  | some last =>
      have own : last ∈ counter.ptrs := by
        rw [ends] at lastAt
        exact List.mem_of_getLast? lastAt.symm
      have apart : last ∉ others := by
        have distinct := (Multiset.nodup_add.mp holds.nodup).2.2
        exact Multiset.disjoint_left.mp distinct own
      apply Yields.get_bind
      dsimp only
      split
      · apply Yields.modify_bind
        apply Yields.modify
        apply Spares.setItem
        exact spares.setTic apart _
      · apply Yields.bind (cqTicFirst_spec baseTime holds)
        intro tic middle taken
        obtain ⟨outside, pool, -, same⟩ := taken
        subst same
        apply Yields.modify_bind
        apply Yields.modify_bind
        apply Yields.modify
        apply Spares.setItem
        apply Spares.setItem
        apply Spares.setTic _ apart
        apply (spares.setTicBuffer pool).setTic
        exact fun member => outside (Multiset.mem_add.mpr (.inr member))

theorem CounterCall.run_spares (machine : SignedArithmetic) (call : CounterCall)
    (counterAt : CounterAt memory counter others) {result : UInt64}
    (ran : call.run machine counter.item memory = .ok result after) :
    Spares counter.item others memory after := by
  cases call with
  | tic t =>
      unfold run cqTicTime at ran
      obtain ⟨_, _, read, ran⟩ := of_bind_ok ran
      cases read
      rw [counterAt.ticPerSec, getBaseTimeByTime_run counter.perSec,
        pure_bind] at ran
      obtain ⟨_, middle, recorded, ran⟩ := of_bind_ok ran
      obtain ⟨_, _, adjusted, ran⟩ := of_bind_ok ran
      obtain ⟨_, _, read, ran⟩ := of_bind_ok ran
      cases read
      cases ran
      have spares := (cqRecord_spares _ counterAt).result recorded
      exact (cqAdjust_spares _ _ _ _ _).kept spares adjusted
  | count now =>
      unfold run cqCount at ran
      obtain ⟨_, _, read, ran⟩ := of_bind_ok ran
      cases read
      rw [counterAt.ticPerSec, getBaseTimeByTime_run counter.perSec,
        pure_bind] at ran
      obtain ⟨_, _, adjusted, ran⟩ := of_bind_ok ran
      obtain ⟨_, _, read, ran⟩ := of_bind_ok ran
      cases read
      cases ran
      exact (cqAdjust_spares _ _ _ _ _).kept (Spares.refl _ _ _) adjusted

/-- A new counter is one that nobody holds; only its record is written. -/
theorem cqInit_spares (ticPerSec : Int64) (ticMaxCnt : UInt32)
    (held : memory.itemBuffer.Holds items) :
    Yields (cqInit ticPerSec ticMaxCnt) memory fun item after =>
      item ∉ items ∧ (∀ others, Spares item others memory after) ∧
        after.ticBuffer = memory.ticBuffer := by
  unfold cqInit
  apply Yields.bind (Yields.focus (numberedGet_spec held))
  intro item middle got
  obtain ⟨pool, same, outside, -⟩ := got
  subst same
  apply Yields.modify_bind
  apply Yields.pure
  refine ⟨outside, ?_, rfl⟩
  intro others
  exact ((Spares.refl item others memory).setItemBuffer pool).setItem _

end KetamaRouter
