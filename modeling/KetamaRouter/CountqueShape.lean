import KetamaRouter.Library.SlidingWindow
import KetamaRouter.PabufShape
import KetamaRouter.Source.Countque

/-!
# Shape of a counter in memory

A `Counter` lists the tics of a chain with the events merged into each.  The
counter of a tic has 32 bits; the events that it drops by wrapping stay in the
total of the `countque_t` when the tic goes, and are counted as `lost`.
-/

namespace KetamaRouter

open PointerChain FaultProgram SlidingWindow

/-! ## Pools -/

/-- The pool has handed out exactly `held`, and none of it is cached. -/
def NumberedPool.Holds (pool : NumberedPool) (held : Multiset Nat) : Prop :=
  ∃ cached : List Nat,
    PabufCaches pool.pabuf cached ∧
    Ledger.outstanding pool.ledger = some held ∧
    (↑cached + held).Nodup ∧
    ∀ obj ∈ (↑cached + held : Multiset Nat), obj < pool.objBrk

variable {pool : NumberedPool} {held others : Multiset Nat}

theorem NumberedPool.Holds.ledger (holds : pool.Holds held) :
    Ledger.outstanding pool.ledger = some held := by
  obtain ⟨cached, -, ledger, -⟩ := holds
  exact ledger

theorem NumberedPool.Holds.nodup (holds : pool.Holds held) : held.Nodup :=
  Ledger.outstanding_nodup holds.ledger

/-- There are no more objects than were allocated. -/
theorem NumberedPool.Holds.card_le (holds : pool.Holds held) :
    held.card ≤ pool.objBrk := by
  have distinct := holds.nodup
  obtain ⟨cached, -, -, -, allocated⟩ := holds
  have inside : held ≤ Multiset.range pool.objBrk := by
    rw [Multiset.le_iff_subset distinct]
    intro obj member
    exact Multiset.mem_range.mpr
      (allocated obj (Multiset.mem_add.mpr (.inr member)))
  have card := Multiset.card_le_card inside
  rw [Multiset.card_range] at card
  exact card

theorem numberedInit_holds (objSize : UInt64) : (numberedInit objSize).Holds 0 :=
  ⟨[], pabufInit3_caches _ _ _, rfl, Multiset.nodup_zero, fun obj member =>
    absurd member (Multiset.notMem_zero obj)⟩

theorem NumberedPool.holds_take {pabuf : Pabuf Nat} {cached : List Nat}
    {obj objBrk : Nat} (ledger : Ledger.outstanding pool.ledger = some held)
    (caches : PabufCaches pabuf cached)
    (distinct : (↑(obj :: cached) + held).Nodup)
    (allocated : ∀ other ∈ (↑(obj :: cached) + held : Multiset Nat),
      other < objBrk) :
    obj ∉ held ∧ NumberedPool.Holds
      { pabuf := pabuf, objBrk := objBrk, ledger := .taken obj :: pool.ledger }
      (obj ::ₘ held) := by
  have moved : (↑(obj :: cached) + held : Multiset Nat) =
      ↑cached + obj ::ₘ held := by
    rw [← Multiset.cons_coe, Multiset.cons_add, Multiset.add_cons]
  rw [moved] at distinct allocated
  have outside : obj ∉ held :=
    (Multiset.nodup_cons.mp
      (Multiset.nodup_of_le (Multiset.le_add_left _ _) distinct)).1
  exact ⟨outside, cached, caches, Ledger.outstanding_taken ledger outside,
    distinct, allocated⟩

/-- `pabuf_get` hands out an object nobody holds. -/
theorem numberedGet_spec (holds : pool.Holds held) :
    Yields numberedGet pool fun obj after =>
      obj ∉ held ∧ after.Holds (obj ::ₘ held) := by
  obtain ⟨cached, caches, ledger, distinct, allocated⟩ := holds
  unfold numberedGet
  apply Yields.get_bind
  cases cached with
  | nil =>
      apply Yields.bind (Yields.focus (pabufGet_allocates caches pool.objBrk))
      intro obj _ got
      obtain ⟨pabuf, same, fresh, cachesAfter⟩ := got
      subst same
      subst fresh
      apply Yields.modify_bind
      simp only [if_true]
      apply Yields.modify_bind
      apply Yields.pure
      apply NumberedPool.holds_take ledger cachesAfter
      · rw [Multiset.coe_singleton, Multiset.singleton_add]
        apply Multiset.nodup_cons.mpr
        constructor
        · intro member
          exact Nat.lt_irrefl _ (allocated _ (by simpa using member))
        · simpa using distinct
      · intro other member
        rw [Multiset.coe_singleton, Multiset.singleton_add,
          Multiset.mem_cons] at member
        cases member with
        | inl fresh => exact fresh ▸ Nat.lt_succ_self _
        | inr old =>
            exact Nat.lt_succ_of_lt (allocated other (by simpa using old))
  | cons obj cached =>
      apply Yields.bind (Yields.focus (pabufGet_reuses caches pool.objBrk))
      intro got _ result
      obtain ⟨pabuf, same, reused, cachesAfter⟩ := result
      subst same
      subst reused
      apply Yields.modify_bind
      have notFresh : got ≠ pool.objBrk := by
        intro same
        exact Nat.lt_irrefl _ (same ▸ allocated got (by simp))
      simp only [notFresh, if_false]
      apply Yields.pure
      exact NumberedPool.holds_take ledger cachesAfter distinct allocated

/-- `pabuf_back` of an object that is held gives up exactly that object. -/
theorem numberedBack_spec {obj : Nat} (holds : pool.Holds (obj ::ₘ held)) :
    Yields (numberedBack obj) pool fun _ after =>
      after.Holds held ∧ after.ledger = .returned obj :: pool.ledger := by
  obtain ⟨cached, caches, ledger, distinct, allocated⟩ := holds
  rw [Multiset.add_cons] at distinct allocated
  unfold numberedBack
  apply Yields.bind (Yields.focus (pabufBack_spec caches obj))
  intro _ _ back
  obtain ⟨pabuf, same, cachesAfter⟩ := back
  subst same
  apply Yields.modify
  refine ⟨?_, rfl⟩
  cases cachesAfter with
  | inl freed =>
      exact ⟨cached, freed, Ledger.outstanding_returned ledger,
        (Multiset.nodup_cons.mp distinct).2,
        fun other member => allocated other (Multiset.mem_cons_of_mem member)⟩
  | inr kept =>
      rw [← Multiset.cons_add, Multiset.cons_coe] at distinct allocated
      exact ⟨obj :: cached, kept, Ledger.outstanding_returned ledger, distinct,
        allocated⟩

/-! ## Counters -/

structure TicShape where
  ptr : Nat
  slot : Slot ℤ

structure Counter where
  item : Nat
  ticPerSec : Int64
  ticMaxCnt : UInt32
  perSec : 1 ≤ ticPerSec.toInt
  tics : List TicShape
  lost : Nat

namespace Counter

def ptrs (counter : Counter) : List Nat :=
  counter.tics.map TicShape.ptr

def slots (counter : Counter) : List (Slot ℤ) :=
  counter.tics.map TicShape.slot

theorem ptrs_length (counter : Counter) :
    counter.ptrs.length = counter.slots.length := by
  unfold ptrs slots
  rw [List.length_map, List.length_map]

/-- The events in the total of the counter. -/
def counted (counter : Counter) : Nat :=
  total counter.slots + counter.lost

/-- The events that the counters of these tics have dropped by wrapping. -/
def wrapped (slots : List (Slot ℤ)) : Nat :=
  (slots.map fun slot => slot.count - slot.count % 2 ^ 32).sum

theorem wrapped_le_total (slots : List (Slot ℤ)) : wrapped slots ≤ total slots :=
  List.sum_le_sum fun _ _ => Nat.sub_le _ _

/-- The counter once its old tics are gone. -/
def expire (counter : Counter) (limit : ℤ) : Counter :=
  { counter with
    tics := counter.tics.dropWhile fun tic => tic.slot.time ≤ limit
    lost := counter.lost + wrapped (expired limit counter.slots) }

end Counter

def CountqueMemory.newer (memory : CountqueMemory) (tic : Nat) : Option Nat :=
  (memory.tic tic).newer

/-- The memory holds the tic. -/
structure TicAt (memory : CountqueMemory) (tic : TicShape) : Prop where
  time : (memory.tic tic.ptr).time.toInt = tic.slot.time
  count : (memory.tic tic.ptr).count = UInt32.ofNat tic.slot.count

/-- The memory holds the counter, except that its last tic may be gone; the pool
of tics has handed out its tics and those of `others`. -/
structure ChainAt (memory : CountqueMemory) (counter : Counter)
    (others : Multiset Nat) : Prop where
  ticPerSec : (memory.item counter.item).ticPerSec = counter.ticPerSec
  ticMaxCnt : (memory.item counter.item).ticMaxCnt = counter.ticMaxCnt
  linked : Linked memory.newer (memory.item counter.item).first counter.ptrs
  tics : ∀ tic ∈ counter.tics, TicAt memory tic
  count : (memory.item counter.item).count = UInt64.ofNat counter.counted
  pool : memory.ticBuffer.Holds (↑counter.ptrs + others)

structure CounterAt (memory : CountqueMemory) (counter : Counter)
    (others : Multiset Nat) : Prop extends ChainAt memory counter others where
  last : (memory.item counter.item).last = counter.ptrs.getLast?

variable {memory : CountqueMemory} {counter : Counter}

theorem Counter.slots_getLast? (counter : Counter) :
    counter.slots.getLast? = counter.tics.getLast?.map TicShape.slot := by
  unfold Counter.slots
  rw [List.getLast?_map]

theorem CounterAt.last_eq (counterAt : CounterAt memory counter others) :
    (memory.item counter.item).last =
      counter.tics.getLast?.map TicShape.ptr := by
  rw [counterAt.last]
  unfold Counter.ptrs
  rw [List.getLast?_map]

end KetamaRouter
