import Mathlib.Data.Multiset.MapFold
import KetamaRouter.Library.FaultProgram

/-!
# A heap of cells

`malloc` hands out a cell and `free` takes it back; reading or freeing a cell
that is not handed out is a fault.  An address is never handed out again, so a
pointer that is kept too long cannot go unnoticed.  What is live is a multiset
of addresses with their contents.
-/

namespace CellHeap

open FaultProgram

structure Heap (α : Type) where
  cell : Nat → Option α
  brk : Nat
  unused : ∀ address, brk ≤ address → cell address = none

variable {ε α : Type} {heap : Heap α} {cells : Multiset (Nat × α)}
  {address : Nat} {contents : α}

namespace Heap

def empty : Heap α where
  cell _ := none
  brk := 0
  unused _ _ := rfl

def allocated (heap : Heap α) (contents : α) : Heap α where
  cell := Function.update heap.cell heap.brk (some contents)
  brk := heap.brk + 1
  unused address above := by
    rw [Function.update_of_ne (by omega)]
    exact heap.unused address (by omega)

def freed (heap : Heap α) (address : Nat) : Heap α where
  cell := Function.update heap.cell address none
  brk := heap.brk
  unused other above := by
    by_cases same : other = address
    · rw [same, Function.update_self]
    · rw [Function.update_of_ne same]
      exact heap.unused other above

end Heap

def malloc (contents : α) : EStateM ε (Heap α) Nat := do
  let heap ← get
  set (heap.allocated contents)
  return heap.brk

def load (fault : ε) (address : Nat) : EStateM ε (Heap α) α := do
  let heap ← get
  match heap.cell address with
  | none => throw fault
  | some contents => return contents

def free (fault : ε) (address : Nat) : EStateM ε (Heap α) Unit := do
  let heap ← get
  match heap.cell address with
  | none => throw fault
  | some _ => set (heap.freed address)

/-- The live cells are these, and no others. -/
structure Live (heap : Heap α) (cells : Multiset (Nat × α)) : Prop where
  distinct : (cells.map Prod.fst).Nodup
  known : ∀ address contents,
    heap.cell address = some contents ↔ (address, contents) ∈ cells

theorem Heap.empty_live : Live (Heap.empty : Heap α) 0 where
  distinct := Multiset.nodup_zero
  known address contents := by simp [Heap.empty]

namespace Live

theorem below (live : Live heap cells) (member : (address, contents) ∈ cells) :
    address < heap.brk := by
  by_contra above
  have used := (live.known address contents).mpr member
  rw [heap.unused address (Nat.not_lt.mp above)] at used
  cases used

theorem malloc (live : Live heap cells) (contents : α) :
    Yields (malloc contents : EStateM ε (Heap α) Nat) heap fun address after =>
      Live after ((address, contents) ::ₘ cells) := by
  apply Yields.get_bind
  apply Yields.set_bind
  apply Yields.pure
  constructor
  · rw [Multiset.map_cons, Multiset.nodup_cons]
    refine ⟨?_, live.distinct⟩
    intro used
    obtain ⟨⟨other, old⟩, member, same⟩ := Multiset.mem_map.mp used
    have below := live.below member
    dsimp only at same
    omega
  · intro other found
    rw [Multiset.mem_cons]
    by_cases same : other = heap.brk
    · subst same
      have absent : (heap.brk, found) ∉ cells := fun member =>
        Nat.lt_irrefl _ (live.below member)
      simp [Heap.allocated, absent, eq_comm]
    · simp [Heap.allocated, same, live.known]

theorem load (live : Live heap cells) (member : (address, contents) ∈ cells)
    (fault : ε) : CellHeap.load fault address heap = .ok contents heap := by
  have found := (live.known address contents).mpr member
  unfold CellHeap.load
  rw [bind_run_ok (get_run heap)]
  simp [found]

theorem free (live : Live heap ((address, contents) ::ₘ cells)) (fault : ε) :
    Yields (free fault address) heap fun _ after => Live after cells := by
  have found :=
    (live.known address contents).mpr (Multiset.mem_cons_self _ _)
  have distinct := live.distinct
  rw [Multiset.map_cons, Multiset.nodup_cons] at distinct
  refine ⟨(), heap.freed address, ?_, distinct.2, ?_⟩
  · unfold CellHeap.free
    rw [bind_run_ok (get_run heap)]
    simp [found]
  · intro other old
    by_cases same : other = address
    · subst same
      have absent : (other, old) ∉ cells := fun member =>
        distinct.1 (Multiset.mem_map.mpr ⟨(other, old), member, rfl⟩)
      simp [Heap.freed, absent]
    · have known := live.known other old
      rw [Multiset.mem_cons, Prod.mk.injEq] at known
      simp [Heap.freed, same, known]

end Live

end CellHeap
