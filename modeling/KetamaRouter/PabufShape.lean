import Mathlib.Data.List.Nodup
import Mathlib.Tactic.Common
import KetamaRouter.Library.PointerChain
import KetamaRouter.Source.Pabuf

/-!
# Shape of an object pool

`PabufChains` relates the two shell chains of a pool to lists: the full shells
hold `cached`, and the empty shells are counted and capped.  `PabufCaches`
adds the counter of the full chain, which `pabuf_get` lowers only after the
emptied shell has moved to the other chain.
-/

namespace KetamaRouter

open PointerChain FaultProgram

variable {Obj : Type}

def Pabuf.shellNext (pabuf : Pabuf Obj) (shell : Nat) : Option Nat :=
  (pabuf.shells shell).next

structure PabufChains (pabuf : Pabuf Obj) (full empty : List Nat)
    (cached : List Obj) : Prop where
  fullLinked : Linked pabuf.shellNext pabuf.first full
  emptyLinked : Linked pabuf.shellNext pabuf.firstEshell empty
  distinct : (full ++ empty).Nodup
  allocated : ∀ shell ∈ full ++ empty, shell < pabuf.shellBrk
  objects : full.map (fun shell => (pabuf.shells shell).obj) =
    cached.map some
  eshellCount : pabuf.eshellCount.toNat = empty.length
  eshellBound : empty.length ≤ pabuf.maxEshellCount.toNat

/-- The pool caches exactly `cached`, the next object to hand out first. -/
def PabufCaches (pabuf : Pabuf Obj) (cached : List Obj) : Prop :=
  (∃ full empty, PabufChains pabuf full empty cached) ∧
    pabuf.remainCount.toNat = cached.length ∧
    cached.length ≤ pabuf.maxRemainCount.toNat

theorem PabufChains.length_eq {pabuf : Pabuf Obj} {full empty : List Nat}
    {cached : List Obj} (chains : PabufChains pabuf full empty cached) :
    full.length = cached.length := by
  simpa using congrArg List.length chains.objects

theorem pabufInit3_caches (objSize : UInt64)
    (maxRemainCount maxEshellCount : UInt32) :
    PabufCaches (pabufInit3 objSize maxRemainCount maxEshellCount : Pabuf Obj)
      [] :=
  ⟨⟨[], [],
    { fullLinked := rfl
      emptyLinked := rfl
      distinct := List.nodup_nil
      allocated := by simp
      objects := rfl
      eshellCount := rfl
      eshellBound := Nat.zero_le _ }⟩, rfl, Nat.zero_le _⟩

@[simp] theorem Pabuf.setShell_shells_self (pabuf : Pabuf Obj) (shell : Nat)
    (contents : PabufShell Obj) :
    (pabuf.setShell shell contents).shells shell = contents := by
  simp [Pabuf.setShell]

theorem Pabuf.setShell_shells_of_ne (pabuf : Pabuf Obj) {shell other : Nat}
    (contents : PabufShell Obj) (different : other ≠ shell) :
    (pabuf.setShell shell contents).shells other = pabuf.shells other := by
  simp [Pabuf.setShell, different]

private theorem toNat_succ_of_lt {count cap : UInt32} (below : count < cap) :
    (count + 1).toNat = count.toNat + 1 := by
  have capBound := cap.toNat_lt
  have belowNat : count.toNat < cap.toNat := UInt32.lt_iff_toNat_lt.mp below
  rw [UInt32.toNat_add, UInt32.toNat_one]
  exact Nat.mod_eq_of_lt (by omega)

private theorem toNat_pred_of_pos {count : UInt32}
    (positive : 0 < count.toNat) :
    (count - 1).toNat = count.toNat - 1 := by
  rw [UInt32.toNat_sub_of_le]
  · rfl
  · exact UInt32.le_iff_toNat_le.mpr positive

variable {pabuf : Pabuf Obj} {full empty : List Nat} {cached : List Obj}

/-- Changing a shell outside both chains keeps them. -/
theorem PabufChains.setShell_outside
    (chains : PabufChains pabuf full empty cached) {shell : Nat}
    (outside : shell ∉ full ++ empty) (contents : PabufShell Obj) :
    PabufChains (pabuf.setShell shell contents) full empty cached := by
  have kept : ∀ other ∈ full ++ empty,
      (pabuf.setShell shell contents).shells other = pabuf.shells other := by
    intro other member
    exact pabuf.setShell_shells_of_ne contents fun same =>
      outside (same ▸ member)
  refine { chains with fullLinked := ?_, emptyLinked := ?_, objects := ?_ }
  · exact chains.fullLinked.congr fun other member => by
      simp [Pabuf.shellNext, kept other (List.mem_append_left empty member)]
  · exact chains.emptyLinked.congr fun other member => by
      simp [Pabuf.shellNext, kept other (List.mem_append_right full member)]
  · rw [← chains.objects]
    exact List.map_congr_left fun other member => by
      rw [kept other (List.mem_append_left empty member)]

/-- A shell from outside becomes the head of the empty chain. -/
theorem PabufChains.push_empty
    (chains : PabufChains pabuf full empty cached) {shell : Nat}
    (outside : shell ∉ full ++ empty) (allocated : shell < pabuf.shellBrk)
    (below : pabuf.eshellCount < pabuf.maxEshellCount) :
    PabufChains
      { pabuf.setShell shell { obj := none, next := pabuf.firstEshell } with
        firstEshell := some shell
        eshellCount := pabuf.eshellCount + 1 }
      full (shell :: empty) cached := by
  have written := chains.setShell_outside outside
    { obj := none, next := pabuf.firstEshell }
  refine
    { written with
      emptyLinked := ⟨rfl, ?_⟩
      distinct := ?_
      allocated := ?_
      eshellCount := ?_
      eshellBound := ?_ }
  · rw [show Pabuf.shellNext _ shell = pabuf.firstEshell by
      simp [Pabuf.shellNext]]
    exact written.emptyLinked
  · rw [List.nodup_middle, List.nodup_cons]
    exact ⟨outside, chains.distinct⟩
  · intro other member
    rcases List.mem_append.mp member with inFull | inEmpty
    · exact chains.allocated other (List.mem_append_left _ inFull)
    · rcases List.mem_cons.mp inEmpty with rfl | inRest
      · exact allocated
      · exact chains.allocated other (List.mem_append_right _ inRest)
  · simp only [toNat_succ_of_lt below, chains.eshellCount, List.length_cons]
  · have belowNat := UInt32.lt_iff_toNat_lt.mp below
    rw [chains.eshellCount] at belowNat
    exact belowNat

/-- The head of the empty chain leaves it. -/
theorem PabufChains.pop_empty {shell : Nat}
    (chains : PabufChains pabuf full (shell :: empty) cached) :
    shell ∉ full ++ empty ∧
      PabufChains
        { pabuf with
          firstEshell := (pabuf.shells shell).next
          eshellCount := pabuf.eshellCount - 1 }
        full empty cached := by
  have distinct := chains.distinct
  rw [List.nodup_middle, List.nodup_cons] at distinct
  have count := chains.eshellCount
  simp only [List.length_cons] at count
  refine ⟨distinct.1,
    { chains with
      emptyLinked := chains.emptyLinked.2
      distinct := distinct.2
      allocated := ?_
      eshellCount := ?_
      eshellBound := Nat.le_of_succ_le chains.eshellBound }⟩
  · intro other member
    refine chains.allocated other ?_
    rcases List.mem_append.mp member with inFull | inRest
    · exact List.mem_append_left _ inFull
    · exact List.mem_append_right _ (List.mem_cons_of_mem _ inRest)
  · have pred : (pabuf.eshellCount - 1).toNat =
        pabuf.eshellCount.toNat - 1 := toNat_pred_of_pos (by omega)
    simp only [pred, count]
    omega

/-- The head of the full chain leaves it with its object. -/
theorem PabufChains.pop_full {shell : Nat} {obj : Obj}
    (chains : PabufChains pabuf (shell :: full) empty (obj :: cached)) :
    (pabuf.shells shell).obj = some obj ∧ shell ∉ full ++ empty ∧
      PabufChains { pabuf with first := (pabuf.shells shell).next }
        full empty cached := by
  have objects := chains.objects
  simp only [List.map_cons, List.cons.injEq] at objects
  have distinct := chains.distinct
  rw [List.cons_append, List.nodup_cons] at distinct
  exact ⟨objects.1, distinct.1,
    { chains with
      fullLinked := chains.fullLinked.2
      distinct := distinct.2
      allocated := fun other member =>
        chains.allocated other (List.mem_cons_of_mem shell member)
      objects := objects.2 }⟩

/-- A shell from outside becomes the head of the full chain. -/
theorem PabufChains.push_full
    (chains : PabufChains pabuf full empty cached) {shell : Nat} {obj : Obj}
    (outside : shell ∉ full ++ empty) (allocated : shell < pabuf.shellBrk)
    (holds : (pabuf.shells shell).obj = some obj) :
    PabufChains
      { pabuf.setShell shell
          { pabuf.shells shell with next := pabuf.first } with
        first := some shell }
      (shell :: full) empty (obj :: cached) := by
  have written := chains.setShell_outside outside
    { pabuf.shells shell with next := pabuf.first }
  refine
    { written with
      fullLinked := ⟨rfl, ?_⟩
      distinct := ?_
      allocated := ?_
      objects := ?_ }
  · rw [show Pabuf.shellNext _ shell = pabuf.first by
      simp [Pabuf.shellNext]]
    exact written.fullLinked
  · rw [List.cons_append, List.nodup_cons]
    exact ⟨outside, chains.distinct⟩
  · intro other member
    rcases List.mem_cons.mp member with rfl | later
    · exact allocated
    · exact chains.allocated other later
  · have objects := written.objects
    simp only [List.map_cons, Pabuf.setShell_shells_self, holds] at objects ⊢
    rw [objects]

/-- An operation on empty shells leaves the objects and the limits alone. -/
structure Pabuf.Alike (pabuf result : Pabuf Obj) : Prop where
  objSize : result.objSize = pabuf.objSize
  memory : result.memory = pabuf.memory
  count : result.count = pabuf.count
  maxRemainCount : result.maxRemainCount = pabuf.maxRemainCount
  maxEshellCount : result.maxEshellCount = pabuf.maxEshellCount

/-- A shell was taken from the empty ones, or allocated for want of one. -/
structure EshellTaken (pabuf result : Pabuf Obj) (empty : List Nat)
    (shell : Nat) (rest : List Nat) : Prop extends pabuf.Alike result where
  taken :
    (empty = [] ∧ rest = [] ∧ shell = pabuf.shellBrk ∧
      result.shellMemory = pabuf.shellMemory + pabufShellSize) ∨
    (empty = shell :: rest ∧ result.shellMemory = pabuf.shellMemory)

/-- A shell was put to the empty ones, or freed when they are at their cap. -/
structure EshellBacked (pabuf result : Pabuf Obj) (empty : List Nat)
    (shell : Nat) (rest : List Nat) : Prop extends pabuf.Alike result where
  backed :
    (pabuf.maxEshellCount ≤ pabuf.eshellCount ∧ rest = empty ∧
      result.shellMemory = pabuf.shellMemory - pabufShellSize) ∨
    (pabuf.eshellCount < pabuf.maxEshellCount ∧ rest = shell :: empty ∧
      result.shellMemory = pabuf.shellMemory)

/-- `pabuf_get_eshell` returns a shell outside both chains: a fresh one, or
the former head of the empty chain. -/
theorem pabufGetEshell_spec (chains : PabufChains pabuf full empty cached)
    (obj : Obj) :
    Yields (pabufGetEshell obj) pabuf fun shell result =>
      shell < result.shellBrk ∧
      (result.shells shell).obj = some obj ∧
      result.remainCount = pabuf.remainCount ∧
      ∃ rest, shell ∉ full ++ rest ∧
        PabufChains result full rest cached ∧
        EshellTaken pabuf result empty shell rest := by
  unfold pabufGetEshell
  apply Yields.get_bind
  by_cases noEmpty : pabuf.eshellCount = 0
  · have noneLeft : empty = [] := by
      apply List.eq_nil_of_length_eq_zero
      rw [← chains.eshellCount, noEmpty]
      rfl
    have fresh : pabuf.shellBrk ∉ full ++ empty := fun member =>
      Nat.lt_irrefl _ (chains.allocated _ member)
    have written := chains.setShell_outside fresh
      { obj := some obj, next := none }
    simp only [noEmpty, if_true]
    refine ⟨_, _, rfl, Nat.lt_succ_self _, by simp, rfl, empty, fresh,
      { written with allocated := ?_ }, ⟨rfl, rfl, rfl, rfl, rfl⟩,
      .inl ⟨noneLeft, noneLeft, rfl, rfl⟩⟩
    intro shell member
    exact Nat.lt_succ_of_lt (chains.allocated shell member)
  · simp only [noEmpty, if_false]
    cases empty with
    | nil =>
        exact absurd (UInt32.toNat_inj.mp chains.eshellCount) noEmpty
    | cons shell rest =>
        obtain ⟨outside, popped⟩ := chains.pop_empty
        have firstEq : pabuf.firstEshell = some shell := chains.emptyLinked.1
        simp only [firstEq]
        exact ⟨_, _, rfl, chains.allocated shell (by simp), by simp, rfl, rest,
          outside, popped.setShell_outside outside _,
          ⟨rfl, rfl, rfl, rfl, rfl⟩, .inr ⟨rfl, rfl⟩⟩

theorem pabufBackEshell_spec (chains : PabufChains pabuf full empty cached)
    {shell : Nat} (outside : shell ∉ full ++ empty)
    (allocated : shell < pabuf.shellBrk) :
    Yields (pabufBackEshell shell) pabuf fun _ result =>
      result.remainCount = pabuf.remainCount ∧
      ∃ rest, PabufChains result full rest cached ∧
        EshellBacked pabuf result empty shell rest := by
  unfold pabufBackEshell
  apply Yields.get_bind
  by_cases atCap : pabuf.eshellCount ≥ pabuf.maxEshellCount
  · simp only [atCap, if_true]
    exact Yields.set ⟨rfl, empty, { chains with }, ⟨rfl, rfl, rfl, rfl, rfl⟩,
      .inl ⟨atCap, rfl, rfl⟩⟩
  · simp only [atCap, if_false]
    have below := UInt32.not_le.mp atCap
    exact Yields.set ⟨rfl, shell :: empty,
      chains.push_empty outside allocated below, ⟨rfl, rfl, rfl, rfl, rfl⟩,
      .inr ⟨below, rfl, rfl⟩⟩

/-! ## `pabuf_get` and `pabuf_back` -/

/-- `pabuf_get` allocates when nothing is cached. -/
theorem pabufGet_run (noneCached : pabuf.remainCount.toNat = 0) (calloc : Obj) :
    pabufGet calloc pabuf = .ok calloc
      { pabuf with
        memory := pabuf.memory + pabuf.objSize
        count := pabuf.count + 1 } := by
  have remainZero : pabuf.remainCount ≤ 0 := by
    rw [UInt32.le_iff_toNat_le, noneCached]
    exact Nat.le_refl 0
  unfold pabufGet
  rw [bind_run_ok (get_run pabuf)]
  simp only [remainZero, if_true]
  rfl

/-- `pabuf_get` hands out the first cached object otherwise. -/
theorem pabufGet_pops {shell : Nat} {obj : Obj}
    (chains : PabufChains pabuf (shell :: full) empty (obj :: cached))
    (positive : 0 < pabuf.remainCount.toNat) (calloc : Obj) :
    Yields (pabufGet calloc) pabuf fun value result =>
      value = obj ∧ result.remainCount = pabuf.remainCount - 1 ∧
      ∃ rest, PabufChains result full rest cached ∧
        EshellBacked pabuf result empty shell rest := by
  obtain ⟨objEq, outside, popped⟩ := chains.pop_full
  have firstEq : pabuf.first = some shell := chains.fullLinked.1
  have notZero : ¬ pabuf.remainCount ≤ 0 := by
    rw [UInt32.le_iff_toNat_le]
    exact Nat.not_le_of_gt positive
  unfold pabufGet
  apply Yields.get_bind
  simp only [notZero, if_false, firstEq, objEq]
  apply Yields.set_bind
  apply Yields.bind (pabufBackEshell_spec popped outside
    (chains.allocated shell (by simp)))
  intro _ middle known
  obtain ⟨remainEq, rest, after, backed⟩ := known
  apply Yields.modify_bind
  exact Yields.pure ⟨rfl, congrArg (· - 1) remainEq, rest, { after with },
    { backed with }⟩

/-- `pabuf_back` frees the object when the pool is at its cap. -/
theorem pabufBack_run (atCap : pabuf.maxRemainCount ≤ pabuf.remainCount)
    (obj : Obj) :
    pabufBack obj pabuf = .ok ()
      { pabuf with
        memory := pabuf.memory - pabuf.objSize
        count := pabuf.count - 1 } := by
  unfold pabufBack
  rw [bind_run_ok (get_run pabuf)]
  simp only [atCap, if_true]
  rfl

/-- `pabuf_back` caches the object otherwise. -/
theorem pabufBack_pushes (chains : PabufChains pabuf full empty cached)
    (below : ¬ pabuf.maxRemainCount ≤ pabuf.remainCount) (obj : Obj) :
    Yields (pabufBack obj) pabuf fun _ result =>
      result.remainCount = pabuf.remainCount + 1 ∧
      ∃ shell rest, PabufChains result (shell :: full) rest (obj :: cached) ∧
        EshellTaken pabuf result empty shell rest := by
  unfold pabufBack
  apply Yields.get_bind
  simp only [below, if_false]
  apply Yields.bind (pabufGetEshell_spec chains obj)
  intro shell middle known
  obtain ⟨allocated, objEq, remainEq, rest, outside, after, taken⟩ := known
  have pushed := after.push_full outside allocated objEq
  exact Yields.modify ⟨congrArg (· + 1) remainEq, shell, rest, { pushed with },
    { taken with }⟩

/-- The counter of a pool that is not at its cap does not wrap. -/
theorem remainCount_succ (below : ¬ pabuf.maxRemainCount ≤ pabuf.remainCount) :
    (pabuf.remainCount + 1).toNat = pabuf.remainCount.toNat + 1 ∧
      pabuf.remainCount.toNat + 1 ≤ pabuf.maxRemainCount.toNat := by
  have less := UInt32.not_le.mp below
  exact ⟨toNat_succ_of_lt less, UInt32.lt_iff_toNat_lt.mp less⟩

theorem remainCount_pred (positive : 0 < pabuf.remainCount.toNat) :
    (pabuf.remainCount - 1).toNat = pabuf.remainCount.toNat - 1 :=
  toNat_pred_of_pos positive

theorem pabufGet_allocates (caches : PabufCaches pabuf []) (calloc : Obj) :
    Yields (pabufGet calloc) pabuf fun obj result =>
      obj = calloc ∧ PabufCaches result [] := by
  obtain ⟨⟨full, empty, chains⟩, remainCount, bound⟩ := caches
  exact ⟨_, _, pabufGet_run remainCount calloc, rfl,
    ⟨full, empty, { chains with }⟩, remainCount, bound⟩

theorem pabufGet_reuses {obj : Obj}
    (caches : PabufCaches pabuf (obj :: cached)) (calloc : Obj) :
    Yields (pabufGet calloc) pabuf fun value result =>
      value = obj ∧ PabufCaches result cached := by
  obtain ⟨⟨full, empty, chains⟩, remainCount, bound⟩ := caches
  cases full with
  | nil => cases chains.objects
  | cons shell full =>
      have positive : 0 < pabuf.remainCount.toNat := by
        rw [remainCount]
        exact Nat.succ_pos _
      apply (pabufGet_pops chains positive calloc).mono
      intro value result known
      obtain ⟨sameObj, remainEq, rest, after, backed⟩ := known
      refine ⟨sameObj, ⟨full, rest, after⟩, ?_, ?_⟩
      · rw [remainEq, remainCount_pred positive, remainCount]
        rfl
      · rw [backed.maxRemainCount]
        exact Nat.le_of_succ_le bound

/-- `pabuf_back` frees the object or caches it. -/
theorem pabufBack_spec (caches : PabufCaches pabuf cached) (obj : Obj) :
    Yields (pabufBack obj) pabuf fun _ result =>
      PabufCaches result cached ∨ PabufCaches result (obj :: cached) := by
  obtain ⟨⟨full, empty, chains⟩, remainCount, bound⟩ := caches
  by_cases atCap : pabuf.maxRemainCount ≤ pabuf.remainCount
  · exact ⟨_, _, pabufBack_run atCap obj,
      .inl ⟨⟨full, empty, { chains with }⟩, remainCount, bound⟩⟩
  · have counted := remainCount_succ atCap
    apply (pabufBack_pushes chains atCap obj).mono
    intro _ result known
    obtain ⟨remainEq, shell, rest, after, taken⟩ := known
    refine .inr ⟨⟨shell :: full, rest, after⟩, ?_, ?_⟩
    · rw [remainEq, counted.1, remainCount]
      rfl
    · rw [taken.maxRemainCount, List.length_cons, ← remainCount]
      exact counted.2

end KetamaRouter
