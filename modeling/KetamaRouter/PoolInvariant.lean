import Mathlib.Algebra.Group.Nat.Defs
import Mathlib.Data.List.Perm.Lattice
import KetamaRouter.Library.LabelledRun
import KetamaRouter.PabufShape

/-!
# The representation invariant of a pool

A run of a pool records the objects that are handed out and the shells that are
allocated.  The shells in use are those of the two chains; the cached objects
are distinct and handed out to nobody.  The counters hold these numbers, `count`
and `memory` modulo the sizes of their types.
-/

namespace KetamaRouter

open PointerChain FaultProgram LabelledRun

variable {Obj : Type}

/-- The object sits in a shell of the full chain. -/
def Pabuf.Caches (pabuf : Pabuf Obj) (obj : Obj) : Prop :=
  ∃ full, Linked pabuf.shellNext pabuf.first full ∧
    ∃ shell ∈ full, (pabuf.shells shell).obj = some obj

/-- The shell that `pabuf_get` passes to `free`, if any. -/
def Pabuf.freedShells (pabuf : Pabuf Obj) : List Nat :=
  if 0 < pabuf.remainCount ∧ pabuf.maxEshellCount ≤ pabuf.eshellCount then
    pabuf.first.toList
  else []

/-- The shell that `pabuf_back` gets from `calloc`, if any. -/
def Pabuf.newShells (pabuf : Pabuf Obj) : List Nat :=
  if pabuf.remainCount < pabuf.maxRemainCount ∧ pabuf.eshellCount = 0 then
    [pabuf.shellBrk]
  else []

inductive PabufCall where
  | get
  | back
  deriving DecidableEq, Repr

/-- A pool, the objects it has handed out and the shells it has allocated. -/
structure PabufUse (Obj : Type) where
  pabuf : Pabuf Obj
  out : List Obj
  shells : List Nat

/-- A call.  `calloc` returns an object that is in use nowhere, and only objects
that are handed out come back. -/
inductive PabufTakes [DecidableEq Obj] :
    PabufUse Obj → PabufCall → PabufUse Obj → Prop where
  | get {pabuf after : Pabuf Obj} {out : List Obj} {shells : List Nat}
      {calloc obj : Obj} (unheld : calloc ∉ out)
      (uncached : ¬ pabuf.Caches calloc)
      (ran : pabufGet calloc pabuf = .ok obj after) :
      PabufTakes ⟨pabuf, out, shells⟩ .get
        ⟨after, obj :: out, shells.diff pabuf.freedShells⟩
  | back {pabuf after : Pabuf Obj} {out : List Obj} {shells : List Nat}
      {obj : Obj} (held : obj ∈ out) (ran : pabufBack obj pabuf = .ok () after) :
      PabufTakes ⟨pabuf, out, shells⟩ .back
        ⟨after, out.erase obj, pabuf.newShells ++ shells⟩

/-- A run from `pabuf_init3` leads to this pool, with these objects handed out
and these shells allocated. -/
def PabufRun [DecidableEq Obj] (objSize : UInt64)
    (maxRemainCount maxEshellCount : UInt32) (pabuf : Pabuf Obj)
    (out : List Obj) (shells : List Nat) : Prop :=
  ∃ calls, Run PabufTakes
    ⟨pabufInit3 objSize maxRemainCount maxEshellCount, [], []⟩ calls
    ⟨pabuf, out, shells⟩

/-- The chains and the counters of a pool agree with what is in use. -/
structure PabufBooks (pabuf : Pabuf Obj) (out : List Obj) (shells : List Nat)
    (full empty : List Nat) (cached : List Obj) : Prop
    extends PabufChains pabuf full empty cached where
  remainCount : pabuf.remainCount.toNat = cached.length
  remainBound : cached.length ≤ pabuf.maxRemainCount.toNat
  once : (cached ++ out).Nodup
  inUse : shells.Perm (full ++ empty)
  count : pabuf.count = UInt32.ofNat (out.length + cached.length)
  memory : pabuf.memory =
    pabuf.objSize * UInt64.ofNat (out.length + cached.length)
  shellMemory : pabuf.shellMemory.toNat = 16 * (full.length + empty.length)

variable {pabuf : Pabuf Obj} {out : List Obj} {shells full empty : List Nat}
  {cached : List Obj} {objSize : UInt64} {maxRemainCount maxEshellCount : UInt32}

theorem pabufInit3_books :
    PabufBooks (pabufInit3 objSize maxRemainCount maxEshellCount : Pabuf Obj)
      [] [] [] [] [] where
  fullLinked := rfl
  emptyLinked := rfl
  distinct := List.nodup_nil
  allocated := by simp
  objects := rfl
  eshellCount := rfl
  eshellBound := Nat.zero_le _
  remainCount := rfl
  remainBound := Nat.zero_le _
  once := List.nodup_nil
  inUse := List.Perm.refl _
  count := rfl
  memory := by simp [pabufInit3]
  shellMemory := rfl

/-! ## Words -/

theorem ofNat32_succ (objects : Nat) :
    UInt32.ofNat objects + 1 = UInt32.ofNat (objects + 1) := by
  rw [UInt32.ofNat_add]
  rfl

theorem mul_ofNat64_succ (size : UInt64) (objects : Nat) :
    size * UInt64.ofNat objects + size = size * UInt64.ofNat (objects + 1) := by
  rw [UInt64.ofNat_add, UInt64.mul_add]
  exact congrArg _ (UInt64.mul_one size).symm

/-- The shells of both chains fit into the memory counter. -/
theorem PabufBooks.shells_small
    (books : PabufBooks pabuf out shells full empty cached) :
    full.length + empty.length < 2 ^ 33 := by
  have fullBound := books.remainBound
  have emptyBound := books.eshellBound
  have remainMax := pabuf.maxRemainCount.toNat_lt
  have eshellMax := pabuf.maxEshellCount.toNat_lt
  rw [← books.toPabufChains.length_eq] at fullBound
  omega

theorem toNat_add_shellSize {memory : UInt64} {count : Nat}
    (held : memory.toNat = 16 * count) (small : count < 2 ^ 33) :
    (memory + pabufShellSize).toNat = 16 * (count + 1) := by
  have size : pabufShellSize.toNat = 16 := rfl
  rw [UInt64.toNat_add, held, size]
  omega

theorem toNat_sub_shellSize {memory : UInt64} {count : Nat}
    (held : memory.toNat = 16 * (count + 1)) :
    (memory - pabufShellSize).toNat = 16 * count := by
  have size : pabufShellSize.toNat = 16 := rfl
  rw [UInt64.toNat_sub_of_le, held, size]
  · omega
  · rw [UInt64.le_iff_toNat_le, held, size]
    omega

/-! ## One operation -/

theorem PabufBooks.caches_iff
    (books : PabufBooks pabuf out shells full empty cached) (obj : Obj) :
    pabuf.Caches obj ↔ obj ∈ cached := by
  have objects := books.objects
  constructor
  · intro known
    obtain ⟨other, linked, shell, member, found⟩ := known
    rw [linked.unique books.fullLinked] at member
    have inside : some obj ∈ full.map fun shell => (pabuf.shells shell).obj :=
      List.mem_map.mpr ⟨shell, member, found⟩
    rw [objects] at inside
    simpa using inside
  · intro member
    have inside : some obj ∈ cached.map some := List.mem_map_of_mem member
    rw [← objects] at inside
    obtain ⟨shell, inFull, found⟩ := List.mem_map.mp inside
    exact ⟨full, books.fullLinked, shell, inFull, found⟩

/-- A fresh object is counted, and no chain changes. -/
theorem PabufBooks.get_fresh {calloc : Obj}
    (books : PabufBooks pabuf out shells full empty [])
    (unheld : calloc ∉ out) :
    PabufBooks
      { pabuf with
        memory := pabuf.memory + pabuf.objSize
        count := pabuf.count + 1 }
      (calloc :: out) (shells.diff pabuf.freedShells) full empty [] := by
  have noneFreed : pabuf.freedShells = [] := by
    unfold Pabuf.freedShells
    rw [if_neg]
    intro both
    have positive := UInt32.lt_iff_toNat_lt.mp both.1
    rw [books.remainCount] at positive
    exact Nat.lt_irrefl _ positive
  refine
    { books with
      once := ?_
      inUse := ?_
      count := ?_
      memory := ?_ }
  · have once := books.once
    rw [List.nil_append] at once ⊢
    exact List.nodup_cons.mpr ⟨unheld, once⟩
  · rw [noneFreed]
    exact books.inUse
  · rw [books.count]
    exact ofNat32_succ _
  · rw [books.memory]
    exact mul_ofNat64_succ _ _

/-- Handing out a cached object empties its shell. -/
theorem PabufBooks.get_cached {result : Pabuf Obj} {shell : Nat} {obj : Obj}
    {rest : List Nat}
    (books : PabufBooks pabuf out shells (shell :: full) empty (obj :: cached))
    (remainEq : result.remainCount = pabuf.remainCount - 1)
    (chains : PabufChains result full rest cached)
    (backed : EshellBacked pabuf result empty shell rest) :
    PabufBooks result (obj :: out) (shells.diff pabuf.freedShells) full rest
      cached := by
  have counted := books.remainCount
  have positive : 0 < pabuf.remainCount.toNat := by
    rw [counted]
    exact Nat.succ_pos _
  have word : 0 < pabuf.remainCount := UInt32.lt_iff_toNat_lt.mpr positive
  have firstEq : pabuf.first = some shell := books.fullLinked.1
  have moved : (obj :: out).length + cached.length =
      out.length + (obj :: cached).length := by
    simp only [List.length_cons]
    omega
  refine
    { chains with
      remainCount := ?_
      remainBound := ?_
      once := ?_
      inUse := ?_
      count := ?_
      memory := ?_
      shellMemory := ?_ }
  · rw [remainEq, remainCount_pred positive, counted]
    rfl
  · rw [backed.maxRemainCount]
    exact Nat.le_of_succ_le books.remainBound
  · exact (List.perm_middle.nodup_iff).mpr books.once
  · cases backed.backed with
    | inl freed =>
        have freedShells : pabuf.freedShells = [shell] := by
          unfold Pabuf.freedShells
          rw [if_pos ⟨word, freed.1⟩, firstEq]
          rfl
        rw [freedShells, List.diff_cons, List.diff_nil, freed.2.1]
        have erased := books.inUse.erase shell
        rwa [List.cons_append, List.erase_cons_head] at erased
    | inr kept =>
        have freedShells : pabuf.freedShells = [] := by
          unfold Pabuf.freedShells
          rw [if_neg]
          exact fun both => (UInt32.not_le.mpr kept.1) both.2
        rw [freedShells, List.diff_nil, kept.2.1]
        exact books.inUse.trans List.perm_middle.symm
  · rw [backed.count, books.count, moved]
  · rw [backed.memory, backed.objSize, books.memory, moved]
  · have held := books.shellMemory
    rw [List.length_cons] at held
    cases backed.backed with
    | inl freed =>
        rw [freed.2.2, freed.2.1]
        apply toNat_sub_shellSize
        rw [held]
        omega
    | inr kept =>
        rw [kept.2.2, kept.2.1, held, List.length_cons]
        omega

/-- A freed object is no longer counted. -/
theorem PabufBooks.back_freed [DecidableEq Obj] {obj : Obj}
    (books : PabufBooks pabuf out shells full empty cached) (held : obj ∈ out)
    (atCap : pabuf.maxRemainCount ≤ pabuf.remainCount) :
    PabufBooks
      { pabuf with
        memory := pabuf.memory - pabuf.objSize
        count := pabuf.count - 1 }
      (out.erase obj) (pabuf.newShells ++ shells) full empty cached := by
  have noneNew : pabuf.newShells = [] := by
    unfold Pabuf.newShells
    rw [if_neg]
    exact fun both => (UInt32.not_lt.mpr atCap) both.1
  have fewer : out.length + cached.length =
      (out.erase obj).length + cached.length + 1 := by
    have length := List.length_erase_of_mem held
    have some := List.length_pos_of_mem held
    omega
  refine
    { books with
      once := ?_
      inUse := ?_
      count := ?_
      memory := ?_ }
  · have less : (cached ++ out.erase obj).Sublist (cached ++ out) :=
      (List.erase_sublist).append_left cached
    exact books.once.sublist less
  · rw [noneNew]
    exact books.inUse
  · rw [books.count, fewer, ← ofNat32_succ]
    exact UInt32.add_sub_cancel _ _
  · rw [books.memory, fewer, ← mul_ofNat64_succ]
    exact UInt64.add_sub_cancel _ _

/-- A cached object takes an empty shell or a new one. -/
theorem PabufBooks.back_cached [DecidableEq Obj] {result : Pabuf Obj}
    {shell : Nat} {obj : Obj} {rest : List Nat}
    (books : PabufBooks pabuf out shells full empty cached) (held : obj ∈ out)
    (below : ¬ pabuf.maxRemainCount ≤ pabuf.remainCount)
    (remainEq : result.remainCount = pabuf.remainCount + 1)
    (chains : PabufChains result (shell :: full) rest (obj :: cached))
    (taken : EshellTaken pabuf result empty shell rest) :
    PabufBooks result (out.erase obj) (pabuf.newShells ++ shells)
      (shell :: full) rest (obj :: cached) := by
  have counted := remainCount_succ below
  have moved : (out.erase obj).length + (obj :: cached).length =
      out.length + cached.length := by
    have length := List.length_erase_of_mem held
    have some := List.length_pos_of_mem held
    simp only [List.length_cons]
    omega
  refine
    { chains with
      remainCount := ?_
      remainBound := ?_
      once := ?_
      inUse := ?_
      count := ?_
      memory := ?_
      shellMemory := ?_ }
  · rw [remainEq, counted.1, books.remainCount]
    rfl
  · rw [taken.maxRemainCount, List.length_cons, ← books.remainCount]
    exact counted.2
  · have whole : (obj :: cached ++ out.erase obj).Perm (cached ++ out) := by
      apply List.perm_middle.symm.trans
      exact (List.perm_cons_erase held).symm.append_left cached
    exact whole.nodup_iff.mpr books.once
  · have eshells := books.eshellCount
    cases taken.taken with
    | inl new =>
        obtain ⟨noneLeft, noRest, address, -⟩ := new
        have newShells : pabuf.newShells = [pabuf.shellBrk] := by
          unfold Pabuf.newShells
          rw [noneLeft] at eshells
          rw [if_pos ⟨UInt32.not_le.mp below, UInt32.toNat_inj.mp eshells⟩]
        rw [newShells, noRest, address]
        have inUse := books.inUse
        rw [noneLeft] at inUse
        exact inUse.cons _
    | inr reused =>
        have newShells : pabuf.newShells = [] := by
          unfold Pabuf.newShells
          rw [if_neg]
          intro both
          rw [both.2, reused.1] at eshells
          cases eshells
        rw [newShells]
        have inUse := books.inUse
        rw [reused.1] at inUse
        exact inUse.trans List.perm_middle
  · rw [taken.count, books.count, moved]
  · rw [taken.memory, taken.objSize, books.memory, moved]
  · have counter := books.shellMemory
    have small := books.shells_small
    cases taken.taken with
    | inl new =>
        obtain ⟨noneLeft, noRest, -, more⟩ := new
        rw [noneLeft] at counter small
        rw [more, noRest, toNat_add_shellSize counter small, List.length_cons]
        simp only [List.length_nil]
    | inr reused =>
        rw [reused.2, counter, reused.1, List.length_cons, List.length_cons]
        omega

/-! ## Runs -/

/-- The limits of a pool do not change, and its books stay right. -/
structure PabufKeeps (objSize : UInt64) (maxRemainCount maxEshellCount : UInt32)
    (use : PabufUse Obj) : Prop where
  limits : use.pabuf.objSize = objSize ∧
    use.pabuf.maxRemainCount = maxRemainCount ∧
    use.pabuf.maxEshellCount = maxEshellCount
  books : ∃ full empty cached,
    PabufBooks use.pabuf use.out use.shells full empty cached

theorem PabufKeeps.step [DecidableEq Obj] {before after : PabufUse Obj}
    {call : PabufCall}
    (keeps : PabufKeeps objSize maxRemainCount maxEshellCount before)
    (takes : PabufTakes before call after) :
    PabufKeeps objSize maxRemainCount maxEshellCount after := by
  obtain ⟨limits, full, empty, cached, books⟩ := keeps
  cases takes with
  | @get pabuf after out shells calloc obj unheld uncached ran =>
      cases cached with
      | nil =>
          rw [pabufGet_run books.remainCount] at ran
          cases ran
          exact ⟨limits, full, empty, [], books.get_fresh unheld⟩
      | cons first cached =>
          cases full with
          | nil => cases books.objects
          | cons shell full =>
              have positive : 0 < pabuf.remainCount.toNat := by
                rw [books.remainCount]
                exact Nat.succ_pos _
              obtain ⟨rfl, remainEq, rest, chains, backed⟩ :=
                (pabufGet_pops books.toPabufChains positive calloc).result ran
              have same : after.objSize = objSize ∧
                  after.maxRemainCount = maxRemainCount ∧
                  after.maxEshellCount = maxEshellCount := by
                rw [backed.objSize, backed.maxRemainCount,
                  backed.maxEshellCount]
                exact limits
              exact ⟨same, full, rest, cached,
                books.get_cached remainEq chains backed⟩
  | @back pabuf after out shells obj held ran =>
      by_cases atCap : pabuf.maxRemainCount ≤ pabuf.remainCount
      · rw [pabufBack_run atCap] at ran
        cases ran
        exact ⟨limits, full, empty, cached, books.back_freed held atCap⟩
      · obtain ⟨remainEq, shell, rest, chains, taken⟩ :=
          (pabufBack_pushes books.toPabufChains atCap obj).result ran
        have same : after.objSize = objSize ∧
            after.maxRemainCount = maxRemainCount ∧
            after.maxEshellCount = maxEshellCount := by
          rw [taken.objSize, taken.maxRemainCount, taken.maxEshellCount]
          exact limits
        exact ⟨same, shell :: full, rest, obj :: cached,
          books.back_cached held atCap remainEq chains taken⟩

theorem PabufRun.keeps [DecidableEq Obj]
    (run : PabufRun objSize maxRemainCount maxEshellCount pabuf out shells) :
    PabufKeeps objSize maxRemainCount maxEshellCount ⟨pabuf, out, shells⟩ := by
  obtain ⟨calls, run⟩ := run
  apply run.keeps
  · exact ⟨⟨rfl, rfl, rfl⟩, [], [], [], pabufInit3_books⟩
  · exact PabufKeeps.step

/-- What holds of a pool between two operations. -/
structure PabufInvariant (objSize : UInt64)
    (maxRemainCount maxEshellCount : UInt32) (pabuf : Pabuf Obj)
    (out : List Obj) (shells : List Nat) : Prop where
  limits : pabuf.objSize = objSize ∧ pabuf.maxRemainCount = maxRemainCount ∧
    pabuf.maxEshellCount = maxEshellCount
  chains : ∃ full empty cached,
    Linked pabuf.shellNext pabuf.first full ∧
    full.length = pabuf.remainCount.toNat ∧
    Linked pabuf.shellNext pabuf.firstEshell empty ∧
    empty.length = pabuf.eshellCount.toNat ∧
    full.map (fun shell => (pabuf.shells shell).obj) = cached.map some ∧
    (cached ++ out).Nodup ∧
    (full ++ empty).Nodup ∧ shells.Perm (full ++ empty)
  remainCap : pabuf.remainCount ≤ pabuf.maxRemainCount
  eshellCap : pabuf.eshellCount ≤ pabuf.maxEshellCount
  shellMemory : pabuf.shellMemory.toNat = pabufShellSize.toNat *
    (pabuf.remainCount.toNat + pabuf.eshellCount.toNat)
  count : pabuf.count.toNat =
    (out.length + pabuf.remainCount.toNat) % 2 ^ 32
  memory : pabuf.memory.toNat =
    pabuf.objSize.toNat * (out.length + pabuf.remainCount.toNat) % 2 ^ 64

theorem PabufBooks.invariant
    (books : PabufBooks pabuf out shells full empty cached)
    (limits : pabuf.objSize = objSize ∧ pabuf.maxRemainCount = maxRemainCount ∧
      pabuf.maxEshellCount = maxEshellCount) :
    PabufInvariant objSize maxRemainCount maxEshellCount pabuf out shells where
  limits := limits
  chains := ⟨full, empty, cached, books.fullLinked,
    books.toPabufChains.length_eq.trans books.remainCount.symm,
    books.emptyLinked, books.eshellCount.symm, books.objects, books.once,
    books.distinct, books.inUse⟩
  remainCap := by
    rw [UInt32.le_iff_toNat_le, books.remainCount]
    exact books.remainBound
  eshellCap := by
    rw [UInt32.le_iff_toNat_le, books.eshellCount]
    exact books.eshellBound
  shellMemory := by
    rw [books.shellMemory, books.remainCount, books.eshellCount,
      books.toPabufChains.length_eq]
    rfl
  count := by
    rw [books.count, books.remainCount, UInt32.toNat_ofNat']
  memory := by
    rw [books.memory, books.remainCount, UInt64.toNat_mul, UInt64.toNat_ofNat',
      Nat.mul_mod_mod]

/-- From every state of a run the next operation returns. -/
theorem PabufBooks.returns
    (books : PabufBooks pabuf out shells full empty cached) (obj : Obj) :
    (∃ value after, pabufGet obj pabuf = .ok value after) ∧
      ∃ after, pabufBack obj pabuf = .ok () after := by
  constructor
  · cases cached with
    | nil => exact ⟨_, _, pabufGet_run books.remainCount obj⟩
    | cons first cached =>
        cases full with
        | nil => cases books.objects
        | cons shell full =>
            have positive : 0 < pabuf.remainCount.toNat := by
              rw [books.remainCount]
              exact Nat.succ_pos _
            obtain ⟨value, after, ran, -⟩ :=
              pabufGet_pops books.toPabufChains positive obj
            exact ⟨value, after, ran⟩
  · by_cases atCap : pabuf.maxRemainCount ≤ pabuf.remainCount
    · exact ⟨_, pabufBack_run atCap obj⟩
    · obtain ⟨_, after, ran, -⟩ :=
        pabufBack_pushes books.toPabufChains atCap obj
      exact ⟨after, ran⟩

/-- The invariant holds in every state of every run, and no operation faults
there.  The two counters of objects are exact until they wrap. -/
theorem pabuf_invariant [DecidableEq Obj]
    (run : PabufRun objSize maxRemainCount maxEshellCount pabuf out shells) :
    PabufInvariant objSize maxRemainCount maxEshellCount pabuf out shells ∧
      (out.length + pabuf.remainCount.toNat < 2 ^ 32 →
        pabuf.count.toNat = out.length + pabuf.remainCount.toNat ∧
        pabuf.memory = pabuf.objSize * pabuf.count.toUInt64) ∧
      ∀ obj, (∃ value after, pabufGet obj pabuf = .ok value after) ∧
        ∃ after, pabufBack obj pabuf = .ok () after := by
  obtain ⟨limits, full, empty, cached, books⟩ := run.keeps
  refine ⟨books.invariant limits, ?_, books.returns⟩
  intro few
  have exact : pabuf.count.toNat = out.length + pabuf.remainCount.toNat := by
    rw [books.count, UInt32.toNat_ofNat', books.remainCount]
    rw [books.remainCount] at few
    exact Nat.mod_eq_of_lt few
  refine ⟨exact, ?_⟩
  have word : pabuf.count.toUInt64 =
      UInt64.ofNat (out.length + cached.length) := by
    rw [← UInt64.toNat_inj, UInt32.toNat_toUInt64, exact, books.remainCount,
      UInt64.toNat_ofNat']
    rw [books.remainCount] at few
    omega
  rw [word]
  exact books.memory

/-- A pool that hands out an object and takes it back. -/
theorem pabuf_invariant_returned : ∃ pabuf : Pabuf Nat,
    PabufInvariant 24 1 1 pabuf [] [0] ∧ pabuf.count.toNat = 1 := by
  have uncached : ¬ (pabufInit3 24 1 1 : Pabuf Nat).Caches 7 := by
    rw [pabufInit3_books.caches_iff]
    simp
  obtain ⟨handed, ran⟩ : ∃ handed, pabufGet 7 (pabufInit3 24 1 1) =
      .ok 7 handed := ⟨_, rfl⟩
  have first : PabufTakes ⟨pabufInit3 24 1 1, [], []⟩ .get ⟨handed, [7], []⟩ :=
    .get List.not_mem_nil uncached ran
  cases ran
  have run := (Run.nil.snoc first).snoc (.back List.mem_cons_self rfl)
  obtain ⟨invariant, exact, -⟩ := pabuf_invariant ⟨_, run⟩
  exact ⟨_, invariant, (exact (by decide)).1⟩

/-- Any number of objects can be handed out. -/
theorem PabufRun.gets (objects : Nat) :
    ∃ (pabuf : Pabuf Nat) (out : List Nat),
      PabufRun 1 0 0 pabuf out [] ∧ out.length = objects ∧
        ∀ obj ∈ out, obj < objects := by
  induction objects with
  | zero => exact ⟨_, [], ⟨[], .nil⟩, rfl, by simp⟩
  | succ objects induction =>
      obtain ⟨pabuf, out, run, length, below⟩ := induction
      obtain ⟨limits, full, empty, cached, books⟩ := run.keeps
      obtain ⟨calls, run⟩ := run
      have noneCached : cached = [] := by
        apply List.eq_nil_of_length_eq_zero
        have bound := books.remainBound
        rw [limits.2.1] at bound
        exact Nat.le_zero.mp bound
      rw [noneCached] at books
      have unheld : objects ∉ out := fun member =>
        Nat.lt_irrefl _ (below _ member)
      have uncached : ¬ pabuf.Caches objects := fun known => by
        simpa using (books.caches_iff objects).mp known
      have next := run.snoc (.get unheld uncached
        (pabufGet_run books.remainCount objects))
      rw [List.nil_diff] at next
      refine ⟨_, _, ⟨_, next⟩, congrArg (· + 1) length, ?_⟩
      intro obj member
      cases member with
      | head => exact Nat.lt_succ_self _
      | tail _ later => exact Nat.lt_succ_of_lt (below obj later)

/-- With `2 ^ 32` objects handed out `count` is zero again. -/
theorem pabuf_count_wraps :
    ¬ ∀ (pabuf : Pabuf Nat) (out : List Nat) (shells : List Nat),
      PabufRun 1 0 0 pabuf out shells →
        pabuf.count.toNat = out.length + pabuf.remainCount.toNat := by
  intro exact
  obtain ⟨pabuf, out, run, length, -⟩ := PabufRun.gets (2 ^ 32)
  obtain ⟨limits, full, empty, cached, books⟩ := run.keeps
  have invariant : PabufInvariant 1 0 0 pabuf out [] := books.invariant limits
  have counted := invariant.count
  have capped := invariant.remainCap
  rw [invariant.limits.2.1, UInt32.le_iff_toNat_le] at capped
  have claimed := exact pabuf out [] run
  have noRoom : (0 : UInt32).toNat = 0 := rfl
  omega

end KetamaRouter
