import Mathlib.Data.List.Infix
import KetamaRouter.Library.Clamped
import KetamaRouter.PoolInvariant

/-!
# How many objects a pool keeps

A pool allocates when nothing is cached, and frees what comes back to a full
cache.  So it keeps as many objects as were handed out at once at some time,
unless more of them came back since than the cache may hold.
-/

namespace KetamaRouter

open LabelledRun Clamped FaultProgram

variable {Obj : Type}

/-- How many objects are out after these calls. -/
def outAfter (calls : List PabufCall) : Nat :=
  calls.count .get - calls.count .back

/-- How many objects are out at the start and after each call. -/
def outLevels (calls : List PabufCall) : List Nat :=
  calls.inits.map outAfter

variable {calls : List PabufCall} {use : PabufUse Obj}
  {objSize : UInt64} {maxRemainCount maxEshellCount : UInt32}

theorem outLevels_snoc (calls : List PabufCall) (call : PabufCall) :
    outLevels (calls ++ [call]) =
      outLevels calls ++ [outAfter (calls ++ [call])] := by
  simp [outLevels, List.inits_append]

theorem outLevels_eq_cons (calls : List PabufCall) :
    ∃ later, outLevels calls = 0 :: later := by
  cases calls with
  | nil => exact ⟨[], rfl⟩
  | cons call calls =>
      exact ⟨_, by rw [outLevels, List.inits_cons, List.map_cons]; rfl⟩

/-! ## One call -/

/-- What a call does to the numbers of objects out and cached. -/
structure PabufMoves (call : PabufCall) (before after : PabufUse Obj) :
    Prop where
  limit : after.pabuf.maxRemainCount = before.pabuf.maxRemainCount
  moves : match call with
    | .get => after.out.length = before.out.length + 1 ∧
        after.pabuf.remainCount.toNat = before.pabuf.remainCount.toNat - 1
    | .back => before.out.length = after.out.length + 1 ∧
        after.pabuf.remainCount.toNat = min before.pabuf.maxRemainCount.toNat
          (before.pabuf.remainCount.toNat + 1)

variable {before after : PabufUse Obj} {call : PabufCall}
  {full empty : List Nat} {cached : List Obj}

/-- How many objects there are. -/
def PabufUse.objects (use : PabufUse Obj) : Nat :=
  use.out.length + use.pabuf.remainCount.toNat

/-- The number of objects stays where it is, if what is out and the cache allow
that. -/
theorem PabufMoves.objects (moves : PabufMoves call before after)
    (bound : before.pabuf.remainCount.toNat ≤
      before.pabuf.maxRemainCount.toNat) :
    after.objects = clamp (fun level => level)
      (fun level => level + before.pabuf.maxRemainCount.toNat) before.objects
      after.out.length := by
  have counts := moves.moves
  unfold PabufUse.objects clamp
  cases call with
  | get =>
      dsimp only at counts ⊢
      omega
  | back =>
      dsimp only at counts ⊢
      omega

variable [DecidableEq Obj]

theorem PabufTakes.moves (takes : PabufTakes before call after)
    (books : PabufBooks before.pabuf before.out before.shells full empty
      cached) :
    PabufMoves call before after := by
  cases takes with
  | @get pabuf after out shells calloc obj unheld uncached ran =>
      cases cached with
      | nil =>
          have none : pabuf.remainCount.toNat = 0 := books.remainCount
          rw [pabufGet_run none] at ran
          cases ran
          exact ⟨rfl, rfl, by rw [none]⟩
      | cons first cached =>
          cases full with
          | nil => cases books.objects
          | cons shell full =>
              have positive : 0 < pabuf.remainCount.toNat := by
                rw [books.remainCount]
                exact Nat.succ_pos _
              obtain ⟨-, remainEq, rest, -, backed⟩ :=
                (pabufGet_pops books.toPabufChains positive calloc).result ran
              refine ⟨backed.maxRemainCount, rfl, ?_⟩
              rw [remainEq]
              exact remainCount_pred positive
  | @back pabuf after out shells obj held ran =>
      have fewer : out.length = (out.erase obj).length + 1 := by
        have length := List.length_erase_of_mem held
        have some := List.length_pos_of_mem held
        omega
      by_cases atCap : pabuf.maxRemainCount ≤ pabuf.remainCount
      · rw [pabufBack_run atCap] at ran
        cases ran
        refine ⟨rfl, fewer, ?_⟩
        have bound := books.remainBound
        rw [← books.remainCount] at bound
        have same := Nat.le_antisymm bound (UInt32.le_iff_toNat_le.mp atCap)
        exact same.trans
          (Nat.min_eq_left (Nat.le_succ_of_le (Nat.le_of_eq same.symm))).symm
      · obtain ⟨remainEq, shell, rest, -, taken⟩ :=
          (pabufBack_pushes books.toPabufChains atCap obj).result ran
        have counted := remainCount_succ atCap
        refine ⟨taken.maxRemainCount, fewer, ?_⟩
        rw [remainEq, counted.1]
        exact (Nat.min_eq_right counted.2).symm

/-! ## Runs -/

/-- What the calls say of a pool. -/
structure PabufCalled (objSize : UInt64)
    (maxRemainCount maxEshellCount : UInt32) (calls : List PabufCall)
    (use : PabufUse Obj) : Prop where
  keeps : PabufKeeps objSize maxRemainCount maxEshellCount use
  out : calls.count .get = use.out.length + calls.count .back
  objects : use.objects = track (fun level => level)
    (fun level => level + maxRemainCount.toNat) 0 (outLevels calls)

theorem PabufCalled.outAfter
    (called : PabufCalled objSize maxRemainCount maxEshellCount calls use) :
    outAfter calls = use.out.length := by
  have out := called.out
  unfold KetamaRouter.outAfter
  omega

theorem pabufInit3_called :
    PabufCalled objSize maxRemainCount maxEshellCount []
      (⟨pabufInit3 objSize maxRemainCount maxEshellCount, [], []⟩ :
        PabufUse Obj) where
  keeps := ⟨⟨rfl, rfl, rfl⟩, [], [], [], pabufInit3_books⟩
  out := rfl
  objects := rfl

theorem PabufCalled.step
    (called : PabufCalled objSize maxRemainCount maxEshellCount calls before)
    (takes : PabufTakes before call after) :
    PabufCalled objSize maxRemainCount maxEshellCount (calls ++ [call])
      after := by
  obtain ⟨limits, full, empty, cached, books⟩ := called.keeps
  have moves := takes.moves books
  have bound := books.remainBound
  rw [← books.remainCount] at bound
  have out : (calls ++ [call]).count .get =
      after.out.length + (calls ++ [call]).count .back := by
    have counts := moves.moves
    have earlier := called.out
    rw [List.count_append, List.count_append]
    cases call with
    | get =>
        dsimp only at counts
        simp
        omega
    | back =>
        dsimp only at counts
        simp
        omega
  refine ⟨called.keeps.step takes, out, ?_⟩
  have level : KetamaRouter.outAfter (calls ++ [call]) = after.out.length := by
    unfold KetamaRouter.outAfter
    omega
  rw [outLevels_snoc, track_snoc, ← called.objects, level, moves.objects bound,
    limits.2.1]

theorem pabufCalled_of_run
    (run : Run PabufTakes
      ⟨pabufInit3 objSize maxRemainCount maxEshellCount, [], []⟩ calls use) :
    PabufCalled objSize maxRemainCount maxEshellCount calls use := by
  induction run with
  | nil => exact pabufInit3_called
  | snoc run takes induction => exact induction.step takes

/-- There are as many objects as were out at once at some time, if never since
then more of these were back than the cache may hold. -/
theorem pabuf_highWater
    (run : Run PabufTakes
      ⟨pabufInit3 objSize maxRemainCount maxEshellCount, [], []⟩ calls use) :
    use.out.length = outAfter calls ∧
      use.pabuf.count = UInt32.ofNat use.objects ∧
      use.pabuf.memory = objSize * UInt64.ofNat use.objects ∧
      ∀ objects, objects ≤ use.objects ↔
        ∃ before level after, outLevels calls = before ++ level :: after ∧
          objects ≤ level ∧
          ∀ later ∈ after, objects ≤ later + maxRemainCount.toNat := by
  have called := pabufCalled_of_run run
  obtain ⟨limits, full, empty, cached, books⟩ := called.keeps
  refine ⟨called.outAfter.symm, ?_, ?_, ?_⟩
  · rw [PabufUse.objects, books.remainCount]
    exact books.count
  · rw [PabufUse.objects, books.remainCount, ← limits.1]
    exact books.memory
  · intro objects
    obtain ⟨later, starts⟩ := outLevels_eq_cons calls
    rw [called.objects, starts]
    exact le_track_iff_pushed (Nat.le_refl 0)

/-- An object that came back is still there. -/
theorem pabuf_highWater_returned : ∃ use : PabufUse Nat,
    Run PabufTakes ⟨pabufInit3 24 1 1, [], []⟩ [.get, .back] use ∧
      use.out = [] ∧ 1 ≤ use.objects := by
  have uncached : ¬ (pabufInit3 24 1 1 : Pabuf Nat).Caches 7 := by
    rw [pabufInit3_books.caches_iff]
    exact List.not_mem_nil
  obtain ⟨handed, ran⟩ : ∃ handed, pabufGet 7 (pabufInit3 24 1 1) =
      .ok 7 handed := ⟨_, rfl⟩
  have first : PabufTakes ⟨pabufInit3 24 1 1, [], []⟩ .get ⟨handed, [7], []⟩ :=
    .get List.not_mem_nil uncached ran
  cases ran
  have run := (Run.nil.snoc first).snoc (.back List.mem_cons_self rfl)
  refine ⟨_, run, rfl, ((pabuf_highWater run).2.2.2 1).mpr ?_⟩
  exact ⟨[0], 1, [0], rfl, Nat.le_refl 1, by simp⟩

end KetamaRouter
