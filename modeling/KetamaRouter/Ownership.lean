import Mathlib.Data.Multiset.Filter
import KetamaRouter.PabufShape
import KetamaRouter.Source.Memory

/-!
# Ownership of pooled objects and buffers

`Holds memory owned` says that `owned` is exactly what the pools have handed
out and not got back, together with character buffers that are still live.
`Frame owned memory after` says that a step left every owned cell, and the
sockets, as they were.  Each memory operation gets one rule in these terms.
-/

namespace KetamaRouter

open FaultProgram

/-- Something that can be owned: a pooled object or a character buffer. -/
inductive Cell where
  | obj (kind : PoolKind) (ptr : Ptr)
  | text (block : Nat)
  deriving DecidableEq, Repr

/-- The object of a cell, if it came from the given pool. -/
def Cell.fromPool (buf : BufId) (kind : PoolKind) : Cell → Option Ptr
  | .obj kind' ptr => if kind' = kind ∧ ptr.buf = buf then some ptr else none
  | .text _ => none

/-- The objects that a set of cells has from one pool. -/
def fromPool (buf : BufId) (kind : PoolKind) (owned : Multiset Cell) :
    Multiset Ptr :=
  owned.filterMap (Cell.fromPool buf kind)

/-- The pool has handed out exactly `held`, and none of it is cached. -/
def PoolHolds (pool : Pool) (buf : BufId) (held : Multiset Ptr) : Prop :=
  ∃ cached : List Ptr,
    PabufCaches pool.pabuf cached ∧
    Ledger.outstanding pool.ledger = some held ∧
    (↑cached + held).Nodup ∧
    ∀ obj ∈ (↑cached + held : Multiset Ptr),
      obj.buf = buf ∧ obj.idx < pool.objBrk

structure Holds (memory : Memory) (owned : Multiset Cell) : Prop where
  distinct : owned.Nodup
  pools : ∀ buf kind,
    PoolHolds (memory.pool buf kind) buf (fromPool buf kind owned)
  texts : ∀ block, .text block ∈ owned →
    block < memory.textBrk ∧ memory.text block ≠ none

variable {memory : Memory} {owned : Multiset Cell} {buf : BufId}
  {kind : PoolKind}

@[simp] theorem fromPool_zero : fromPool buf kind 0 = 0 :=
  rfl

@[simp] theorem fromPool_add (left right : Multiset Cell) :
    fromPool buf kind (left + right) =
      fromPool buf kind left + fromPool buf kind right :=
  Multiset.filterMap_add _ left right

@[simp] theorem fromPool_cons_text (block : Nat) :
    fromPool buf kind (.text block ::ₘ owned) = fromPool buf kind owned :=
  Multiset.filterMap_cons_none _ _ rfl

theorem fromPool_cons_same {ptr : Ptr} (home : ptr.buf = buf) :
    fromPool buf kind (.obj kind ptr ::ₘ owned) =
      ptr ::ₘ fromPool buf kind owned :=
  Multiset.filterMap_cons_some _ _ _ (by simp [Cell.fromPool, home])

theorem fromPool_cons_other {kind' : PoolKind} {ptr : Ptr}
    (different : ¬ (kind' = kind ∧ ptr.buf = buf)) :
    fromPool buf kind (.obj kind' ptr ::ₘ owned) = fromPool buf kind owned :=
  Multiset.filterMap_cons_none _ _ (by simp [Cell.fromPool, different])

theorem mem_fromPool {ptr : Ptr} :
    ptr ∈ fromPool buf kind owned ↔ .obj kind ptr ∈ owned ∧ ptr.buf = buf := by
  simp only [fromPool, Multiset.mem_filterMap]
  constructor
  · rintro ⟨cell, member, found⟩
    cases cell with
    | obj kind' ptr' =>
        simp only [Cell.fromPool, Option.ite_none_right_eq_some,
          Option.some.injEq] at found
        obtain ⟨⟨rfl, home⟩, rfl⟩ := found
        exact ⟨member, home⟩
    | text block => simp [Cell.fromPool] at found
  · rintro ⟨member, home⟩
    exact ⟨_, member, by simp [Cell.fromPool, home]⟩

structure Frame (owned : Multiset Cell) (memory after : Memory) : Prop where
  msg : ∀ ptr, .obj .msg ptr ∈ owned → after.msg ptr = memory.msg ptr
  cmd : ∀ ptr, .obj .cmd ptr ∈ owned → after.cmd ptr = memory.cmd ptr
  param : ∀ ptr, .obj .param ptr ∈ owned → after.param ptr = memory.param ptr
  paramKv : ∀ ptr, .obj .paramKv ptr ∈ owned →
    after.paramKv ptr = memory.paramKv ptr
  str : ∀ ptr, .obj .str ptr ∈ owned → after.str ptr = memory.str ptr
  text : ∀ block, .text block ∈ owned → after.text block = memory.text block
  socket : after.socket = memory.socket

namespace Frame

variable {owned larger : Multiset Cell} {memory middle after : Memory}

theorem refl (owned : Multiset Cell) (memory : Memory) :
    Frame owned memory memory := by
  constructor <;> intros <;> rfl

theorem trans (first : Frame owned memory middle)
    (second : Frame owned middle after) : Frame owned memory after where
  msg ptr member := (second.msg ptr member).trans (first.msg ptr member)
  cmd ptr member := (second.cmd ptr member).trans (first.cmd ptr member)
  param ptr member := (second.param ptr member).trans (first.param ptr member)
  paramKv ptr member :=
    (second.paramKv ptr member).trans (first.paramKv ptr member)
  str ptr member := (second.str ptr member).trans (first.str ptr member)
  text block member := (second.text block member).trans (first.text block member)
  socket := second.socket.trans first.socket

theorem mono (frame : Frame larger memory after)
    (sub : ∀ cell ∈ owned, cell ∈ larger) : Frame owned memory after where
  msg ptr member := frame.msg ptr (sub _ member)
  cmd ptr member := frame.cmd ptr (sub _ member)
  param ptr member := frame.param ptr (sub _ member)
  paramKv ptr member := frame.paramKv ptr (sub _ member)
  str ptr member := frame.str ptr (sub _ member)
  text block member := frame.text block (sub _ member)
  socket := frame.socket

/-- A step that only touches `cell` and what nobody owns, after which the
frame owns `cell` too. -/
theorem tail {cell : Cell} (frame : Frame (cell ::ₘ owned) memory after) :
    Frame owned memory after :=
  frame.mono fun _ member => Multiset.mem_cons_of_mem member

theorem setMsg {msg : Ptr} (outside : .obj .msg msg ∉ owned)
    (change : Msg → Msg) : Frame owned memory (memory.setMsg msg change) :=
  { refl owned memory with
    msg := fun ptr member => by
      have different : ptr ≠ msg := fun same => outside (same ▸ member)
      simp [Memory.setMsg, different] }

theorem setCmd {cmd : Ptr} (outside : .obj .cmd cmd ∉ owned)
    (change : Cmd → Cmd) : Frame owned memory (memory.setCmd cmd change) :=
  { refl owned memory with
    cmd := fun ptr member => by
      have different : ptr ≠ cmd := fun same => outside (same ▸ member)
      simp [Memory.setCmd, different] }

theorem setParam {param : Ptr} (outside : .obj .param param ∉ owned)
    (change : Param → Param) :
    Frame owned memory (memory.setParam param change) :=
  { refl owned memory with
    param := fun ptr member => by
      have different : ptr ≠ param := fun same => outside (same ▸ member)
      simp [Memory.setParam, different] }

theorem setParamKv {kv : Ptr} (outside : .obj .paramKv kv ∉ owned)
    (change : ParamKv → ParamKv) :
    Frame owned memory (memory.setParamKv kv change) :=
  { refl owned memory with
    paramKv := fun ptr member => by
      have different : ptr ≠ kv := fun same => outside (same ▸ member)
      simp [Memory.setParamKv, different] }

theorem setStr {str : Ptr} (outside : .obj .str str ∉ owned)
    (change : Str → Str) : Frame owned memory (memory.setStr str change) :=
  { refl owned memory with
    str := fun ptr member => by
      have different : ptr ≠ str := fun same => outside (same ▸ member)
      simp [Memory.setStr, different] }

theorem setPool (buf : BufId) (kind : PoolKind) (pool : Pool) :
    Frame owned memory (memory.setPool buf kind pool) :=
  { refl owned memory with }

theorem setText {block : Nat} (outside : .text block ∉ owned)
    (contents : Option Bytes) :
    Frame owned memory (memory.setText block contents) :=
  { refl owned memory with
    text := fun other member => by
      have different : other ≠ block := fun same => outside (same ▸ member)
      simp [Memory.setText, different] }

/-- Zeroing a fresh object. -/
theorem zero {kind : PoolKind} {obj : Ptr} (outside : .obj kind obj ∉ owned) :
    Frame owned memory (memory.zero kind obj) := by
  cases kind <;> unfold Memory.zero
  case msg => exact setMsg outside _
  case str => exact setStr outside _
  case cmd => exact setCmd outside _
  case param => exact setParam outside _
  case paramKv => exact setParamKv outside _

end Frame

namespace Memory

@[simp] theorem setMsg_msg_self (msg : Ptr) (change : Msg → Msg) :
    (memory.setMsg msg change).msg msg = change (memory.msg msg) := by
  simp [setMsg]

@[simp] theorem setMsg_cmd (msg : Ptr) (change : Msg → Msg) :
    (memory.setMsg msg change).cmd = memory.cmd :=
  rfl

@[simp] theorem setMsg_param (msg : Ptr) (change : Msg → Msg) :
    (memory.setMsg msg change).param = memory.param :=
  rfl

@[simp] theorem setParam_msg (param : Ptr) (change : Param → Param) :
    (memory.setParam param change).msg = memory.msg :=
  rfl

@[simp] theorem setParam_param_self (param : Ptr) (change : Param → Param) :
    (memory.setParam param change).param param =
      change (memory.param param) := by
  simp [setParam]

theorem setParam_param_of_ne {param other : Ptr} (change : Param → Param)
    (different : other ≠ param) :
    (memory.setParam param change).param other = memory.param other := by
  simp [setParam, different]

@[simp] theorem setPool_pool_self (pool : Pool) :
    (memory.setPool buf kind pool).pool buf kind = pool := by
  simp [setPool]

theorem setPool_pool_of_ne {buf' : BufId} {kind' : PoolKind} (pool : Pool)
    (different : ¬ (kind = kind' ∧ buf = buf')) :
    (memory.setPool buf kind pool).pool buf' kind' = memory.pool buf' kind' := by
  by_cases sameBuf : buf' = buf
  · subst sameBuf
    have differentKind : kind' ≠ kind := fun same =>
      different ⟨same.symm, rfl⟩
    simp [setPool, differentKind]
  · simp [setPool, sameBuf]

@[simp] theorem setPool_setPool (first second : Pool) :
    (memory.setPool buf kind first).setPool buf kind second =
      memory.setPool buf kind second := by
  simp [setPool]

@[simp] theorem zero_pool (obj : Ptr) :
    (memory.zero kind obj).pool = memory.pool := by
  cases kind <;> rfl

@[simp] theorem zero_text (obj : Ptr) :
    (memory.zero kind obj).text = memory.text := by
  cases kind <;> rfl

@[simp] theorem zero_textBrk (obj : Ptr) :
    (memory.zero kind obj).textBrk = memory.textBrk := by
  cases kind <;> rfl

end Memory

namespace Holds

/-- Ownership is read off the pools and the live buffers only. -/
theorem congr {after : Memory} (holds : Holds memory owned)
    (pool : after.pool = memory.pool) (text : after.text = memory.text)
    (textBrk : after.textBrk = memory.textBrk) : Holds after owned where
  distinct := holds.distinct
  pools buf kind := by rw [pool]; exact holds.pools buf kind
  texts block member := by rw [text, textBrk]; exact holds.texts block member

/-- Whoever owns a buffer may forget it, and then it is never freed. -/
theorem forgetText {block : Nat} (holds : Holds memory (.text block ::ₘ owned)) :
    Holds memory owned where
  distinct := (Multiset.nodup_cons.mp holds.distinct).2
  pools buf kind := by
    have pools := holds.pools buf kind
    rw [fromPool_cons_text] at pools
    exact pools
  texts other member := holds.texts other (Multiset.mem_cons_of_mem member)

/-- Replacing one pool adjusts the ownership of that pool's objects. -/
theorem setPool {after : Multiset Cell} {pool : Pool}
    (holds : Holds memory owned)
    (distinct : after.Nodup)
    (now : PoolHolds pool buf (fromPool buf kind after))
    (others : ∀ buf' kind', ¬ (kind = kind' ∧ buf = buf') →
      fromPool buf' kind' after = fromPool buf' kind' owned)
    (texts : ∀ block, .text block ∈ after → .text block ∈ owned) :
    Holds (memory.setPool buf kind pool) after where
  distinct := distinct
  pools buf' kind' := by
    by_cases same : kind = kind' ∧ buf = buf'
    · obtain ⟨rfl, rfl⟩ := same
      rw [Memory.setPool_pool_self]
      exact now
    · rw [Memory.setPool_pool_of_ne pool same, others buf' kind' same]
      exact holds.pools buf' kind'
  texts block member := holds.texts block (texts block member)

end Holds

/-- The ledger and the cache after the pool hands out `obj`. -/
theorem PoolHolds.take {pool : Pool} {held : Multiset Ptr} {obj : Ptr}
    {cached : List Ptr} {pabuf : Pabuf Ptr} {objBrk : Nat}
    (ledger : Ledger.outstanding pool.ledger = some held)
    (caches : PabufCaches pabuf cached)
    (distinct : (↑(obj :: cached) + held).Nodup)
    (allocated : ∀ other ∈ (↑(obj :: cached) + held : Multiset Ptr),
      other.buf = buf ∧ other.idx < objBrk) :
    PoolHolds
      { pabuf := pabuf, objBrk := objBrk, ledger := .taken obj :: pool.ledger }
      buf (obj ::ₘ held) := by
  have moved : (↑(obj :: cached) + held : Multiset Ptr) =
      ↑cached + obj ::ₘ held := by
    rw [← Multiset.cons_coe, Multiset.cons_add, Multiset.add_cons]
  rw [moved] at distinct allocated
  refine ⟨cached, caches, Ledger.outstanding_taken ledger ?_, distinct,
    allocated⟩
  exact (Multiset.nodup_cons.mp
    (Multiset.nodup_of_le (Multiset.le_add_left _ _) distinct)).1

theorem Holds.cons_obj {pool : Pool} {obj : Ptr}
    (holds : Holds memory owned) (home : obj.buf = buf)
    (now : PoolHolds pool buf (obj ::ₘ fromPool buf kind owned)) :
    .obj kind obj ∉ owned ∧
      Holds (memory.setPool buf kind pool) (.obj kind obj ::ₘ owned) := by
  have outside : .obj kind obj ∉ owned := by
    obtain ⟨cached, -, ledger, -⟩ := now
    have distinct := Ledger.outstanding_nodup ledger
    intro member
    exact (Multiset.nodup_cons.mp distinct).1
      (mem_fromPool.mpr ⟨member, home⟩)
  refine ⟨outside, holds.setPool (Multiset.nodup_cons.mpr
    ⟨outside, holds.distinct⟩) ?_ ?_ ?_⟩
  · rw [fromPool_cons_same home]
    exact now
  · intro buf' kind' different
    exact fromPool_cons_other (home ▸ different)
  · intro block member
    simpa using member

/-- `pabuf_get` hands out an object nobody owns. -/
theorem poolGet_spec (holds : Holds memory owned) (buf : BufId)
    (kind : PoolKind) :
    Yields (poolGet buf kind) memory fun obj after =>
      obj.buf = buf ∧ .obj kind obj ∉ owned ∧
        Holds after (.obj kind obj ::ₘ owned) ∧ Frame owned memory after := by
  obtain ⟨cached, caches, ledger, distinct, allocated⟩ := holds.pools buf kind
  unfold poolGet
  refine Yields.get_bind ?_
  cases cached with
  | nil =>
      refine Yields.bind (Yields.focus (pabufGet_allocates caches _)) ?_
      intro obj _ outcome
      rcases outcome with ⟨pabuf, rfl, rfl, cachesAfter⟩
      refine Yields.modify_bind ?_
      simp only [if_true]
      have fresh : (⟨buf, (memory.pool buf kind).objBrk⟩ : Ptr) ∉
          fromPool buf kind owned := fun member =>
        Nat.lt_irrefl _ (allocated _ (by simpa using member)).2
      have now := PoolHolds.take ledger cachesAfter
        (by
          simp only [Multiset.coe_singleton, Multiset.singleton_add]
          exact Multiset.nodup_cons.mpr ⟨fresh, by simpa using distinct⟩)
        (by
          intro other member
          simp only [Multiset.coe_singleton, Multiset.singleton_add,
            Multiset.mem_cons] at member
          rcases member with rfl | member
          · exact ⟨rfl, Nat.lt_succ_self _⟩
          · have old := allocated other (by simpa using member)
            exact ⟨old.1, Nat.lt_succ_of_lt old.2⟩)
      obtain ⟨outside, holdsAfter⟩ := holds.cons_obj rfl now
      refine Yields.modify_bind (Yields.pure ⟨rfl, outside, ?_, ?_⟩)
      · refine holdsAfter.congr ?_ ?_ ?_ <;> simp [Memory.setPool]
      · refine Frame.trans ?_ (Frame.zero outside)
        simp only [Memory.setPool_setPool]
        exact Frame.setPool _ _ _
  | cons obj cached =>
      refine Yields.bind (Yields.focus (pabufGet_reuses caches _)) ?_
      intro obj _ outcome
      rcases outcome with ⟨pabuf, rfl, rfl, cachesAfter⟩
      refine Yields.modify_bind ?_
      have old := allocated obj (by simp)
      have notFresh : obj ≠ ⟨buf, (memory.pool buf kind).objBrk⟩ := by
        rintro rfl
        exact Nat.lt_irrefl _ old.2
      have now := PoolHolds.take ledger cachesAfter distinct allocated
      obtain ⟨outside, holdsAfter⟩ := holds.cons_obj old.1 now
      simp only [notFresh, if_false, Memory.setPool_setPool,
        Memory.setPool_pool_self]
      exact Yields.pure ⟨old.1, outside, holdsAfter, Frame.setPool _ _ _⟩

/-- `pabuf_back` of an owned object gives up exactly that object. -/
theorem poolBack_spec {obj : Ptr}
    (holds : Holds memory (.obj kind obj ::ₘ owned)) (home : obj.buf = buf) :
    Yields (poolBack buf kind obj) memory fun _ after =>
      Holds after owned ∧ Frame owned memory after := by
  obtain ⟨cached, caches, ledger, distinct, allocated⟩ := holds.pools buf kind
  rw [fromPool_cons_same home] at ledger distinct allocated
  unfold poolBack
  refine Yields.bind (Yields.focus (pabufBack_spec caches obj)) ?_
  intro _ _ outcome
  rcases outcome with ⟨pabuf, rfl, cachesAfter⟩
  refine Yields.modify ?_
  simp only [Memory.setPool_setPool, Memory.setPool_pool_self]
  refine ⟨holds.setPool (Multiset.nodup_cons.mp holds.distinct).2 ?_ ?_ ?_,
    Frame.setPool _ _ _⟩
  · rw [Multiset.add_cons] at distinct allocated
    rcases cachesAfter with freed | kept
    · exact ⟨cached, freed, Ledger.outstanding_returned ledger,
        (Multiset.nodup_cons.mp distinct).2,
        fun other member => allocated other (Multiset.mem_cons_of_mem member)⟩
    · refine ⟨obj :: cached, kept, Ledger.outstanding_returned ledger, ?_, ?_⟩
      · rw [← Multiset.cons_coe, Multiset.cons_add]
        exact distinct
      · rw [← Multiset.cons_coe, Multiset.cons_add]
        exact allocated
  · intro buf' kind' different
    exact (fromPool_cons_other (home ▸ different)).symm
  · intro block member
    exact Multiset.mem_cons_of_mem member

/-- A new buffer belongs to whoever allocated it. -/
theorem mallocText_spec (holds : Holds memory owned) (contents : Bytes) :
    Yields (mallocText contents) memory fun block after =>
      .text block ∉ owned ∧ Holds after (.text block ::ₘ owned) ∧
        Frame owned memory after ∧ after.text block = some contents := by
  have outside : .text memory.textBrk ∉ owned := fun member =>
    Nat.lt_irrefl _ (holds.texts _ member).1
  unfold mallocText
  refine Yields.get_bind (Yields.set_bind (Yields.pure ⟨outside, ?_, ?_, ?_⟩))
  · refine ⟨Multiset.nodup_cons.mpr ⟨outside, holds.distinct⟩, ?_, ?_⟩
    · intro buf kind
      rw [fromPool_cons_text]
      exact holds.pools buf kind
    · intro block member
      rcases Multiset.mem_cons.mp member with same | member
      · cases same
        exact ⟨Nat.lt_succ_self _, by simp [Memory.setText]⟩
      · have different : block ≠ memory.textBrk := by
          rintro rfl
          exact outside member
        have old := holds.texts block member
        exact ⟨Nat.lt_succ_of_lt old.1,
          by simp [Memory.setText, different, old.2]⟩
  · have frame : Frame owned memory
        (memory.setText memory.textBrk (some contents)) :=
      Frame.setText outside (some contents)
    exact { frame with }
  · simp [Memory.setText]

/-- `free` of an owned buffer. -/
theorem freeText_spec {block : Nat}
    (holds : Holds memory (.text block ::ₘ owned)) :
    Yields (freeText (some block)) memory fun _ after =>
      Holds after owned ∧ Frame owned memory after := by
  obtain ⟨outside, distinct⟩ := Multiset.nodup_cons.mp holds.distinct
  obtain ⟨contents, live⟩ := Option.ne_none_iff_exists'.mp
    (holds.texts block (Multiset.mem_cons_self _ _)).2
  unfold freeText
  refine Yields.get_bind ?_
  simp only [live]
  refine Yields.set ⟨⟨distinct, ?_, ?_⟩, Frame.setText outside none⟩
  · intro buf kind
    have pools := holds.pools buf kind
    rw [fromPool_cons_text] at pools
    exact pools
  · intro other member
    have different : other ≠ block := by
      rintro rfl
      exact outside member
    have old := holds.texts other (Multiset.mem_cons_of_mem member)
    exact ⟨old.1, by simp [Memory.setText, different, old.2]⟩

theorem readCStr_run {block off : Nat} {contents : Bytes}
    (text : memory.text block = some contents) :
    readCStr ⟨block, off⟩ memory = .ok (cStr (contents.drop off)) memory := by
  unfold readCStr readText
  rw [bind_run_ok]
  · rfl
  · rw [bind_run_ok (get_run memory)]
    simp only [text]
    rfl

end KetamaRouter
