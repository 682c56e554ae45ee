import KetamaRouter.System

/-!
# The representation invariant of a message

The fields of a `msg_t` agree with one another after any calls of `decoder_run`
and `msg_clean`, whatever the rows.  The shape of the message carries the
invariant: each call moves the message to another shape.
-/

namespace KetamaRouter

open PointerChain FaultProgram

variable {memory : Memory} {owned : Multiset Cell} {buf : BufId}

/-- What the owner of a message does with it. -/
inductive MessageCall where
  | decode (row : Bytes)
  | clean
  deriving DecidableEq, Repr

def MessageCall.run (msg : Ptr) : MessageCall → MemProgram Unit
  | .decode text => do
      let row ← mallocText text
      let _ ← decoderRun msg row
  | .clean => msgClean msg

def driveMessage (msg : Ptr) : List MessageCall → MemProgram Unit
  | [] => pure ()
  | call :: calls => do
      call.run msg
      driveMessage msg calls

/-- The counter, both ends of the chain and the status agree with the command
and the parameters that are linked. -/
structure Represented (memory : Memory) (msg : Ptr) : Prop where
  chain : ∃ params : List Ptr,
    Linked memory.paramNext (memory.msg msg).paramFirst params ∧
    params.length = (memory.msg msg).paramCount.toNat ∧
    (memory.msg msg).paramFirst = params.head? ∧
    (memory.msg msg).paramLast = params.getLast?
  noCommand : (memory.msg msg).cmd = none → (memory.msg msg).paramCount = 0
  none : (memory.msg msg).stat = .none ↔ (memory.msg msg).cmd = none
  dataMore : (memory.msg msg).stat = .dataMore ↔
    ∃ cmd, (memory.msg msg).cmd = some cmd ∧
      (memory.msg msg).paramCount < (memory.cmd cmd).paramCount
  done : (memory.msg msg).stat = .done ↔
    ∃ cmd, (memory.msg msg).cmd = some cmd ∧
      (memory.msg msg).paramCount = (memory.cmd cmd).paramCount

/-- The counter of a shape does not wrap. -/
theorem MsgShape.count_toNat (shape : MsgShape) :
    (UInt16.ofNat shape.params.length).toNat = shape.params.length := by
  have small : shape.params.length < 65536 :=
    shape.fits.trans_lt (declaredCount_lt shape.cmd)
  rw [UInt16.toNat_ofNat']
  omega

theorem MsgAt.represented {shape : MsgShape} (msgAt : MsgAt memory shape) :
    Represented memory shape.obj := by
  have header := msgAt.header
  have count := shape.count_toNat
  have fits := shape.fits
  have chain : ∃ params : List Ptr,
      Linked memory.paramNext (memory.msg shape.obj).paramFirst params ∧
      params.length = (memory.msg shape.obj).paramCount.toNat ∧
      (memory.msg shape.obj).paramFirst = params.head? ∧
      (memory.msg shape.obj).paramLast = params.getLast? := by
    rw [header]
    refine ⟨shape.params.map ParamShape.obj, msgAt.linked, ?_, rfl, rfl⟩
    rw [List.length_map, count]
  cases found : shape.cmd with
  | none =>
      have noParams : shape.params.length = 0 := by
        rw [found] at fits
        exact Nat.le_zero.mp fits
      refine ⟨chain, ?_, ?_, ?_, ?_⟩
      · intro _
        rw [header, noParams]
        rfl
      all_goals simp [header, MsgShape.stat, found]
  | some cmd =>
      have cmdAt := (msgAt.cmd cmd found).obj
      rw [found] at fits
      change shape.params.length ≤ cmd.count.toNat at fits
      refine ⟨chain, ?_, ?_, ?_, ?_⟩
      · intro missing
        rw [header, found] at missing
        cases missing
      · rw [header, found]
        simp only [MsgShape.stat, found, Option.map_some, reduceCtorEq, iff_false]
        split <;> simp
      · simp [header, found, cmdAt, MsgShape.stat, UInt16.lt_iff_toNat_lt, count]
      · simp only [header, found, Option.map_some, Option.some.injEq,
          exists_eq_left', cmdAt, MsgShape.stat, ite_eq_right_iff, reduceCtorEq,
          imp_false, Nat.not_lt, ← UInt16.toNat_inj, count]
        omega

/-! ## One call -/

/-- A complete message takes no further rows. -/
theorem decoderRun_done {shape : MsgShape} (msgAt : MsgAt memory shape)
    (complete : shape.stat = .done) (row : Nat) :
    decoderRun shape.obj row memory = .ok .ok memory := by
  unfold decoderRun
  rw [bind_run_ok (msgGetStat_run msgAt), complete]
  rfl

/-- Whatever the row, the message has a shape afterwards, and an error leaves
the memory alone. -/
theorem decoderRun_shape {shape : MsgShape} {row : Nat} {line : Bytes}
    (text : memory.text row = some line) (msgAt : MsgAt memory shape)
    (holds : Holds memory (.text row ::ₘ (shape.cells + owned))) :
    Yields (decoderRun shape.obj row) memory fun res after =>
      (res ≠ .ok → after = memory) ∧
        ∃ next : MsgShape, next.obj = shape.obj ∧ MsgAt after next ∧
          Holds after (next.cells + owned) := by
  by_cases complete : shape.stat = .done
  · refine ⟨_, _, decoderRun_done msgAt complete row, fun _ => rfl, shape, rfl,
      msgAt, holds.forgetText⟩
  · cases accepted : shape.reader.accept (cStr line) with
    | none =>
        refine ⟨_, _, decoderRun_rejects text msgAt complete accepted,
          fun _ => rfl, shape, rfl, msgAt, holds.forgetText⟩
    | some request =>
        obtain ⟨name, count, params⟩ := request
        apply (decoderRun_accepts text msgAt complete holds accepted).mono
        intro res after taken
        obtain ⟨next, ok, sameObj, -, -, msgAfter, holdsAfter, -⟩ := taken
        exact ⟨fun failed => absurd ok failed, next, sameObj, msgAfter,
          holdsAfter⟩

theorem MessageCall.run_shape {shape : MsgShape} (call : MessageCall)
    (msgAt : MsgAt memory shape)
    (holds : Holds memory (shape.cells + owned)) :
    Yields (call.run shape.obj) memory fun _ after =>
      ∃ next : MsgShape, next.obj = shape.obj ∧ MsgAt after next ∧
        Holds after (next.cells + owned) := by
  cases call with
  | decode line =>
      apply Yields.bind (mallocText_spec holds line)
      intro row middle allocated
      obtain ⟨-, holdsMiddle, frame, text⟩ := allocated
      have msgMiddle := msgAt.frame frame
        fun _ member => Multiset.mem_add.mpr (.inl member)
      apply Yields.bind (decoderRun_shape text msgMiddle holdsMiddle)
      intro res after decoded
      exact Yields.pure decoded.2
  | clean =>
      apply (msgClean_spec msgAt holds).mono
      intro _ after cleaned
      exact ⟨.idle shape.obj, rfl, cleaned.1, cleaned.2.1⟩

/-! ## All calls -/

theorem driveMessage_shape {shape : MsgShape} (calls : List MessageCall)
    (msgAt : MsgAt memory shape)
    (holds : Holds memory (shape.cells + owned)) :
    Yields (driveMessage shape.obj calls) memory fun _ after =>
      ∃ next : MsgShape, next.obj = shape.obj ∧ MsgAt after next ∧
        Holds after (next.cells + owned) := by
  induction calls generalizing memory shape with
  | nil => exact Yields.pure ⟨shape, rfl, msgAt, holds⟩
  | cons call calls induction =>
      apply Yields.bind (call.run_shape msgAt holds)
      intro _ middle moved
      obtain ⟨next, sameObj, msgMiddle, holdsMiddle⟩ := moved
      rw [← sameObj]
      exact induction msgMiddle holdsMiddle

/-- The invariant of `msg_t` holds after any calls on a new message, and from
there a row that is an error changes nothing. -/
theorem message_represented (holds : Holds memory owned) (buf : BufId)
    (calls : List MessageCall) :
    Yields (do
        let msg ← msgInit buf
        driveMessage msg calls
        return msg) memory fun msg after =>
      Represented after msg ∧
        ∀ line row middle, mallocText line after = .ok row middle →
          Yields (decoderRun msg row) middle fun res final =>
            res ≠ .ok → final = middle := by
  apply Yields.bind (msgInit_spec holds buf)
  intro msg started known
  obtain ⟨-, msgAt, holdsStarted, -⟩ := known
  apply Yields.bind (driveMessage_shape calls msgAt holdsStarted)
  intro _ after driven
  obtain ⟨shape, same, msgAfter, holdsAfter⟩ := driven
  change shape.obj = msg at same
  rw [← same]
  apply Yields.pure
  refine ⟨msgAfter.represented, ?_⟩
  intro line row middle allocates
  obtain ⟨-, holdsMiddle, frame, text⟩ :=
    (mallocText_spec holdsAfter line).result allocates
  have msgMiddle := msgAfter.frame frame
    fun _ member => Multiset.mem_add.mpr (.inl member)
  exact (decoderRun_shape text msgMiddle holdsMiddle).mono
    fun _ _ decoded => decoded.1

/-- A request, a row after its completion, a new start and a wrong row. -/
theorem message_represented_rows :
    Yields (do
        let msg ← msgInit .server
        driveMessage msg [.decode (ascii "+GET 1"), .decode (ascii "$key"),
          .decode (ascii "$more"), .clean, .decode (ascii "x")]
        return msg) initialMemory fun msg after => Represented after msg :=
  (message_represented initialMemory_holds .server _).mono
    fun _ _ known => known.1

end KetamaRouter
