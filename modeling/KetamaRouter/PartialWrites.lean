import KetamaRouter.ReplyOwnership
import KetamaRouter.System

/-!
# Partial writes

`resp_msg` stores what `write` returns in an `int`, and looks at its sign and at
nothing else.  A write that accepts part of a data string counts as a success,
and the tail is lost; one that accepts more than an `int` counts can look like a
failure.
-/

namespace KetamaRouter

open FaultProgram

variable {memory : Memory} {owned : Multiset Cell} {socket : Socket}
  {piece : Bytes} {pieces : List Bytes}

/-! ## The socket -/

/-- What a write of so many bytes returns, as an `int`. -/
def WriteResult.asInt (result : WriteResult) (offered : Nat) : Int32 :=
  match result with
  | .fails => -1
  | .accepts limit => (Int64.ofNat (min limit offered)).toInt32

/-- One of the writes of these strings returns what is negative as an `int`: it
fails, or it accepts a count that an `int` does not hold. -/
def Socket.FailsIn (socket : Socket) (pieces : List Bytes) : Prop :=
  ∃ index, ∃ inside : index < pieces.length,
    (socket.behaviour (socket.calls + index) pieces[index].length).asInt
      pieces[index].length < 0

/-- Every write of these strings accepts all it is offered. -/
def Socket.TakesWhole (socket : Socket) (pieces : List Bytes) : Prop :=
  ∀ index, ∀ inside : index < pieces.length, ∃ limit,
    socket.behaviour (socket.calls + index) pieces[index].length =
      .accepts limit ∧
    pieces[index].length ≤ limit

/-- The socket once a string was offered. -/
def Socket.offeredOne (socket : Socket) (piece : Bytes) : Socket :=
  (socket.write piece).2

@[simp] theorem Socket.offeredOne_calls :
    (socket.offeredOne piece).calls = socket.calls + 1 := by
  unfold Socket.offeredOne Socket.write
  split <;> rfl

@[simp] theorem Socket.offeredOne_behaviour :
    (socket.offeredOne piece).behaviour = socket.behaviour := by
  unfold Socket.offeredOne Socket.write
  split <;> rfl

theorem Socket.write_asInt :
    (socket.write piece).1.toInt32 =
      (socket.behaviour socket.calls piece.length).asInt piece.length := by
  unfold Socket.write
  cases socket.behaviour socket.calls piece.length with
  | fails => rfl
  | accepts limit => simp [WriteResult.asInt]

theorem Socket.offeredOne_sent {limit : Nat}
    (accepts : socket.behaviour socket.calls piece.length = .accepts limit) :
    (socket.offeredOne piece).sent = socket.sent ++ piece.take limit := by
  simp [Socket.offeredOne, Socket.write, accepts]

/-- A write whose result is not negative has accepted something or nothing. -/
theorem WriteResult.accepts_of_asInt {result : WriteResult} {offered : Nat}
    (notNegative : ¬ result.asInt offered < 0) :
    ∃ limit, result = .accepts limit := by
  cases result with
  | fails =>
      have failed : (-1 : Int32) < 0 := by decide
      exact absurd failed notNegative
  | accepts limit => exact ⟨limit, rfl⟩

theorem Socket.failsIn_cons :
    socket.FailsIn (piece :: pieces) ↔
      (socket.behaviour socket.calls piece.length).asInt piece.length < 0 ∨
        (socket.offeredOne piece).FailsIn pieces := by
  constructor
  · intro fails
    obtain ⟨index, inside, fails⟩ := fails
    cases index with
    | zero => exact .inl fails
    | succ index =>
        right
        apply Exists.intro index
        apply Exists.intro (Nat.lt_of_succ_lt_succ inside)
        rw [Socket.offeredOne_behaviour, Socket.offeredOne_calls,
          Nat.add_assoc, Nat.add_comm 1]
        exact fails
  · intro fails
    cases fails with
    | inl now => exact ⟨0, Nat.succ_pos _, now⟩
    | inr later =>
        obtain ⟨index, inside, fails⟩ := later
        rw [Socket.offeredOne_behaviour, Socket.offeredOne_calls,
          Nat.add_assoc, Nat.add_comm 1] at fails
        exact ⟨index + 1, Nat.succ_lt_succ inside, fails⟩

theorem Socket.takesWhole_cons :
    socket.TakesWhole (piece :: pieces) ↔
      (∃ limit, socket.behaviour socket.calls piece.length = .accepts limit ∧
        piece.length ≤ limit) ∧
      (socket.offeredOne piece).TakesWhole pieces := by
  constructor
  · intro takes
    constructor
    · exact takes 0 (Nat.succ_pos _)
    · intro index inside
      rw [Socket.offeredOne_behaviour, Socket.offeredOne_calls, Nat.add_assoc,
        Nat.add_comm 1]
      exact takes (index + 1) (Nat.succ_lt_succ inside)
  · intro takes index inside
    cases index with
    | zero => exact takes.1
    | succ index =>
        have later := takes.2 index (Nat.lt_of_succ_lt_succ inside)
        rw [Socket.offeredOne_behaviour, Socket.offeredOne_calls,
          Nat.add_assoc, Nat.add_comm 1] at later
        exact later

/-! ## The loop of writes -/

/-- The strings reached the socket whole, if the writes are reported as done. -/
def Socket.ReportsTruly (socket : Socket) (pieces : List Bytes) : Prop :=
  (socket.writeAll pieces).1 = .ok →
    (socket.writeAll pieces).2.sent = socket.sent ++ pieces.flatten

theorem Socket.writeAll_fails
    (negative : (socket.behaviour socket.calls piece.length).asInt
      piece.length < 0) :
    socket.writeAll (piece :: pieces) =
      (.sockErr, socket.offeredOne piece) := by
  rw [← Socket.write_asInt] at negative
  rw [Socket.writeAll, if_pos negative]
  rfl

theorem Socket.writeAll_continues
    (notNegative : ¬ (socket.behaviour socket.calls piece.length).asInt
      piece.length < 0) :
    socket.writeAll (piece :: pieces) =
      (socket.offeredOne piece).writeAll pieces := by
  rw [← Socket.write_asInt] at notNegative
  rw [Socket.writeAll, if_neg notNegative]
  rfl

/-- No more is sent than is offered. -/
theorem Socket.offeredOne_sent_length_le :
    (socket.offeredOne piece).sent.length ≤
      socket.sent.length + piece.length := by
  unfold Socket.offeredOne Socket.write
  cases socket.behaviour socket.calls piece.length with
  | fails => exact Nat.le_add_right _ _
  | accepts limit => simp

theorem Socket.writeAll_sent_length_le (socket : Socket)
    (pieces : List Bytes) :
    (socket.writeAll pieces).2.sent.length ≤
      socket.sent.length + pieces.flatten.length := by
  induction pieces generalizing socket with
  | nil => simp [Socket.writeAll]
  | cons piece pieces induction =>
      have first := @Socket.offeredOne_sent_length_le socket piece
      rw [List.flatten_cons, List.length_append]
      by_cases negative : (socket.behaviour socket.calls piece.length).asInt
          piece.length < 0
      · rw [Socket.writeAll_fails negative]
        dsimp only
        omega
      · have rest := induction (socket.offeredOne piece)
        rw [Socket.writeAll_continues negative]
        omega

theorem Socket.writeAll_ok_iff (socket : Socket) (pieces : List Bytes) :
    (socket.writeAll pieces).1 = .ok ↔ ¬ socket.FailsIn pieces := by
  induction pieces generalizing socket with
  | nil => simp [Socket.writeAll, Socket.FailsIn]
  | cons piece pieces induction =>
      rw [Socket.failsIn_cons]
      by_cases negative : (socket.behaviour socket.calls piece.length).asInt
          piece.length < 0
      · simp [Socket.writeAll_fails negative, negative]
      · rw [Socket.writeAll_continues negative, induction]
        simp [negative]

/-- A first write that accepts a part is made good by nothing later. -/
theorem Socket.reportsTruly_partial {limit : Nat}
    (accepts : socket.behaviour socket.calls piece.length = .accepts limit)
    (notNegative : ¬ (socket.behaviour socket.calls piece.length).asInt
      piece.length < 0)
    (short : limit < piece.length) :
    socket.ReportsTruly (piece :: pieces) ↔
      (socket.offeredOne piece).FailsIn pieces := by
  have few := (socket.offeredOne piece).writeAll_sent_length_le pieces
  rw [Socket.offeredOne_sent accepts] at few
  have lost : ((socket.offeredOne piece).writeAll pieces).2.sent ≠
      socket.sent ++ (piece :: pieces).flatten := by
    intro whole
    rw [whole] at few
    simp only [List.length_append, List.length_take, List.flatten_cons] at few
    omega
  unfold Socket.ReportsTruly
  rw [Socket.writeAll_continues notNegative, imp_iff_not lost,
    Socket.writeAll_ok_iff, not_not]

theorem Socket.reportsTruly_whole {limit : Nat}
    (accepts : socket.behaviour socket.calls piece.length = .accepts limit)
    (notNegative : ¬ (socket.behaviour socket.calls piece.length).asInt
      piece.length < 0)
    (enough : piece.length ≤ limit) :
    socket.ReportsTruly (piece :: pieces) ↔
      (socket.offeredOne piece).ReportsTruly pieces := by
  unfold Socket.ReportsTruly
  rw [Socket.writeAll_continues notNegative, Socket.offeredOne_sent accepts,
    List.take_of_length_le enough, List.flatten_cons, List.append_assoc]

/-- The writes are reported truly when one of them looks like a failure, or when
none of them is partial. -/
theorem Socket.reportsTruly_iff (socket : Socket) (pieces : List Bytes) :
    socket.ReportsTruly pieces ↔
      socket.FailsIn pieces ∨ socket.TakesWhole pieces := by
  induction pieces generalizing socket with
  | nil => simp [Socket.ReportsTruly, Socket.writeAll, Socket.TakesWhole]
  | cons piece pieces induction =>
      rw [Socket.failsIn_cons, Socket.takesWhole_cons]
      by_cases negative : (socket.behaviour socket.calls piece.length).asInt
          piece.length < 0
      · simp [Socket.ReportsTruly, Socket.writeAll_fails negative, negative]
      · obtain ⟨limit, accepts⟩ := WriteResult.accepts_of_asInt negative
        cases Nat.lt_or_ge limit piece.length with
        | inl short =>
            rw [Socket.reportsTruly_partial accepts negative short,
              or_iff_right negative]
            simp [accepts, Nat.not_le.mpr short]
        | inr enough =>
            rw [Socket.reportsTruly_whole accepts negative enough, induction,
              or_iff_right negative]
            simp [accepts, enough]

/-! ## `resp_msg` -/

/-- When `resp_msg` returns, the socket has accepted the whole message if it
says so. -/
def RespTruly (memory : Memory) (sock : Nat) (shape : MsgShape) : Prop :=
  ∃ res after, respMsg sock shape.obj memory = .ok res after ∧
    (res = .ok → (after.socket sock).sent =
      (memory.socket sock).sent ++ shape.pieces.flatten)

/-- `resp_msg` tells the truth about a complete message exactly when a write of
one of its data strings looks like a failure or none of them is partial. -/
theorem respMsg_truly_iff {shape : MsgShape} (msgAt : MsgAt memory shape)
    (holds : Holds memory (shape.cells + owned))
    (complete : shape.stat = .done) (sock : Nat) :
    RespTruly memory sock shape ↔
      (memory.socket sock).FailsIn shape.pieces ∨
        (memory.socket sock).TakesWhole shape.pieces := by
  have run := respMsg_run msgAt holds complete sock
  rw [← Socket.reportsTruly_iff]
  constructor
  · intro truly reported
    obtain ⟨res, after, ran, whole⟩ := truly
    rw [run] at ran
    cases ran
    simpa using whole reported
  · intro truly
    apply Exists.intro
    apply Exists.intro
    apply And.intro run
    rw [Memory.setSocket_socket_self]
    exact truly

/-- A reply assembled for a socket of any behaviour. -/
theorem exists_reply_message {request : Request}
    (printable : request.Printable) (behaviour : Nat → Nat → WriteResult) :
    ∃ memory shape, MsgAt memory shape ∧ Holds memory (shape.cells + 0) ∧
      shape.stat = .done ∧ shape.pieces = request.pieces.map cStr ∧
      memory.socket 0 = { behaviour := behaviour, calls := 0, sent := [] } := by
  have start : Holds (initialMemory.setSocket 0
      { behaviour := behaviour, calls := 0, sent := [] }) 0 :=
    initialMemory_holds.congr rfl rfl rfl
  obtain ⟨msg, memory, -, shape, -, -, complete, -, pieces, msgAt, holds,
    frame⟩ := @msgAssemble_spec _ _ .server _ start printable
  have kept := congrFun frame.socket 0
  rw [Memory.setSocket_socket_self] at kept
  exact ⟨memory, shape, msgAt, holds, complete, pieces, kept⟩

/-- On a socket that takes everything, an error message with its two parameters
arrives. -/
theorem respMsg_truly_unknown : ∃ memory shape,
    MsgAt memory shape ∧
      shape.pieces = [ascii "+ERROR 2\r\n", ascii "$99\r\n",
        ascii "$Unknown command.\r\n"] ∧
      RespTruly memory 0 shape := by
  obtain ⟨memory, shape, msgAt, holds, complete, pieces, socket⟩ :=
    exists_reply_message unknownReply_printable
      fun _ length => .accepts length
  have texts : unknownReply.pieces.map cStr = [ascii "+ERROR 2\r\n",
      ascii "$99\r\n", ascii "$Unknown command.\r\n"] := by
    decide
  refine ⟨memory, shape, msgAt, pieces.trans texts,
    (respMsg_truly_iff msgAt holds complete 0).mpr ?_⟩
  right
  rw [socket]
  exact fun index inside => ⟨_, rfl, Nat.le_refl _⟩

/-- On a socket that takes one byte, `resp_msg` returns `RESP_RES_OK` for a
`PONG` of which only the `+` was sent. -/
theorem respMsg_loses_tail : ∃ memory shape,
    MsgAt memory shape ∧ Holds memory (shape.cells + 0) ∧
      shape.stat = .done ∧ shape.pieces = [ascii "+PONG\r\n"] ∧
      (∃ after, respMsg 0 shape.obj memory = .ok .ok after ∧
        (after.socket 0).sent = (memory.socket 0).sent ++ ascii "+") ∧
      ¬ RespTruly memory 0 shape := by
  obtain ⟨memory, shape, msgAt, holds, complete, pieces, socket⟩ :=
    exists_reply_message pongReply_printable fun _ _ => .accepts 1
  have text : pongReply.pieces.map cStr = [ascii "+PONG\r\n"] := by
    decide
  rw [text] at pieces
  have run := respMsg_run msgAt holds complete 0
  rw [pieces, socket] at run
  refine ⟨memory, shape, msgAt, holds, complete, pieces, ⟨_, run, ?_⟩, ?_⟩
  · rw [Memory.setSocket_socket_self, socket]
    decide
  · intro truly
    obtain ⟨res, after, ran, whole⟩ := truly
    rw [run] at ran
    cases ran
    have lost := whole rfl
    rw [Memory.setSocket_socket_self, socket, pieces] at lost
    revert lost
    decide

end KetamaRouter
