import KetamaRouter.System

/-!
# The code refines the reference reader

The state of the reference reader can be read off a client's message in any
reachable state, and from there read events follow the reader line by line.
With `command_proc` observed as a dispatch, the actions in the trace are those
of the reader.
-/

namespace KetamaRouter

open FaultProgram Delimited

variable {host : Host} {world : World} {c : Nat} {handling : Handling}
  {memory : Memory} {owned : Multiset Cell}

/-- The state of the reference reader that a message stands for. -/
def readerAt (memory : Memory) (msg : Ptr) : Reader :=
  match (memory.msg msg).cmd, requestAt memory msg with
  | some cmd, some request =>
      .opened request.name (memory.cmd cmd).paramCount.toNat request.params
  | _, _ => .idle

/-- The state of the reference reader of a client. -/
def clientReader (world : World) (c : Nat) : Reader :=
  (world.client c).msg.elim .idle (readerAt world.memory)

/-- Before its first read a client's reader is idle. -/
theorem clientReader_fresh (noMsg : (world.client c).msg = none) :
    clientReader world c = .idle := by
  rw [clientReader, noMsg]
  rfl

theorem readerAt_eq {shape : MsgShape} (msgAt : MsgAt memory shape)
    (holds : Holds memory (shape.cells + owned)) :
    readerAt memory shape.obj = shape.reader := by
  have header := msgAt.header
  unfold readerAt
  cases found : shape.cmd with
  | none => simp [header, found, MsgShape.reader]
  | some cmd =>
      have asks : shape.request = some ⟨cmd.nameText, shape.parameters⟩ := by
        simp [MsgShape.request, found]
      have cmdAt := msgAt.cmd cmd found
      rw [requestAt_eq msgAt holds asks, header, found,
        MsgShape.reader_of_cmd found]
      simp [cmdAt.obj]

theorem Coherent.clientReader_eq {sessions : Nat → Option MsgShape}
    (coherent : Coherent host world sessions) (member : c ∈ world.connected) :
    clientReader world c = readerOf (sessions c) := by
  have attached := coherent.attached c member
  have holds := coherent.holdsOne member
  cases session : sessions c with
  | none =>
      rw [session] at attached
      exact clientReader_fresh attached.1
  | some shape =>
      rw [session] at attached holds
      rw [clientReader, attached.msg]
      exact readerAt_eq attached.msgAt holds

theorem Reachable.serving (reachable : Reachable host world) :
    Routing host world.server.ketama ∧
      Serving commandListLoad world.server.ketama world := by
  obtain ⟨sessions, coherent⟩ := reachable.coherent
  obtain ⟨_, ring, commands, rfl⟩ := coherent.serving
  exact ⟨ring, commands, rfl⟩

/-- In a reachable state the read events of a client follow its reader. -/
theorem Reachable.follows {proc : Nat → Ptr → WorldProgram CmdFuncRet}
    (reachable : Reachable host world) (member : c ∈ world.connected)
    (obeys : Obeys commandListLoad world.server.ketama proc handling)
    (input : Bytes) (later : List Bytes) :
    ∃ owned, Follows handling c (clientEventReads proc c (input :: later))
      world owned
      ((clientReader world c).readLines
        (linesOf ((world.client c).evbuf ++ (input :: later).flatten)))
      (handling.linesEvents c (clientReader world c)
        (linesOf ((world.client c).evbuf ++ (input :: later).flatten)))
      (pendingOf ((world.client c).evbuf ++ (input :: later).flatten)) := by
  obtain ⟨sessions, coherent⟩ := reachable.coherent
  rw [coherent.clientReader_eq member]
  exact ⟨_, clientEventReads_spec obeys reachable.serving.2
    (coherent.attached c member) (coherent.holdsOne member) input later⟩

/-! ## Observable actions -/

/-- The events that show an action. -/
def Event.isAction : Event → Bool
  | .dispatch _ _ => true
  | .wrongFormat _ => true
  | .wrongParam _ => true
  | .line _ _ => false
  | .invoke _ _ _ => false

/-- The client's message, if it has one, is at `MSG_STAT_NONE`. -/
def World.MessageIdle (world : World) (c : Nat) : Prop :=
  ∀ msg, (world.client c).msg = some msg → (world.memory.msg msg).stat = .none

theorem World.MessageIdle.clientReader_eq (idle : world.MessageIdle c)
    (reachable : Reachable host world) (member : c ∈ world.connected) :
    clientReader world c = .idle := by
  obtain ⟨sessions, coherent⟩ := reachable.coherent
  have attached := coherent.attached c member
  rw [coherent.clientReader_eq member]
  cases session : sessions c with
  | none => rfl
  | some shape =>
      rw [session] at attached
      have stat := idle shape.obj attached.msg
      rw [attached.msgAt.header] at stat
      cases found : shape.cmd with
      | none => simp [readerOf, MsgShape.reader, found]
      | some cmd =>
          rw [attached.waiting.stat found] at stat
          cases stat

theorem readLines_noNul (reader : Reader) {lines : List Bytes}
    (noNul : ∀ line ∈ lines, 0 ∉ line) :
    reader.readLines lines = reader.readAll lines := by
  unfold Reader.readLines
  rw [List.map_congr_left fun line member => cStr_eq_self (noNul line member),
    List.map_id']

theorem observed_fatal (actions : List Action) :
    actions.any observed.fatal = false := by
  rw [List.any_eq_false]
  intro action _
  cases action <;> simp [Handling.fatal, observed]

/-- The trace of lines that are all read shows the actions of the reader. -/
theorem linesEvents_actions (reader : Reader) (lines : List Bytes)
    (quiet : ∀ request, (handling.events c request).filter Event.isAction = [])
    (safe : (reader.readLines lines).2.any handling.fatal = false) :
    (handling.linesEvents c reader lines).filter Event.isAction =
      (reader.readLines lines).2.map (Action.event c) := by
  induction lines generalizing reader with
  | nil => rfl
  | cons line lines induction =>
      have shown : ∀ action : Option Action,
          (action.toList.flatMap (handling.actionEvents c)).filter
            Event.isAction = action.toList.map (Action.event c) := by
        intro action
        rcases action with _ | (request | _ | _)
        · rfl
        · simp [Handling.actionEvents, List.filter_cons, Event.isAction, quiet,
            Action.event]
        · rfl
        · rfl
      rw [Reader.readLines_cons, List.any_append, Bool.or_eq_false_iff] at safe
      have later := induction _ safe.2
      rw [Handling.linesEvents, safe.1, Reader.readLines_cons,
        List.filter_append, List.map_append]
      simp only [Bool.false_eq_true, if_false, later, Handling.lineEvents]
      rw [List.filter_cons_of_neg (by simp [Event.isAction]), shown]

/-- The loop of `client_event_read` refines the reference reader. -/
theorem clientEventRead_refines_reader (reachable : Reachable host world)
    (connected : c ∈ world.connected) (idle : world.MessageIdle c)
    (answer : World → Nat → Ptr → CmdFuncRet) (input : Bytes)
    (later : List Bytes)
    (noNul : ∀ line ∈
      linesOf ((world.client c).evbuf ++ (input :: later).flatten), 0 ∉ line) :
    Yields (clientEventReads (observeDispatch answer) c (input :: later)) world
      fun _ after => ∃ events, after.trace = world.trace ++ events ∧
        events.filter Event.isAction =
          (Reader.idle.readAll (linesOf ((world.client c).evbuf ++
            (input :: later).flatten))).2.map (Action.event c) := by
  obtain ⟨owned, follows⟩ := reachable.follows connected
    (observeDispatch_obeys _ _ answer) input later
  refine (follows.returns (observed_fatal _)).mono ?_
  intro _ after outcome
  rcases outcome with ⟨next, -, -, moved⟩
  refine ⟨_, moved.trace, ?_⟩
  rw [linesEvents_actions _ _ (fun _ => rfl) (observed_fatal _),
    idle.clientReader_eq reachable connected, readLines_noNul _ noNul]

theorem clientEventRead_refines_reader_pipelined :
    ∃ world, Reachable Host.standard world ∧
      Yields (clientEventReads (observeDispatch fun _ _ _ => .done) 0
        [ascii "+GET 2\n%a=b=c\n$", ascii "d\r\nPING\n"]) world
        fun _ after => ∃ events, after.trace = world.trace ++ events ∧
          events.filter Event.isAction =
            [.dispatch 0 (some ⟨ascii "GET",
                [.keyValue (ascii "a") (ascii "b=c"), .str (ascii "d")]⟩),
              .wrongFormat 0] := by
  obtain ⟨world, reachable, member, client, -⟩ :=
    Host.standard.firstClient fun _ _ => .fails
  have idle : world.MessageIdle 0 := by
    intro msg found
    rw [client] at found
    cases found
  refine ⟨world, reachable, ?_⟩
  have refines := clientEventRead_refines_reader reachable member idle
    (fun _ _ _ => .done) (ascii "+GET 2\n%a=b=c\n$")
    [ascii "d\r\nPING\n"] (by rw [client]; decide)
  rw [client] at refines
  exact refines

end KetamaRouter
