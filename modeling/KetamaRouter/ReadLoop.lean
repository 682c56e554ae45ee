import KetamaRouter.Dispatch

/-!
# The loop over lines

A handling turns the actions of the reference reader into a trace and replies.
One line of a client does what its action says and otherwise moves only that
client's message, counters and socket; the loop does so for every line of the
buffer, or stops at the first action that takes the process down.
-/

namespace KetamaRouter

open FaultProgram Delimited

variable {world middle after : World} {owned : Multiset Cell} {c : Nat}
  {shape next : MsgShape}

/-! ## What actions cause -/

namespace Handling

variable (handling : Handling)

/-- Whether an action takes the process down. -/
def fatal : Action → Bool
  | .dispatch request => handling.crashes request
  | .wrongFormat => false
  | .wrongParam => false

/-- What an action adds to the trace. -/
def actionEvents (c : Nat) : Action → List Event
  | .dispatch request =>
      .dispatch c (some request) :: handling.events c request
  | .wrongFormat => [.wrongFormat c]
  | .wrongParam => [.wrongParam c]

/-- The reply an action causes, if any. -/
def actionReply : Action → Option Request
  | .dispatch request => handling.reply request
  | .wrongFormat => some (errorReply errWrongMsgFormatNo errWrongMsgFormat)
  | .wrongParam => some (errorReply errWrongParamFormatNo errWrongParamFormat)

/-- What a line adds to the trace. -/
def lineEvents (c : Nat) (reader : Reader) (line : Bytes) : List Event :=
  .line c line ::
    (reader.read (cStr line)).2.toList.flatMap (handling.actionEvents c)

/-- What lines add to the trace; nothing follows a fatal action. -/
def linesEvents (c : Nat) (reader : Reader) : List Bytes → List Event
  | [] => []
  | line :: lines =>
      handling.lineEvents c reader line ++
        if (reader.read (cStr line)).2.toList.any handling.fatal then []
        else linesEvents c (reader.read (cStr line)).1 lines

variable {handling}

theorem lineEvents_rejected {reader : Reader} {line : Bytes}
    (rejected : reader.accept (cStr line) = none) :
    handling.lineEvents c reader line =
      [.line c line, reader.complaint.event c] := by
  rw [lineEvents, Reader.read_rejected rejected]
  cases reader <;> rfl

theorem lineEvents_completes {reader : Reader} {line name : Bytes}
    {params : List Parameter}
    (accepted : reader.accept (cStr line) =
      some (name, params.length, params)) :
    handling.lineEvents c reader line =
      [.line c line, .dispatch c (some ⟨name, params⟩)] ++
        handling.events c ⟨name, params⟩ := by
  rw [lineEvents, Reader.read_accepted accepted, if_pos rfl]
  simp [actionEvents]

theorem lineEvents_opens {reader : Reader} {line name : Bytes} {count : Nat}
    {params : List Parameter}
    (accepted : reader.accept (cStr line) = some (name, count, params))
    (more : params.length ≠ count) :
    handling.lineEvents c reader line = [.line c line] := by
  rw [lineEvents, Reader.read_accepted accepted, if_neg more]
  rfl

theorem actionReply_complaint (reader : Reader) :
    handling.actionReply reader.complaint = some reader.complaintReply := by
  cases reader <;> rfl

theorem replies_single (action : Action) :
    [action].filterMap handling.actionReply =
      (handling.actionReply action).toList := by
  cases reply : handling.actionReply action <;> simp [reply]

theorem fatal_complaint (reader : Reader) :
    handling.fatal reader.complaint = false := by
  cases reader <;> rfl

end Handling

/-! ## What stays -/

/-- Outside the heap a line of client `c` changes only that client's buffer and
counters, counters of its worker and of the server, and the trace. -/
structure Keeps (c : Nat) (world after : World) : Prop where
  worker : (after.client c).worker = (world.client c).worker
  socket : (after.client c).socket = (world.client c).socket
  others : ∀ other, other ≠ c → after.client other = world.client other
  server : after.server = { world.server with reqOk := after.server.reqOk }
  clientBrk : after.clientBrk = world.clientBrk
  connected : after.connected = world.connected

theorem Keeps.refl (c : Nat) (world : World) : Keeps c world world := by
  constructor <;> intros <;> rfl

theorem Keeps.trans (first : Keeps c world middle)
    (second : Keeps c middle after) : Keeps c world after where
  worker := second.worker.trans first.worker
  socket := second.socket.trans first.socket
  others other apart :=
    (second.others other apart).trans (first.others other apart)
  server := by
    rw [second.server, first.server]
  clientBrk := second.clientBrk.trans first.clientBrk
  connected := second.connected.trans first.connected

theorem Keeps.serving {commands : List Command} {ketama : Ketama}
    (keeps : Keeps c world after) (serving : Serving commands ketama world) :
    Serving commands ketama after where
  commands := by rw [keeps.server]; exact serving.commands
  ketama := by rw [keeps.server]; exact serving.ketama

theorem Keeps.setMemory (keeps : Keeps c world after) (memory : Memory) :
    Keeps c world (after.setMemory memory) :=
  { keeps with }

theorem Keeps.logged (keeps : Keeps c world after) (events : List Event) :
    Keeps c world (after.logged events) :=
  { keeps with }

theorem Keeps.setClient (keeps : Keeps c world after)
    {change : Client → Client}
    (worker : ∀ client, (change client).worker = client.worker)
    (socket : ∀ client, (change client).socket = client.socket) :
    Keeps c world (after.setClient c change) where
  worker := by simp [World.setClient, worker, keeps.worker]
  socket := by simp [World.setClient, socket, keeps.socket]
  others other apart := by
    simp [World.setClient, apart, keeps.others other apart]
  server := keeps.server
  clientBrk := keeps.clientBrk
  connected := keeps.connected

theorem Keeps.setWorker (keeps : Keeps c world after) (w : Nat)
    (change : Worker → Worker) : Keeps c world (after.setWorker w change) :=
  { keeps with }

theorem Keeps.countErr (c : Nat) (world : World) :
    Keeps c world (world.countErr c) := by
  refine Keeps.setWorker (Keeps.setClient (Keeps.refl c world) ?_ ?_) _ _
  · exact fun _ => rfl
  · exact fun _ => rfl

theorem Keeps.dispatching (memory : Memory) (line : Bytes)
    (request : Request) :
    Keeps c world (world.dispatching c memory line request) := by
  refine (Keeps.logged (Keeps.setWorker (Keeps.setClient (Keeps.refl c world)
    ?_ ?_) _ _) _).setMemory memory
  · exact fun _ => rfl
  · exact fun _ => rfl

/-- Counting what `command_proc` returned touches counters only. -/
theorem countUndone_yields (ret : CmdFuncRet) :
    Yields (countUndone c ret) world fun _ after =>
      Keeps c world after ∧ after.memory = world.memory ∧
        after.trace = world.trace ∧
        (after.client c).msg = (world.client c).msg ∧
        (after.client c).evbuf = (world.client c).evbuf := by
  unfold countUndone
  split
  · have keeps : Keeps c world (world.setClient c fun client =>
        { client with reqOk := client.reqOk + 1 }) :=
      (Keeps.refl c world).setClient (fun _ => rfl) fun _ => rfl
    refine Yields.modify ⟨{ keeps with server := rfl }, rfl, rfl, ?_, ?_⟩
    · simp [World.setServer, World.setClient]
    · simp [World.setServer, World.setClient]
  · exact Yields.pure ⟨Keeps.refl c world, rfl, rfl, rfl, rfl⟩

/-! ## One line -/

/-- Client `c`'s message came to be `next`, with these events and replies, and
everything else stayed. -/
structure Moved (c : Nat) (world after : World) (next : MsgShape)
    (owned : Multiset Cell) (events : List Event) (replies : List Request) :
    Prop where
  session : Session after c next owned
  trace : after.trace = world.trace ++ events
  frame : Frame owned (world.offered c replies) after.memory
  keeps : Keeps c world after

theorem Moved.refl (session : Session world c shape owned) :
    Moved c world world shape owned [] [] where
  session := session
  trace := (List.append_nil _).symm
  frame := by
    rw [World.offered_nil]
    exact Frame.refl _ _
  keeps := Keeps.refl c world

theorem Socket.offer_append (socket : Socket) (first second : List Request) :
    socket.offer (first ++ second) = (socket.offer first).offer second := by
  simp [Socket.offer]

theorem Moved.trans {last : MsgShape} {first second : List Event}
    {replies more : List Request}
    (left : Moved c world middle next owned first replies)
    (right : Moved c middle after last owned second more) :
    Moved c world after last owned (first ++ second)
      (replies ++ more) where
  session := right.session
  trace := by rw [right.trace, left.trace, List.append_assoc]
  frame := by
    have socket := left.frame.socket
    have joined := (left.frame.setSocket (middle.client c).socket
      ((middle.memory.socket (middle.client c).socket).offer more)).trans
      right.frame
    rw [socket, left.keeps.socket] at joined
    simpa [World.offered, Socket.offer_append] using joined
  keeps := left.keeps.trans right.keeps

theorem World.dispatching_client (memory : Memory) (line : Bytes)
    (request : Request) :
    (world.dispatching c memory line request).client c =
      { world.client c with
        reqAll := (world.client c).reqAll + 1
        reqOk := (world.client c).reqOk + 1 } := by
  simp [World.dispatching, World.countOk, World.setClient, World.setWorker,
    World.logged, World.setMemory]

/-- From `world`, the program of client `c` takes the process down if one of the
actions of the outcome does, and otherwise brings the message where the
outcome says, with the replies to its actions. -/
structure Follows (handling : Handling) (c : Nat)
    (program : WorldProgram Unit) (world : World)
    (owned : Multiset Cell) (outcome : Reader × List Action)
    (events : List Event) (evbuf : Bytes) : Prop where
  crashes : outcome.2.any handling.fatal = true →
    ∃ after, program world = .error handling.fault after ∧
      after.trace = world.trace ++ events
  returns : outcome.2.any handling.fatal = false →
    Yields program world fun _ after => ∃ next,
      next.reader = outcome.1 ∧ (after.client c).evbuf = evbuf ∧
      Moved c world after next owned events
        (outcome.2.filterMap handling.actionReply)

theorem Follows.idle {handling : Handling}
    (session : Session world c shape owned) :
    Follows handling c (pure ()) world owned (shape.reader, []) []
      (world.client c).evbuf where
  crashes fatal := by cases fatal
  returns _ := Yields.pure ⟨shape, rfl, rfl, Moved.refl session⟩

/-- A run that returned had no fatal action. -/
theorem Follows.result {handling : Handling} {program : WorldProgram Unit}
    {outcome : Reader × List Action} {events : List Event} {evbuf : Bytes}
    (follows : Follows handling c program world owned outcome events evbuf)
    (ran : program world = .ok () after) :
    outcome.2.any handling.fatal = false ∧ ∃ next,
      next.reader = outcome.1 ∧ (after.client c).evbuf = evbuf ∧
      Moved c world after next owned events
        (outcome.2.filterMap handling.actionReply) := by
  cases fatal : outcome.2.any handling.fatal with
  | true =>
      obtain ⟨final, stopped, -⟩ := follows.crashes fatal
      rw [ran] at stopped
      cases stopped
  | false => exact ⟨rfl, (follows.returns fatal).result ran⟩

/-- However the run ends, it leaves the events. -/
theorem Follows.trace {handling : Handling} {program : WorldProgram Unit}
    {outcome : Reader × List Action} {events : List Event} {evbuf : Bytes}
    (follows : Follows handling c program world owned outcome events evbuf) :
    (final (program world)).trace = world.trace ++ events := by
  cases fatal : outcome.2.any handling.fatal with
  | true =>
      obtain ⟨after, stopped, trace⟩ := follows.crashes fatal
      rw [stopped]
      exact trace
  | false =>
      obtain ⟨_, after, ran, next, -, -, moved⟩ := follows.returns fatal
      rw [ran]
      exact moved.trace

/-- One program after the other; the second starts only if the first
returns. -/
theorem Follows.bind {handling : Handling} {first second : WorldProgram Unit}
    {left right : Reader × List Action} {events more : List Event}
    {evbuf last : Bytes}
    (begins : Follows handling c first world owned left events evbuf)
    (continues : ∀ middle next, next.reader = left.1 →
      (middle.client c).evbuf = evbuf →
      Moved c world middle next owned events
        (left.2.filterMap handling.actionReply) →
      Follows handling c second middle owned right more last) :
    Follows handling c (do first; second) world owned
      (right.1, left.2 ++ right.2)
      (events ++ if left.2.any handling.fatal then [] else more) last := by
  cases fatal : left.2.any handling.fatal with
  | true =>
      obtain ⟨after, stopped, trace⟩ := begins.crashes fatal
      constructor
      · intro _
        exact ⟨after, bind_run_error stopped, by simpa using trace⟩
      · intro safe
        simp only [List.any_append, fatal, Bool.true_or] at safe
        cases safe
  | false =>
      obtain ⟨_, middle, ran, next, reader, evbufEq, moved⟩ :=
        begins.returns fatal
      have later := continues middle next reader evbufEq moved
      have joined : (left.2 ++ right.2).any handling.fatal =
          right.2.any handling.fatal := by
        simp only [List.any_append, fatal, Bool.false_or]
      constructor
      · intro crash
        obtain ⟨after, stopped, trace⟩ :=
          later.crashes (joined.symm.trans crash)
        refine ⟨after, (bind_run_ok ran).trans stopped, ?_⟩
        rw [trace, moved.trace]
        simp
      · intro safe
        refine Yields.bind_run ran
          ((later.returns (joined.symm.trans safe)).mono ?_)
        intro _ after outcome
        rcases outcome with ⟨final, finalReader, finalEvbuf, finalMoved⟩
        refine ⟨final, finalReader, finalEvbuf, ?_⟩
        simpa using moved.trans finalMoved

/-- Another way to write a program follows the same outcome. -/
theorem Follows.congr {handling : Handling}
    {program other : WorldProgram Unit} {outcome : Reader × List Action}
    {events : List Event} {evbuf : Bytes}
    (start : Moved c world middle next owned [] [])
    (same : program world = other middle)
    (follows : Follows handling c other middle owned outcome events
      evbuf) :
    Follows handling c program world owned outcome events evbuf where
  crashes fatal := by
    obtain ⟨after, stopped, trace⟩ := follows.crashes fatal
    exact ⟨after, same.trans stopped, by
      rw [trace, start.trace, List.append_nil]⟩
  returns safe := by
    refine Yields.congr same ((follows.returns safe).mono ?_)
    intro _ after outcome
    rcases outcome with ⟨final, reader, evbufEq, moved⟩
    exact ⟨final, reader, evbufEq, start.trans moved⟩

/-- A completed message is dispatched and cleaned, or takes the process
down. -/
theorem clientEventLine_dispatches {commands : List Command} {ketama : Ketama}
    {proc : Nat → Ptr → WorldProgram CmdFuncRet} {handling : Handling}
    (obeys : Obeys commands ketama proc handling)
    (serving : Serving commands ketama world)
    (session : Session world c shape owned) {line name : Bytes}
    {params : List Parameter}
    (accepted : shape.reader.accept (cStr line) =
      some (name, params.length, params)) :
    Follows handling c (clientEventLine proc c line) world owned
      (.idle, [.dispatch ⟨name, params⟩])
      (handling.lineEvents c shape.reader line) (world.client c).evbuf := by
  obtain ⟨full, memory, sameObj, -, complete, asks, msgAt, holds, frame, run⟩ :=
    clientEventLine_completes session accepted
  have keeps := @Keeps.dispatching world c memory line
    ⟨name, params⟩
  have handled := obeys (world.dispatching c memory line ⟨name, params⟩) c full
    ⟨name, params⟩ owned (keeps.serving serving) complete asks msgAt holds
  have fatal : [Action.dispatch ⟨name, params⟩].any handling.fatal =
      handling.crashes ⟨name, params⟩ := by
    simp [Handling.fatal]
  rw [Handling.lineEvents_completes accepted]
  constructor
  · intro crashes
    rw [if_pos (fatal.symm.trans crashes)] at handled
    obtain ⟨after, stopped, trace⟩ := handled
    refine ⟨after, (run proc).trans (bind_run_error stopped), ?_⟩
    rw [trace, ← List.append_assoc]
    rfl
  · intro returns
    have safe : ¬ handling.crashes ⟨name, params⟩ = true := by
      rw [← fatal, returns]
      exact Bool.false_ne_true
    rw [if_neg safe] at handled
    refine Yields.congr (run proc) (Yields.bind handled ?_)
    intro ret _ outcome
    rcases outcome with ⟨third, rfl, holdsThird, frameThird⟩
    have msgThird : MsgAt third full :=
      (msgAt.setSocket _ _).frame frameThird
        fun _ member => Multiset.mem_add.mpr (.inl member)
    refine Yields.bind (countUndone_yields ret) ?_
    intro _ counted outcome
    rcases outcome with ⟨keepsCounted, memoryEq, traceEq, msgEq, evbufEq⟩
    have msgCounted : MsgAt counted.memory full := by
      rw [memoryEq]
      exact msgThird
    have holdsCounted : Holds counted.memory (full.cells + owned) := by
      rw [memoryEq]
      exact holdsThird
    refine (onMemory_yields (msgClean_spec msgCounted holdsCounted)).mono ?_
    intro _ _ outcome
    rcases outcome with ⟨last, rfl, idle, holdsLast, frameLast⟩
    have client := @World.dispatching_client world c memory
      line ⟨name, params⟩
    have evbuf := congrArg Client.evbuf client
    have msg := congrArg Client.msg client
    have socket := congrArg Client.socket client
    rw [Handling.replies_single]
    have worker := congrArg Client.worker client
    refine ⟨.idle full.obj, rfl, ?_, ⟨⟨?_, ?_, idle, MsgShape.idle_waiting _⟩,
      holdsLast⟩, ?_, ?_, ?_⟩
    · exact evbufEq.trans evbuf
    · refine (msgEq.trans msg).trans ?_
      rw [session.msg, ← sameObj]
      rfl
    · change full.obj.buf = .worker (counted.client c).worker
      rw [sameObj, session.home, keepsCounted.worker]
      exact congrArg BufId.worker worker.symm
    · change counted.trace = _
      rw [traceEq, ← List.append_assoc]
      rfl
    · have others : Frame owned _ third := frameThird.mono
        fun _ member => Multiset.mem_add.mpr (.inr member)
      rw [memoryEq] at frameLast
      refine Frame.trans ?_ (others.trans frameLast)
      unfold World.offered
      rw [socket]
      change Frame owned _ (memory.setSocket _ ((memory.socket _).offer _))
      rw [frame.socket]
      exact frame.setSocket _ _
    · exact keeps.trans (((Keeps.refl c _).logged _).setMemory third
        |>.trans keepsCounted |>.setMemory last)

/-- One line of a client does what the reference reader says. -/
theorem clientEventLine_spec {commands : List Command} {ketama : Ketama}
    {proc : Nat → Ptr → WorldProgram CmdFuncRet} {handling : Handling}
    (obeys : Obeys commands ketama proc handling)
    (serving : Serving commands ketama world)
    (session : Session world c shape owned) (line : Bytes) :
    Follows handling c (clientEventLine proc c line) world owned
      ((shape.reader.read (cStr line)).1,
        (shape.reader.read (cStr line)).2.toList)
      (handling.lineEvents c shape.reader line) (world.client c).evbuf := by
  cases verdict : shape.reader.accept (cStr line) with
  | none =>
      have read := Reader.read_rejected verdict
      rw [read]
      constructor
      · intro fatal
        simp [Handling.fatal_complaint] at fatal
      · intro _
        refine (clientEventLine_rejected proc session verdict).mono ?_
        intro _ _ outcome
        rcases outcome with ⟨memory, rfl, idle, -, frame⟩
        refine ⟨.idle shape.obj, rfl, ?_, idle, ?_, ?_, ?_⟩
        · simp [World.countErr, World.setClient, World.setWorker, World.logged,
            World.setMemory]
        · rw [Handling.lineEvents_rejected verdict]
          rfl
        · simpa [Handling.actionReply_complaint, World.offered, Socket.offer]
            using frame
        · exact ((Keeps.countErr c world).logged _).setMemory memory
  | some accepted =>
      obtain ⟨name, count, params⟩ := accepted
      have read := Reader.read_accepted verdict
      by_cases full : params.length = count
      · subst full
        rw [if_pos rfl] at read
        rw [read]
        exact clientEventLine_dispatches obeys serving session verdict
      · rw [if_neg full] at read
        rw [read, Handling.lineEvents_opens verdict full]
        constructor
        · intro fatal
          cases fatal
        · intro _
          refine (clientEventLine_opens proc session verdict full).mono ?_
          intro _ _ outcome
          rcases outcome with ⟨next, memory, rfl, -, reader, -, opened, frame⟩
          refine ⟨next, reader, rfl, opened, rfl, ?_, ?_⟩
          · simpa using frame
          · exact ((Keeps.refl c world).logged _).setMemory memory

/-! ## All lines of the buffer -/

/-- The lines that the loop takes from a buffer. -/
def linesOf (evbuf : Bytes) : List Bytes :=
  (split 10 evbuf).1.map chompCr

/-- What stays in the buffer. -/
def pendingOf (evbuf : Bytes) : Bytes :=
  (split 10 evbuf).2

/-- The reference reader on lines as C strings. -/
def Reader.readLines (reader : Reader) (lines : List Bytes) :
    Reader × List Action :=
  reader.readAll (lines.map cStr)

theorem Reader.readLines_cons (reader : Reader) (line : Bytes)
    (lines : List Bytes) :
    reader.readLines (line :: lines) =
      (((reader.read (cStr line)).1.readLines lines).1,
        (reader.read (cStr line)).2.toList ++
          ((reader.read (cStr line)).1.readLines lines).2) :=
  rfl

def World.setEvbuf (world : World) (c : Nat) (bytes : Bytes) : World :=
  world.setClient c fun client => { client with evbuf := bytes }

theorem Moved.setEvbuf (session : Session world c shape owned)
    (bytes : Bytes) :
    Moved c world (world.setEvbuf c bytes) shape owned [] [] where
  session := by
    refine ⟨⟨?_, ?_, session.msgAt, session.waiting⟩, session.holds⟩
    · simpa [World.setEvbuf, World.setClient] using session.msg
    · simpa [World.setEvbuf, World.setClient] using session.home
  trace := (List.append_nil _).symm
  frame := by
    rw [World.offered_nil]
    exact Frame.refl _ _
  keeps := (Keeps.refl c world).setClient (fun _ => rfl) fun _ => rfl

theorem clientEventLoop_pending {fuel : Nat}
    (proc : Nat → Ptr → WorldProgram CmdFuncRet)
    (whole : cutAt 10 (world.client c).evbuf = none) :
    clientEventLoop proc c (fuel + 1) world = .ok () world := by
  rw [clientEventLoop, bind_run_ok (get_run world)]
  simp only [evbufferReadln, whole, Option.map_none]
  rfl

theorem clientEventLoop_line {fuel : Nat} {line rest : Bytes}
    (proc : Nat → Ptr → WorldProgram CmdFuncRet)
    (cut : cutAt 10 (world.client c).evbuf = some (line, rest)) :
    clientEventLoop proc c (fuel + 1) world =
      (do
        clientEventLine proc c (chompCr line)
        clientEventLoop proc c fuel) (world.setEvbuf c rest) := by
  rw [clientEventLoop, bind_run_ok (get_run world)]
  simp only [evbufferReadln, cut, Option.map_some]
  rfl

/-- The loop does for each line what the reference reader says, in order. -/
theorem clientEventLoop_spec {commands : List Command} {ketama : Ketama}
    {proc : Nat → Ptr → WorldProgram CmdFuncRet} {handling : Handling}
    (obeys : Obeys commands ketama proc handling) {pieces : List Bytes}
    {rest : Bytes} {fuel : Nat} (enough : pieces.length < fuel)
    (serving : Serving commands ketama world)
    (session : Session world c shape owned)
    (found : split 10 (world.client c).evbuf = (pieces, rest)) :
    Follows handling c (clientEventLoop proc c fuel) world owned
      (shape.reader.readLines (pieces.map chompCr))
      (handling.linesEvents c shape.reader (pieces.map chompCr)) rest := by
  induction pieces generalizing fuel world shape with
  | nil =>
      obtain ⟨fuel, rfl⟩ : ∃ less, fuel = less + 1 := ⟨fuel - 1, by omega⟩
      cases cut : cutAt 10 (world.client c).evbuf with
      | none =>
          rw [split_of_no_cut cut] at found
          cases found
          exact (Follows.idle session).congr (Moved.refl session)
            (clientEventLoop_pending proc cut)
      | some parts =>
          rw [split_of_cut cut] at found
          cases found
  | cons piece pieces induction =>
      obtain ⟨fuel, rfl⟩ : ∃ less, fuel = less + 1 := ⟨fuel - 1, by omega⟩
      cases cut : cutAt 10 (world.client c).evbuf with
      | none =>
          rw [split_of_no_cut cut] at found
          cases found
      | some parts =>
          obtain ⟨line, later⟩ := parts
          rw [split_of_cut cut] at found
          cases found
          have start := Moved.setEvbuf session later
          have line := clientEventLine_spec obeys
            (start.keeps.serving serving) start.session (chompCr piece)
          rw [List.map_cons, Reader.readLines_cons, Handling.linesEvents]
          refine (line.bind ?_).congr start (clientEventLoop_line proc cut)
          intro middle next reader evbuf moved
          rw [← reader]
          refine induction (Nat.lt_of_succ_lt_succ enough)
            ((start.trans moved).keeps.serving serving) moved.session ?_
          rw [evbuf]
          simp [World.setEvbuf, World.setClient]

/-! ## Read events -/

/-- What a client has of a message: nothing before its first read. -/
def Attached (world : World) (c : Nat) : Option MsgShape → Prop
  | none => (world.client c).msg = none ∧ (world.client c).evbuf = []
  | some shape => Carries world c shape

def sessionCells (session : Option MsgShape) : Multiset Cell :=
  session.elim 0 MsgShape.cells

def readerOf (session : Option MsgShape) : Reader :=
  session.elim .idle MsgShape.reader

/-- The first read gives the client a message, and every read fills its
buffer. -/
theorem clientEventReceive_spec {handling : Handling}
    {session : Option MsgShape} (attached : Attached world c session)
    (holds : Holds world.memory (sessionCells session + owned))
    (input : Bytes) :
    Follows handling c (clientEventReceive c input) world owned
      (readerOf session, []) [] ((world.client c).evbuf ++ input) where
  crashes fatal := by cases fatal
  returns _ := by
    unfold clientEventReceive
    refine Yields.get_bind ?_
    cases session with
    | none =>
        obtain ⟨noMsg, -⟩ := attached
        rw [sessionCells, Option.elim_none, zero_add] at holds
        simp only [noMsg]
        refine Yields.bind (onMemory_yields (msgInit_spec holds
          (.worker (world.client c).worker))) ?_
        intro msg _ outcome
        rcases outcome with ⟨memory, rfl, home, msgAt, holdsAfter, frame⟩
        refine Yields.modify_bind (Yields.modify ⟨.idle msg, rfl, ?_, ?_⟩)
        · simp [World.setClient, World.setMemory]
        · refine ⟨⟨⟨?_, ?_, msgAt, MsgShape.idle_waiting msg⟩, holdsAfter⟩, ?_,
            ?_, ?_⟩
          · simp [World.setClient, MsgShape.idle]
          · simpa [World.setClient, World.setMemory, MsgShape.idle] using home
          · exact (List.append_nil _).symm
          · rw [List.filterMap_nil, World.offered_nil]
            exact frame
          · refine Keeps.setClient (Keeps.setClient
              ((Keeps.refl c world).setMemory memory) ?_ ?_) ?_ ?_
            all_goals exact fun _ => rfl
    | some shape =>
        have msg : (world.client c).msg = some shape.obj := attached.msg
        simp only [msg]
        refine Yields.bind_run (pure_run _ _) (Yields.modify ⟨shape, rfl, ?_,
          Moved.setEvbuf ⟨attached, holds⟩ _⟩)
        simp [World.setClient]

/-- A read event does for each line now complete what the reference reader
says. -/
theorem clientEventRead_spec {commands : List Command} {ketama : Ketama}
    {proc : Nat → Ptr → WorldProgram CmdFuncRet} {handling : Handling}
    (obeys : Obeys commands ketama proc handling)
    (serving : Serving commands ketama world) {session : Option MsgShape}
    (attached : Attached world c session)
    (holds : Holds world.memory (sessionCells session + owned))
    (input : Bytes) :
    Follows handling c (clientEventRead proc c input) world owned
      ((readerOf session).readLines
        (linesOf ((world.client c).evbuf ++ input)))
      (handling.linesEvents c (readerOf session)
        (linesOf ((world.client c).evbuf ++ input)))
      (pendingOf ((world.client c).evbuf ++ input)) := by
  refine (clientEventReceive_spec attached holds input).bind ?_
  intro middle next reader evbuf moved
  change next.reader = readerOf session at reader
  rw [← reader, ← evbuf]
  refine Follows.congr (Moved.refl moved.session) (bind_run_ok (get_run middle))
    ?_
  exact clientEventLoop_spec obeys
    (Nat.lt_succ_of_le (split_length_le 10 _)) (moved.keeps.serving serving)
    moved.session rfl

/-! ## Streams -/

theorem linesOf_append (first later : Bytes) :
    linesOf (first ++ later) =
      linesOf first ++ linesOf (pendingOf first ++ later) := by
  simp [linesOf, pendingOf, split_append first later]

theorem pendingOf_append (first later : Bytes) :
    pendingOf (first ++ later) = pendingOf (pendingOf first ++ later) := by
  simp [pendingOf, split_append first later]

theorem Reader.readLines_append (reader : Reader) (first later : List Bytes) :
    reader.readLines (first ++ later) =
      (((reader.readLines first).1.readLines later).1,
        (reader.readLines first).2 ++
          ((reader.readLines first).1.readLines later).2) := by
  unfold readLines
  rw [List.map_append, readAll_append]

theorem Handling.linesEvents_append (handling : Handling) (c : Nat)
    (reader : Reader) (first later : List Bytes) :
    handling.linesEvents c reader (first ++ later) =
      handling.linesEvents c reader first ++
        if (reader.readLines first).2.any handling.fatal then []
        else handling.linesEvents c (reader.readLines first).1 later := by
  induction first generalizing reader with
  | nil => rfl
  | cons line first induction =>
      rw [List.cons_append, linesEvents, linesEvents, induction,
        Reader.readLines_cons, List.any_append]
      cases (reader.read (cStr line)).2.toList.any handling.fatal <;> simp

/-- Read events one after the other. -/
def clientEventReads (proc : Nat → Ptr → WorldProgram CmdFuncRet) (c : Nat) :
    List Bytes → WorldProgram Unit
  | [] => pure ()
  | input :: later => do
      clientEventRead proc c input
      clientEventReads proc c later

/-- However a stream is cut, its read events do for each line what the
reference reader says. -/
theorem clientEventReads_spec {commands : List Command} {ketama : Ketama}
    {proc : Nat → Ptr → WorldProgram CmdFuncRet} {handling : Handling}
    (obeys : Obeys commands ketama proc handling)
    (serving : Serving commands ketama world) {session : Option MsgShape}
    (attached : Attached world c session)
    (holds : Holds world.memory (sessionCells session + owned))
    (input : Bytes) (later : List Bytes) :
    Follows handling c (clientEventReads proc c (input :: later)) world owned
      ((readerOf session).readLines
        (linesOf ((world.client c).evbuf ++ (input :: later).flatten)))
      (handling.linesEvents c (readerOf session)
        (linesOf ((world.client c).evbuf ++ (input :: later).flatten)))
      (pendingOf ((world.client c).evbuf ++ (input :: later).flatten)) := by
  induction later generalizing world session input with
  | nil =>
      have first := clientEventRead_spec obeys serving attached holds input
      rw [List.flatten_cons, List.flatten_nil, List.append_nil]
      change Follows handling c (clientEventRead proc c input >>= pure) _ _ _ _ _
      rw [bind_pure]
      exact first
  | cons next later induction =>
      have first := clientEventRead_spec obeys serving attached holds input
      rw [List.flatten_cons, ← List.append_assoc,
        linesOf_append ((world.client c).evbuf ++ input) (next :: later).flatten,
        pendingOf_append ((world.client c).evbuf ++ input)
          (next :: later).flatten,
        Reader.readLines_append, Handling.linesEvents_append]
      refine first.bind ?_
      intro middle shape reader evbuf moved
      rw [← reader, ← evbuf]
      exact @induction middle (moved.keeps.serving serving) (some shape)
        moved.session.toCarries moved.session.holds next

end KetamaRouter
