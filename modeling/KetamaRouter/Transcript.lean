import KetamaRouter.Schedules

/-!
# Transcripts of connections

What the router is for, seen from its clients: a service that answers each
message on the connection it came on, with one assignment of nodes to keys that
is the same for all clients, in all runs.  On every connection, in every run of
the router with any other clients, the bytes sent are the answers to what the
client has sent, up to the lines that still wait.
-/

namespace KetamaRouter

open FaultProgram LabelledRun Delimited

variable {host : Host} {world start after : World} {c : Nat}
  {happening : Happening} {happenings : List Happening} {handling : Handling}
  {behaviour : Nat → Nat → WriteResult} {view : ClientView}
  {events : List ClientEvent}

/-! ## What is said on a connection -/

/-- The answer to a message, for an assignment of nodes to keys. -/
def answer (node : Bytes → Bytes) : Action → Option Request
  | .wrongFormat => some (errorReply errWrongMsgFormatNo errWrongMsgFormat)
  | .wrongParam => some (errorReply errWrongParamFormatNo errWrongParamFormat)
  | .dispatch ⟨name, params⟩ =>
      if name = ascii "PING" then some pongReply
      else if name = ascii "GET" then
        match params with
        | .str key :: _ => some (nodeReply (node key))
        | _ => none
      else some unknownReply

/-- The bytes that a client has sent. -/
def heard (events : List ClientEvent) : Bytes :=
  events.flatMap fun event =>
    match event with
    | .receive input => input
    | .line _ _ => []

theorem heard_append (first later : List ClientEvent) :
    heard (first ++ later) = heard first ++ heard later :=
  List.flatMap_append

/-- The lines that the router has taken from them. -/
def taken (events : List ClientEvent) : List Bytes :=
  events.filterMap fun event =>
    match event with
    | .receive _ => none
    | .line line _ => some line

/-- What the lines taken so far amount to, for the reference reader. -/
def actionsOf (events : List ClientEvent) : List Action :=
  (Reader.idle.readLines (taken events)).2

theorem routing_actionReply (platform : Platform) (ketama : Ketama)
    (action : Action) :
    (routing platform ketama).actionReply action =
      answer (nodeAddress platform ketama) action := by
  cases action <;> rfl

/-! ## The view of a client as a transcript -/

/-- The view of a client is what its bytes and lines make of it. -/
structure Told (handling : Handling) (behaviour : Nat → Nat → WriteResult)
    (events : List ClientEvent) (view : ClientView) : Prop where
  lines : linesOf (heard events) = taken events ++ linesOf view.evbuf
  pending : pendingOf (heard events) = pendingOf view.evbuf
  reader : view.reader = (Reader.idle.readLines (taken events)).1
  socket : view.socket =
    Socket.offer { behaviour := behaviour, calls := 0, sent := [] }
      ((actionsOf events).filterMap handling.actionReply)

/-- Taking the first line of a buffer. -/
theorem linesOf_readln {evbuf line rest : Bytes}
    (found : evbufferReadln evbuf = some (line, rest)) :
    linesOf evbuf = line :: linesOf rest ∧ pendingOf evbuf = pendingOf rest := by
  obtain ⟨⟨head, tail⟩, cut, same⟩ := Option.map_eq_some_iff.mp found
  cases same
  unfold linesOf pendingOf
  rw [split_of_cut cut]
  exact ⟨rfl, rfl⟩

theorem Told.fresh (handling : Handling)
    (behaviour : Nat → Nat → WriteResult) :
    Told handling behaviour [] (.fresh behaviour) where
  lines := rfl
  pending := rfl
  reader := rfl
  socket := rfl

theorem Told.receive (told : Told handling behaviour events view)
    (input : Bytes) :
    Told handling behaviour (events ++ [.receive input])
      (view.step handling (.receive input)) := by
  have more : heard (events ++ [.receive input]) = heard events ++ input := by
    simp [heard]
  have same : taken (events ++ [.receive input]) = taken events := by
    simp [taken]
  constructor
  · rw [more, same, linesOf_append, told.lines, told.pending]
    change _ = taken events ++ linesOf (view.evbuf ++ input)
    rw [linesOf_append view.evbuf, List.append_assoc]
  · rw [more, pendingOf_append, told.pending]
    change _ = pendingOf (view.evbuf ++ input)
    rw [pendingOf_append view.evbuf]
  · rw [same]
    exact told.reader
  · rw [actionsOf, same]
    exact told.socket

theorem Told.line {line rest : Bytes}
    (told : Told handling behaviour events view)
    (found : evbufferReadln view.evbuf = some (line, rest)) :
    Told handling behaviour (events ++ [.line line rest])
      (view.step handling (.line line rest)) := by
  obtain ⟨lines, pending⟩ := linesOf_readln found
  have same : heard (events ++ [.line line rest]) = heard events := by
    simp [heard]
  have more : taken (events ++ [.line line rest]) = taken events ++ [line] := by
    simp [taken]
  have read := Reader.readLines_append .idle (taken events) [line]
  constructor
  · rw [same, more, told.lines, lines, List.append_assoc]
    rfl
  · rw [same, told.pending, pending]
    rfl
  · rw [more, read, ← told.reader]
    rfl
  · rw [actionsOf, more, read, ← told.reader, List.filterMap_append,
      Socket.offer_append]
    change view.socket.offer _ = _
    have alone : (view.reader.readLines [line]).2 =
        (view.reader.read (cStr line)).2.toList :=
      List.append_nil _
    rw [told.socket, alone]
    rfl

/-! ## Runs -/

/-- Every connection of a run has its transcript, and clients to come have done
nothing. -/
structure Transcribed (host : Host) (start : World)
    (happenings : List Happening) (world : World) : Prop where
  setup : SameSetup start world
  told : ∀ c ∈ world.connected, ∃ behaviour,
    Told (routing host.toPlatform start.server.ketama) behaviour
      (happenings.filterMap (Happening.ofClient c)) (world.view c)
  unheard : ∀ c, world.clientBrk ≤ c →
    happenings.filterMap (Happening.ofClient c) = [] ∧ world.requests c = []

/-- A client that stays connected has its transcript continued. -/
theorem Told.continued (reachable : Reachable host world)
    (happens : Happens host world happening after)
    (same : world.server.ketama = start.server.ketama)
    (told : Told (routing host.toPlatform start.server.ketama) behaviour
      (happenings.filterMap (Happening.ofClient c)) (world.view c))
    (connected : c ∈ world.connected) (still : c ∈ after.connected) :
    Told (routing host.toPlatform start.server.ketama) behaviour
      ((happenings ++ [happening]).filterMap (Happening.ofClient c))
      (after.view c) := by
  rw [happens.view reachable connected still, List.filterMap_append]
  cases own : happening.ofClient c with
  | none =>
      rw [World.viewAfter_foreign own, List.filterMap_cons_none own,
        List.filterMap_nil, List.append_nil]
      exact told
  | some event =>
      obtain ⟨done, -⟩ := happens.doing own
      rw [World.viewAfter_own own, same, List.filterMap_cons_some own,
        List.filterMap_nil]
      cases event with
      | receive input => exact told.receive input
      | line line rest =>
          subst done
          exact told.line happens.found

theorem Transcribed.step
    (transcribed : Transcribed host start happenings world)
    (reachable : Reachable host world)
    (happens : Happens host world happening after) :
    Transcribed host start (happenings ++ [happening]) after := by
  have setup := transcribed.setup
  have older : ∀ c ∈ world.connected, c ∈ after.connected → ∃ behaviour,
      Told (routing host.toPlatform start.server.ketama) behaviour
        ((happenings ++ [happening]).filterMap (Happening.ofClient c))
        (after.view c) := by
    intro c connected still
    obtain ⟨behaviour, told⟩ := transcribed.told c connected
    exact ⟨behaviour,
      told.continued reachable happens setup.ketama connected still⟩
  have unheard : ∀ c, world.clientBrk ≤ c →
      (happenings ++ [happening]).filterMap (Happening.ofClient c) = [] ∧
        after.requests c = [] := by
    intro c unknown
    obtain ⟨none, silent⟩ := transcribed.unheard c unknown
    exact happens.unheard reachable unknown none silent
  refine ⟨setup.trans (happens.setup reachable), ?_, ?_⟩
  · intro c still
    rcases happens.arrival reachable with ⟨-, before⟩ | admitted
    · exact older c (before c still) still
    · obtain ⟨sock, behaviour, accepts, ended, -, -⟩ := admitted
      subst accepts
      subst ended
      rcases List.mem_append.mp still with connected | taken
      · exact older c connected still
      · have newest : c = world.clientBrk := List.mem_singleton.mp taken
        subst newest
        obtain ⟨none, silent⟩ :=
          transcribed.unheard world.clientBrk (Nat.le_refl _)
        refine ⟨behaviour, ?_⟩
        rw [World.admitted_view sock behaviour silent, List.filterMap_append,
          none]
        exact Told.fresh _ behaviour
  · intro c unknown
    apply unheard c
    rcases happens.arrival reachable with ⟨same, -⟩ | admitted
    · exact same ▸ unknown
    · obtain ⟨sock, behaviour, -, ended, -, -⟩ := admitted
      rw [ended] at unknown
      exact Nat.le_of_succ_le unknown

theorem serverInit_transcribed {workers : Nat} {maxConnections : UInt64}
    (ran : serverInit host.toPlatform workers maxConnections = .ok start) :
    Transcribed host start [] start := by
  obtain ⟨ketama, built, -⟩ := ketamaBuild_serverRegistrations host
  unfold serverInit at ran
  rw [built] at ran
  cases ran
  refine ⟨⟨rfl, rfl, rfl⟩, ?_, ?_⟩
  · intro c connected
    cases connected
  · intro c _
    exact ⟨rfl, rfl⟩

/-- Every start of the router builds the same ring. -/
theorem serverInit_ketama {workers : Nat} {maxConnections : UInt64}
    (ran : serverInit host.toPlatform workers maxConnections = .ok start) :
    ketamaBuild host.toPlatform serverRegistrations =
      .ok start.server.ketama := by
  obtain ⟨ketama, built, -⟩ := ketamaBuild_serverRegistrations host
  unfold serverInit at ran
  rw [built] at ran ⊢
  cases ran
  rfl

theorem Reachable.transcribed (reachable : Reachable host start)
    (run : Run (Happens host) start happenings world)
    (first : Transcribed host start [] start) :
    Transcribed host start happenings world := by
  induction run with
  | nil => exact first
  | snoc run happens induction =>
      exact induction.step (reachable.run run) happens

/-! ## Sockets -/

/-- A socket that takes everything has done so before. -/
theorem Socket.Accepting.of_offer {socket : Socket} {replies : List Request}
    (accepting : (socket.offer replies).Accepting) : socket.Accepting := by
  unfold Socket.Accepting at accepting ⊢
  rw [socket.offer_behaviour] at accepting
  exact accepting

/-- Whoever takes everything reads the answers. -/
theorem Told.reads {ketama : Ketama} (ring : Routing host ketama)
    (told : Told (routing host.toPlatform ketama) behaviour events view)
    (accepting : view.socket.Accepting) :
    messagesIn view.socket.sent = some ((actionsOf events).filterMap
      (answer (nodeAddress host.toPlatform ketama))) := by
  have replies := told.socket
  rw [funext (routing_actionReply host.toPlatform ketama)] at replies
  rw [replies] at accepting ⊢
  have wellFormed : ∀ reply ∈ (actionsOf events).filterMap
      (answer (nodeAddress host.toPlatform ketama)), reply.WellFormed := by
    intro reply member
    obtain ⟨action, -, same⟩ := List.mem_filterMap.mp member
    rw [← routing_actionReply] at same
    exact routing_reply_wellFormed ring same
  have short : ∀ reply ∈ (actionsOf events).filterMap
      (answer (nodeAddress host.toPlatform ketama)),
      ∀ piece ∈ reply.pieces, piece.length ≤ intMax := by
    intro reply member
    obtain ⟨action, -, same⟩ := List.mem_filterMap.mp member
    rw [← routing_actionReply] at same
    exact routing_reply_short ring same
  rw [accepting.of_offer.offer wellFormed short]
  exact messagesIn_wires wellFormed

/-- Every connection of a run has its transcript. -/
theorem serverInit_told {workers : Nat} {maxConnections : UInt64}
    (ran : serverInit host.toPlatform workers maxConnections = .ok start)
    (run : Run (Happens host) start happenings world)
    (connected : c ∈ world.connected) :
    ∃ behaviour, Told (routing host.toPlatform start.server.ketama) behaviour
      (happenings.filterMap (Happening.ofClient c)) (world.view c) :=
  ((Reachable.start ran).transcribed run (serverInit_transcribed ran)).told c
    connected

/-- The router takes a line. -/
def Happening.IsLine (happening : Happening) : Prop :=
  ∃ c line rest, happening = .line c line rest

/-- Lines say nothing new. -/
theorem heard_lines {steps : List Happening}
    (lines : ∀ step ∈ steps, step.IsLine) :
    heard (steps.filterMap (Happening.ofClient c)) = [] := by
  apply List.flatMap_eq_nil_iff.mpr
  intro event member
  obtain ⟨step, inside, own⟩ := List.mem_filterMap.mp member
  obtain ⟨other, line, rest, isLine⟩ := lines step inside
  rw [isLine] at own
  by_cases same : other = c
  · rw [same, Happening.ofClient_line] at own
    cases own
    rfl
  · rw [Happening.ofClient_line_of_ne same] at own
    cases own

/-- Once no line waits, everything said before has its answer. -/
theorem Told.answered {ketama : Ketama} {steps : List Happening}
    (ring : Routing host ketama)
    (told : Told (routing host.toPlatform ketama) behaviour
      ((happenings ++ steps).filterMap (Happening.ofClient c)) (world.view c))
    (lines : ∀ step ∈ steps, step.IsLine)
    (empty : linesOf (world.client c).evbuf = [])
    (accepting : (world.memory.socket (world.client c).socket).Accepting) :
    messagesIn (world.memory.socket (world.client c).socket).sent =
      some ((Reader.idle.readLines (linesOf
        (heard (happenings.filterMap (Happening.ofClient c))))).2.filterMap
          (answer (nodeAddress host.toPlatform ketama))) := by
  have all : taken ((happenings ++ steps).filterMap (Happening.ofClient c)) =
      linesOf (heard (happenings.filterMap (Happening.ofClient c))) := by
    have whole := told.lines
    change linesOf _ = _ ++ linesOf (world.client c).evbuf at whole
    rw [empty, List.append_nil] at whole
    rw [← whole, List.filterMap_append, heard_append, heard_lines lines,
      List.append_nil]
  have reads := told.reads ring accepting
  rw [actionsOf, all] at reads
  exact reads

/-! ## Lines that wait -/

/-- A client with no complete line waiting has none to take. -/
theorem linesOf_eq_nil {evbuf : Bytes} (none : evbufferReadln evbuf = none) :
    linesOf evbuf = [] := by
  unfold linesOf
  rw [split_of_no_cut (Option.map_eq_none_iff.mp none)]
  rfl

/-- What the waiting lines of a client will make the router do. -/
def World.waiting (world : World) (c : Nat) : List Action :=
  ((clientReader world c).readLines (linesOf (world.client c).evbuf)).2

/-- A line that is taken is the first of those that wait. -/
theorem Happens.line_waits {line rest : Bytes} (reachable : Reachable host world)
    (happens : Happens host world (.line c line rest) after)
    (connected : c ∈ world.connected) :
    linesOf (world.client c).evbuf =
        line :: linesOf (after.client c).evbuf ∧
      world.waiting c = (lineAction world c line).toList ++ after.waiting c := by
  have own := Happening.ofClient_line c line rest
  have view := happens.view reachable connected
    (happens.stays reachable own connected)
  rw [World.viewAfter_own own] at view
  have evbuf : (after.client c).evbuf = rest :=
    congrArg ClientView.evbuf view
  have reader : clientReader after c =
      ((clientReader world c).read (cStr line)).1 :=
    congrArg ClientView.reader view
  have cut := (linesOf_readln happens.found).1
  rw [← evbuf] at cut
  refine ⟨cut, ?_⟩
  rw [World.waiting, World.waiting, cut, Reader.readLines_cons, reader]
  rfl

/-- The other clients see nothing of it. -/
theorem Happens.line_others {line rest : Bytes} {other : Nat}
    (reachable : Reachable host world)
    (happens : Happens host world (.line c line rest) after)
    (member : other ∈ world.connected) (apart : other ≠ c) :
    other ∈ after.connected ∧ after.view other = world.view other := by
  have still := happens.stays reachable (Happening.ofClient_line c line rest)
    member
  refine ⟨still, ?_⟩
  rw [happens.view reachable member still, World.viewAfter_foreign
    (Happening.ofClient_line_of_ne (Ne.symm apart) line rest)]

/-- A line that waits can be taken, unless it is fatal. -/
theorem Reachable.takes (reachable : Reachable host world)
    (connected : c ∈ world.connected)
    (waits : linesOf (world.client c).evbuf ≠ [])
    (safe : .dispatch ⟨ascii "GET", []⟩ ∉ world.waiting c) :
    ∃ line rest after, Happens host world (.line c line rest) after := by
  cases found : evbufferReadln (world.client c).evbuf with
  | none => exact absurd (linesOf_eq_nil found) waits
  | some pair =>
      obtain ⟨line, rest⟩ := pair
      rw [World.waiting, (linesOf_readln found).1, Reader.readLines_cons] at safe
      have harmless : lineAction world c line ≠
          some (.dispatch ⟨ascii "GET", []⟩) := fun fatal =>
        safe (List.mem_append_left _ (Option.mem_toList.mpr fatal))
      obtain ⟨after, happens⟩ := reachable.processes connected found harmless
      exact ⟨line, rest, after, happens⟩

/-- There is one assignment of nodes to keys, for all runs of the router and all
clients in them: the socket of a client has been offered the answers to the
messages that the client has sent, up to those in lines that still wait, and if it
takes what it is offered, the client reads exactly these answers. -/
theorem transcripts (host : Host) :
    ∃ node : Bytes → Bytes,
      (∀ key, ∃ registration ∈ serverRegistrations,
        node key = serverAddr registration.addr registration.port) ∧
      ∀ {workers maxConnections start happenings world c},
        serverInit host.toPlatform workers maxConnections = .ok start →
        Run (Happens host) start happenings world → c ∈ world.connected →
        let events := happenings.filterMap (Happening.ofClient c)
        let answers := (actionsOf events).filterMap (answer node)
        let socket := world.memory.socket (world.client c).socket
        linesOf (heard events) =
          taken events ++ linesOf (world.client c).evbuf ∧
        (∃ behaviour, socket =
          Socket.offer { behaviour := behaviour, calls := 0, sent := [] }
            answers) ∧
        (socket.Accepting → messagesIn socket.sent = some answers) := by
  obtain ⟨ketama, built, ring⟩ := ketamaBuild_serverRegistrations host
  refine ⟨nodeAddress host.toPlatform ketama, ?_, ?_⟩
  · intro key
    obtain ⟨index, bound, -, address⟩ := ring.1.route ring.2 key
    exact ⟨_, List.getElem_mem bound, address⟩
  · intro workers maxConnections start happenings world c ran run connected
    have same := serverInit_ketama ran
    rw [built] at same
    cases same
    obtain ⟨behaviour, told⟩ := serverInit_told ran run connected
    have replies := told.socket
    rw [funext (routing_actionReply host.toPlatform start.server.ketama)]
      at replies
    exact ⟨told.lines, ⟨behaviour, replies⟩, told.reads ring⟩

theorem transcripts_turns :
    ∃ node : Bytes → Bytes, ∃ start world,
      serverInit Host.standard.toPlatform 1 8 = .ok start ∧
      Run (Happens Host.standard) start (twoSenders ++ twoTurns) world ∧
      (∃ registration ∈ serverRegistrations, node (ascii "k") =
        serverAddr registration.addr registration.port) ∧
      messagesIn (world.memory.socket (world.client 0).socket).sent =
        some [nodeReply (node (ascii "k"))] ∧
      messagesIn (world.memory.socket (world.client 1).socket).sent =
        some [unknownReply, errorReply errWrongMsgFormatNo errWrongMsgFormat,
          pongReply] := by
  obtain ⟨start, world, ran, -, run, attends⟩ :=
    @Host.schedule (twoSenders ++ twoTurns) Host.standard 1 (by decide) 8 _
      fun handling => rfl
  have connected : world.connected = [0, 1] := attends.shows.connected
  obtain ⟨node, nodes, all⟩ := transcripts Host.standard
  obtain ⟨-, -, first⟩ := @all _ _ _ _ _ 0 ran run (by simp [connected])
  obtain ⟨-, -, second⟩ := @all _ _ _ _ _ 1 ran run (by simp [connected])
  refine ⟨node, start, world, ran, run, nodes (ascii "k"), ?_, ?_⟩
  · exact first (attends.accepting List.mem_cons_self rfl)
  · exact second (attends.accepting
      (List.mem_cons_of_mem _ List.mem_cons_self) rfl)

end KetamaRouter
