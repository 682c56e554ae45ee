import KetamaRouter.ConnectionStatistics

/-!
# What clients see

The router knows of a client what it has read from it and what it has not, and
shows it what it writes to its socket.  A step of a client moves its own view by a
function of that view, and a step of another client leaves the view alone, though
the messages of all clients are built from the same recycled objects.
-/

namespace KetamaRouter

open FaultProgram LabelledRun

variable {host : Host} {platform : Platform} {ketama : Ketama}
  {world start after : World} {c other : Nat} {happening : Happening}
  {happenings : List Happening} {owned : Multiset Cell}

/-! ## Views -/

/-- What a client does to the router. -/
inductive ClientEvent where
  | receive (input : Bytes)
  | line (line rest : Bytes)

/-- What the client `c` does in a step, if the step is its own. -/
def Happening.ofClient (c : Nat) : Happening → Option ClientEvent
  | .receive client input => if client = c then some (.receive input) else none
  | .line client text rest =>
      if client = c then some (.line text rest) else none
  | _ => none

/-- The client `c` does something. -/
def ClientEvent.by (c : Nat) : ClientEvent → Happening
  | .receive input => .receive c input
  | .line text rest => .line c text rest

/-- The request that an event hands to a handler for the client `c`. -/
def Event.requestOf (c : Nat) : Event → Option (Option Request)
  | .dispatch client request => if client = c then some request else none
  | _ => none

/-- The requests dispatched for a client, oldest first. -/
def World.requests (world : World) (c : Nat) : List (Option Request) :=
  world.trace.filterMap (Event.requestOf c)

/-- What the router knows of a client and shows to it. -/
@[ext] structure ClientView where
  reader : Reader
  evbuf : Bytes
  requests : List (Option Request)
  socket : Socket

def World.view (world : World) (c : Nat) : ClientView where
  reader := clientReader world c
  evbuf := (world.client c).evbuf
  requests := world.requests c
  socket := world.memory.socket (world.client c).socket

/-- The view of a client that was just taken in. -/
def ClientView.fresh (behaviour : Nat → Nat → WriteResult) : ClientView where
  reader := .idle
  evbuf := []
  requests := []
  socket := { behaviour := behaviour, calls := 0, sent := [] }

def Action.request : Action → Option (Option Request)
  | .dispatch request => some (some request)
  | .wrongFormat => none
  | .wrongParam => none

/-- How an event of its own moves the view of a client. -/
def ClientView.step (handling : Handling) (view : ClientView) :
    ClientEvent → ClientView
  | .receive input => { view with evbuf := view.evbuf ++ input }
  | .line line rest =>
      let outcome := view.reader.read (cStr line)
      { reader := outcome.1
        evbuf := rest
        requests := view.requests ++ outcome.2.toList.filterMap Action.request
        socket := view.socket.offer
          (outcome.2.toList.filterMap handling.actionReply) }

/-! ## Sockets -/

theorem Socket.write_behaviour (socket : Socket) (bytes : Bytes) :
    (socket.write bytes).2.behaviour = socket.behaviour := by
  unfold Socket.write
  split <;> rfl

theorem Socket.writeAll_behaviour (socket : Socket) (pieces : List Bytes) :
    (socket.writeAll pieces).2.behaviour = socket.behaviour := by
  induction pieces generalizing socket with
  | nil => rfl
  | cons piece pieces induction =>
      rw [Socket.writeAll]
      split
      · exact socket.write_behaviour piece
      · exact (induction _).trans (socket.write_behaviour piece)

theorem Socket.offer_behaviour (socket : Socket) (replies : List Request) :
    (socket.offer replies).behaviour = socket.behaviour := by
  induction replies generalizing socket with
  | nil => rfl
  | cons reply replies induction =>
      exact (induction _).trans (socket.writeAll_behaviour _)

/-- Nothing that a client does changes what its socket takes. -/
theorem ClientView.step_behaviour (handling : Handling) (view : ClientView)
    (event : ClientEvent) :
    (view.step handling event).socket.behaviour = view.socket.behaviour := by
  cases event with
  | receive input => rfl
  | line line rest => exact view.socket.offer_behaviour _

/-! ## Requests in the trace -/

theorem routing_events_requests (client : Nat) (request : Request) :
    ((routing platform ketama).events client request).filterMap
      (Event.requestOf c) = [] := by
  change (List.map _ _).filterMap (Event.requestOf c) = []
  rw [List.filterMap_map]
  exact List.filterMap_eq_nil_iff.mpr fun _ _ => rfl

theorem actionEvents_requests (action : Action) :
    ((routing platform ketama).actionEvents c action).filterMap
      (Event.requestOf c) = action.request.toList := by
  cases action with
  | dispatch request =>
      change (Event.dispatch c (some request) :: _).filterMap _ = _
      rw [List.filterMap_cons, routing_events_requests]
      simp [Event.requestOf, Action.request]
  | wrongFormat => rfl
  | wrongParam => rfl

theorem actionEvents_others (apart : other ≠ c) (action : Action) :
    ((routing platform ketama).actionEvents other action).filterMap
      (Event.requestOf c) = [] := by
  cases action with
  | dispatch request =>
      change (Event.dispatch other (some request) :: _).filterMap _ = _
      rw [List.filterMap_cons, routing_events_requests]
      simp [Event.requestOf, apart]
  | wrongFormat => rfl
  | wrongParam => rfl

theorem lineEvents_requests (reader : Reader) (line : Bytes) :
    ((routing platform ketama).lineEvents c reader line).filterMap
        (Event.requestOf c) =
      (reader.read (cStr line)).2.toList.filterMap Action.request := by
  unfold Handling.lineEvents
  cases (reader.read (cStr line)).2 with
  | none => rfl
  | some action =>
      rw [Option.toList_some, List.flatMap_singleton, List.filterMap_cons_none,
        actionEvents_requests]
      · cases request : action.request <;> simp [request]
      · rfl

theorem lineEvents_others (apart : other ≠ c) (reader : Reader)
    (line : Bytes) :
    ((routing platform ketama).lineEvents other reader line).filterMap
      (Event.requestOf c) = [] := by
  unfold Handling.lineEvents
  cases (reader.read (cStr line)).2 with
  | none => rfl
  | some action =>
      rw [Option.toList_some, List.flatMap_singleton, List.filterMap_cons_none,
        actionEvents_others apart]
      rfl

/-! ## Steps -/

variable {sessions : Nat → Option MsgShape} {next : MsgShape}
  {events : List Event} {replies : List Request}

theorem World.requests_append (events : List Event)
    (trace : after.trace = world.trace ++ events) :
    after.requests c =
      world.requests c ++ events.filterMap (Event.requestOf c) := by
  rw [World.requests, trace, List.filterMap_append]
  rfl

/-- A client that did something sees what became of its own message. -/
theorem Coherent.own_view (coherent : Coherent host world sessions)
    (connected : c ∈ world.connected)
    (moved : Moved c world after next
      (heldBy sessions (world.connected.erase c)) events replies) :
    after.view c =
      { reader := next.reader
        evbuf := (after.client c).evbuf
        requests := world.requests c ++ events.filterMap (Event.requestOf c)
        socket := (world.view c).socket.offer replies } := by
  have later := coherent.moved connected moved
  apply ClientView.ext
  · change clientReader after c = _
    rw [later.clientReader_eq (moved.keeps.connected ▸ connected),
      Function.update_self]
    rfl
  · rfl
  · exact World.requests_append events moved.trace
  · change after.memory.socket (after.client c).socket = _
    rw [moved.keeps.socket, moved.frame.socket]
    exact Function.update_self _ _ _

/-- What a client does to itself is not seen by the others. -/
theorem Coherent.others_view (coherent : Coherent host world sessions)
    (connected : c ∈ world.connected) (doing : other ∈ world.connected)
    (apart : c ≠ other)
    (moved : Moved other world after next
      (heldBy sessions (world.connected.erase other)) events replies)
    (silent : events.filterMap (Event.requestOf c) = []) :
    after.view c = world.view c := by
  have later := coherent.moved doing moved
  have same := moved.keeps.others c apart
  apply ClientView.ext
  · change clientReader after c = clientReader world c
    rw [later.clientReader_eq (moved.keeps.connected ▸ connected),
      Function.update_of_ne apart, coherent.clientReader_eq connected]
  · change (after.client c).evbuf = _
    rw [same]
    rfl
  · change after.requests c = world.requests c
    rw [World.requests_append events moved.trace, silent, List.append_nil]
  · change after.memory.socket (after.client c).socket = _
    rw [same, moved.frame.socket]
    apply Function.update_of_ne
    intro shared
    exact apart (coherent.sockets c connected other doing shared)

/-- Neither new connections nor the end of others are seen by a client. -/
theorem Coherent.same_view {others : Nat → Option MsgShape}
    (coherent : Coherent host world sessions)
    (later : Coherent host after others) (connected : c ∈ world.connected)
    (still : c ∈ after.connected) (session : others c = sessions c)
    (client : after.client c = world.client c)
    (trace : after.trace = world.trace)
    (socket : after.memory.socket (world.client c).socket =
      world.memory.socket (world.client c).socket) :
    after.view c = world.view c := by
  apply ClientView.ext
  · change clientReader after c = clientReader world c
    rw [later.clientReader_eq still, session, coherent.clientReader_eq connected]
  · change (after.client c).evbuf = _
    rw [client]
    rfl
  · change after.trace.filterMap _ = _
    rw [trace]
    rfl
  · change after.memory.socket (after.client c).socket = _
    rw [client, socket]
    rfl

theorem Coherent.accept_view {sock : Nat}
    {behaviour : Nat → Nat → WriteResult}
    (coherent : Coherent host world sessions) (connected : c ∈ world.connected)
    (happens : Happens host world (.accept sock behaviour) after) :
    after.view c = world.view c := by
  cases happens with
  | accept unused ran =>
      have apart := unused c connected
      have opened := coherent.opened sock behaviour
      cases serverEventAccept_cases ran with
      | inl refused =>
          obtain ⟨-, res, refused⟩ := refused
          obtain ⟨memory, ended, -, frame⟩ :=
            (coherent.refuses sock behaviour).result refused
          have later := coherent.refused refused
          rw [ended] at later ⊢
          apply coherent.same_view later connected connected rfl rfl rfl
          change memory.socket _ = _
          rw [frame.socket]
          exact (Function.update_of_ne apart _ _).trans
            (Function.update_of_ne apart _ _)
      | inr admitted =>
          have older := Nat.ne_of_lt (coherent.known c connected)
          rw [admitted.2.2]
          apply coherent.same_view (opened.admitted unused) connected
          · exact List.mem_append_left _ connected
          · exact Function.update_of_ne older _ _
          · exact World.admitted_client_of_ne sock older
          · rfl
          · exact Function.update_of_ne apart _ _

theorem Coherent.release_view (coherent : Coherent host world sessions)
    (connected : c ∈ world.connected) (still : c ∈ after.connected)
    (happens : Happens host world (.release other) after) :
    after.view c = world.view c := by
  cases happens with
  | release leaving ran =>
      have later := coherent.released leaving ran
      obtain ⟨memory, ended, -, frame⟩ :=
        (clientConnectionRelease_spec coherent leaving).result ran
      rw [ended] at later still ⊢
      apply coherent.same_view later connected still rfl rfl rfl
      change memory.socket _ = _
      rw [frame.socket]

/-- The view of a client after a step: its own steps move it, those of others do
not. -/
def World.viewAfter (host : Host) (world : World) (c : Nat)
    (happening : Happening) : ClientView :=
  match happening.ofClient c with
  | none => world.view c
  | some event =>
      (world.view c).step (routing host.toPlatform world.server.ketama) event

theorem World.viewAfter_own {event : ClientEvent}
    (own : happening.ofClient c = some event) :
    world.viewAfter host c happening =
      (world.view c).step (routing host.toPlatform world.server.ketama)
        event := by
  unfold World.viewAfter
  rw [own]

theorem World.viewAfter_foreign (foreign : happening.ofClient c = none) :
    world.viewAfter host c happening = world.view c := by
  unfold World.viewAfter
  rw [foreign]

theorem Happening.ofClient_receive (c : Nat) (input : Bytes) :
    (Happening.receive c input).ofClient c = some (.receive input) :=
  if_pos rfl

theorem Happening.ofClient_line (c : Nat) (text rest : Bytes) :
    (Happening.line c text rest).ofClient c = some (.line text rest) :=
  if_pos rfl

theorem ClientEvent.ofClient_by (event : ClientEvent) (c : Nat) :
    (event.by c).ofClient c = some event := by
  cases event with
  | receive input => exact Happening.ofClient_receive c input
  | line text rest => exact Happening.ofClient_line c text rest

theorem Happening.ofClient_receive_of_ne (apart : other ≠ c) (input : Bytes) :
    (Happening.receive other input).ofClient c = none :=
  if_neg apart

theorem Happening.ofClient_line_of_ne (apart : other ≠ c) (text rest : Bytes) :
    (Happening.line other text rest).ofClient c = none :=
  if_neg apart

theorem Coherent.receive_view {input : Bytes}
    (coherent : Coherent host world sessions) (connected : c ∈ world.connected)
    (happens : Happens host world (.receive other input) after) :
    after.view c = world.viewAfter host c (.receive other input) := by
  cases happens with
  | receive doing ran =>
      obtain ⟨-, next, reader, evbuf, moved⟩ :=
        (@clientEventReceive_spec world _ other observed _
          (coherent.attached other doing) (coherent.holdsOne doing)
          input).result ran
      by_cases own : other = c
      · subst own
        rw [World.viewAfter_own (Happening.ofClient_receive other input),
          coherent.own_view doing moved, evbuf, reader]
        apply ClientView.ext
        · exact (coherent.clientReader_eq doing).symm
        · rfl
        · exact List.append_nil _
        · rfl
      · rw [World.viewAfter_foreign (Happening.ofClient_receive_of_ne own input)]
        exact coherent.others_view connected doing (Ne.symm own) moved rfl

theorem Coherent.line_view {line rest : Bytes}
    (coherent : Coherent host world sessions)
    (serving : Routing host world.server.ketama ∧
      Serving commandListLoad world.server.ketama world)
    (connected : c ∈ world.connected)
    (happens : Happens host world (.line other line rest) after) :
    after.view c = world.viewAfter host c (.line other line rest) := by
  cases happens with
  | line doing found ran =>
      obtain ⟨shape, session, begun, follows⟩ :=
        coherent.line serving.1 serving.2 doing found
      obtain ⟨-, next, reader, evbuf, moved⟩ := follows.result ran
      have whole := begun.trans moved
      have current := coherent.clientReader_eq doing
      rw [session] at current
      change clientReader world other = shape.reader at current
      by_cases own : other = c
      · subst own
        rw [World.viewAfter_own (Happening.ofClient_line other line rest),
          coherent.own_view doing whole, evbuf, reader, List.nil_append,
          List.nil_append, lineEvents_requests, ← current]
        simp [ClientView.step, World.view]
      · rw [World.viewAfter_foreign
          (Happening.ofClient_line_of_ne own line rest)]
        apply coherent.others_view connected doing (Ne.symm own) whole
        rw [List.nil_append]
        exact lineEvents_others own _ _

/-- Every step moves the view of a client that stays as it should. -/
theorem Happens.view (reachable : Reachable host world)
    (happens : Happens host world happening after)
    (connected : c ∈ world.connected) (still : c ∈ after.connected) :
    after.view c = world.viewAfter host c happening := by
  obtain ⟨sessions, coherent⟩ := reachable.coherent
  cases happening with
  | accept sock behaviour => exact coherent.accept_view connected happens
  | receive client input => exact coherent.receive_view connected happens
  | line client text rest =>
      exact coherent.line_view reachable.serving connected happens
  | release client => exact coherent.release_view connected still happens

/-- A client that is taken in sees a fresh router. -/
theorem World.admitted_view (sock : Nat) (behaviour : Nat → Nat → WriteResult)
    (unheard : world.requests world.clientBrk = []) :
    ((world.openSocket sock behaviour).admitted sock).view world.clientBrk =
      .fresh behaviour := by
  have client := @World.admitted_client (world.openSocket sock behaviour) sock
  change World.client _ world.clientBrk = _ at client
  apply ClientView.ext
  · exact clientReader_fresh (by rw [client])
  · change (World.client _ world.clientBrk).evbuf = _
    rw [client]
    rfl
  · exact unheard
  · change ((world.openSocket sock behaviour).admitted sock).memory.socket
      (((world.openSocket sock behaviour).admitted sock).client
        world.clientBrk).socket = _
    rw [client]
    exact Function.update_self _ _ _

/-! ## What steps leave alone -/

/-- The part of the server that is settled before the first connection. -/
structure SameSetup (start world : World) : Prop where
  ketama : world.server.ketama = start.server.ketama
  maxConnections : world.server.maxConnections = start.server.maxConnections
  workerCount : world.server.workerCount = start.server.workerCount

theorem SameSetup.trans {middle : World} (first : SameSetup start middle)
    (second : SameSetup middle world) : SameSetup start world where
  ketama := second.ketama.trans first.ketama
  maxConnections := second.maxConnections.trans first.maxConnections
  workerCount := second.workerCount.trans first.workerCount

theorem World.counting_setup (action : Option Action) :
    SameSetup world (world.counting c action) := by
  unfold World.counting
  split
  · exact ⟨rfl, rfl, rfl⟩
  · split <;> exact ⟨rfl, rfl, rfl⟩
  · exact ⟨rfl, rfl, rfl⟩
  · exact ⟨rfl, rfl, rfl⟩

theorem World.admitted_setup (sock : Nat) :
    SameSetup world (world.admitted sock) := by
  have server : (world.admitted sock).server =
      if world.server.connCurCount > world.server.connMax then
        { world.server with connMax := world.server.connCurCount }
      else world.server := rfl
  constructor <;>
    rw [server] <;>
    split <;>
    rfl

theorem Happens.setup (reachable : Reachable host world)
    (happens : Happens host world happening after) :
    SameSetup world after := by
  cases happens.effect reachable with
  | refused full => exact ⟨rfl, rfl, rfl⟩
  | @admitted sock behaviour room workers =>
      have same := @World.admitted_setup (world.openSocket sock behaviour) sock
      exact ⟨same.ketama, same.maxConnections, same.workerCount⟩
  | received connected => exact ⟨rfl, rfl, rfl⟩
  | @processed client text rest memory connected =>
      have same := @World.counting_setup (world.setEvbuf client rest) client
        (lineAction world client text)
      exact ⟨same.ketama, same.maxConnections, same.workerCount⟩
  | released connected => exact ⟨rfl, rfl, rfl⟩

theorem Happens.setupRun (reachable : Reachable host start)
    (run : Run (Happens host) start happenings world) :
    SameSetup start world := by
  induction run with
  | nil => exact ⟨rfl, rfl, rfl⟩
  | snoc run happens induction =>
      exact induction.trans (happens.setup (reachable.run run))

/-- The requests of a client that did nothing are what they were. -/
theorem Happens.requests (reachable : Reachable host world)
    (happens : Happens host world happening after)
    (foreign : happening.ofClient c = none) :
    after.requests c = world.requests c := by
  cases happens.effect reachable with
  | refused full => rfl
  | admitted room workers => rfl
  | received connected => rfl
  | @processed client text rest memory connected =>
      have apart : client ≠ c := by
        intro same
        rw [Happening.ofClient, if_pos same] at foreign
        cases foreign
      have counted := @World.counting_trace (world.setEvbuf client rest) client
        (lineAction world client text)
      rw [World.requests_append _ (congrArg (· ++ _) counted)]
      change world.requests c ++ _ = _
      rw [lineEvents_others apart, List.append_nil]
  | released connected => rfl

/-- What happens is not the line that crashes a handler. -/
theorem Happens.safe {line rest : Bytes} (reachable : Reachable host world)
    (happens : Happens host world (.line c line rest) after) :
    lineAction world c line ≠ some (.dispatch ⟨ascii "GET", []⟩) := by
  obtain ⟨sessions, coherent⟩ := reachable.coherent
  obtain ⟨ring, serving⟩ := reachable.serving
  cases happens with
  | line connected found ran =>
      obtain ⟨shape, session, -, follows⟩ :=
        coherent.line ring serving connected found
      obtain ⟨harmless, -⟩ := follows.result ran
      have reader := coherent.clientReader_eq connected
      rw [session] at reader
      change clientReader world c = shape.reader at reader
      intro crash
      rw [lineAction, reader] at crash
      rw [crash, Option.toList_some, List.any_cons, Bool.or_eq_false_iff]
        at harmless
      have fatal := (@routing_crashes host.toPlatform world.server.ketama
        ⟨ascii "GET", []⟩).mpr rfl
      exact Bool.false_ne_true (harmless.1.symm.trans fatal)

/-- Steps with an event of a client are steps of a connected client, which stays
connected. -/
theorem Happens.stays {event : ClientEvent} (reachable : Reachable host world)
    (happens : Happens host world happening after)
    (own : happening.ofClient other = some event)
    (connected : c ∈ world.connected) : c ∈ after.connected := by
  cases happens.effect reachable with
  | refused full => cases own
  | admitted room workers => cases own
  | received doing => exact connected
  | @processed client text rest memory doing =>
      change c ∈ (World.counting _ client _).connected
      rw [(World.counting_clients _).1]
      exact connected
  | released leaving => cases own

theorem Happens.doing {event : ClientEvent}
    (happens : Happens host world happening after)
    (own : happening.ofClient c = some event) :
    happening = event.by c ∧ c ∈ world.connected := by
  cases happens with
  | accept unused ran => cases own
  | @receive client input after connected ran =>
      by_cases same : client = c
      · subst same
        rw [Happening.ofClient_receive] at own
        cases own
        exact ⟨rfl, connected⟩
      · rw [Happening.ofClient_receive_of_ne same] at own
        cases own
  | @line client text rest after connected found ran =>
      by_cases same : client = c
      · subst same
        rw [Happening.ofClient_line] at own
        cases own
        exact ⟨rfl, connected⟩
      · rw [Happening.ofClient_line_of_ne same] at own
        cases own
  | release connected ran => cases own

/-- A step takes in the next client, or nobody. -/
theorem Happens.arrival (reachable : Reachable host world)
    (happens : Happens host world happening after) :
    (after.clientBrk = world.clientBrk ∧
        ∀ c ∈ after.connected, c ∈ world.connected) ∨
      ∃ sock behaviour, happening = .accept sock behaviour ∧
        after = (world.openSocket sock behaviour).admitted sock ∧
        world.server.maxConnections ≠ 0 ∧ world.server.workerCount ≠ 0 := by
  cases happens.effect reachable with
  | refused full => exact .inl ⟨rfl, fun _ member => member⟩
  | @admitted sock behaviour room workers =>
      refine .inr ⟨sock, behaviour, rfl, rfl, ?_, workers⟩
      intro zero
      rw [zero] at room
      exact room UInt64.zero_le
  | received doing => exact .inl ⟨rfl, fun _ member => member⟩
  | @processed client text rest memory doing =>
      left
      constructor
      · exact (World.counting_clients (lineAction world client text)).2
      · intro c member
        change c ∈ (World.counting _ client _).connected at member
        rw [(World.counting_clients _).1] at member
        exact member
  | released leaving =>
      exact .inl ⟨rfl, fun _ member => List.mem_of_mem_erase member⟩

/-- A client of which nothing was known stays unknown unless it is taken in. -/
theorem Happens.unheard (reachable : Reachable host world)
    (happens : Happens host world happening after) (unknown : world.clientBrk ≤ c)
    (none : happenings.filterMap (Happening.ofClient c) = [])
    (silent : world.requests c = []) :
    (happenings ++ [happening]).filterMap (Happening.ofClient c) = [] ∧
      after.requests c = [] := by
  obtain ⟨sessions, coherent⟩ := reachable.coherent
  cases own : happening.ofClient c with
  | some event =>
      have known := coherent.known c (happens.doing own).2
      exact absurd known (Nat.not_lt.mpr unknown)
  | none =>
      constructor
      · simp [List.filterMap_append, none, own]
      · rw [happens.requests reachable own]
        exact silent

theorem serverInit_unheard {workers : Nat} {maxConnections : UInt64}
    (ran : serverInit host.toPlatform workers maxConnections = .ok start) :
    start.clientBrk = 0 ∧ start.trace = [] := by
  obtain ⟨ketama, built, -⟩ := ketamaBuild_serverRegistrations host
  unfold serverInit at ran
  rw [built] at ran
  cases ran
  exact ⟨rfl, rfl⟩

end KetamaRouter
