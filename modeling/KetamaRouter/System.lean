import Mathlib.Algebra.BigOperators.Group.List.Basic
import KetamaRouter.ReadLoop

/-!
# The running router

libevent calls the router for one thing at a time: a new connection, bytes
received, a line that is complete, the end of a connection.  The steps are at
the granularity of lines, so that whatever holds after every step holds between
any two lines.
-/

namespace KetamaRouter

open FaultProgram Delimited

/-- A platform whose arithmetic grants each of three equal servers forty groups
of points, which the router relies on for its own servers. -/
structure Host extends Platform where
  share_default : share 100 300 3 = 40

def Host.standard : Host :=
  { Platform.standard with share_default := by decide }

/-- A fresh socket from the kernel. -/
def World.openSocket (world : World) (sock : Nat)
    (behaviour : Nat → Nat → WriteResult) : World :=
  world.setMemory (world.memory.setSocket sock
    { behaviour := behaviour, calls := 0, sent := [] })

inductive Step (host : Host) (world after : World) : Prop where
  | accept (sock : Nat) (behaviour : Nat → Nat → WriteResult)
      (unused : ∀ c ∈ world.connected, (world.client c).socket ≠ sock)
      (ran : serverEventAccept sock (world.openSocket sock behaviour) =
        .ok () after)
  | receive (c : Nat) (input : Bytes) (connected : c ∈ world.connected)
      (ran : clientEventReceive c input world = .ok () after)
  | line (c : Nat) (line rest : Bytes) (connected : c ∈ world.connected)
      (found : evbufferReadln (world.client c).evbuf = some (line, rest))
      (ran : clientEventLine (commandProc host.toPlatform) c line
        (world.setEvbuf c rest) = .ok () after)
  | release (c : Nat) (connected : c ∈ world.connected)
      (ran : clientConnectionRelease c world = .ok () after)

/-- The states between two steps. -/
inductive Reachable (host : Host) : World → Prop where
  | start {workers : Nat} {maxConnections : UInt64} {world : World}
      (ran : serverInit host.toPlatform workers maxConnections = .ok world) :
      Reachable host world
  | step {world after : World} (reachable : Reachable host world)
      (step : Step host world after) : Reachable host after

/-! ## The invariant -/

/-- What the messages of these clients own. -/
def heldBy (sessions : Nat → Option MsgShape) (clients : List Nat) :
    Multiset Cell :=
  (clients.map fun c => sessionCells (sessions c)).sum

/-- The server works with the commands and the ring of `server_init`. -/
def Routing (host : Host) (ketama : Ketama) : Prop :=
  Built host.toPlatform serverRegistrations ketama ∧ 0 < ketama.numpoints

/-- Every connected client has a message of its own, and the messages are all
that the pools have handed out. -/
structure Coherent (host : Host) (world : World)
    (sessions : Nat → Option MsgShape) : Prop where
  serving : ∃ ketama, Routing host ketama ∧
    Serving commandListLoad ketama world
  distinct : world.connected.Nodup
  known : ∀ c ∈ world.connected, c < world.clientBrk
  sockets : ∀ c ∈ world.connected, ∀ other ∈ world.connected,
    (world.client c).socket = (world.client other).socket → c = other
  attached : ∀ c ∈ world.connected, Attached world c (sessions c)
  holds : Holds world.memory (heldBy sessions world.connected)

variable {host : Host} {world after : World} {c : Nat}
  {sessions : Nat → Option MsgShape} {owned : Multiset Cell}

theorem heldBy_erase {clients : List Nat} (member : c ∈ clients)
    (sessions : Nat → Option MsgShape) :
    heldBy sessions clients =
      sessionCells (sessions c) + heldBy sessions (clients.erase c) := by
  unfold heldBy
  rw [((List.perm_cons_erase member).map _).sum_eq, List.map_cons,
    List.sum_cons]

theorem heldBy_congr {clients : List Nat}
    {other : Nat → Option MsgShape}
    (same : ∀ c ∈ clients, sessions c = other c) :
    heldBy sessions clients = heldBy other clients := by
  unfold heldBy
  rw [List.map_congr_left fun c member => by rw [same c member]]

theorem sessionCells_le {clients : List Nat} (member : c ∈ clients) :
    sessionCells (sessions c) ≤ heldBy sessions clients := by
  rw [heldBy_erase member]
  exact Multiset.le_add_right _ _

/-- Replacing the message of one client. -/
theorem heldBy_update {clients : List Nat} (member : c ∈ clients)
    (distinct : clients.Nodup) (session : Option MsgShape) :
    heldBy (Function.update sessions c session) clients =
      sessionCells session + heldBy sessions (clients.erase c) := by
  rw [heldBy_erase member, Function.update_self]
  congr 1
  refine heldBy_congr fun other found => ?_
  refine Function.update_of_ne ?_ _ _
  rintro rfl
  exact (List.Nodup.mem_erase_iff distinct).mp found |>.1 rfl

theorem Coherent.holdsOne (coherent : Coherent host world sessions)
    (member : c ∈ world.connected) :
    Holds world.memory (sessionCells (sessions c) +
      heldBy sessions (world.connected.erase c)) := by
  rw [← heldBy_erase member]
  exact coherent.holds

/-- A client's message survives what leaves its cells alone. -/
theorem Attached.frame {session : Option MsgShape} {sock : Nat}
    {socket : Socket} (attached : Attached world c session)
    (frame : Frame owned (world.memory.setSocket sock socket) after.memory)
    (sub : ∀ cell ∈ sessionCells session, cell ∈ owned)
    (same : after.client c = world.client c) : Attached after c session := by
  cases session with
  | none =>
      rw [Attached, same]
      exact attached
  | some shape =>
      obtain ⟨msg, home, msgAt, waiting⟩ := attached
      exact ⟨same ▸ msg, same ▸ home, (msgAt.setSocket sock socket).frame frame
        sub, waiting⟩

theorem Attached.frame_same {session : Option MsgShape}
    (attached : Attached world c session)
    (frame : Frame owned world.memory after.memory)
    (sub : ∀ cell ∈ sessionCells session, cell ∈ owned)
    (same : after.client c = world.client c) : Attached after c session := by
  refine @Attached.frame _ _ _ _ _ 0 (world.memory.socket 0) attached ?_ sub
    same
  rw [Memory.setSocket_same]
  exact frame

/-- A step of one client keeps the others' messages. -/
theorem Coherent.moved {next : MsgShape} {events : List Event}
    {replies : List Request} (coherent : Coherent host world sessions)
    (member : c ∈ world.connected)
    (moved : Moved c world after next
      (heldBy sessions (world.connected.erase c)) events replies) :
    Coherent host after (Function.update sessions c (some next)) where
  serving := by
    obtain ⟨ketama, routing, serving⟩ := coherent.serving
    exact ⟨ketama, routing, moved.keeps.serving serving⟩
  distinct := by
    rw [moved.keeps.connected]
    exact coherent.distinct
  known := by
    rw [moved.keeps.connected, moved.keeps.clientBrk]
    exact coherent.known
  sockets := by
    have same : ∀ other, (after.client other).socket =
        (world.client other).socket := by
      intro other
      by_cases self : other = c
      · rw [self, moved.keeps.socket]
      · rw [moved.keeps.others other self]
    rw [moved.keeps.connected]
    intro first inFirst second inSecond equal
    rw [same, same] at equal
    exact coherent.sockets first inFirst second inSecond equal
  attached := by
    rw [moved.keeps.connected]
    intro other found
    by_cases self : other = c
    · subst self
      rw [Function.update_self]
      exact moved.session.toCarries
    · rw [Function.update_of_ne self]
      refine (coherent.attached other found).frame moved.frame ?_
        (moved.keeps.others other self)
      have kept : other ∈ world.connected.erase c :=
        (List.mem_erase_of_ne self).mpr found
      exact fun cell inside =>
        Multiset.mem_of_le (sessionCells_le kept) inside
  holds := by
    rw [moved.keeps.connected, heldBy_update member coherent.distinct]
    exact moved.session.holds

/-- A step of one client that follows an outcome. -/
theorem Coherent.follows {program : WorldProgram Unit}
    {outcome : Reader × List Action} {events : List Event} {evbuf : Bytes}
    {handling : Handling} (coherent : Coherent host world sessions)
    (member : c ∈ world.connected)
    (follows : Follows handling c program world
      (heldBy sessions (world.connected.erase c)) outcome events evbuf)
    (ran : program world = .ok () after) :
    ∃ next, next.reader = outcome.1 ∧
      Coherent host after (Function.update sessions c (some next)) := by
  obtain ⟨-, next, reader, -, moved⟩ := follows.result ran
  exact ⟨next, reader, coherent.moved member moved⟩

/-! ## The first state -/

theorem totalWeight_serverRegistrations :
    totalWeight serverRegistrations = 300 := by
  decide

/-- The ring of the router's own servers is built, and has points. -/
theorem ketamaBuild_serverRegistrations (host : Host) :
    ∃ ketama, ketamaBuild host.toPlatform serverRegistrations = .ok ketama ∧
      Routing host ketama := by
  have length :
      (ringPoints host.toPlatform serverRegistrations).length = 480 := by
    unfold ringPoints
    have shares : ∀ sinfo ∈ serverRegistrations.map Registration.info,
        host.share sinfo.memory (totalWeight serverRegistrations)
          (UInt32.ofNat serverRegistrations.length) = 40 := by
      intro sinfo member
      have weight : sinfo.memory = 100 := by
        obtain ⟨registration, found, rfl⟩ := List.mem_map.mp member
        revert registration
        decide
      rw [weight, totalWeight_serverRegistrations]
      exact host.share_default
    rw [fillPoints_length shares]
    rfl
  obtain ⟨ketama, ran, created⟩ := @ketamaBuild_fits host.toPlatform
    serverRegistrations (by decide) (by decide) (by rw [length]; decide)
  have built : Built host.toPlatform serverRegistrations ketama :=
    { created with few := by rw [length]; decide }
  refine ⟨ketama, ran, built, built.points_iff.mpr ?_⟩
  rw [length]
  decide

theorem initialMemory_holds : Holds initialMemory 0 where
  distinct := Multiset.nodup_zero
  pools _ _ := ⟨[], pabufInit3_caches _ _ _, rfl, List.nodup_nil, by simp⟩
  texts _ member := by simp at member

theorem Coherent.start {workers : Nat} {maxConnections : UInt64}
    (ran : serverInit host.toPlatform workers maxConnections = .ok world) :
    Coherent host world fun _ => none := by
  obtain ⟨ketama, built, routing⟩ := ketamaBuild_serverRegistrations host
  unfold serverInit at ran
  rw [built] at ran
  cases ran
  exact
    { serving := ⟨ketama, routing, rfl, rfl⟩
      distinct := List.nodup_nil
      known := by simp
      sockets := by simp
      attached := by simp
      holds := initialMemory_holds }

/-! ## New connections -/

/-- The world once a connection was taken in. -/
def World.admitted (world : World) (sock : Nat) : World :=
  let measured := world.setServer fun server =>
    if server.connCurCount > server.connMax then
      { server with connMax := server.connCurCount }
    else server
  let w := serverGetLeastConnectionWorker world
  World.setWorker
    { measured.setClient measured.clientBrk fun _ =>
        { worker := w, socket := sock, evbuf := [], msg := none, reqAll := 0,
          reqOk := 0, reqErr := 0 } with
      clientBrk := measured.clientBrk + 1
      connected := measured.connected ++ [measured.clientBrk] }
    w fun worker => { worker with numClient := worker.numClient + 1 }

/-- At the limit a new connection is refused with an error reply, below it the
connection is taken in. -/
theorem serverEventAccept_cases {sock : Nat}
    (ran : serverEventAccept sock world = .ok () after) :
    (world.server.maxConnections ≤ serverGetCurrentConnections world ∧
        ∃ res, onMemory (respErrorMaxConnection .server sock) world =
          .ok res after) ∨
      ¬ world.server.maxConnections ≤ serverGetCurrentConnections world ∧
        world.server.workerCount ≠ 0 ∧ after = world.admitted sock := by
  unfold serverEventAccept at ran
  rw [bind_run_ok (get_run world)] at ran
  split at ran
  · rename_i full
    obtain ⟨res, middle, refused, ended⟩ := of_bind_ok ran
    cases ended
    exact .inl ⟨full, res, refused⟩
  · rename_i room
    split at ran
    · cases ran
    · rename_i workers
      cases ran
      exact .inr ⟨room, workers, rfl⟩

/-- A fresh socket belongs to nobody's message. -/
theorem Coherent.opened (coherent : Coherent host world sessions) (sock : Nat)
    (behaviour : Nat → Nat → WriteResult) :
    Coherent host (world.openSocket sock behaviour) sessions where
  serving := by
    obtain ⟨ketama, routing, serving⟩ := coherent.serving
    exact ⟨ketama, routing, serving.1, serving.2⟩
  distinct := coherent.distinct
  known := coherent.known
  sockets := coherent.sockets
  attached c member := (coherent.attached c member).frame
    (Frame.refl (sessionCells (sessions c)) _) (fun _ inside => inside) rfl
  holds := coherent.holds.congr rfl rfl rfl

/-- What a refused connection is told. -/
def refusal : Request :=
  errorReply (cStr errReachedMaxConnNo) (cStr errReachedMaxConn)

theorem Coherent.refuses (coherent : Coherent host world sessions) (sock : Nat)
    (behaviour : Nat → Nat → WriteResult) :
    Yields (onMemory (respErrorMaxConnection .server sock))
      (world.openSocket sock behaviour) fun _ after => ∃ memory,
        after = (world.openSocket sock behaviour).setMemory memory ∧
          Holds memory (heldBy sessions world.connected) ∧
          Frame (heldBy sessions world.connected)
            ((world.openSocket sock behaviour).memory.setSocket sock
              (((world.openSocket sock behaviour).memory.socket sock).writeAll
                (refusal.pieces.map cStr)).2) memory := by
  have printable : refusal.Printable :=
    errorReply_printable errReachedMaxConnNo errReachedMaxConn (by decide)
      (by decide)
  have sends := @respSend_spec _ _ .server _
    (coherent.opened sock behaviour).holds printable sock
  unfold respErrorMaxConnection
  rw [respError_eq]
  refine (onMemory_yields sends).mono ?_
  intro _ after outcome
  rcases outcome with ⟨memory, ended, -, holds, frame⟩
  exact ⟨memory, ended, holds, frame⟩

theorem Coherent.refused {sock : Nat} {behaviour : Nat → Nat → WriteResult}
    {res : RespRes} (coherent : Coherent host world sessions)
    (ran : onMemory (respErrorMaxConnection .server sock)
      (world.openSocket sock behaviour) = .ok res after) :
    Coherent host after sessions := by
  obtain ⟨memory, rfl, holdsAfter, frame⟩ :=
    (coherent.refuses sock behaviour).result ran
  obtain ⟨ketama, routing, serving⟩ := coherent.serving
  refine ⟨⟨ketama, routing, serving.1, serving.2⟩, coherent.distinct,
    coherent.known, coherent.sockets, ?_, holdsAfter⟩
  intro c member
  exact ((coherent.opened sock behaviour).attached c member).frame frame
    (fun _ inside => Multiset.mem_of_le (sessionCells_le member) inside) rfl

theorem World.admitted_server (sock : Nat) :
    (world.admitted sock).server.commandList = world.server.commandList ∧
      (world.admitted sock).server.ketama = world.server.ketama := by
  change (if _ then _ else _ : Server).commandList = _ ∧
    (if _ then _ else _ : Server).ketama = _
  split <;> exact ⟨rfl, rfl⟩

theorem World.admitted_client (sock : Nat) :
    (world.admitted sock).client world.clientBrk =
      { worker := serverGetLeastConnectionWorker world, socket := sock,
        evbuf := [], msg := none, reqAll := 0, reqOk := 0, reqErr := 0 } :=
  Function.update_self _ _ _

theorem World.admitted_client_of_ne (sock : Nat)
    (apart : c ≠ world.clientBrk) :
    (world.admitted sock).client c = world.client c :=
  Function.update_of_ne apart _ _

/-- A new client holds nothing. -/
theorem Coherent.heldBy_admitted (coherent : Coherent host world sessions)
    (sock : Nat) :
    heldBy (Function.update sessions world.clientBrk none)
      (world.admitted sock).connected = heldBy sessions world.connected := by
  change ((world.connected ++ [world.clientBrk]).map _).sum = _
  rw [List.map_append, List.sum_append, List.map_singleton, List.sum_singleton,
    Function.update_self]
  refine (add_zero _).trans (heldBy_congr fun c member => ?_)
  exact Function.update_of_ne (Nat.ne_of_lt (coherent.known c member)) _ _

/-- A new client has nothing yet. -/
theorem Coherent.admitted {sock : Nat} (coherent : Coherent host world sessions)
    (unused : ∀ c ∈ world.connected, (world.client c).socket ≠ sock) :
    Coherent host (world.admitted sock)
      (Function.update sessions world.clientBrk none) := by
  have older : ∀ c ∈ world.connected, c ≠ world.clientBrk :=
    fun c member => Nat.ne_of_lt (coherent.known c member)
  have new : world.clientBrk ∉ world.connected :=
    fun member => older _ member rfl
  have members : ∀ c, c ∈ (world.admitted sock).connected ↔
      c ∈ world.connected ∨ c = world.clientBrk := by
    intro c
    change c ∈ world.connected ++ [world.clientBrk] ↔ _
    simp
  refine ⟨?_, ?_, ?_, ?_, ?_, ?_⟩
  · obtain ⟨ketama, routing, serving⟩ := coherent.serving
    obtain ⟨commands, ring⟩ := world.admitted_server sock
    exact ⟨ketama, routing, commands.trans serving.1, ring.trans serving.2⟩
  · change (world.connected ++ [world.clientBrk]).Nodup
    rw [List.nodup_append_comm, List.singleton_append, List.nodup_cons]
    exact ⟨new, coherent.distinct⟩
  · intro c member
    change c < world.clientBrk + 1
    rcases (members c).mp member with old | rfl
    · exact Nat.lt_succ_of_lt (coherent.known c old)
    · exact Nat.lt_succ_self _
  · intro first inFirst second inSecond equal
    rcases (members first).mp inFirst with old | rfl <;>
      rcases (members second).mp inSecond with old' | rfl
    · rw [World.admitted_client_of_ne sock (older first old),
        World.admitted_client_of_ne sock (older second old')] at equal
      exact coherent.sockets first old second old' equal
    · rw [World.admitted_client_of_ne sock (older first old),
        World.admitted_client] at equal
      exact absurd equal (unused first old)
    · rw [World.admitted_client_of_ne sock (older second old'),
        World.admitted_client] at equal
      exact absurd equal.symm (unused second old')
    · rfl
  · intro c member
    rcases (members c).mp member with old | rfl
    · rw [Function.update_of_ne (older c old)]
      exact (coherent.attached c old).frame_same (Frame.refl _ _)
        (fun _ inside => inside)
        (World.admitted_client_of_ne sock (older c old))
    · rw [Function.update_self]
      exact ⟨by rw [World.admitted_client], by rw [World.admitted_client]⟩
  · rw [coherent.heldBy_admitted sock]
    exact coherent.holds.congr rfl rfl rfl

/-! ## The end of a connection -/

/-- The world once a connection is gone, but for its message. -/
def World.departed (world : World) (c : Nat) : World :=
  let fewer := (world.setWorker (world.client c).worker fun worker =>
    { worker with numClient := worker.numClient - 1 }).setServer fun server =>
      { server with connCurCount := server.connCurCount - 1 }
  { fewer with connected := fewer.connected.erase c }

/-- Freeing the message of a client, if it has one. -/
theorem msgFree_session {session : Option MsgShape}
    (attached : Attached world c session)
    (holds : Holds world.memory (sessionCells session + owned)) :
    Yields (msgFree (world.client c).msg) world.memory fun _ memory =>
      Holds memory owned ∧ Frame owned world.memory memory := by
  cases session with
  | none =>
      rw [attached.1]
      rw [sessionCells, Option.elim_none, zero_add] at holds
      exact Yields.pure ⟨holds, Frame.refl _ _⟩
  | some shape =>
      rw [attached.msg]
      exact msgFree_spec attached.msgAt holds

theorem clientConnectionRelease_spec
    (coherent : Coherent host world sessions) (member : c ∈ world.connected) :
    Yields (clientConnectionRelease c) world fun _ after => ∃ memory,
      after = (world.departed c).setMemory memory ∧
        Holds memory (heldBy sessions (world.connected.erase c)) ∧
        Frame (heldBy sessions (world.connected.erase c)) world.memory
          memory := by
  unfold clientConnectionRelease
  refine Yields.get_bind (Yields.modify_bind (Yields.modify_bind ?_))
  refine Yields.bind (onMemory_yields (msgFree_session
    (coherent.attached c member) (coherent.holdsOne member))) ?_
  intro _ _ outcome
  rcases outcome with ⟨memory, rfl, holds, frame⟩
  exact Yields.modify ⟨memory, rfl, holds, frame⟩

theorem Coherent.released (coherent : Coherent host world sessions)
    (member : c ∈ world.connected)
    (ran : clientConnectionRelease c world = .ok () after) :
    Coherent host after sessions := by
  obtain ⟨memory, rfl, holds, frame⟩ :=
    (clientConnectionRelease_spec coherent member).result ran
  obtain ⟨ketama, routing, serving⟩ := coherent.serving
  have remains : ∀ other ∈ world.connected.erase c, other ∈ world.connected :=
    fun _ found => List.mem_of_mem_erase found
  refine ⟨⟨ketama, routing, serving.1, serving.2⟩, coherent.distinct.erase c,
    fun other found => coherent.known other (remains other found),
    fun first inFirst second inSecond equal => coherent.sockets first
      (remains first inFirst) second (remains second inSecond) equal, ?_, holds⟩
  intro other found
  exact (coherent.attached other (remains other found)).frame_same frame
    (fun _ inside => Multiset.mem_of_le (sessionCells_le found) inside) rfl

/-! ## Reachable states -/

/-- A line is taken from a buffer that only a client with a message has. -/
theorem Coherent.line {line rest : Bytes} {ketama : Ketama}
    (coherent : Coherent host world sessions)
    (ring : Routing host ketama)
    (serving : Serving commandListLoad ketama world)
    (member : c ∈ world.connected)
    (found : evbufferReadln (world.client c).evbuf = some (line, rest)) :
    ∃ shape, sessions c = some shape ∧
      Moved c world (world.setEvbuf c rest) shape
        (heldBy sessions (world.connected.erase c)) [] [] ∧
      Follows (routing host.toPlatform ketama) c
        (clientEventLine (commandProc host.toPlatform) c line)
        (world.setEvbuf c rest) (heldBy sessions (world.connected.erase c))
        ((shape.reader.read (cStr line)).1,
          (shape.reader.read (cStr line)).2.toList)
        ((routing host.toPlatform ketama).lineEvents c shape.reader line)
        rest := by
  have attached := coherent.attached c member
  have holds := coherent.holdsOne member
  cases session : sessions c with
  | none =>
      rw [session] at attached
      rw [attached.2] at found
      cases found
  | some shape =>
      rw [session] at attached holds
      have start := Moved.setEvbuf ⟨attached, holds⟩ rest
      have follows := clientEventLine_spec
        (commandProc_obeys ring.1 ring.2) (start.keeps.serving serving)
        start.session line
      refine ⟨shape, rfl, start, ?_⟩
      simpa [World.setEvbuf, World.setClient] using follows

theorem Coherent.step (coherent : Coherent host world sessions)
    (step : Step host world after) :
    ∃ sessions', Coherent host after sessions' := by
  obtain ⟨ketama, ring, serving⟩ := coherent.serving
  cases step with
  | accept sock behaviour unused ran =>
      rcases serverEventAccept_cases ran with ⟨-, res, refused⟩ | ⟨-, -, rfl⟩
      · exact ⟨_, coherent.refused refused⟩
      · exact ⟨_, (coherent.opened sock behaviour).admitted unused⟩
  | receive c input connected ran =>
      have follows := @clientEventReceive_spec _ _ _
        (routing host.toPlatform ketama) _ (coherent.attached c connected)
        (coherent.holdsOne connected) input
      obtain ⟨next, -, moved⟩ := coherent.follows connected follows ran
      exact ⟨_, moved⟩
  | line c line rest connected found ran =>
      obtain ⟨shape, session, start, follows⟩ :=
        coherent.line ring serving connected found
      obtain ⟨-, next, -, -, moved⟩ := follows.result ran
      exact ⟨_, coherent.moved connected (start.trans moved)⟩
  | release c connected ran =>
      exact ⟨sessions, coherent.released connected ran⟩

/-- Every reachable state is coherent. -/
theorem Reachable.coherent (reachable : Reachable host world) :
    ∃ sessions, Coherent host world sessions := by
  induction reachable with
  | start ran => exact ⟨_, Coherent.start ran⟩
  | step _ step induction =>
      obtain ⟨sessions, coherent⟩ := induction
      exact coherent.step step

/-- Below the limit, and with a worker, a connection is taken in. -/
theorem serverEventAccept_admits {sock : Nat}
    (below : ¬ world.server.maxConnections ≤
      serverGetCurrentConnections world)
    (workers : world.server.workerCount ≠ 0) :
    serverEventAccept sock world = .ok () (world.admitted sock) := by
  unfold serverEventAccept
  rw [bind_run_ok (get_run world), if_neg below, if_neg workers]
  rfl

/-- The router starts with any settings, and nobody is connected to it. -/
theorem Host.starts (host : Host) (workers : Nat) (maxConnections : UInt64) :
    ∃ start, serverInit host.toPlatform workers maxConnections = .ok start ∧
      start.server.maxConnections = maxConnections ∧
      start.server.workerCount = workers ∧
      (∀ w, (start.worker w).numClient = 0) ∧ start.connected = [] ∧
      start.clientBrk = 0 := by
  obtain ⟨ketama, built, -⟩ := ketamaBuild_serverRegistrations host
  unfold serverInit
  rw [built]
  exact ⟨_, rfl, rfl, rfl, fun _ => rfl, rfl, rfl⟩

/-- A router with one worker takes its first client in. -/
theorem Host.firstAccept (host : Host)
    (behaviour : Nat → Nat → WriteResult) :
    ∃ start world, serverInit host.toPlatform 1 8 = .ok start ∧
      start.connected = [] ∧
      serverEventAccept 0 (start.openSocket 0 behaviour) = .ok () world ∧
      0 ∈ world.connected ∧
      world.client 0 = { worker := 0, socket := 0, evbuf := [], msg := none,
                         reqAll := 0, reqOk := 0, reqErr := 0 } ∧
      world.memory.socket 0 =
        { behaviour := behaviour, calls := 0, sent := [] } := by
  obtain ⟨start, ran, most, workers, clients, nobody, first⟩ := host.starts 1 8
  have admits : serverEventAccept 0 (start.openSocket 0 behaviour) =
      .ok () ((start.openSocket 0 behaviour).admitted 0) := by
    refine serverEventAccept_admits ?_ ?_
    · change ¬ start.server.maxConnections ≤ serverGetCurrentConnections start
      unfold serverGetCurrentConnections
      rw [most, workers]
      simp [List.range_succ, clients]
    · change start.server.workerCount ≠ 0
      rw [workers]
      decide
  refine ⟨start, (start.openSocket 0 behaviour).admitted 0, ran, nobody, admits,
    ?_, ?_, ?_⟩
  · change 0 ∈ start.connected ++ [start.clientBrk]
    simp [first]
  · have client := (start.openSocket 0 behaviour).admitted_client 0
    have least : serverGetLeastConnectionWorker
        (start.openSocket 0 behaviour) = 0 := by
      change serverGetLeastConnectionWorker start = 0
      unfold serverGetLeastConnectionWorker
      rw [workers]
      simp [List.range_succ]
    rw [least] at client
    change ((start.openSocket 0 behaviour).admitted 0).client start.clientBrk =
      _ at client
    rw [first] at client
    exact client
  · change (start.openSocket 0 behaviour).memory.socket 0 = _
    simp [World.openSocket]

/-- A router with one worker and its first client. -/
theorem Host.firstClient (host : Host)
    (behaviour : Nat → Nat → WriteResult) :
    ∃ world, Reachable host world ∧ 0 ∈ world.connected ∧
      world.client 0 = { worker := 0, socket := 0, evbuf := [], msg := none,
                         reqAll := 0, reqOk := 0, reqErr := 0 } ∧
      world.memory.socket 0 =
        { behaviour := behaviour, calls := 0, sent := [] } := by
  obtain ⟨start, world, ran, nobody, admits, facts⟩ :=
    host.firstAccept behaviour
  exact ⟨world, (Reachable.start ran).step
    (.accept 0 behaviour (by simp [nobody]) admits), facts⟩

end KetamaRouter
