import KetamaRouter.System

/-!
# Threads

The listener reads the counts of the workers one at a time, decides, reads them
once more to choose a worker, and only then adds the connection to that
worker's count, while the worker threads serve and release their clients in
between.  The connection limit depends on few fields of the state; serving a
client leaves them alone.
-/

namespace KetamaRouter

open FaultProgram

/-! ## Threads -/

/-- Where the listener thread is in `server_event_accept`. -/
inductive Listener where
  | idle
  /-- In the loop of `server_get_current_connections`. -/
  | counting (sock i : Nat) (cons : UInt64)
  /-- In the loop of `server_get_least_connection_worker`. -/
  | choosing (sock i least : Nat)
  /-- Between `worker_add_new_connection` and `bufferevent_enable`. -/
  | enabling (c : Nat)
  deriving DecidableEq, Repr

/-- The shared state, the listener, and the clients that a worker thread is
releasing: their sockets are closed, but they are still counted. -/
structure Threads where
  world : World
  listener : Listener
  closed : List Nat

/-- The update of `conn_max`. -/
def World.measured (world : World) : World :=
  world.setServer fun server =>
    if server.connCurCount > server.connMax then
      { server with connMax := server.connCurCount }
    else server

/-- `client_init` and `worker_add_new_connection`. -/
def World.attach (world : World) (sock w : Nat) : World :=
  World.setWorker
    { world.setClient world.clientBrk fun _ =>
        { worker := w, socket := sock, evbuf := [], msg := none, reqAll := 0,
          reqOk := 0, reqErr := 0 } with
      clientBrk := world.clientBrk + 1
      connected := world.connected ++ [world.clientBrk] }
    w fun worker => { worker with numClient := worker.numClient + 1 }

/-- Clients whose events are delivered. -/
structure Threads.Serves (threads : Threads) (c : Nat) : Prop where
  connected : c ∈ threads.world.connected
  opened : c ∉ threads.closed
  enabled : threads.listener ≠ .enabling c

/-- One step of one thread.  A file descriptor is an `int` that no open socket
has, and a worker thread releases one client at a time. -/
inductive ThreadStep (host : Host) (threads : Threads) : Threads → Prop where
  | connect {sock : Nat} {behaviour : Nat → Nat → WriteResult}
      (pc : threads.listener = .idle) (int : sock < 2 ^ 31)
      (unused : ∀ c ∈ threads.world.connected, c ∉ threads.closed →
        (threads.world.client c).socket ≠ sock) :
      ThreadStep host threads
        { threads with
          world := threads.world.openSocket sock behaviour
          listener := .counting sock 0 0 }
  | count {sock i : Nat} {cons : UInt64}
      (pc : threads.listener = .counting sock i cons)
      (more : i < threads.world.server.workerCount) :
      ThreadStep host threads
        { threads with
          listener := .counting sock (i + 1)
            (cons + (threads.world.worker i).numClient.toUInt64) }
  | refuse {sock i : Nat} {cons : UInt64} {res : RespRes} {after : World}
      (pc : threads.listener = .counting sock i cons)
      (counted : ¬ i < threads.world.server.workerCount)
      (full : threads.world.server.maxConnections ≤ cons)
      (ran : onMemory (respErrorMaxConnection .server sock) threads.world =
        .ok res after) :
      ThreadStep host threads
        { threads with world := after, listener := .idle }
  | pass {sock i : Nat} {cons : UInt64}
      (pc : threads.listener = .counting sock i cons)
      (counted : ¬ i < threads.world.server.workerCount)
      (room : ¬ threads.world.server.maxConnections ≤ cons)
      (first : threads.world.server.workerCount ≠ 0) :
      ThreadStep host threads
        { threads with
          world := threads.world.measured
          listener := .choosing sock 1 0 }
  | choose {sock i least : Nat}
      (pc : threads.listener = .choosing sock i least)
      (more : i < threads.world.server.workerCount) :
      ThreadStep host threads
        { threads with
          listener := .choosing sock (i + 1)
            (if (threads.world.worker least).numClient >
                (threads.world.worker i).numClient then i
              else least) }
  | attach {sock i least : Nat}
      (pc : threads.listener = .choosing sock i least)
      (chosen : ¬ i < threads.world.server.workerCount) :
      ThreadStep host threads
        { threads with
          world := threads.world.attach sock least
          listener := .enabling threads.world.clientBrk }
  | enable {c : Nat} (pc : threads.listener = .enabling c) :
      ThreadStep host threads { threads with listener := .idle }
  | receive {c : Nat} {input : Bytes} {after : World}
      (serves : threads.Serves c)
      (ran : clientEventReceive c input threads.world = .ok () after) :
      ThreadStep host threads { threads with world := after }
  | line {c : Nat} {line rest : Bytes} {after : World}
      (serves : threads.Serves c)
      (found : evbufferReadln (threads.world.client c).evbuf =
        some (line, rest))
      (ran : clientEventLine (commandProc host.toPlatform) c line
        (threads.world.setEvbuf c rest) = .ok () after) :
      ThreadStep host threads { threads with world := after }
  | close {c : Nat} (serves : threads.Serves c)
      (alone : ∀ other ∈ threads.closed, (threads.world.client other).worker ≠
        (threads.world.client c).worker) :
      ThreadStep host threads { threads with closed := c :: threads.closed }
  | release {c : Nat} {after : World} (closed : c ∈ threads.closed)
      (ran : clientConnectionRelease c threads.world = .ok () after) :
      ThreadStep host threads
        { threads with world := after, closed := threads.closed.erase c }

/-- A router at the start. -/
def Threads.start (world : World) : Threads :=
  { world := world, listener := .idle, closed := [] }

variable {host : Host} {world start after : World} {c : Nat}

/-! ## What the limit depends on -/

structure Census where
  numClient : Nat → UInt32
  workerCount : Nat
  maxConnections : UInt64
  connected : List Nat
  clientBrk : Nat
  home : Nat → Nat
  socket : Nat → Nat

def World.census (world : World) : Census :=
  { numClient := fun w => (world.worker w).numClient
    workerCount := world.server.workerCount
    maxConnections := world.server.maxConnections
    connected := world.connected
    clientBrk := world.clientBrk
    home := fun c => (world.client c).worker
    socket := fun c => (world.client c).socket }

theorem census_setClient {change : Client → Client}
    (home : ∀ client, (change client).worker = client.worker)
    (socket : ∀ client, (change client).socket = client.socket) :
    (world.setClient c change).census = world.census := by
  have homes : ∀ other, ((world.setClient c change).client other).worker =
      (world.client other).worker := by
    intro other
    by_cases self : other = c
    · simp [self, World.setClient, home]
    · simp [self, World.setClient]
  have sockets : ∀ other, ((world.setClient c change).client other).socket =
      (world.client other).socket := by
    intro other
    by_cases self : other = c
    · simp [self, World.setClient, socket]
    · simp [self, World.setClient]
  simp only [World.census, homes, sockets]
  rfl

theorem census_setWorker {w : Nat} {change : Worker → Worker}
    (numClient : ∀ worker, (change worker).numClient = worker.numClient) :
    (world.setWorker w change).census = world.census := by
  have counts : ∀ other, ((world.setWorker w change).worker other).numClient =
      (world.worker other).numClient := by
    intro other
    by_cases self : other = w
    · simp [self, World.setWorker, numClient]
    · simp [self, World.setWorker]
  simp only [World.census, counts]
  rfl

/-! ## Serving clients leaves it alone -/

abbrev KeepsCensus {α : Type} (census : Census) (program : WorldProgram α) :
    Prop :=
  Preserves (fun world : World => world.census = census) program

section Serving

variable {census : Census} {α : Type}

theorem keepsCensus_onMemory (program : MemProgram α) :
    KeepsCensus census (onMemory program) := by
  apply Preserves.focus
  intro world memory same
  exact same

theorem keepsCensus_log (event : Event) : KeepsCensus census (log event) := by
  apply Preserves.modify
  intro world same
  exact same

theorem keepsCensus_deref (pointer : Option Ptr) :
    KeepsCensus census (deref pointer : WorldProgram Ptr) := by
  cases pointer with
  | none => exact Preserves.throw _
  | some pointer => exact Preserves.pure pointer

theorem keepsCensus_setClient {change : Client → Client}
    (home : ∀ client, (change client).worker = client.worker)
    (socket : ∀ client, (change client).socket = client.socket) :
    KeepsCensus census
      (modify fun world : World => world.setClient c change) := by
  apply Preserves.modify
  intro world same
  exact (census_setClient home socket).trans same

theorem keepsCensus_setWorker {w : Nat} {change : Worker → Worker}
    (numClient : ∀ worker, (change worker).numClient = worker.numClient) :
    KeepsCensus census
      (modify fun world : World => world.setWorker w change) := by
  apply Preserves.modify
  intro world same
  exact (census_setWorker numClient).trans same

theorem keepsCensus_commandProc (platform : Platform) (msg : Ptr) :
    KeepsCensus census (commandProc platform c msg) := by
  unfold commandProc
  apply Preserves.get_bind
  intro world
  apply Preserves.bind (keepsCensus_deref _)
  intro cmd
  apply Preserves.bind (keepsCensus_deref _)
  intro str
  apply Preserves.bind (keepsCensus_onMemory _)
  intro name
  cases commandListGetl world.server.commandList name with
  | none =>
      apply Preserves.bind (keepsCensus_onMemory _)
      intro res
      exact Preserves.pure _
  | some command =>
      apply Preserves.bind (keepsCensus_log _)
      intro logged
      cases command.func with
      | commandGET =>
          apply Preserves.get_bind
          intro world
          apply Preserves.bind (keepsCensus_deref _)
          intro param
          split
          · exact Preserves.pure _
          · split
            · exact Preserves.pure _
            · apply Preserves.bind (keepsCensus_deref _)
              intro str
              apply Preserves.bind (keepsCensus_onMemory _)
              intro key
              apply Preserves.bind
              · cases ketamaGetServerOrdinal platform world.server.ketama key with
                | error fault => exact Preserves.throw fault
                | ok ordinal => exact Preserves.pure ordinal
              · intro ordinal
                apply Preserves.bind (keepsCensus_onMemory _)
                intro res
                exact Preserves.pure _
      | commandPING =>
          apply Preserves.get_bind
          intro world
          apply Preserves.bind (keepsCensus_onMemory _)
          intro res
          exact Preserves.pure _

theorem keepsCensus_clientEventRejected (msg : Ptr) (event : Event)
    (respError : BufId → Nat → MemProgram RespRes) :
    KeepsCensus census (clientEventRejected c msg event respError) := by
  unfold clientEventRejected
  apply Preserves.get_bind
  intro world
  apply Preserves.bind
  · exact keepsCensus_setClient (fun _ => rfl) fun _ => rfl
  · intro counted
    apply Preserves.bind
    · exact keepsCensus_setWorker fun _ => rfl
    · intro countedWorker
      apply Preserves.bind (keepsCensus_onMemory _)
      intro cleaned
      apply Preserves.bind (keepsCensus_log _)
      intro logged
      apply Preserves.bind (keepsCensus_onMemory _)
      intro res
      exact Preserves.pure _

theorem keepsCensus_clientEventDecoded (msg : Ptr) (res : DecodeResult) :
    KeepsCensus census (clientEventDecoded c msg res) := by
  cases res with
  | ok => exact Preserves.pure _
  | errFormat => exact keepsCensus_clientEventRejected _ _ _
  | errParamFormat => exact keepsCensus_clientEventRejected _ _ _

theorem keepsCensus_countUndone (ret : CmdFuncRet) :
    KeepsCensus census (countUndone c ret) := by
  unfold countUndone
  split
  · apply Preserves.modify
    intro world same
    exact (@census_setClient world c
      (fun client => { client with reqOk := client.reqOk + 1 })
      (fun _ => rfl) fun _ => rfl).trans same
  · exact Preserves.pure _

theorem keepsCensus_clientEventComplete
    {proc : Nat → Ptr → WorldProgram CmdFuncRet}
    (keeps : ∀ msg, KeepsCensus census (proc c msg)) (msg : Ptr) :
    KeepsCensus census (clientEventComplete proc c msg) := by
  unfold clientEventComplete
  apply Preserves.get_bind
  intro world
  apply Preserves.bind (keepsCensus_onMemory _)
  intro stat
  cases stat with
  | none => exact Preserves.pure _
  | dataMore => exact Preserves.pure _
  | done =>
      apply Preserves.bind
      · exact keepsCensus_setClient (fun _ => rfl) fun _ => rfl
      · intro counted
        apply Preserves.bind
        · exact keepsCensus_setWorker fun _ => rfl
        · intro countedWorker
          apply Preserves.get_bind
          intro dispatching
          apply Preserves.bind (keepsCensus_log _)
          intro logged
          apply Preserves.bind (keeps msg)
          intro ret
          apply Preserves.bind (keepsCensus_countUndone ret)
          intro undone
          exact keepsCensus_onMemory _

theorem keepsCensus_clientEventLine
    {proc : Nat → Ptr → WorldProgram CmdFuncRet}
    (keeps : ∀ msg, KeepsCensus census (proc c msg)) (line : Bytes) :
    KeepsCensus census (clientEventLine proc c line) := by
  unfold clientEventLine
  apply Preserves.bind (keepsCensus_log _)
  intro logged
  apply Preserves.bind (keepsCensus_onMemory _)
  intro row
  apply Preserves.get_bind
  intro world
  apply Preserves.bind (keepsCensus_deref _)
  intro msg
  apply Preserves.bind (keepsCensus_onMemory _)
  intro res
  apply Preserves.bind (keepsCensus_clientEventDecoded msg res)
  intro decoded
  exact keepsCensus_clientEventComplete keeps msg

theorem keepsCensus_clientEventReceive (input : Bytes) :
    KeepsCensus census (clientEventReceive c input) := by
  unfold clientEventReceive
  apply Preserves.get_bind
  intro world
  dsimp only
  split
  · apply Preserves.bind (keepsCensus_onMemory _)
    intro msg
    apply Preserves.bind
    · exact keepsCensus_setClient (fun _ => rfl) fun _ => rfl
    · intro attached
      exact keepsCensus_setClient (fun _ => rfl) fun _ => rfl
  · exact keepsCensus_setClient (fun _ => rfl) fun _ => rfl

end Serving

/-! ## Coming and going -/

def Census.attached (census : Census) (sock w : Nat) : Census :=
  { census with
    numClient := Function.update census.numClient w (census.numClient w + 1)
    connected := census.connected ++ [census.clientBrk]
    clientBrk := census.clientBrk + 1
    home := Function.update census.home census.clientBrk w
    socket := Function.update census.socket census.clientBrk sock }

def Census.released (census : Census) (c : Nat) : Census :=
  { census with
    numClient := Function.update census.numClient (census.home c)
      (census.numClient (census.home c) - 1)
    connected := census.connected.erase c }

theorem census_attach (world : World) (sock w : Nat) :
    (world.attach sock w).census = world.census.attached sock w := by
  have counts : ∀ other, ((world.attach sock w).worker other).numClient =
      (world.census.attached sock w).numClient other := by
    intro other
    by_cases self : other = w
    · simp [self, World.attach, World.setWorker, World.setClient,
        Census.attached, World.census]
    · simp [self, World.attach, World.setWorker, World.setClient,
        Census.attached, World.census]
  have homes : ∀ other, ((world.attach sock w).client other).worker =
      (world.census.attached sock w).home other := by
    intro other
    by_cases self : other = world.clientBrk
    · simp [self, World.attach, World.setWorker, World.setClient,
        Census.attached, World.census]
    · simp [self, World.attach, World.setWorker, World.setClient,
        Census.attached, World.census]
  have sockets : ∀ other, ((world.attach sock w).client other).socket =
      (world.census.attached sock w).socket other := by
    intro other
    by_cases self : other = world.clientBrk
    · simp [self, World.attach, World.setWorker, World.setClient,
        Census.attached, World.census]
    · simp [self, World.attach, World.setWorker, World.setClient,
        Census.attached, World.census]
  simp only [World.census, counts, homes, sockets]
  rfl

theorem census_release
    (ran : clientConnectionRelease c world = .ok () after) :
    after.census = world.census.released c := by
  unfold clientConnectionRelease at ran
  rw [bind_run_ok (get_run world)] at ran
  obtain ⟨_, fewer, decreased, ran⟩ := of_bind_ok ran
  obtain ⟨_, counted, uncounted, ran⟩ := of_bind_ok ran
  obtain ⟨_, freed, frees, ended⟩ := of_bind_ok ran
  obtain ⟨memory, -, same⟩ := of_focus_ok frees
  cases decreased
  cases uncounted
  cases ended
  rw [same]
  have counts : ∀ other,
      ((world.departed c).worker other).numClient =
        (world.census.released c).numClient other := by
    intro other
    by_cases self : other = (world.client c).worker
    · simp [self, World.departed, World.setWorker, World.setServer,
        Census.released, World.census]
    · simp [self, World.departed, World.setWorker, World.setServer,
        Census.released, World.census]
  change ((world.departed c).setMemory memory).census = _
  simp only [World.census, World.setMemory, counts]
  rfl

end KetamaRouter
