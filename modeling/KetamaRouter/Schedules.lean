import KetamaRouter.ClientViews
import KetamaRouter.ConnectionLimit

/-!
# Schedules of the router

The router as its clients know it: who is connected, on which socket, and what
each of them sees.  A schedule says what happens and in which order.  Whether it
can happen is decided on this model alone, and what the router does then is what
the model says.
-/

namespace KetamaRouter

open LabelledRun

variable {host : Host} {world start after : World} {c : Nat}
  {happening : Happening} {happenings : List Happening}

/-! ## The model -/

/-- The clients so far, and which of them are connected.  What a socket takes does
not change while it is open. -/
structure Switchboard where
  connected : List Nat
  clientBrk : Nat
  sock : Nat → Nat
  behaviour : Nat → Nat → Nat → WriteResult
  view : Nat → ClientView
  steady : ∀ c, (view c).socket.behaviour = behaviour c

namespace Switchboard

/-- Nobody has come yet. -/
def empty : Switchboard :=
  { connected := []
    clientBrk := 0
    sock := fun _ => 0
    behaviour := fun _ _ _ => .fails
    view := fun _ => .fresh fun _ _ => .fails
    steady := fun _ => rfl }

def welcome (board : Switchboard) (sock : Nat)
    (behaviour : Nat → Nat → WriteResult) : Switchboard :=
  { connected := board.connected ++ [board.clientBrk]
    clientBrk := board.clientBrk + 1
    sock := Function.update board.sock board.clientBrk sock
    behaviour := Function.update board.behaviour board.clientBrk behaviour
    view := Function.update board.view board.clientBrk (.fresh behaviour)
    steady := by
      intro c
      by_cases newest : c = board.clientBrk
      · subst newest
        rw [Function.update_self, Function.update_self]
        rfl
      · rw [Function.update_of_ne newest, Function.update_of_ne newest]
        exact board.steady c }

theorem welcome_self (board : Switchboard) (sock : Nat)
    (behaviour : Nat → Nat → WriteResult) :
    (board.welcome sock behaviour).sock board.clientBrk = sock ∧
      (board.welcome sock behaviour).behaviour board.clientBrk = behaviour ∧
      (board.welcome sock behaviour).view board.clientBrk = .fresh behaviour :=
  ⟨Function.update_self _ _ _, Function.update_self _ _ _,
    Function.update_self _ _ _⟩

theorem welcome_of_ne (board : Switchboard) (sock : Nat)
    (behaviour : Nat → Nat → WriteResult) (apart : c ≠ board.clientBrk) :
    (board.welcome sock behaviour).sock c = board.sock c ∧
      (board.welcome sock behaviour).behaviour c = board.behaviour c ∧
      (board.welcome sock behaviour).view c = board.view c :=
  ⟨Function.update_of_ne apart _ _, Function.update_of_ne apart _ _,
    Function.update_of_ne apart _ _⟩

def move (handling : Handling) (c : Nat) (event : ClientEvent)
    (board : Switchboard) : Switchboard :=
  { board with
    view := Function.update board.view c ((board.view c).step handling event)
    steady := by
      intro other
      by_cases own : other = c
      · rw [own, Function.update_self, ClientView.step_behaviour]
        exact board.steady c
      · rw [Function.update_of_ne own]
        exact board.steady other }

theorem move_view_self (board : Switchboard) (handling : Handling) (c : Nat)
    (event : ClientEvent) :
    (board.move handling c event).view c = (board.view c).step handling event :=
  Function.update_self _ _ _

theorem move_view_of_ne (board : Switchboard) (handling : Handling)
    (event : ClientEvent) {other : Nat} (apart : other ≠ c) :
    (board.move handling c event).view other = board.view other :=
  Function.update_of_ne apart _ _

def leave (board : Switchboard) (c : Nat) : Switchboard :=
  { board with connected := board.connected.erase c }

/-- What the line of a client makes the router do. -/
def action (board : Switchboard) (c : Nat) (line : Bytes) : Option Action :=
  ((board.view c).reader.read (cStr line)).2

/-- What happens next, if it can: descriptors are not in use twice, only connected
clients do something, and no line crashes a handler. -/
def next (handling : Handling) (limit : Nat) (board : Switchboard) :
    Happening → Option Switchboard
  | .accept sock behaviour =>
      if sock < 2 ^ 31 ∧ ∀ c ∈ board.connected, board.sock c ≠ sock then
        some (if board.connected.length < limit then board.welcome sock behaviour
          else board)
      else none
  | .receive c input =>
      if c ∈ board.connected then
        some (board.move handling c (.receive input))
      else none
  | .line c line rest =>
      if c ∈ board.connected ∧
          evbufferReadln (board.view c).evbuf = some (line, rest) ∧
          board.action c line ≠ some (.dispatch ⟨ascii "GET", []⟩) then
        some (board.move handling c (.line line rest))
      else none
  | .release c =>
      if c ∈ board.connected then some (board.leave c) else none

/-- The model after a schedule. -/
def follow (handling : Handling) (limit : Nat) (happenings : List Happening) :
    Option Switchboard :=
  happenings.foldlM (next handling limit) empty

theorem follow_snoc (handling : Handling) (limit : Nat)
    (happenings : List Happening) (happening : Happening) :
    follow handling limit (happenings ++ [happening]) =
      (follow handling limit happenings).bind fun board =>
        board.next handling limit happening := by
  unfold follow
  rw [List.foldlM_append]
  simp

end Switchboard

variable {board boardAfter : Switchboard}

/-- The router is in the state that the model shows. -/
structure Shows (world : World) (board : Switchboard) : Prop where
  connected : world.connected = board.connected
  clientBrk : world.clientBrk = board.clientBrk
  sock : ∀ c ∈ board.connected, (world.client c).socket = board.sock c
  view : ∀ c ∈ board.connected, world.view c = board.view c

theorem Shows.action (shows : Shows world board) (connected : c ∈ board.connected)
    (line : Bytes) : lineAction world c line = board.action c line := by
  have reader : clientReader world c = (board.view c).reader :=
    congrArg ClientView.reader (shows.view c connected)
  rw [lineAction, reader]
  rfl

/-- A router that has followed a schedule. -/
structure Attends (host : Host) (start world : World) (board : Switchboard) :
    Prop where
  reachable : Reachable host world
  setup : SameSetup start world
  unheard : ∀ c, world.clientBrk ≤ c → world.requests c = []
  limited : Limited world.census .idle []
  shows : Shows world board

/-! ## Steps -/

theorem Happens.limited (happens : Happens host world happening after)
    (named : happening.Named) (limited : Limited world.census .idle []) :
    Limited after.census .idle [] := by
  have int : ∀ sock behaviour, happening = .accept sock behaviour →
      sock < 2 ^ 31 := by
    intro sock behaviour same
    subst same
    exact named
  have begins : Limited (Threads.start world).world.census
      (Threads.start world).listener (Threads.start world).closed := limited
  exact (begins.steps (happens.threads int)).1

theorem ClientEvent.ofClient_by_of_ne {other : Nat} (event : ClientEvent)
    (apart : other ≠ c) : (event.by other).ofClient c = none := by
  cases event with
  | receive input => exact Happening.ofClient_receive_of_ne apart input
  | line text rest => exact Happening.ofClient_line_of_ne apart text rest

/-- What a client does connects and disconnects nobody. -/
theorem Happens.same_connected {event : ClientEvent}
    (reachable : Reachable host world)
    (happens : Happens host world (event.by c) after) :
    after.connected = world.connected ∧ after.clientBrk = world.clientBrk := by
  cases event with
  | receive input =>
      cases happens.effect reachable with
      | received connected => exact ⟨rfl, rfl⟩
  | line text rest =>
      cases happens.effect reachable with
      | processed connected => exact World.counting_clients _

theorem Happens.clientBrk_le (reachable : Reachable host world)
    (happens : Happens host world happening after) :
    world.clientBrk ≤ after.clientBrk := by
  rcases happens.arrival reachable with ⟨same, -⟩ | admitted
  · exact same.ge
  · obtain ⟨sock, behaviour, -, ended, -, -⟩ := admitted
    rw [ended]
    exact Nat.le_succ _

theorem Happens.released (reachable : Reachable host world)
    (happens : Happens host world (.release c) after) :
    after.connected = world.connected.erase c ∧
      after.clientBrk = world.clientBrk := by
  cases happens.effect reachable with
  | released connected => exact ⟨rfl, rfl⟩

namespace Attends

/-- Clients that do nothing see nothing. -/
theorem foreign (attends : Attends host start world board)
    (happens : Happens host world happening after)
    (connected : c ∈ board.connected) (still : c ∈ after.connected)
    (foreign : happening.ofClient c = none) :
    (after.client c).socket = board.sock c ∧ after.view c = board.view c := by
  have shows := attends.shows
  have member : c ∈ world.connected := shows.connected ▸ connected
  constructor
  · rw [happens.same_socket attends.reachable member, shows.sock c connected]
  · rw [happens.view attends.reachable member still,
      World.viewAfter_foreign foreign, shows.view c connected]

/-- The client that does something sees what the model says. -/
theorem moved {event : ClientEvent} (attends : Attends host start world board)
    (happens : Happens host world (event.by c) after) :
    Shows after
      (board.move (routing host.toPlatform start.server.ketama) c event) := by
  have reachable := attends.reachable
  have shows := attends.shows
  obtain ⟨same, sameBrk⟩ := happens.same_connected reachable
  constructor
  · exact same.trans shows.connected
  · exact sameBrk.trans shows.clientBrk
  · intro other connected
    have member : other ∈ world.connected := shows.connected ▸ connected
    rw [happens.same_socket reachable member]
    exact shows.sock other connected
  · intro other connected
    have member : other ∈ world.connected := shows.connected ▸ connected
    have still : other ∈ after.connected := same ▸ member
    by_cases own : other = c
    · subst own
      rw [happens.view reachable member still,
        World.viewAfter_own (event.ofClient_by other), attends.setup.ketama,
        shows.view other connected]
      exact (board.move_view_self _ other event).symm
    · rw [(attends.foreign happens connected still
        (event.ofClient_by_of_ne (Ne.symm own))).2]
      exact (board.move_view_of_ne _ event own).symm

/-- Who is taken in is shown a fresh router, and nobody else notices. -/
theorem admitted {sock : Nat} {behaviour : Nat → Nat → WriteResult}
    (attends : Attends host start world board)
    (happens : Happens host world (.accept sock behaviour)
      ((world.openSocket sock behaviour).admitted sock)) :
    Shows ((world.openSocket sock behaviour).admitted sock)
      (board.welcome sock behaviour) := by
  have shows := attends.shows
  obtain ⟨sessions, coherent⟩ := attends.reachable.coherent
  have older : ∀ c ∈ board.connected, c ≠ board.clientBrk := by
    intro c connected
    rw [← shows.clientBrk]
    exact Nat.ne_of_lt (coherent.known c (shows.connected ▸ connected))
  have others : ∀ c ∈ board.connected,
      (((world.openSocket sock behaviour).admitted sock).client c).socket =
          board.sock c ∧
        ((world.openSocket sock behaviour).admitted sock).view c =
          board.view c := by
    intro c connected
    apply attends.foreign happens connected _ rfl
    exact List.mem_append_left _ (shows.connected ▸ connected)
  constructor
  · change world.connected ++ [world.clientBrk] = _
    rw [shows.connected, shows.clientBrk]
    rfl
  · exact congrArg Nat.succ shows.clientBrk
  · intro c member
    cases List.mem_append.mp member with
    | inl before =>
        rw [(others c before).1]
        exact (board.welcome_of_ne sock behaviour (older c before)).1.symm
    | inr new =>
        have newest : c = board.clientBrk := List.mem_singleton.mp new
        have client := @World.admitted_client (world.openSocket sock behaviour)
          sock
        change World.client _ world.clientBrk = _ at client
        rw [newest, ← shows.clientBrk, client, shows.clientBrk]
        exact (board.welcome_self sock behaviour).1.symm
  · intro c member
    cases List.mem_append.mp member with
    | inl before =>
        rw [(others c before).2]
        exact (board.welcome_of_ne sock behaviour (older c before)).2.2.symm
    | inr new =>
        have newest : c = board.clientBrk := List.mem_singleton.mp new
        rw [newest, ← shows.clientBrk, World.admitted_view sock behaviour
          (attends.unheard _ (Nat.le_refl _)), shows.clientBrk]
        exact (board.welcome_self sock behaviour).2.2.symm

theorem left (attends : Attends host start world board)
    (happens : Happens host world (.release c) after) :
    Shows after (board.leave c) := by
  have shows := attends.shows
  obtain ⟨others, sameBrk⟩ := happens.released attends.reachable
  have left : ∀ other ∈ (board.leave c).connected,
      other ∈ board.connected ∧ other ∈ after.connected := by
    intro other stays
    rw [others, shows.connected]
    exact ⟨List.mem_of_mem_erase stays, stays⟩
  refine ⟨?_, ?_, ?_, ?_⟩
  · rw [others, shows.connected]
    rfl
  · exact sameBrk.trans shows.clientBrk
  · intro other stays
    obtain ⟨before, still⟩ := left other stays
    exact (attends.foreign happens before still rfl).1
  · intro other stays
    obtain ⟨before, still⟩ := left other stays
    exact (attends.foreign happens before still rfl).2

/-- What happens is what the model does next. -/
theorem next (attends : Attends host start world board)
    (happens : Happens host world happening after) (named : happening.Named) :
    ∃ boardAfter, board.next (routing host.toPlatform start.server.ketama)
        start.server.maxConnections.toNat happening = some boardAfter ∧
      Shows after boardAfter := by
  have shows := attends.shows
  have reachable := attends.reachable
  have room := attends.limited.room
  rw [attends.setup.maxConnections, shows.connected] at room
  cases happening with
  | accept sock behaviour =>
      have unused : ∀ c ∈ board.connected, board.sock c ≠ sock := by
        intro c connected
        rw [← shows.sock c connected]
        cases happens with
        | accept unused ran => exact unused c (shows.connected ▸ connected)
      refine ⟨_, if_pos ⟨named, unused⟩, ?_⟩
      cases happens.effect reachable with
      | refused full =>
          rw [attends.setup.maxConnections, room] at full
          rw [if_neg (Nat.not_lt.mpr full)]
          exact ⟨shows.connected, shows.clientBrk, shows.sock,
            fun c connected => (attends.foreign happens connected
              (shows.connected ▸ connected) rfl).2⟩
      | admitted below workers =>
          rw [attends.setup.maxConnections, room] at below
          rw [if_pos (Nat.not_le.mp below)]
          exact attends.admitted happens
  | receive c input =>
      have connected : c ∈ board.connected := by
        rw [← shows.connected]
        cases happens with
        | receive connected ran => exact connected
      exact ⟨_, if_pos connected, attends.moved happens⟩
  | line c line rest =>
      have taken := happens.found
      have member : c ∈ world.connected := by
        cases happens with
        | line connected found ran => exact connected
      have connected : c ∈ board.connected := shows.connected ▸ member
      have view := shows.view c connected
      have evbuf : (world.client c).evbuf = (board.view c).evbuf :=
        congrArg ClientView.evbuf view
      have harmless := happens.safe reachable
      rw [shows.action connected line] at harmless
      exact ⟨_, if_pos ⟨connected, evbuf ▸ taken, harmless⟩,
        attends.moved happens⟩
  | release c =>
      have member : c ∈ world.connected := by
        cases happens with
        | release connected ran => exact connected
      exact ⟨_, if_pos (shows.connected ▸ member), attends.left happens⟩

/-- What the model can do next can happen. -/
theorem possible (attends : Attends host start world board)
    (workers : start.server.workerCount ≠ 0)
    (scheduled : board.next (routing host.toPlatform start.server.ketama)
      start.server.maxConnections.toNat happening = some boardAfter) :
    happening.Named ∧ ∃ after, Happens host world happening after := by
  have shows := attends.shows
  have reachable := attends.reachable
  cases happening with
  | accept sock behaviour =>
      obtain ⟨⟨named, unused⟩, -⟩ := Option.ite_none_right_eq_some.mp scheduled
      have free : ∀ c ∈ world.connected, (world.client c).socket ≠ sock := by
        intro c connected
        rw [shows.sock c (shows.connected ▸ connected)]
        exact unused c (shows.connected ▸ connected)
      refine ⟨named, ?_⟩
      by_cases full : world.server.maxConnections ≤
          serverGetCurrentConnections world
      · exact reachable.refuses free behaviour full
      · rw [← attends.setup.workerCount] at workers
        exact ⟨_, .accept free (serverEventAccept_admits full workers)⟩
  | receive c input =>
      obtain ⟨connected, -⟩ := Option.ite_none_right_eq_some.mp scheduled
      obtain ⟨after, happens, -⟩ :=
        reachable.receives (shows.connected ▸ connected) input
      exact ⟨trivial, after, happens⟩
  | line c line rest =>
      obtain ⟨⟨connected, found, harmless⟩, -⟩ :=
        Option.ite_none_right_eq_some.mp scheduled
      have evbuf : (world.client c).evbuf = (board.view c).evbuf :=
        congrArg ClientView.evbuf (shows.view c connected)
      rw [← evbuf] at found
      rw [← shows.action connected line] at harmless
      exact ⟨trivial,
        reachable.processes (shows.connected ▸ connected) found harmless⟩
  | release c =>
      obtain ⟨connected, -⟩ := Option.ite_none_right_eq_some.mp scheduled
      exact ⟨trivial, reachable.releases (shows.connected ▸ connected)⟩

theorem step (attends : Attends host start world board)
    (happens : Happens host world happening after) (named : happening.Named) :
    ∃ boardAfter, board.next (routing host.toPlatform start.server.ketama)
        start.server.maxConnections.toNat happening = some boardAfter ∧
      Attends host start after boardAfter := by
  obtain ⟨boardAfter, scheduled, shows⟩ := attends.next happens named
  refine ⟨boardAfter, scheduled, attends.reachable.step happens.step,
    attends.setup.trans (happens.setup attends.reachable), ?_,
    happens.limited named attends.limited, shows⟩
  intro c unknown
  have known : world.clientBrk ≤ c :=
    (happens.clientBrk_le attends.reachable).trans unknown
  exact (@Happens.unheard _ _ _ _ _ [] attends.reachable happens known rfl
    (attends.unheard c known)).2

end Attends

/-! ## Runs -/

theorem serverInit_attends {workers : Nat} {maxConnections : UInt64}
    (ran : serverInit host.toPlatform workers maxConnections = .ok start) :
    Attends host start start .empty where
  reachable := .start ran
  setup := ⟨rfl, rfl, rfl⟩
  unheard c _ := by
    rw [World.requests, (serverInit_unheard ran).2]
    rfl
  limited := (serverInit_limited ran).1
  shows := by
    have nobody := (serverInit_untouched ran).nobody
    refine ⟨nobody, (serverInit_unheard ran).1, ?_, ?_⟩ <;>
      intro c connected <;>
      cases connected

/-- The router does what the model does, in every run. -/
theorem Run.attends {workers : Nat} {maxConnections : UInt64}
    (ran : serverInit host.toPlatform workers maxConnections = .ok start)
    (run : Run (Happens host) start happenings world)
    (named : ∀ happening ∈ happenings, happening.Named) :
    ∃ board, Switchboard.follow (routing host.toPlatform start.server.ketama)
        start.server.maxConnections.toNat happenings = some board ∧
      Attends host start world board := by
  induction run with
  | nil => exact ⟨.empty, rfl, serverInit_attends ran⟩
  | snoc run happens induction =>
      obtain ⟨board, followed, attends⟩ := induction fun happening member =>
        named happening (List.mem_append_left _ member)
      obtain ⟨boardAfter, scheduled, attendsAfter⟩ := attends.step happens
        (named _ (List.mem_append_right _ List.mem_cons_self))
      refine ⟨boardAfter, ?_, attendsAfter⟩
      rw [Switchboard.follow_snoc, followed]
      exact scheduled

/-- Every schedule that the model can follow is a run of the router. -/
theorem Switchboard.run {workers : Nat} {maxConnections : UInt64}
    (ran : serverInit host.toPlatform workers maxConnections = .ok start)
    (someWorkers : start.server.workerCount ≠ 0)
    (followed : Switchboard.follow
      (routing host.toPlatform start.server.ketama)
      start.server.maxConnections.toNat happenings = some board) :
    (∀ happening ∈ happenings, happening.Named) ∧
      ∃ world, Run (Happens host) start happenings world ∧
        Attends host start world board := by
  induction happenings using List.reverseRecOn generalizing board with
  | nil =>
      cases followed
      exact ⟨by simp, start, .nil, serverInit_attends ran⟩
  | append_singleton happenings happening induction =>
      rw [Switchboard.follow_snoc] at followed
      obtain ⟨middle, before, scheduled⟩ := Option.bind_eq_some_iff.mp followed
      obtain ⟨named, world, run, attends⟩ := induction before
      obtain ⟨named', after, happens⟩ :=
        attends.possible someWorkers scheduled
      obtain ⟨boardAfter, same, attendsAfter⟩ := attends.step happens named'
      cases scheduled.symm.trans same
      refine ⟨?_, after, run.snoc happens, attendsAfter⟩
      intro other member
      cases List.mem_append.mp member with
      | inl earlier => exact named other earlier
      | inr last =>
          rw [List.mem_singleton.mp last]
          exact named'

/-- A router that has followed a schedule, which no handling of requests
prevents. -/
theorem Host.schedule (host : Host) {workers : Nat} (someWorkers : workers ≠ 0)
    (maxConnections : UInt64) {boards : Handling → Switchboard}
    (followed : ∀ handling, Switchboard.follow handling maxConnections.toNat
      happenings = some (boards handling)) :
    ∃ start world, serverInit host.toPlatform workers maxConnections = .ok start ∧
      start.server.workerCount = workers ∧
      Run (Happens host) start happenings world ∧
      Attends host start world
        (boards (routing host.toPlatform start.server.ketama)) := by
  obtain ⟨start, ran, most, count, -⟩ := host.starts workers maxConnections
  have follows := followed (routing host.toPlatform start.server.ketama)
  rw [← most] at follows
  rw [← count] at someWorkers
  obtain ⟨-, world, run, attends⟩ := Switchboard.run ran someWorkers follows
  exact ⟨start, world, ran, count, run, attends⟩

/-- The same for a schedule in two parts. -/
theorem Host.schedules (host : Host) {first later : List Happening}
    {workers : Nat} (someWorkers : workers ≠ 0) (maxConnections : UInt64)
    {boards boardsLater : Handling → Switchboard}
    (followed : ∀ handling, Switchboard.follow handling maxConnections.toNat
      first = some (boards handling))
    (followedLater : ∀ handling, Switchboard.follow handling
      maxConnections.toNat (first ++ later) = some (boardsLater handling)) :
    ∃ start world after,
      serverInit host.toPlatform workers maxConnections = .ok start ∧
      start.server.workerCount = workers ∧
      Run (Happens host) start first world ∧
      Attends host start world
        (boards (routing host.toPlatform start.server.ketama)) ∧
      Run (Happens host) world later after ∧
      Attends host start after
        (boardsLater (routing host.toPlatform start.server.ketama)) := by
  obtain ⟨start, ran, most, count, -⟩ := host.starts workers maxConnections
  have whole := followedLater (routing host.toPlatform start.server.ketama)
  have begins := followed (routing host.toPlatform start.server.ketama)
  rw [← most] at whole begins
  rw [← count] at someWorkers
  obtain ⟨named, after, run, attendsAfter⟩ :=
    Switchboard.run ran someWorkers whole
  obtain ⟨world, runFirst, runLater⟩ := run.split
  obtain ⟨board, follows, attends⟩ := Run.attends ran runFirst
    fun happening member => named happening (List.mem_append_left _ member)
  cases begins.symm.trans follows
  exact ⟨start, world, after, ran, count, runFirst, attends, runLater,
    attendsAfter⟩

/-- Sockets that take everything in the model take everything. -/
theorem Attends.accepting (attends : Attends host start world board)
    (connected : c ∈ board.connected)
    (takes : board.behaviour c = fun _ offered => .accepts offered) :
    (world.view c).socket.Accepting := by
  apply accepting_of_max
  rw [attends.shows.view c connected, board.steady c, takes]

/-- The router follows the schedules that the model can follow, and no others. -/
theorem schedule_iff {workers : Nat} {maxConnections : UInt64}
    (ran : serverInit host.toPlatform workers maxConnections = .ok start)
    (someWorkers : start.server.workerCount ≠ 0) :
    (Switchboard.follow (routing host.toPlatform start.server.ketama)
        start.server.maxConnections.toNat happenings).isSome ↔
      (∀ happening ∈ happenings, happening.Named) ∧
        ∃ world, Run (Happens host) start happenings world := by
  constructor
  · intro follows
    obtain ⟨board, followed⟩ := Option.isSome_iff_exists.mp follows
    obtain ⟨named, world, run, -⟩ := Switchboard.run ran someWorkers followed
    exact ⟨named, world, run⟩
  · intro possible
    obtain ⟨named, world, run⟩ := possible
    obtain ⟨board, followed, -⟩ := Run.attends ran run named
    exact Option.isSome_iff_exists.mpr ⟨board, followed⟩

/-! ## Two clients -/

/-- One client asks for a key, and the other one for a command that there is none
of, sends a line that is no message, and asks whether the router is there. -/
def twoSenders : List Happening :=
  [.accept 0 fun _ offered => .accepts offered,
    .accept 1 fun _ offered => .accepts offered,
    .receive 0 (ascii "+GET 1\n$k\n"),
    .receive 1 (ascii "+FOO 1\n$x\nbad\n+PING\n")]

/-- Their lines are taken in turns. -/
def twoTurns : List Happening :=
  [.line 0 (ascii "+GET 1") (ascii "$k\n"),
    .line 1 (ascii "+FOO 1") (ascii "$x\nbad\n+PING\n"),
    .line 0 (ascii "$k") [], .line 1 (ascii "$x") (ascii "bad\n+PING\n"),
    .line 1 (ascii "bad") (ascii "+PING\n"), .line 1 (ascii "+PING") []]

end KetamaRouter
