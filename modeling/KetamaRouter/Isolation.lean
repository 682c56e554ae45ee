import KetamaRouter.Transcript

/-!
# Isolation of clients

What a client sees of the router depends on its own bytes and lines only: the
router that serves the client alone shows it the same.
-/

namespace KetamaRouter

open FaultProgram LabelledRun

variable {host : Host} {world start after : World} {c other : Nat}
  {happening : Happening} {happenings : List Happening}

/-! ## Serving a client alone -/

/-- What a client does in a run, done by the first client of a router. -/
def clientHappenings (c : Nat) (happenings : List Happening) :
    List Happening :=
  (happenings.filterMap (Happening.ofClient c)).map (ClientEvent.by 0)

theorem clientHappenings_own {event : ClientEvent}
    (own : happening.ofClient c = some event) (happenings : List Happening) :
    clientHappenings c (happenings ++ [happening]) =
      clientHappenings c happenings ++ [event.by 0] := by
  simp [clientHappenings, List.filterMap_append, own]

theorem clientHappenings_foreign (foreign : happening.ofClient c = none)
    (happenings : List Happening) :
    clientHappenings c (happenings ++ [happening]) =
      clientHappenings c happenings := by
  simp [clientHappenings, List.filterMap_append, foreign]

/-- A step of the run took the client `c` in, on the socket `sock`. -/
def TakenIn (host : Host) (start : World) (happenings : List Happening)
    (c sock : Nat) (behaviour : Nat → Nat → WriteResult) : Prop :=
  ∃ earlier later before taken,
    happenings = earlier ++ .accept sock behaviour :: later ∧
      Run (Happens host) start earlier before ∧ before.clientBrk = c ∧
      Happens host before (.accept sock behaviour) taken ∧ c ∈ taken.connected

/-- The router `alone` has served the client `c` only, as its client `0`, and has
shown it what `world` has. -/
structure ServedAlone (host : Host) (start : World)
    (happenings : List Happening) (world : World) (c : Nat) (alone : World) :
    Prop where
  run : ∃ sock behaviour, TakenIn host start happenings c sock behaviour ∧
    Run (Happens host) start
      (.accept sock behaviour :: clientHappenings c happenings) alone
  connected : 0 ∈ alone.connected
  requests : alone.requests 0 = world.requests c
  view : c ∈ world.connected → alone.view 0 = world.view c

theorem TakenIn.snoc {sock : Nat} {behaviour : Nat → Nat → WriteResult}
    (taken : TakenIn host start happenings c sock behaviour)
    (happening : Happening) :
    TakenIn host start (happenings ++ [happening]) c sock behaviour := by
  obtain ⟨earlier, later, before, after, same, rest⟩ := taken
  refine ⟨earlier, later ++ [happening], before, after, ?_, rest⟩
  rw [same, List.append_assoc, List.cons_append]

variable {alone : World}

/-- The same event moves equal views of two routers to equal views. -/
theorem Happens.alike {event : ClientEvent} {aloneAfter : World}
    (reachable : Reachable host world) (reachableAlone : Reachable host alone)
    (happens : Happens host world happening after)
    (happensAlone : Happens host alone (event.by 0) aloneAfter)
    (own : happening.ofClient c = some event)
    (ring : alone.server.ketama = world.server.ketama)
    (connected : c ∈ world.connected) (connectedAlone : 0 ∈ alone.connected)
    (same : alone.view 0 = world.view c) :
    aloneAfter.view 0 = after.view c := by
  have ownAlone := event.ofClient_by 0
  have still := happens.stays reachable own connected
  have stillAlone := happensAlone.stays reachableAlone ownAlone connectedAlone
  rw [happensAlone.view reachableAlone connectedAlone stillAlone,
    happens.view reachable connected still, World.viewAfter_own ownAlone,
    World.viewAfter_own own, same, ring]

/-- What a client can do among others it can do alone. -/
theorem Happens.possible {event : ClientEvent}
    (reachable : Reachable host world) (reachableAlone : Reachable host alone)
    (happens : Happens host world (event.by c) after)
    (connectedAlone : 0 ∈ alone.connected)
    (same : alone.view 0 = world.view c) :
    ∃ aloneAfter, Happens host alone (event.by 0) aloneAfter := by
  cases event with
  | receive input =>
      obtain ⟨aloneAfter, received, -⟩ :=
        reachableAlone.receives connectedAlone input
      exact ⟨aloneAfter, received⟩
  | line text rest =>
      have safe := happens.safe reachable
      have reader : clientReader alone 0 = clientReader world c :=
        congrArg ClientView.reader same
      have evbuf : (alone.client 0).evbuf = (world.client c).evbuf :=
        congrArg ClientView.evbuf same
      have found : evbufferReadln (alone.client 0).evbuf = some (text, rest) := by
        rw [evbuf]
        cases happens with
        | line connected found ran => exact found
      apply reachableAlone.processes connectedAlone found
      rw [lineAction, reader]
      exact safe

theorem ServedAlone.own {event : ClientEvent}
    (served : ServedAlone host start happenings world c alone)
    (reachableStart : Reachable host start) (reachable : Reachable host world)
    (setup : SameSetup start world)
    (setupAlone : SameSetup start alone)
    (happens : Happens host world happening after)
    (own : happening.ofClient c = some event) :
    ∃ aloneAfter,
      ServedAlone host start (happenings ++ [happening]) after c aloneAfter := by
  obtain ⟨⟨sock, behaviour, taken, run⟩, connectedAlone, -, view⟩ := served
  obtain ⟨done, connected⟩ := happens.doing own
  have reachableAlone := reachableStart.run run
  have same := view connected
  subst done
  obtain ⟨aloneAfter, happensAlone⟩ :=
    happens.possible reachable reachableAlone connectedAlone same
  have ring := setupAlone.ketama.trans setup.ketama.symm
  have alike := happens.alike reachable reachableAlone happensAlone own ring
    connected connectedAlone same
  have ownAlone := event.ofClient_by 0
  refine ⟨aloneAfter, ⟨sock, behaviour, taken.snoc _, ?_⟩,
    happensAlone.stays reachableAlone ownAlone connectedAlone,
    congrArg ClientView.requests alike, fun _ => alike⟩
  rw [clientHappenings_own own]
  exact run.snoc happensAlone

/-- What a client did not do changes nothing for it. -/
theorem ServedAlone.foreign
    (served : ServedAlone host start happenings world c alone)
    (reachable : Reachable host world)
    (happens : Happens host world happening after)
    (foreign : happening.ofClient c = none)
    (known : c ∈ after.connected → c ∈ world.connected) :
    ServedAlone host start (happenings ++ [happening]) after c alone := by
  obtain ⟨⟨sock, behaviour, taken, run⟩, connected, requests, view⟩ := served
  constructor
  · refine ⟨sock, behaviour, taken.snoc _, ?_⟩
    rw [clientHappenings_foreign foreign]
    exact run
  · exact connected
  · rw [happens.requests reachable foreign]
    exact requests
  · intro still
    rw [happens.view reachable (known still) still,
      World.viewAfter_foreign foreign]
    exact view (known still)

/-- All clients of a run so far have been served as if alone. -/
structure Isolated (host : Host) (start : World)
    (happenings : List Happening) (world : World) : Prop where
  setup : SameSetup start world
  alone : ∀ c < world.clientBrk, ∃ alone,
    ServedAlone host start happenings world c alone
  unheard : ∀ c, world.clientBrk ≤ c →
    happenings.filterMap (Happening.ofClient c) = [] ∧ world.requests c = []

/-- Whom a step takes in has been served as if alone. -/
theorem ServedAlone.taken {maxConnections : UInt64} {sock : Nat}
    {behaviour : Nat → Nat → WriteResult}
    (untouched : Untouched maxConnections start) (first : start.clientBrk = 0)
    (heard : start.trace = []) (setup : SameSetup start world)
    (run : Run (Happens host) start happenings world)
    (happens : Happens host world (.accept sock behaviour)
      ((world.openSocket sock behaviour).admitted sock))
    (room : world.server.maxConnections ≠ 0)
    (workers : world.server.workerCount ≠ 0)
    (none : happenings.filterMap (Happening.ofClient world.clientBrk) = [])
    (silent : world.requests world.clientBrk = []) :
    ServedAlone host start (happenings ++ [.accept sock behaviour])
      ((world.openSocket sock behaviour).admitted sock) world.clientBrk
      ((start.openSocket sock behaviour).admitted sock) := by
  have accepted := @Untouched.accepts host start maxConnections untouched
    (setup.maxConnections ▸ room) (setup.workerCount ▸ workers) sock behaviour
  have unheard : start.requests 0 = [] := by
    rw [World.requests, heard]
    rfl
  have fresh := World.admitted_view sock behaviour (first ▸ unheard)
  rw [first] at fresh
  have taken : world.clientBrk ∈
      ((world.openSocket sock behaviour).admitted sock).connected :=
    List.mem_append_right _ List.mem_cons_self
  constructor
  · refine ⟨sock, behaviour,
      ⟨happenings, [], world, _, rfl, run, rfl, happens, taken⟩, ?_⟩
    rw [clientHappenings_foreign rfl, clientHappenings, none]
    exact Run.nil.snoc accepted
  · change 0 ∈ start.connected ++ [start.clientBrk]
    rw [first]
    exact List.mem_append_right _ List.mem_cons_self
  · exact unheard.trans silent.symm
  · intro _
    rw [fresh, World.admitted_view sock behaviour silent]

/-- A client known before is served as before, whoever acts. -/
theorem Isolated.older (isolated : Isolated host start happenings world)
    (reachableStart : Reachable host start) (reachable : Reachable host world)
    (happens : Happens host world happening after) (known : c < world.clientBrk)
    (still : c ∈ after.connected → c ∈ world.connected) :
    ∃ alone, ServedAlone host start (happenings ++ [happening]) after c
      alone := by
  obtain ⟨alone, served⟩ := isolated.alone c known
  cases own : happening.ofClient c with
  | none => exact ⟨alone, served.foreign reachable happens own still⟩
  | some event =>
      obtain ⟨sock, behaviour, -, runAlone⟩ := served.run
      exact served.own reachableStart reachable isolated.setup
        (Happens.setupRun reachableStart runAlone) happens own

theorem Isolated.step {maxConnections : UInt64}
    (isolated : Isolated host start happenings world)
    (reachableStart : Reachable host start)
    (untouched : Untouched maxConnections start)
    (first : start.clientBrk = 0) (heard : start.trace = [])
    (run : Run (Happens host) start happenings world)
    (happens : Happens host world happening after) :
    Isolated host start (happenings ++ [happening]) after := by
  have reachable := reachableStart.run run
  have setup := isolated.setup.trans (happens.setup reachable)
  have older : ∀ c < world.clientBrk,
      (c ∈ after.connected → c ∈ world.connected) → ∃ alone,
        ServedAlone host start (happenings ++ [happening]) after c alone :=
    fun c known still =>
      isolated.older reachableStart reachable happens known still
  have unheard : ∀ c, world.clientBrk ≤ c →
      (happenings ++ [happening]).filterMap (Happening.ofClient c) = [] ∧
        after.requests c = [] := by
    intro c unknown
    obtain ⟨none, silent⟩ := isolated.unheard c unknown
    exact happens.unheard reachable unknown none silent
  cases happens.arrival reachable with
  | inl nobody =>
      obtain ⟨same, still⟩ := nobody
      refine ⟨setup, ?_, ?_⟩
      · intro c known
        rw [same] at known
        exact older c known (still c)
      · intro c unknown
        rw [same] at unknown
        exact unheard c unknown
  | inr admitted =>
      obtain ⟨sock, behaviour, accepts, ended, room, workers⟩ := admitted
      have next : after.clientBrk = world.clientBrk + 1 := by
        rw [ended]
        rfl
      refine ⟨setup, ?_, ?_⟩
      · intro c known
        rw [next] at known
        cases Nat.lt_succ_iff_lt_or_eq.mp known with
        | inl before =>
            apply older c before
            intro still
            rw [ended] at still
            cases List.mem_append.mp still with
            | inl connected => exact connected
            | inr taken =>
                exact absurd (List.mem_singleton.mp taken) (Nat.ne_of_lt before)
        | inr newest =>
            obtain ⟨none, silent⟩ :=
              isolated.unheard world.clientBrk (Nat.le_refl _)
            subst accepts
            subst ended
            rw [newest]
            exact ⟨_, .taken untouched first heard isolated.setup run happens
              room workers none silent⟩
      · intro c unknown
        rw [next] at unknown
        exact unheard c (Nat.le_of_succ_le unknown)

/-- Clients do not influence one another.  A client of a router whose run does
not crash has been given the requests, and has been sent the replies while it is
connected, that a fresh router gives it that gets its bytes and lines alone. -/
theorem clients_isolated {workers : Nat} {maxConnections : UInt64}
    (ran : serverInit host.toPlatform workers maxConnections = .ok start)
    (run : Run (Happens host) start happenings world)
    (known : c < world.clientBrk) :
    ∃ sock behaviour alone,
      TakenIn host start happenings c sock behaviour ∧
        Run (Happens host) start
          (.accept sock behaviour :: clientHappenings c happenings) alone ∧
        alone.requests 0 = world.requests c ∧
        (c ∈ world.connected →
          alone.memory.socket (alone.client 0).socket =
            world.memory.socket (world.client c).socket) := by
  have untouched := serverInit_untouched ran
  have reachable : Reachable host start := .start ran
  obtain ⟨first, heard⟩ := serverInit_unheard ran
  have isolated : Isolated host start happenings world := by
    clear known
    induction run with
    | nil =>
        refine ⟨⟨rfl, rfl, rfl⟩, ?_, ?_⟩
        · intro c known
          rw [first] at known
          exact absurd known (Nat.not_lt_zero c)
        · intro c _
          rw [World.requests, heard]
          exact ⟨rfl, rfl⟩
    | snoc run happens induction =>
        exact induction.step reachable untouched first heard run happens
  obtain ⟨alone, served⟩ := isolated.alone c known
  obtain ⟨sock, behaviour, taken, runAlone⟩ := served.run
  refine ⟨sock, behaviour, alone, taken, runAlone, served.requests, ?_⟩
  intro connected
  exact congrArg ClientView.socket (served.view connected)

/-- Two clients of one worker take turns, and the second one is sent three
replies. -/
theorem clients_isolated_turns :
    ∃ start world alone, serverInit Host.standard.toPlatform 1 8 = .ok start ∧
      Run (Happens Host.standard) start (twoSenders ++ twoTurns) world ∧
      (∃ sock behaviour, Run (Happens Host.standard) start
        [.accept sock behaviour,
          .receive 0 (ascii "+FOO 1\n$x\nbad\n+PING\n"),
          .line 0 (ascii "+FOO 1") (ascii "$x\nbad\n+PING\n"),
          .line 0 (ascii "$x") (ascii "bad\n+PING\n"),
          .line 0 (ascii "bad") (ascii "+PING\n"),
          .line 0 (ascii "+PING") []] alone) ∧
      alone.requests 0 = world.requests 1 ∧
      world.requests 1 =
        [some ⟨ascii "FOO", [.str (ascii "x")]⟩, some ⟨ascii "PING", []⟩] ∧
      alone.memory.socket (alone.client 0).socket =
        world.memory.socket (world.client 1).socket ∧
      messagesIn (world.memory.socket (world.client 1).socket).sent =
        some [unknownReply, errorReply errWrongMsgFormatNo errWrongMsgFormat,
          pongReply] := by
  obtain ⟨start, world, ran, -, run, attends⟩ :=
    @Host.schedule (twoSenders ++ twoTurns) Host.standard 1 (by decide) 8 _
      fun handling => rfl
  have shown : 1 ∈ [0, 1] := by decide
  have view := attends.shows.view 1 shown
  have connected : 1 ∈ world.connected := attends.shows.connected ▸ shown
  obtain ⟨_, told⟩ := serverInit_told ran run connected
  obtain ⟨ring, -⟩ := attends.reachable.serving
  rw [attends.setup.ketama] at ring
  have reads := told.reads ring (attends.accepting shown rfl)
  have requested : world.requests 1 =
      [some ⟨ascii "FOO", [.str (ascii "x")]⟩, some ⟨ascii "PING", []⟩] := by
    apply (congrArg ClientView.requests view).trans
    rfl
  have known : 1 < world.clientBrk := by
    rw [attends.shows.clientBrk]
    exact Nat.one_lt_two
  obtain ⟨sock, behaviour, alone, -, runAlone, requests, socket⟩ :=
    clients_isolated ran run known
  refine ⟨start, world, alone, ran, run, ⟨sock, behaviour, runAlone⟩, requests,
    requested, socket connected, reads.trans ?_⟩
  rfl

end KetamaRouter
