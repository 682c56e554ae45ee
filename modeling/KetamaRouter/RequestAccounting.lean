import Mathlib.Algebra.BigOperators.Group.Finset.Piecewise
import Mathlib.Data.UInt
import KetamaRouter.Happenings
import KetamaRouter.Library.Totals

/-!
# Request accounting

Three counters of a client and three of its worker, against the trace.  Every
rejected line and every completed request moves both alike, as long as the
handlers are done with the requests they are given; a request that no handler
finishes is counted as done twice on its client.
-/

namespace KetamaRouter

open FaultProgram LabelledRun Totals

/-! ## What is to be counted -/

/-- A request of the client whose handler returned `CMD_FUNC_DONE`. -/
def Event.isDone (c : Nat) : Event → Bool
  | .dispatch client (some request) => client == c && decide request.Handled
  | _ => false

/-- A rejected line of the client, or a request whose handler failed. -/
def Event.isFailed (c : Nat) : Event → Bool
  | .wrongFormat client => client == c
  | .wrongParam client => client == c
  | .dispatch client (some request) => client == c && !decide request.Handled
  | _ => false

/-- `req_all`, `req_ok` and `req_err` -/
abbrev Tally := UInt64 × UInt64 × UInt64

def Client.tally (client : Client) : Tally :=
  (client.reqAll, client.reqOk, client.reqErr)

def Worker.tally (worker : Worker) : Tally :=
  (worker.reqAll, worker.reqOk, worker.reqErr)

/-- The clients a worker has had so far. -/
def World.served (world : World) (w : Nat) : Finset Nat :=
  {c ∈ Finset.range world.clientBrk | (world.client c).worker = w}

/-- All requests are accounted for. -/
structure Accounted (world : World) : Prop where
  balanced : ∀ c, (world.client c).reqAll =
    (world.client c).reqOk + (world.client c).reqErr
  done : ∀ c, (world.client c).reqOk =
    UInt64.ofNat (world.trace.countP (Event.isDone c))
  failed : ∀ c, (world.client c).reqErr =
    UInt64.ofNat (world.trace.countP (Event.isFailed c))
  workers : ∀ w, (world.worker w).tally =
    ∑ c ∈ world.served w, (world.client c).tally

/-- Whatever request a line completes, its handler is done with it. -/
def FinishesRequests (world : World) : Happening → Prop
  | .line c line _ => ∀ request,
      lineAction world c line = some (.dispatch request) → request.Handled
  | _ => True

variable {host : Host} {world start after : World} {c : Nat}
  {happenings : List Happening}

/-! ## Charges -/

/-- What so many done and failed requests come to. -/
def charge (done failed : Nat) : Tally :=
  (UInt64.ofNat (done + failed), UInt64.ofNat done, UInt64.ofNat failed)

theorem charge_add (done failed moreDone moreFailed : Nat) :
    charge (done + moreDone) (failed + moreFailed) =
      charge done failed + charge moreDone moreFailed := by
  have all : done + moreDone + (failed + moreFailed) =
      done + failed + (moreDone + moreFailed) := by
    omega
  simp only [charge, all, UInt64.ofNat_add]
  rfl

/-- What the trace charges a client with. -/
def World.charged (world : World) (c : Nat) : Tally :=
  charge (world.trace.countP (Event.isDone c))
    (world.trace.countP (Event.isFailed c))

theorem World.charged_logged (events : List Event) (c : Nat) :
    (world.logged events).charged c = world.charged c +
      charge (events.countP (Event.isDone c))
        (events.countP (Event.isFailed c)) := by
  rw [World.charged, World.logged, List.countP_append, List.countP_append,
    charge_add]
  rfl

/-- Who an event is about. -/
def Event.client : Event → Nat
  | .line client _ => client
  | .wrongFormat client => client
  | .wrongParam client => client
  | .dispatch client _ => client
  | .invoke client _ _ => client

/-- The counters agree with the trace, and nothing happened to clients that are
still to come. -/
structure Charged (world : World) : Prop where
  clients : ∀ c, (world.client c).tally = world.charged c
  workers : ∀ w, (world.worker w).tally =
    ∑ c ∈ world.served w, (world.client c).tally
  known : ∀ event ∈ world.trace, event.client < world.clientBrk

theorem Charged.accounted (charged : Charged world) : Accounted world where
  balanced c := by
    have tally := charged.clients c
    simp only [Client.tally, World.charged, charge, Prod.mk.injEq] at tally
    rw [tally.1, tally.2.1, tally.2.2, UInt64.ofNat_add]
  done c := (Prod.mk.inj (Prod.mk.inj (charged.clients c)).2).1
  failed c := (Prod.mk.inj (Prod.mk.inj (charged.clients c)).2).2
  workers := charged.workers

theorem Event.client_of_isDone {event : Event} (done : event.isDone c = true) :
    event.client = c := by
  cases event with
  | dispatch client request =>
      cases request with
      | none => cases done
      | some request =>
          rw [Event.isDone, Bool.and_eq_true] at done
          exact eq_of_beq done.1
  | _ => cases done

theorem Event.client_of_isFailed {event : Event}
    (failed : event.isFailed c = true) : event.client = c := by
  cases event with
  | wrongFormat client => exact eq_of_beq failed
  | wrongParam client => exact eq_of_beq failed
  | dispatch client request =>
      cases request with
      | none => cases failed
      | some request =>
          rw [Event.isFailed, Bool.and_eq_true] at failed
          exact eq_of_beq failed.1
  | _ => cases failed

/-- Events about others charge nothing. -/
theorem charge_of_others {events : List Event}
    (others : ∀ event ∈ events, event.client ≠ c) :
    charge (events.countP (Event.isDone c))
      (events.countP (Event.isFailed c)) = 0 := by
  have done : events.countP (Event.isDone c) = 0 := by
    apply List.countP_eq_zero.mpr
    intro event member done
    exact others event member (Event.client_of_isDone done)
  have failed : events.countP (Event.isFailed c) = 0 := by
    apply List.countP_eq_zero.mpr
    intro event member failed
    exact others event member (Event.client_of_isFailed failed)
  rw [done, failed]
  rfl

/-! ## What a line adds -/

/-- A client and its worker are charged, and nobody else. -/
structure Bills (c : Nat) (more : Tally) (world after : World) : Prop where
  client : (after.client c).tally = (world.client c).tally + more
  worker : (after.worker (world.client c).worker).tally =
    (world.worker (world.client c).worker).tally + more
  otherClients : ∀ other, other ≠ c →
    (after.client other).tally = (world.client other).tally
  otherWorkers : ∀ w, w ≠ (world.client c).worker →
    (after.worker w).tally = (world.worker w).tally
  homes : ∀ other, (after.client other).worker = (world.client other).worker
  clientBrk : after.clientBrk = world.clientBrk

theorem Bills.nothing (c : Nat) (world : World) :
    Bills c (charge 0 0) world world where
  client := (add_zero _).symm
  worker := (add_zero _).symm
  otherClients _ _ := rfl
  otherWorkers _ _ := rfl
  homes _ := rfl
  clientBrk := rfl

/-- A client and its worker changed alike. -/
theorem Bills.alike {more : Tally} {change : Client → Client}
    {workerChange : Worker → Worker}
    (client : ∀ client, (change client).tally = client.tally + more)
    (home : ∀ client, (change client).worker = client.worker)
    (worker : ∀ worker, (workerChange worker).tally = worker.tally + more) :
    Bills c more world ((world.setClient c change).setWorker
      (world.client c).worker workerChange) where
  client := by simp [World.setWorker, World.setClient, client]
  worker := by simp [World.setWorker, World.setClient, worker]
  otherClients other apart := by
    simp [World.setWorker, World.setClient, apart]
  otherWorkers w apart := by
    simp [World.setWorker, World.setClient, apart]
  homes other := by
    by_cases self : other = c
    · simp [self, World.setWorker, World.setClient, home]
    · simp [World.setWorker, World.setClient, self]
  clientBrk := rfl

theorem Bills.countOk (c : Nat) (world : World) :
    Bills c (charge 1 0) world (world.countOk c) := by
  apply Bills.alike
  · intro client
    simp [Client.tally, charge]
  · intro client
    rfl
  · intro worker
    simp [Worker.tally, charge]

theorem Bills.countErr (c : Nat) (world : World) :
    Bills c (charge 0 1) world (world.countErr c) := by
  apply Bills.alike
  · intro client
    simp [Client.tally, charge]
  · intro client
    rfl
  · intro worker
    simp [Worker.tally, charge]

/-- A line charges what it adds to the trace, if no request fails. -/
theorem counting_bills {reader : Reader} {line : Bytes} {handling : Handling}
    (quiet : ∀ request, ∀ event ∈ handling.events c request,
      event.isAction = false)
    (finishes : ∀ request,
      (reader.read (cStr line)).2 = some (.dispatch request) →
        request.Handled) :
    Bills c (charge ((handling.lineEvents c reader line).countP
        (Event.isDone c))
      ((handling.lineEvents c reader line).countP (Event.isFailed c)))
      world (world.counting c (reader.read (cStr line)).2) := by
  unfold Handling.lineEvents
  cases action : (reader.read (cStr line)).2 with
  | none =>
      have nothing := Bills.nothing c world
      simpa [Event.isDone, Event.isFailed, World.counting] using nothing
  | some action' =>
      cases action' with
      | wrongFormat =>
          have error := Bills.countErr c world
          simpa [Event.isDone, Event.isFailed, World.counting,
            Handling.actionEvents] using error
      | wrongParam =>
          have error := Bills.countErr c world
          simpa [Event.isDone, Event.isFailed, World.counting,
            Handling.actionEvents] using error
      | dispatch request =>
          have handled := finishes request action
          have silentDone : (handling.events c request).countP
              (Event.isDone c) = 0 := by
            apply List.countP_eq_zero.mpr
            intro event member done
            have hidden := quiet request event member
            cases event <;> cases hidden <;> cases done
          have silentFailed : (handling.events c request).countP
              (Event.isFailed c) = 0 := by
            apply List.countP_eq_zero.mpr
            intro event member failed
            have hidden := quiet request event member
            cases event <;> cases hidden <;> cases failed
          have ok := Bills.countOk c world
          simpa [Event.isDone, Event.isFailed, World.counting,
            Handling.actionEvents, handled, silentDone, silentFailed] using ok

/-! ## Steps -/

/-- A charged line keeps the accounts. -/
theorem Charged.billed (charged : Charged world) {events : List Event}
    (bills : Bills c (charge (events.countP (Event.isDone c))
      (events.countP (Event.isFailed c))) world after)
    (known : c < world.clientBrk) (about : ∀ event ∈ events, event.client = c)
    (trace : after.trace = world.trace ++ events) : Charged after where
  clients other := by
    have logged : after.charged other = (world.logged events).charged other := by
      rw [World.charged, trace]
      rfl
    rw [logged, World.charged_logged, ← charged.clients other]
    by_cases self : other = c
    · rw [self, bills.client]
    · rw [bills.otherClients other self, charge_of_others, add_zero]
      intro event member same
      exact self (same.symm.trans (about event member))
  workers w := by
    have served : after.served w = world.served w := by
      simp only [World.served, bills.clientBrk, bills.homes]
    rw [served]
    by_cases home : w = (world.client c).worker
    · have member : c ∈ world.served w := by
        simp [World.served, known, home]
      rw [sum_grows member bills.client
        fun other _ apart => bills.otherClients other apart,
        ← charged.workers w, home]
      exact bills.worker
    · rw [bills.otherWorkers w home, charged.workers w]
      apply Finset.sum_congr rfl
      intro other member
      have apart : other ≠ c := by
        intro self
        rw [World.served, Finset.mem_filter] at member
        exact home (self ▸ member.2.symm)
      exact (bills.otherClients other apart).symm
  known event member := by
    rw [trace, List.mem_append] at member
    rw [bills.clientBrk]
    cases member with
    | inl old => exact charged.known event old
    | inr new => exact about event new ▸ known

/-- Steps that leave counters and trace alone. -/
theorem Charged.kept (charged : Charged world)
    (clients : ∀ c, (after.client c).tally = (world.client c).tally)
    (homes : ∀ c, (after.client c).worker = (world.client c).worker)
    (workers : ∀ w, (after.worker w).tally = (world.worker w).tally)
    (clientBrk : after.clientBrk = world.clientBrk)
    (trace : after.trace = world.trace) : Charged after where
  clients c := by
    rw [clients, charged.clients c, World.charged, World.charged, trace]
  workers w := by
    simp only [workers, charged.workers w, World.served, clientBrk, homes,
      clients]
  known event member := by
    rw [clientBrk]
    exact charged.known event (trace ▸ member)

/-- Changes of a client beside its counters. -/
theorem Charged.setClient {change : Client → Client} (charged : Charged world)
    (tally : ∀ client, (change client).tally = client.tally)
    (home : ∀ client, (change client).worker = client.worker) :
    Charged (world.setClient c change) := by
  apply charged.kept
  · intro other
    by_cases self : other = c
    · simp [self, World.setClient, tally]
    · simp [self, World.setClient]
  · intro other
    by_cases self : other = c
    · simp [self, World.setClient, home]
    · simp [self, World.setClient]
  · intro w
    rfl
  · rfl
  · rfl

theorem Charged.setMemory (charged : Charged world) (memory : Memory) :
    Charged (world.setMemory memory) :=
  charged.kept (fun _ => rfl) (fun _ => rfl) (fun _ => rfl) rfl rfl

/-- A client that comes in has been charged with nothing. -/
theorem Charged.admitted (charged : Charged world) (sock : Nat) :
    Charged (world.admitted sock) := by
  have nothing : world.charged world.clientBrk = 0 := by
    apply charge_of_others
    intro event member
    exact Nat.ne_of_lt (charged.known event member)
  have tallies : ∀ c, ((world.admitted sock).client c).tally =
      world.charged c := by
    intro c
    by_cases new : c = world.clientBrk
    · rw [new, World.admitted_client, nothing]
      rfl
    · rw [World.admitted_client_of_ne sock new, charged.clients c]
  have workers : ∀ w, ((world.admitted sock).worker w).tally =
      (world.worker w).tally := by
    intro w
    by_cases least : w = serverGetLeastConnectionWorker world
    · simp [World.admitted, World.setWorker, World.setClient, World.setServer,
        least, Worker.tally]
    · simp [World.admitted, World.setWorker, World.setClient, World.setServer,
        least]
  constructor
  · exact tallies
  · intro w
    have served : ∀ c ∈ world.served w,
        ((world.admitted sock).client c).tally = (world.client c).tally := by
      intro c member
      rw [tallies, charged.clients c]
    have clients : (world.admitted sock).served w =
        world.served w ∪
          if serverGetLeastConnectionWorker world = w then {world.clientBrk}
          else ∅ := by
      ext c
      simp only [World.served, Finset.mem_filter, Finset.mem_range,
        Finset.mem_union]
      change c < world.clientBrk + 1 ∧ _ ↔ _
      by_cases new : c = world.clientBrk
      · rw [new, World.admitted_client]
        by_cases least : serverGetLeastConnectionWorker world = w
        · simp [least]
        · simp [least]
      · rw [World.admitted_client_of_ne sock new, Nat.lt_succ_iff_lt_or_eq]
        by_cases least : serverGetLeastConnectionWorker world = w
        · simp [least, new]
        · simp [least, new]
    rw [workers, charged.workers w, clients]
    split
    · rw [Finset.sum_union, Finset.sum_singleton, tallies, nothing, add_zero]
      · exact (Finset.sum_congr rfl served).symm
      · rw [Finset.disjoint_singleton_right]
        simp [World.served]
    · rw [Finset.union_empty]
      exact (Finset.sum_congr rfl served).symm
  · intro event member
    exact Nat.lt_succ_of_lt (charged.known event member)

theorem routing_lineEvents_about {platform : Platform} {ketama : Ketama}
    {reader : Reader} {line : Bytes} :
    ∀ event ∈ (routing platform ketama).lineEvents c reader line,
      event.client = c := by
  intro event member
  rw [Handling.lineEvents, List.mem_cons, List.mem_flatMap] at member
  cases member with
  | inl line => rw [line, Event.client]
  | inr caused =>
      obtain ⟨action, -, caused⟩ := caused
      cases action with
      | wrongFormat => rw [List.mem_singleton.mp caused, Event.client]
      | wrongParam => rw [List.mem_singleton.mp caused, Event.client]
      | dispatch request =>
          cases List.mem_cons.mp caused with
          | inl dispatched => rw [dispatched, Event.client]
          | inr invoked =>
              obtain ⟨command, -, invoked⟩ := List.mem_map.mp invoked
              rw [← invoked, Event.client]

theorem routing_events_hidden {platform : Platform} {ketama : Ketama}
    (request : Request) :
    ∀ event ∈ (routing platform ketama).events c request,
      event.isAction = false := by
  intro event member
  obtain ⟨command, -, invoked⟩ := List.mem_map.mp member
  rw [← invoked, Event.isAction]

/-- Every step whose requests are finished keeps the accounts. -/
theorem Charged.step {happening : Happening} (charged : Charged world)
    (reachable : Reachable host world)
    (finishes : FinishesRequests world happening)
    (happens : Happens host world happening after) : Charged after := by
  cases happens.effect reachable with
  | @refused sock behaviour memory full => exact charged.setMemory memory
  | @admitted sock behaviour room workers =>
      have opened : Charged (world.openSocket sock behaviour) :=
        charged.setMemory _
      exact opened.admitted sock
  | @received c input msg memory connected =>
      have heard : Charged (world.setClient c fun client =>
          { client with msg := some msg, evbuf := client.evbuf ++ input }) :=
        charged.setClient (fun _ => rfl) fun _ => rfl
      exact heard.setMemory memory
  | @processed c line rest memory connected =>
      obtain ⟨sessions, coherent⟩ := reachable.coherent
      have taken : Charged (world.setEvbuf c rest) :=
        charged.setClient (fun _ => rfl) fun _ => rfl
      have bills := @counting_bills (world.setEvbuf c rest) c
        (clientReader world c) line
        (routing host.toPlatform world.server.ketama) routing_events_hidden
        finishes
      have billed := @Charged.billed _ ((((world.setEvbuf c rest).counting c
        (lineAction world c line)).logged
          ((routing host.toPlatform world.server.ketama).lineEvents c
            (clientReader world c) line)).setMemory memory) c taken _
        ⟨bills.client, bills.worker, bills.otherClients, bills.otherWorkers,
          bills.homes, bills.clientBrk⟩
        (coherent.known c connected) routing_lineEvents_about ?_
      · exact billed
      · exact congrArg (· ++ _) (World.counting_trace _)
  | @released c memory connected =>
      refine charged.kept (fun _ => rfl) (fun _ => rfl) ?_ rfl rfl
      intro w
      by_cases home : w = (world.client c).worker
      · simp [World.departed, World.setWorker, World.setServer, World.setMemory,
          home, Worker.tally]
      · simp [World.departed, World.setWorker, World.setServer, World.setMemory,
          home]

theorem serverInit_charged {workers : Nat} {maxConnections : UInt64}
    (ran : serverInit host.toPlatform workers maxConnections = .ok start) :
    Charged start := by
  obtain ⟨ketama, built, -⟩ := ketamaBuild_serverRegistrations host
  unfold serverInit at ran
  rw [built] at ran
  cases ran
  constructor
  · intro c
    rfl
  · intro w
    rfl
  · intro event member
    cases member

/-- A request that no handler finishes is counted as done twice. -/
theorem Happens.counts_again {line rest : Bytes} {request : Request}
    (happens : Happens host world (.line c line rest) after)
    (reachable : Reachable host world)
    (action : lineAction world c line = some (.dispatch request))
    (unhandled : ¬ request.Handled) :
    (after.client c).reqAll = (world.client c).reqAll + 1 ∧
      (after.client c).reqOk = (world.client c).reqOk + 1 + 1 ∧
      (after.client c).reqErr = (world.client c).reqErr := by
  cases happens.effect reachable with
  | processed =>
      rw [action]
      simp [World.counting, unhandled, World.countAgain, World.countOk,
        World.setEvbuf, World.setClient, World.setWorker, World.setServer,
        World.setMemory, World.logged]

/-- A step that leaves a request unfinished upsets the accounts. -/
theorem Charged.upset {happening : Happening} (charged : Charged world)
    (reachable : Reachable host world)
    (unfinished : ¬ FinishesRequests world happening)
    (happens : Happens host world happening after) : ¬ Accounted after := by
  cases happening with
  | accept sock behaviour => exact absurd trivial unfinished
  | receive c input => exact absurd trivial unfinished
  | release c => exact absurd trivial unfinished
  | line c line rest =>
      simp only [FinishesRequests, not_forall] at unfinished
      obtain ⟨request, action, unhandled⟩ := unfinished
      obtain ⟨all, ok, err⟩ :=
        happens.counts_again reachable action unhandled
      intro accounted
      have balanced := accounted.balanced c
      rw [all, ok, err, charged.accounted.balanced c] at balanced
      grind

/-! ## Runs -/

theorem Run.charged {workers : Nat} {maxConnections : UInt64}
    (ran : serverInit host.toPlatform workers maxConnections = .ok start)
    (run : Run (Restricted FinishesRequests (Happens host)) start happenings
      world) : Reachable host world ∧ Charged world := by
  apply run.keeps
  · exact ⟨.start ran, serverInit_charged ran⟩
  · intro state happening next holds step
    exact ⟨holds.1.step step.2.step, holds.2.step holds.1 step.1 step.2⟩

/-- All along a run all requests are accounted for if and only if handlers
finish every request of the run. -/
theorem requests_accounted_iff {workers : Nat} {maxConnections : UInt64}
    (ran : serverInit host.toPlatform workers maxConnections = .ok start)
    (run : Run (Happens host) start happenings world) :
    (∀ soFar state, soFar <+: happenings →
        Run (Happens host) start soFar state → Accounted state) ↔
      Run (Restricted FinishesRequests (Happens host)) start happenings
        world := by
  apply run.all_along_iff Happens.unique
  · intro happenings state finishes
    exact (Run.charged ran finishes).2.accounted
  · intro happenings state happening next finishes happens unfinished
    obtain ⟨reachable, charged⟩ := Run.charged ran finishes
    exact charged.upset reachable unfinished happens

theorem requests_accounted_ping :
    ∃ start world, serverInit Host.standard.toPlatform 1 8 = .ok start ∧
      Run (Restricted FinishesRequests (Happens Host.standard)) start
        [.accept 0 fun _ _ => .fails, .receive 0 (ascii "+PING\n"),
          .line 0 (ascii "+PING") []] world ∧
      Accounted world := by
  obtain ⟨start, before, ran, run, connected, idle, found, -⟩ :=
    Host.standard.firstLine (ascii "+PING") (by decide)
  have action : lineAction before 0 (ascii "+PING") =
      some (.dispatch ⟨ascii "PING", []⟩) := by
    rw [lineAction, idle]
    decide
  have line : evbufferReadln (before.client 0).evbuf =
      some (ascii "+PING", []) := found
  obtain ⟨world, happens⟩ := ((Reachable.start ran).run run).processes
    connected line (by rw [action]; decide)
  have soFar : Run (Restricted FinishesRequests (Happens Host.standard)) start
      [.accept 0 fun _ _ => .fails, .receive 0 (ascii "+PING\n")] before := by
    apply run.restrict
    intro label member state
    cases List.mem_cons.mp member with
    | inl accept =>
        rw [accept]
        trivial
    | inr later =>
        rw [List.mem_singleton.mp later]
        trivial
  have finishes : FinishesRequests before (.line 0 (ascii "+PING") []) := by
    intro request same
    rw [action] at same
    cases same
    decide
  have whole := soFar.snoc ⟨finishes, happens⟩
  have plain := run.snoc happens
  exact ⟨start, world, ran, whole, (requests_accounted_iff ran plain).mpr whole
    _ world (List.prefix_refl _) plain⟩

/-- A request for a command that does not exist is counted as done twice and as
failed never. -/
theorem requests_unaccounted :
    ∃ start before world, serverInit Host.standard.toPlatform 1 8 = .ok start ∧
      Run (Happens Host.standard) start
        [.accept 0 fun _ _ => .fails, .receive 0 (ascii "+FOO\n")] before ∧
      Happens Host.standard before (.line 0 (ascii "+FOO") []) world ∧
      (world.client 0).reqAll = 1 ∧ (world.client 0).reqOk = 2 ∧
      (world.client 0).reqErr = 0 ∧ ¬ Accounted world := by
  obtain ⟨start, before, ran, run, connected, idle, found, all, ok, err⟩ :=
    Host.standard.firstLine (ascii "+FOO") (by decide)
  have reachable := (Reachable.start ran).run run
  have action : lineAction before 0 (ascii "+FOO") =
      some (.dispatch ⟨ascii "FOO", []⟩) := by
    rw [lineAction, idle]
    decide
  have line : evbufferReadln (before.client 0).evbuf =
      some (ascii "+FOO", []) := found
  obtain ⟨world, happens⟩ := reachable.processes connected line
    (by rw [action]; decide)
  have counted : (world.client 0).reqAll = 1 ∧ (world.client 0).reqOk = 2 ∧
      (world.client 0).reqErr = 0 := by
    have again := happens.counts_again reachable action (by decide)
    rw [all, ok, err] at again
    exact again
  refine ⟨start, before, world, ran, run, happens, counted.1, counted.2.1,
    counted.2.2, ?_⟩
  intro accounted
  have balanced := accounted.balanced 0
  rw [counted.1, counted.2.1, counted.2.2] at balanced
  exact absurd balanced (by decide)

end KetamaRouter
