import KetamaRouter.Isolation
import KetamaRouter.RequestAccounting

/-!
# Request statistics of the server

The server adds up the counters of its workers.  Unlike those of the clients,
these count each completed request and each rejected line once, whatever its
handler returned, and they keep what clients did that are gone.
-/

namespace KetamaRouter

open LabelledRun Totals

variable {host : Host} {world start after : World} {c w : Nat}
  {happening : Happening} {happenings : List Happening}

/-- A request was completed. -/
def Event.isCompleted : Event → Bool
  | .dispatch _ _ => true
  | _ => false

/-- A line was rejected. -/
def Event.isRejected : Event → Bool
  | .wrongFormat _ => true
  | .wrongParam _ => true
  | _ => false

/-- What an event is counted as. -/
def tallyOf (events : List Event) : Tally :=
  charge (events.countP Event.isCompleted) (events.countP Event.isRejected)

/-- The events of the clients of a worker. -/
def World.eventsAt (world : World) (w : Nat) : List Event :=
  world.trace.filter fun event => (world.client event.client).worker = w

/-- The counters of the workers agree with the trace. -/
structure Tallied (world : World) : Prop where
  workers : ∀ w, (world.worker w).tally = tallyOf (world.eventsAt w)
  homes : ∀ c < world.clientBrk,
    (world.client c).worker < world.server.workerCount
  known : ∀ event ∈ world.trace, event.client < world.clientBrk

theorem tallyOf_append (first later : List Event) :
    tallyOf (first ++ later) = tallyOf first + tallyOf later := by
  unfold tallyOf
  rw [List.countP_append, List.countP_append, charge_add]

/-! ## What a line adds -/

/-- What the workers count an action as. -/
def actionTally : Option Action → Tally
  | none => 0
  | some (.dispatch _) => charge 1 0
  | some .wrongFormat => charge 0 1
  | some .wrongParam => charge 0 1

theorem lineEvents_tally {platform : Platform} {ketama : Ketama}
    (reader : Reader) (line : Bytes) :
    tallyOf ((routing platform ketama).lineEvents c reader line) =
      actionTally (reader.read (cStr line)).2 := by
  unfold Handling.lineEvents
  cases (reader.read (cStr line)).2 with
  | none => rfl
  | some action =>
      cases action with
      | wrongFormat => rfl
      | wrongParam => rfl
      | dispatch request =>
          have hidden : ∀ event ∈ (routing platform ketama).events c request,
              event.isAction = false := routing_events_hidden request
          have quiet : tallyOf ((routing platform ketama).events c request) =
              0 := by
            have completed : ((routing platform ketama).events c request).countP
                Event.isCompleted = 0 := by
              apply List.countP_eq_zero.mpr
              intro event member counted
              have silent := hidden event member
              cases event <;> cases silent <;> cases counted
            have rejected : ((routing platform ketama).events c request).countP
                Event.isRejected = 0 := by
              apply List.countP_eq_zero.mpr
              intro event member counted
              have silent := hidden event member
              cases event <;> cases silent <;> cases counted
            rw [tallyOf, completed, rejected]
            rfl
          change tallyOf ([.line c line, .dispatch c (some request)] ++
            ((routing platform ketama).events c request ++ [])) = _
          rw [List.append_nil, tallyOf_append, quiet, add_zero]
          rfl

theorem Bills.worker_eq {more : Tally} (bills : Bills c more world after)
    (w : Nat) :
    (after.worker w).tally = (world.worker w).tally +
      if w = (world.client c).worker then more else 0 := by
  split
  · rename_i home
    rw [home]
    exact bills.worker
  · rename_i other
    rw [add_zero]
    exact bills.otherWorkers w other

/-- A worker counts an action once, whatever became of it. -/
theorem World.counting_worker (world : World) (c : Nat)
    (action : Option Action) (w : Nat) :
    ((world.counting c action).worker w).tally = (world.worker w).tally +
      if w = (world.client c).worker then actionTally action else 0 := by
  cases action with
  | none =>
      change (world.worker w).tally = _ + if _ then 0 else 0
      rw [ite_self, add_zero]
  | some action =>
      cases action with
      | wrongFormat => exact (Bills.countErr c world).worker_eq w
      | wrongParam => exact (Bills.countErr c world).worker_eq w
      | dispatch request =>
          rw [World.counting]
          split
          · exact (Bills.countOk c world).worker_eq w
          · exact (Bills.countOk c world).worker_eq w

theorem World.counting_homes (world : World) (c : Nat) (action : Option Action)
    (other : Nat) :
    ((world.counting c action).client other).worker =
      (world.client other).worker := by
  cases action with
  | none => rfl
  | some action =>
      cases action with
      | wrongFormat => exact (Bills.countErr c world).homes other
      | wrongParam => exact (Bills.countErr c world).homes other
      | dispatch request =>
          rw [World.counting]
          split
          · exact (Bills.countOk c world).homes other
          · have counted := (Bills.countOk c world).homes other
            rw [← counted]
            by_cases self : other = c
            · simp [World.countAgain, World.setServer, World.setClient, self]
            · simp [World.countAgain, World.setServer, World.setClient, self]

/-! ## Steps -/

/-- Steps that leave the counters of the workers and the trace alone. -/
theorem Tallied.kept (tallied : Tallied world)
    (workers : ∀ w, (after.worker w).tally = (world.worker w).tally)
    (homes : ∀ c, (after.client c).worker = (world.client c).worker)
    (clientBrk : after.clientBrk = world.clientBrk)
    (workerCount : after.server.workerCount = world.server.workerCount)
    (trace : after.trace = world.trace) : Tallied after where
  workers w := by
    simp only [workers, tallied.workers w, World.eventsAt, trace, homes]
  homes c known := by
    rw [homes, workerCount]
    exact tallied.homes c (clientBrk ▸ known)
  known event member := by
    rw [clientBrk]
    exact tallied.known event (trace ▸ member)

theorem Tallied.setMemory (tallied : Tallied world) (memory : Memory) :
    Tallied (world.setMemory memory) :=
  tallied.kept (fun _ => rfl) (fun _ => rfl) rfl rfl rfl

/-- A client that comes in has done nothing yet. -/
theorem Tallied.admitted (tallied : Tallied world) (sock : Nat)
    (some : world.server.workerCount ≠ 0) : Tallied (world.admitted sock) where
  workers w := by
    have same : ((world.admitted sock).worker w).tally =
        (world.worker w).tally := by
      by_cases least : w = serverGetLeastConnectionWorker world
      · simp [World.admitted, World.setWorker, World.setClient, World.setServer,
          least, Worker.tally]
      · simp [World.admitted, World.setWorker, World.setClient, World.setServer,
          least]
    have events : (world.admitted sock).eventsAt w = world.eventsAt w := by
      apply List.filter_congr
      intro event member
      have older := Nat.ne_of_lt (tallied.known event member)
      rw [World.admitted_client_of_ne sock older]
    rw [same, tallied.workers w, events]
  homes c known := by
    rw [(World.admitted_setup sock).workerCount]
    have split : c < world.clientBrk ∨ c = world.clientBrk :=
      Nat.lt_succ_iff_lt_or_eq.mp known
    rcases split with older | newest
    · rw [World.admitted_client_of_ne sock (Nat.ne_of_lt older)]
      exact tallied.homes c older
    · rw [newest, World.admitted_client]
      exact serverGetLeastConnectionWorker_lt some
  known event member := Nat.lt_succ_of_lt (tallied.known event member)

/-- The events of a line go to the worker of the client. -/
theorem eventsAt_logged {events : List Event}
    (about : ∀ event ∈ events, event.client = c)
    (homes : ∀ other, (after.client other).worker = (world.client other).worker)
    (trace : after.trace = world.trace ++ events) (w : Nat) :
    after.eventsAt w = world.eventsAt w ++
      if w = (world.client c).worker then events else [] := by
  unfold World.eventsAt
  simp only [trace, homes, List.filter_append]
  congr 1
  split
  · rename_i home
    apply List.filter_eq_self.mpr
    intro event member
    rw [about event member, home]
    exact decide_eq_true rfl
  · rename_i other
    apply List.filter_eq_nil_iff.mpr
    intro event member same
    rw [about event member] at same
    exact other (of_decide_eq_true same).symm

theorem Tallied.step (tallied : Tallied world) (reachable : Reachable host world)
    (happens : Happens host world happening after) : Tallied after := by
  have setup := happens.setup reachable
  cases happens.effect reachable with
  | @refused sock behaviour memory full => exact tallied.setMemory memory
  | @admitted sock behaviour room workers =>
      have opened : Tallied (world.openSocket sock behaviour) :=
        tallied.setMemory _
      exact opened.admitted sock workers
  | @received c input msg memory connected =>
      apply tallied.kept
      · intro w
        rfl
      · intro other
        by_cases self : other = c
        · simp [self, World.setClient, World.setMemory]
        · simp [self, World.setClient, World.setMemory]
      · rfl
      · rfl
      · rfl
  | @processed c line rest memory connected =>
      obtain ⟨sessions, coherent⟩ := reachable.coherent
      let counted := (world.setEvbuf c rest).counting c (lineAction world c line)
      have evbufHomes : ∀ other, ((world.setEvbuf c rest).client other).worker =
          (world.client other).worker := by
        intro other
        by_cases self : other = c
        · simp [self, World.setEvbuf, World.setClient]
        · simp [self, World.setEvbuf, World.setClient]
      have homes : ∀ other, (counted.client other).worker =
          (world.client other).worker := fun other =>
        (World.counting_homes _ c _ other).trans (evbufHomes other)
      let routes := routing host.toPlatform world.server.ketama
      have clients : counted.connected = world.connected ∧
          counted.clientBrk = world.clientBrk :=
        World.counting_clients (lineAction world c line)
      have trace : counted.trace = world.trace :=
        World.counting_trace (lineAction world c line)
      have about : ∀ event ∈ routes.lineEvents c (clientReader world c) line,
          event.client = c := routing_lineEvents_about
      constructor
      · intro w
        let after := (counted.logged
          (routes.lineEvents c (clientReader world c) line)).setMemory memory
        have logged : after.trace = world.trace ++
            routes.lineEvents c (clientReader world c) line :=
          congrArg (· ++ _) trace
        have afterHomes : ∀ other, (after.client other).worker =
            (world.client other).worker := homes
        have events := eventsAt_logged about afterHomes logged w
        change (counted.worker w).tally = tallyOf (after.eventsAt w)
        rw [events, World.counting_worker, tallyOf_append, evbufHomes]
        congr 1
        · exact tallied.workers w
        · split
          · exact (lineEvents_tally _ line).symm
          · rfl
      · intro other known
        change (counted.client other).worker < counted.server.workerCount
        have same : counted.server.workerCount = world.server.workerCount :=
          setup.workerCount
        rw [homes, same]
        exact tallied.homes other (clients.2 ▸ known)
      · intro event member
        change event.client < counted.clientBrk
        rw [clients.2]
        rcases List.mem_append.mp member with old | new
        · exact tallied.known event (trace ▸ old)
        · rw [about event new]
          exact coherent.known c connected
  | @released c memory connected =>
      apply tallied.kept
      · intro w
        by_cases home : w = (world.client c).worker
        · simp [World.departed, World.setWorker, World.setServer,
            World.setMemory, home, Worker.tally]
        · simp [World.departed, World.setWorker, World.setServer,
            World.setMemory, home]
      · intro other
        rfl
      · rfl
      · rfl
      · rfl

/-! ## Totals -/

theorem serverGetReq_eq (field : Worker → UInt64) (world : World) :
    serverGetReq field world =
      ∑ w ∈ Finset.range world.server.workerCount, field (world.worker w) := by
  unfold serverGetReq
  generalize world.server.workerCount = workers
  induction workers with
  | zero => rfl
  | succ workers induction =>
      rw [List.range_succ, List.foldl_append, induction, Finset.sum_range_succ]
      rfl

/-- Counting at the workers loses no event. -/
theorem Tallied.sum_countP (tallied : Tallied world) (counts : Event → Bool) :
    ∑ w ∈ Finset.range world.server.workerCount,
        (world.eventsAt w).countP counts = world.trace.countP counts := by
  have belongs : ∀ event ∈ world.trace.filter counts,
      (world.client event.client).worker ∈
        Finset.range world.server.workerCount := by
    intro event member
    have known := tallied.known event (List.mem_of_mem_filter member)
    exact Finset.mem_range.mpr (tallied.homes _ known)
  rw [List.countP_eq_length_filter, ← Totals.sum_countP belongs]
  apply Finset.sum_congr rfl
  intro w _
  rw [World.eventsAt, List.countP_filter, List.countP_filter]
  apply List.countP_congr
  intro event _
  rw [Bool.and_comm]

theorem sum_ofNat (workers : Nat) (count : Nat → Nat) :
    ∑ w ∈ Finset.range workers, UInt64.ofNat (count w) =
      UInt64.ofNat (∑ w ∈ Finset.range workers, count w) := by
  induction workers with
  | zero => rfl
  | succ workers induction =>
      rw [Finset.sum_range_succ, Finset.sum_range_succ, induction,
        UInt64.ofNat_add]

theorem serverInit_tallied {workers : Nat} {maxConnections : UInt64}
    (ran : serverInit host.toPlatform workers maxConnections = .ok start) :
    Tallied start := by
  obtain ⟨ketama, built, -⟩ := ketamaBuild_serverRegistrations host
  unfold serverInit at ran
  rw [built] at ran
  cases ran
  refine ⟨fun _ => rfl, ?_, ?_⟩
  · intro c known
    cases known
  · intro event member
    cases member

theorem Reachable.tallied (reachable : Reachable host world) : Tallied world := by
  induction reachable with
  | start ran => exact serverInit_tallied ran
  | step reachable step induction =>
      obtain ⟨happening, happens⟩ := step.happens
      exact induction.step reachable happens

/-- In every reachable state the server's statistics are the requests completed
and the lines rejected since the start, by whichever clients, and nothing is
counted twice. -/
theorem serverStatistics (reachable : Reachable host world) :
    (∀ w, (world.worker w).tally = tallyOf (world.eventsAt w)) ∧
      serverGetReqOk world =
        UInt64.ofNat (world.trace.countP Event.isCompleted) ∧
      serverGetReqErr world =
        UInt64.ofNat (world.trace.countP Event.isRejected) ∧
      serverGetReqAll world = serverGetReqOk world + serverGetReqErr world := by
  have tallied := reachable.tallied
  have ok (w : Nat) : (world.worker w).reqOk =
      UInt64.ofNat ((world.eventsAt w).countP Event.isCompleted) :=
    (Prod.mk.inj (Prod.mk.inj (tallied.workers w)).2).1
  have err (w : Nat) : (world.worker w).reqErr =
      UInt64.ofNat ((world.eventsAt w).countP Event.isRejected) :=
    (Prod.mk.inj (Prod.mk.inj (tallied.workers w)).2).2
  have all (w : Nat) : (world.worker w).reqAll =
      (world.worker w).reqOk + (world.worker w).reqErr := by
    rw [ok, err, ← UInt64.ofNat_add]
    exact (Prod.mk.inj (tallied.workers w)).1
  refine ⟨tallied.workers, ?_, ?_, ?_⟩
  · rw [serverGetReqOk, serverGetReq_eq, ← tallied.sum_countP, ← sum_ofNat]
    exact Finset.sum_congr rfl fun w _ => ok w
  · rw [serverGetReqErr, serverGetReq_eq, ← tallied.sum_countP, ← sum_ofNat]
    exact Finset.sum_congr rfl fun w _ => err w
  · rw [serverGetReqAll, serverGetReqOk, serverGetReqErr, serverGetReq_eq,
      serverGetReq_eq, serverGetReq_eq, ← Finset.sum_add_distrib]
    exact Finset.sum_congr rfl fun w _ => all w

theorem serverStatistics_ping :
    ∃ world, Reachable Host.standard world ∧ world.trace ≠ [] ∧
      serverGetReqOk world =
        UInt64.ofNat (world.trace.countP Event.isCompleted) := by
  obtain ⟨start, before, ran, run, connected, idle, found, -⟩ :=
    Host.standard.firstLine (ascii "+PING") (by decide)
  have reachable := (Reachable.start ran).run run
  have action : lineAction before 0 (chompCr (ascii "+PING")) =
      some (.dispatch ⟨ascii "PING", []⟩) := by
    rw [lineAction, idle]
    decide
  obtain ⟨world, happens⟩ := reachable.processes connected found
    (by rw [action]; decide)
  have reachableAfter := reachable.step happens.step
  refine ⟨world, reachableAfter, ?_, (serverStatistics reachableAfter).2.1⟩
  cases happens.effect reachable with
  | processed =>
      intro empty
      exact List.cons_ne_nil _ _ (List.append_eq_nil_iff.mp empty).2

end KetamaRouter
