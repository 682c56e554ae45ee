import Mathlib.Algebra.BigOperators.Group.Finset.Piecewise
import KetamaRouter.Happenings
import KetamaRouter.Library.Balance
import KetamaRouter.Library.Totals

/-!
# Connection statistics

The server keeps its own count of connections beside those of its workers.
Releasing a connection takes one from both, accepting one adds to the worker's
only, so the two agree as long as nobody was taken in.
-/

namespace KetamaRouter

open FaultProgram LabelledRun Balance Totals

/-- The clients of all workers. -/
def totalClients (world : World) : Nat :=
  ∑ w ∈ Finset.range world.server.workerCount,
    (world.worker w).numClient.toNat

/-- The statistics of the server after these happenings. -/
structure StatisticsAgree (host : Host) (start : World)
    (happenings : List Happening) (world : World) : Prop where
  current : world.server.connCurCount.toNat = totalClients world
  greatest : ∀ earlier later sock behaviour before,
    happenings = earlier ++ .accept sock behaviour :: later →
    Run (Happens host) start earlier before →
    totalClients before ≤ world.server.connMax.toNat

variable {host : Host} {world start after : World} {workers : Nat}
  {maxConnections : UInt64} {happenings : List Happening}

/-- What the server adds up are the clients of its workers. -/
theorem serverGetCurrentConnections_toNat (world : World) :
    (serverGetCurrentConnections world).toNat = totalClients world % 2 ^ 64 := by
  unfold serverGetCurrentConnections totalClients
  induction world.server.workerCount with
  | zero => rfl
  | succ workers induction =>
      rw [List.range_succ, List.foldl_append, Finset.sum_range_succ,
        List.foldl_cons, List.foldl_nil, UInt64.toNat_add, induction,
        UInt32.toNat_toUInt64, Nat.mod_add_mod]

/-! ## The worker that takes a connection in -/

/-- The clients of a worker. -/
def World.clientsOf (world : World) (w : Nat) : Nat :=
  (world.worker w).numClient.toNat

def World.workerList (world : World) : List Nat :=
  List.range world.server.workerCount

theorem serverGetLeastConnectionWorker_eq (world : World) :
    serverGetLeastConnectionWorker world =
      leastFrom world.clientsOf 0 world.workerList := by
  unfold serverGetLeastConnectionWorker leastFrom
  congr 1

theorem serverGetLeastConnectionWorker_lt
    (some : world.server.workerCount ≠ 0) :
    serverGetLeastConnectionWorker world < world.server.workerCount := by
  have found := leastFrom_mem world.clientsOf 0 world.workerList
  rw [serverGetLeastConnectionWorker_eq]
  cases List.mem_cons.mp found with
  | inl first =>
      rw [first]
      exact Nat.pos_of_ne_zero some
  | inr inside => exact List.mem_range.mp inside

/-- A worker that takes a connection in has one client more. -/
theorem World.admitted_numClient (sock w : Nat) :
    ((world.admitted sock).worker w).numClient =
      (world.worker w).numClient +
        if w = serverGetLeastConnectionWorker world then 1 else 0 := by
  by_cases least : w = serverGetLeastConnectionWorker world
  · rw [if_pos least, least]
    simp [World.admitted, World.setWorker, World.setClient, World.setServer]
  · rw [if_neg least]
    simp [World.admitted, World.setWorker, World.setClient, World.setServer,
      least]

theorem World.admitted_counts (sock : Nat) :
    (world.admitted sock).server.connCurCount = world.server.connCurCount ∧
      (world.admitted sock).server.workerCount = world.server.workerCount := by
  change (if _ then _ else _ : Server).connCurCount = _ ∧
    (if _ then _ else _ : Server).workerCount = _
  split <;> exact ⟨rfl, rfl⟩

theorem totalClients_admitted {sock : Nat}
    (some : world.server.workerCount ≠ 0)
    (space : ∀ w, (world.worker w).numClient.toNat + 1 < 2 ^ 32) :
    totalClients (world.admitted sock) = totalClients world + 1 := by
  have least := serverGetLeastConnectionWorker_lt some
  unfold totalClients
  rw [(World.admitted_counts sock).2]
  apply sum_grows (Finset.mem_range.mpr least)
  · rw [World.admitted_numClient, if_pos rfl, UInt32.toNat_add,
      UInt32.toNat_one]
    exact Nat.mod_eq_of_lt (space _)
  · intro w _ apart
    rw [World.admitted_numClient, if_neg apart, UInt32.add_zero]

/-! ## A router nobody is connected to -/

/-- Nobody was taken in yet. -/
structure Untouched (maxConnections : UInt64) (world : World) : Prop where
  nobody : world.connected = []
  idle : ∀ w, (world.worker w).numClient = 0
  current : world.server.connCurCount = 0
  limit : world.server.maxConnections = maxConnections

theorem serverInit_untouched
    (ran : serverInit host.toPlatform workers maxConnections = .ok start) :
    Untouched maxConnections start := by
  obtain ⟨ketama, built, -⟩ := ketamaBuild_serverRegistrations host
  unfold serverInit at ran
  rw [built] at ran
  cases ran
  exact ⟨rfl, fun _ => rfl, rfl, rfl⟩

theorem Untouched.totalClients (untouched : Untouched maxConnections world) :
    totalClients world = 0 := by
  apply Finset.sum_eq_zero
  intro w _
  rw [untouched.idle w]
  rfl

theorem Untouched.currentConnections
    (untouched : Untouched maxConnections world) :
    serverGetCurrentConnections world = 0 := by
  unfold serverGetCurrentConnections
  induction List.range world.server.workerCount with
  | nil => rfl
  | cons w rest induction =>
      rw [List.foldl_cons, untouched.idle w]
      exact induction

/-- A router takes its first client in if it takes anybody in at all. -/
theorem Untouched.accepts
    (untouched : Untouched maxConnections start)
    (room : start.server.maxConnections ≠ 0)
    (workers : start.server.workerCount ≠ 0) (sock : Nat)
    (behaviour : Nat → Nat → WriteResult) :
    Happens host start (.accept sock behaviour)
      ((start.openSocket sock behaviour).admitted sock) := by
  have below : ¬ start.server.maxConnections ≤
      serverGetCurrentConnections start := by
    rw [untouched.currentConnections, UInt64.le_zero_iff]
    exact room
  apply Happens.accept
  · rw [untouched.nobody]
    intro c member
    cases member
  · exact serverEventAccept_admits below workers

/-- The first thing that happens to a router is a connection; it is taken in
unless the limit is zero. -/
theorem Untouched.step {happening : Happening}
    (untouched : Untouched maxConnections world)
    (reachable : Reachable host world)
    (happens : Happens host world happening after) :
    (∃ sock behaviour, happening = .accept sock behaviour) ∧
      (maxConnections = 0 ∧ Untouched maxConnections after ∨
        maxConnections ≠ 0 ∧ after.server.connCurCount = 0 ∧
          KetamaRouter.totalClients after = 1) := by
  cases happens.effect reachable with
  | @refused sock behaviour memory full =>
      rw [untouched.currentConnections, untouched.limit] at full
      have zero : maxConnections = 0 := UInt64.le_zero_iff.mp full
      exact ⟨⟨sock, behaviour, rfl⟩, .inl ⟨zero, untouched.nobody,
        untouched.idle, untouched.current, untouched.limit⟩⟩
  | @admitted sock behaviour room some =>
      rw [untouched.currentConnections, untouched.limit] at room
      have positive : maxConnections ≠ 0 := by
        intro zero
        rw [zero] at room
        exact room UInt64.le_rfl
      have opened := @totalClients_admitted (world.openSocket sock behaviour)
        sock some (by
          intro w
          change (world.worker w).numClient.toNat + 1 < 2 ^ 32
          rw [untouched.idle w]
          decide)
      refine ⟨⟨sock, behaviour, rfl⟩, .inr ⟨positive, ?_, ?_⟩⟩
      · rw [(World.admitted_counts sock).1]
        exact untouched.current
      · rw [opened]
        exact congrArg (· + 1) untouched.totalClients
  | received connected =>
      rw [untouched.nobody] at connected
      cases connected
  | processed connected =>
      rw [untouched.nobody] at connected
      cases connected
  | released connected =>
      rw [untouched.nobody] at connected
      cases connected

theorem Untouched.run (untouched : Untouched maxConnections start)
    (reachable : Reachable host start)
    (run : Run (Happens host) start happenings world)
    (quiet : maxConnections = 0 ∨
      ∀ sock behaviour, .accept sock behaviour ∉ happenings) :
    Untouched maxConnections world := by
  induction run with
  | nil => exact untouched
  | @snoc happenings state after happening run happens induction =>
      have before := induction (quiet.imp_right fun never sock behaviour
        member => never sock behaviour (List.mem_append_left _ member))
      obtain ⟨⟨sock, behaviour, accepts⟩, ends⟩ :=
        before.step (reachable.run run) happens
      cases ends with
      | inl refused => exact refused.2
      | inr admitted =>
          cases quiet with
          | inl zero => exact absurd zero admitted.1
          | inr never =>
              rw [accepts] at never
              exact absurd (List.mem_append_right _ List.mem_cons_self)
                (never sock behaviour)

theorem Untouched.statistics (untouched : Untouched maxConnections start)
    (reachable : Reachable host start)
    (run : Run (Happens host) start happenings world)
    (quiet : maxConnections = 0 ∨
      ∀ sock behaviour, .accept sock behaviour ∉ happenings) :
    StatisticsAgree host start happenings world where
  current := by
    have ends := untouched.run reachable run quiet
    rw [ends.current, ends.totalClients]
    rfl
  greatest earlier later sock behaviour before same runs := by
    have quietBefore := untouched.run reachable runs (quiet.imp_right
      fun never sock behaviour member =>
        never sock behaviour (same ▸ List.mem_append_left _ member))
    rw [quietBefore.totalClients]
    exact Nat.zero_le _

/-- The statistics agree all along a run exactly if the run takes nobody in:
the limit is zero, or no connection comes. -/
theorem statistics_agree_iff
    (ran : serverInit host.toPlatform workers maxConnections = .ok start)
    (run : Run (Happens host) start happenings world) :
    (∀ soFar state, soFar <+: happenings →
        Run (Happens host) start soFar state →
          StatisticsAgree host start soFar state) ↔
      (maxConnections = 0 ∨
        ∀ sock behaviour, .accept sock behaviour ∉ happenings) := by
  have untouched := serverInit_untouched ran
  have reachable : Reachable host start := .start ran
  constructor
  · intro agree
    cases happenings with
    | nil =>
        right
        intro sock behaviour member
        cases member
    | cons first rest =>
        obtain ⟨middle, begins, -⟩ :=
          @Run.split _ _ _ _ _ [first] rest run
        obtain ⟨state, none, happens⟩ := @Run.of_snoc _ _ _ _ _ [] first begins
        rw [none.of_nil] at happens
        cases (untouched.step reachable happens).2 with
        | inl refused => exact .inl refused.1
        | inr admitted =>
            have current :=
              (agree [first] middle ⟨rest, rfl⟩ begins).current
            rw [admitted.2.1, admitted.2.2] at current
            cases current
  · intro quiet soFar state isPrefix runs
    obtain ⟨rest, same⟩ := isPrefix
    apply untouched.statistics reachable runs
    apply quiet.imp_right
    intro never sock behaviour member
    exact never sock behaviour (same ▸ List.mem_append_left _ member)

theorem statistics_agree_refused :
    ∃ start world, serverInit Host.standard.toPlatform 1 0 = .ok start ∧
      Run (Happens Host.standard) start [.accept 0 fun _ _ => .fails] world ∧
      StatisticsAgree Host.standard start [.accept 0 fun _ _ => .fails]
        world := by
  obtain ⟨start, ran, -⟩ := Host.standard.starts 1 0
  have untouched := serverInit_untouched ran
  have reachable : Reachable Host.standard start := .start ran
  have unused : ∀ c ∈ start.connected, (start.client c).socket ≠ 0 := by
    simp [untouched.nobody]
  obtain ⟨world, refused⟩ := reachable.refuses unused (fun _ _ => .fails) (by
    rw [untouched.limit, untouched.currentConnections]
    exact UInt64.le_rfl)
  have run := Run.nil.snoc refused
  exact ⟨start, world, ran, run, (statistics_agree_iff ran run).mpr (.inl rfl)
    _ world (List.prefix_refl _) run⟩

/-- A single connection is counted by its worker only, and its end wraps the
server's count. -/
theorem statistics_disagree :
    ∃ start world released, serverInit Host.standard.toPlatform 1 8 = .ok start ∧
      Run (Happens Host.standard) start [.accept 0 fun _ _ => .fails] world ∧
      world.server.connCurCount = 0 ∧ totalClients world = 1 ∧
      ¬ StatisticsAgree Host.standard start [.accept 0 fun _ _ => .fails]
        world ∧
      Happens Host.standard world (.release 0) released ∧
      released.server.connCurCount = 18446744073709551615 := by
  obtain ⟨start, world, ran, nobody, admits, connected, client, -⟩ :=
    Host.standard.firstAccept fun _ _ => .fails
  have accepted : Happens Host.standard start (.accept 0 fun _ _ => .fails)
      world := .accept (by simp [nobody]) admits
  have reachable : Reachable Host.standard start := .start ran
  have later := reachable.step accepted.step
  have counts : world.server.connCurCount = 0 ∧ totalClients world = 1 := by
    cases ((serverInit_untouched ran).step reachable accepted).2 with
    | inl refused => exact absurd refused.1 (by decide)
    | inr admitted => exact admitted.2
  obtain ⟨sessions, coherent⟩ := later.coherent
  obtain ⟨_, released, runs, memory, ended, -⟩ :=
    clientConnectionRelease_spec coherent connected
  refine ⟨start, world, released, ran, Run.nil.snoc accepted, counts.1,
    counts.2, ?_, .release connected runs, ?_⟩
  · intro agree
    have current := agree.current
    rw [counts.1, counts.2] at current
    cases current
  · rw [ended]
    change world.server.connCurCount - 1 = _
    rw [counts.1]
    rfl

end KetamaRouter
