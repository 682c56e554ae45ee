import KetamaRouter.Schedules

/-!
# Balance of the workers

A connection goes to a worker with the fewest clients.  As long as nobody leaves,
the workers of a new router differ by one client at most.
-/

namespace KetamaRouter

open FaultProgram LabelledRun Balance

variable {host : Host} {world start after : World} {sock : Nat}
  {happening : Happening} {happenings : List Happening}

/-- The largest `num_client` of the workers minus the smallest. -/
def World.spread (world : World) : Nat :=
  Balance.spread world.workerList world.clientsOf

/-- Nobody has fewer clients than the worker that is chosen. -/
theorem serverGetLeastConnectionWorker_le {w : Nat}
    (member : w < world.server.workerCount) :
    (world.worker (serverGetLeastConnectionWorker world)).numClient ≤
      (world.worker w).numClient := by
  rw [UInt32.le_iff_toNat_le, serverGetLeastConnectionWorker_eq]
  exact leastFrom_le world.clientsOf 0 world.workerList w
    (List.mem_cons_of_mem 0 (List.mem_range.mpr member))

/-- Taking a client in does not spread the workers further. -/
theorem World.spread_admitted (some : world.server.workerCount ≠ 0)
    (below : ∀ w < world.server.workerCount, world.clientsOf w < 2 ^ 32 - 1)
    (sock : Nat) : (world.admitted sock).spread ≤ max 1 world.spread := by
  have least := serverGetLeastConnectionWorker_lt some
  have same : (world.admitted sock).workerList = world.workerList := by
    unfold World.workerList
    rw [(World.admitted_counts sock).2]
  unfold World.spread
  rw [same]
  apply @spread_gives _ _ _ _ (serverGetLeastConnectionWorker world)
  · intro w member
    exact UInt32.le_iff_toNat_le.mp
      (serverGetLeastConnectionWorker_le (List.mem_range.mp member))
  · have room := below _ least
    unfold World.clientsOf at room ⊢
    rw [World.admitted_numClient, if_pos rfl, UInt32.toNat_add]
    apply Nat.mod_eq_of_lt
    change _ + 1 < _
    omega
  · intro w _ apart
    unfold World.clientsOf
    rw [World.admitted_numClient, if_neg apart, UInt32.add_zero]

theorem serverEventAccept_spread (some : world.server.workerCount ≠ 0)
    (below : ∀ w < world.server.workerCount, world.clientsOf w < 2 ^ 32 - 1)
    (ran : serverEventAccept sock world = .ok () after) :
    after.spread ≤ max 1 world.spread := by
  cases serverEventAccept_cases ran with
  | inl refused =>
      obtain ⟨-, res, refused⟩ := refused
      obtain ⟨memory, -, ended⟩ := of_focus_ok refused
      rw [ended]
      exact Nat.le_max_right 1 world.spread
  | inr admitted =>
      rw [admitted.2.2]
      exact World.spread_admitted some below sock

/-! ## Runs without disconnects -/

/-- A connection comes, on a socket that an `int` can name. -/
def Happening.Arrives : Happening → Prop
  | .accept sock _ => sock < 2 ^ 31
  | _ => False

theorem Happens.sockets (reachable : Reachable host world)
    (happens : Happens host world happening after) (named : happening.Named)
    (small : ∀ c ∈ world.connected, (world.client c).socket < 2 ^ 31) :
    ∀ c ∈ after.connected, (after.client c).socket < 2 ^ 31 := by
  intro c member
  rcases happens.arrival reachable with ⟨-, before⟩ | admitted
  · rw [happens.same_socket reachable (before c member)]
    exact small c (before c member)
  · obtain ⟨sock, behaviour, accepts, ended, -, -⟩ := admitted
    subst accepts
    have inside := member
    rw [ended] at inside
    cases List.mem_append.mp inside with
    | inl before =>
        rw [happens.same_socket reachable before]
        exact small c before
    | inr new =>
        have newest : c = world.clientBrk := List.mem_singleton.mp new
        have taken := @World.admitted_client (world.openSocket sock behaviour)
          sock
        change World.client _ world.clientBrk = _ at taken
        rw [newest, ended, taken]
        exact named

/-- Connected clients have different sockets, so there are as few of them. -/
theorem Coherent.few {sessions : Nat → Option MsgShape}
    (coherent : Coherent host world sessions)
    (small : ∀ c ∈ world.connected, (world.client c).socket < 2 ^ 31) :
    world.connected.length ≤ 2 ^ 31 := by
  have distinct : (world.connected.map fun c =>
      (world.client c).socket).Nodup := by
    apply List.Nodup.map_on _ coherent.distinct
    intro c member other otherMember same
    exact coherent.sockets c member other otherMember same
  have inside : (world.connected.map fun c => (world.client c).socket) ⊆
      List.range (2 ^ 31) := by
    intro sock member
    obtain ⟨c, connected, same⟩ := List.mem_map.mp member
    rw [← same]
    exact List.mem_range.mpr (small c connected)
  have most := (distinct.subperm inside).length_le
  rw [List.length_map, List.length_range] at most
  exact most

/-- The workers differ by one client at most, and none has more clients than are
connected. -/
structure Level (world : World) : Prop where
  sockets : ∀ c ∈ world.connected, (world.client c).socket < 2 ^ 31
  spread : world.spread ≤ 1
  clients : ∀ w < world.server.workerCount,
    world.clientsOf w ≤ world.connected.length

theorem Happening.Arrives.named (arrives : happening.Arrives) :
    happening.Named := by
  cases happening with
  | accept sock behaviour => exact arrives
  | receive c input => cases arrives
  | line c text rest => cases arrives
  | release c => cases arrives

theorem Level.step (level : Level world) (reachable : Reachable host world)
    (happens : Happens host world happening after)
    (arrives : happening.Arrives) : Level after := by
  obtain ⟨sessions, coherent⟩ := reachable.coherent
  have few := coherent.few level.sockets
  have sockets := happens.sockets reachable arrives.named level.sockets
  cases happens.effect reachable with
  | refused full => exact ⟨sockets, level.spread, level.clients⟩
  | @admitted sock behaviour room workers =>
      have below : ∀ w < world.server.workerCount,
          world.clientsOf w < 2 ^ 32 - 1 := by
        intro w inside
        have bound := level.clients w inside
        omega
      have spread := @World.spread_admitted (world.openSocket sock behaviour)
        workers below sock
      refine ⟨sockets, spread.trans (Nat.max_le.mpr ⟨le_rfl, level.spread⟩), ?_⟩
      intro w inside
      have known : w < world.server.workerCount := by
        rw [(World.admitted_counts sock).2] at inside
        exact inside
      have bound := level.clients w known
      have longer : ((world.openSocket sock behaviour).admitted
          sock).connected.length = world.connected.length + 1 :=
        List.length_append
      rw [longer]
      unfold World.clientsOf at bound ⊢
      rw [World.admitted_numClient, UInt32.toNat_add]
      apply (Nat.mod_le _ _).trans
      change (world.worker w).numClient.toNat + _ ≤ _
      split
      · exact Nat.add_le_add_right bound 1
      · exact bound.trans (Nat.le_succ _)
  | received connected => cases arrives
  | processed connected => cases arrives
  | released connected => cases arrives

theorem Level.run (level : Level start) (reachable : Reachable host start)
    (run : Run (Happens host) start happenings world)
    (arrives : ∀ happening ∈ happenings, happening.Arrives) : Level world := by
  induction run with
  | nil => exact level
  | snoc run happens induction =>
      have before := induction fun happening member =>
        arrives happening (List.mem_append_left _ member)
      exact before.step (reachable.run run) happens
        (arrives _ (List.mem_append_right _ List.mem_cons_self))

theorem Reachable.sockets_run (reachable : Reachable host start)
    (run : Run (Happens host) start happenings world)
    (named : ∀ happening ∈ happenings, happening.Named)
    (small : ∀ c ∈ start.connected, (start.client c).socket < 2 ^ 31) :
    ∀ c ∈ world.connected, (world.client c).socket < 2 ^ 31 := by
  induction run with
  | nil => exact small
  | snoc run happens induction =>
      have before := induction fun happening member =>
        named happening (List.mem_append_left _ member)
      exact happens.sockets (reachable.run run)
        (named _ (List.mem_append_right _ List.mem_cons_self)) before

/-- A state without clients at its workers is level. -/
theorem level_of_zero
    (sockets : ∀ c ∈ world.connected, (world.client c).socket < 2 ^ 31)
    (zero : ∀ w < world.server.workerCount, (world.worker w).numClient = 0) :
    Level world := by
  have none : ∀ w < world.server.workerCount, world.clientsOf w = 0 := by
    intro w inside
    unfold World.clientsOf
    rw [zero w inside]
    rfl
  constructor
  · exact sockets
  · apply spread_le_iff.mpr
    intro one oneIn other otherIn
    rw [none one (List.mem_range.mp oneIn)]
    exact Nat.zero_le _
  · intro w inside
    rw [none w inside]
    exact Nat.zero_le _

/-- The least loaded worker is chosen, an accepted connection spreads the workers
by one at most or no further than before, and a run of nothing but connections
that starts with idle workers leaves any two of them one client apart at most. -/
theorem accepts_balanced :
    (∀ world : World, world.server.workerCount ≠ 0 →
      serverGetLeastConnectionWorker world < world.server.workerCount ∧
        ∀ w < world.server.workerCount,
          (world.worker (serverGetLeastConnectionWorker world)).numClient ≤
            (world.worker w).numClient) ∧
    (∀ (world after : World) (sock : Nat), world.server.workerCount ≠ 0 →
      (∀ w < world.server.workerCount, world.clientsOf w < 2 ^ 32 - 1) →
      serverEventAccept sock world = .ok () after →
        after.spread ≤ max 1 world.spread) ∧
    ∀ (host : Host) (workers : Nat) (maxConnections : UInt64)
      (start idle world : World) (earlier arrivals : List Happening),
      serverInit host.toPlatform workers maxConnections = .ok start →
      Run (Happens host) start earlier idle →
      (∀ happening ∈ earlier, happening.Named) →
      (∀ w < idle.server.workerCount, (idle.worker w).numClient = 0) →
      Run (Happens host) idle arrivals world →
      (∀ happening ∈ arrivals, happening.Arrives) →
        ∀ w < world.server.workerCount, ∀ other < world.server.workerCount,
          (world.worker w).numClient.toNat ≤
            (world.worker other).numClient.toNat + 1 := by
  constructor
  · intro world some
    constructor
    · exact serverGetLeastConnectionWorker_lt some
    · intro w inside
      exact serverGetLeastConnectionWorker_le inside
  constructor
  · intro world after sock some below ran
    exact serverEventAccept_spread some below ran
  · intro host workers maxConnections start idle world earlier arrivals ran
      before named zero run arrives w inside other otherInside
    have reachable : Reachable host start := .start ran
    have nobody := (serverInit_untouched ran).nobody
    have sockets := reachable.sockets_run before named (by
      rw [nobody]
      intro c member
      cases member)
    have level := (level_of_zero sockets zero).run (reachable.run before) run
      arrives
    exact spread_le_iff.mp level.spread w (List.mem_range.mpr inside) other
      (List.mem_range.mpr otherInside)

/-- A client has come and gone, and then five come to three workers. -/
theorem accepts_balanced_five :
    ∃ start idle world, serverInit Host.standard.toPlatform 3 8 = .ok start ∧
      Run (Happens Host.standard) start
        [.accept 7 fun _ _ => .fails, .release 0] idle ∧
      Run (Happens Host.standard) idle
        [.accept 3 fun _ _ => .fails, .accept 4 fun _ _ => .fails,
          .accept 5 fun _ _ => .fails, .accept 6 fun _ _ => .fails,
          .accept 7 fun _ _ => .fails] world ∧
      totalClients world = 5 ∧
      (∀ w < 3, (world.worker (serverGetLeastConnectionWorker world)).numClient ≤
        (world.worker w).numClient) ∧
      ∀ w < 3, ∀ other < 3, (world.worker w).numClient.toNat ≤
        (world.worker other).numClient.toNat + 1 := by
  obtain ⟨start, idle, world, ran, count, before, attends, run, attendsAfter⟩ :=
    @Host.schedules Host.standard
      [.accept 7 fun _ _ => .fails, .release 0]
      [.accept 3 fun _ _ => .fails, .accept 4 fun _ _ => .fails,
        .accept 5 fun _ _ => .fails, .accept 6 fun _ _ => .fails,
        .accept 7 fun _ _ => .fails] 3 (by decide) 8 _ _
      (fun handling => rfl) fun handling => rfl
  have nobody : idle.connected = [] := attends.shows.connected
  have zero : ∀ w < idle.server.workerCount,
      (idle.worker w).numClient = 0 := by
    intro w _
    have counted := attends.limited.counted w
    change (idle.worker w).numClient.toNat = idle.connected.countP _ at counted
    rw [nobody] at counted
    exact UInt32.toNat_inj.mp counted
  have workers : world.server.workerCount = 3 :=
    attendsAfter.setup.workerCount.trans count
  have five : totalClients world = 5 := by
    have total : totalClients world = world.connected.length :=
      attendsAfter.limited.total
    rw [total, attendsAfter.shows.connected]
    rfl
  refine ⟨start, idle, world, ran, before, run, five, ?_, ?_⟩
  · have least := (accepts_balanced.1 world (by rw [workers]; decide)).2
    rw [workers] at least
    exact least
  · have level := accepts_balanced.2.2 Host.standard 3 8 start idle world _ _ ran
      before (by simp [Happening.Named]) zero run
      (by simp [Happening.Arrives])
    rw [workers] at level
    exact level

end KetamaRouter
