import KetamaRouter.Library.LabelledRun
import KetamaRouter.LineOutcome
import KetamaRouter.Segmentation

/-!
# Runs of the router

Steps with labels, so that a run remembers what happened.  What each step does
outside the heap is said once; statements about counters and connections follow
from it alone.
-/

namespace KetamaRouter

open FaultProgram LabelledRun

inductive Happening where
  | accept (sock : Nat) (behaviour : Nat → Nat → WriteResult)
  | receive (c : Nat) (input : Bytes)
  | line (c : Nat) (line rest : Bytes)
  | release (c : Nat)

/-- All sockets of a run can be named by an `int`. -/
def Happening.Named : Happening → Prop
  | .accept sock _ => sock < 2 ^ 31
  | _ => True

inductive Happens (host : Host) (world : World) : Happening → World → Prop where
  | accept {sock : Nat} {behaviour : Nat → Nat → WriteResult} {after : World}
      (unused : ∀ c ∈ world.connected, (world.client c).socket ≠ sock)
      (ran : serverEventAccept sock (world.openSocket sock behaviour) =
        .ok () after) :
      Happens host world (.accept sock behaviour) after
  | receive {c : Nat} {input : Bytes} {after : World}
      (connected : c ∈ world.connected)
      (ran : clientEventReceive c input world = .ok () after) :
      Happens host world (.receive c input) after
  | line {c : Nat} {line rest : Bytes} {after : World}
      (connected : c ∈ world.connected)
      (found : evbufferReadln (world.client c).evbuf = some (line, rest))
      (ran : clientEventLine (commandProc host.toPlatform) c line
        (world.setEvbuf c rest) = .ok () after) :
      Happens host world (.line c line rest) after
  | release {c : Nat} {after : World} (connected : c ∈ world.connected)
      (ran : clientConnectionRelease c world = .ok () after) :
      Happens host world (.release c) after

variable {host : Host} {world start after : World} {c : Nat}
  {happening : Happening} {happenings : List Happening}

theorem Happens.step (happens : Happens host world happening after) :
    Step host world after := by
  cases happens with
  | accept unused ran => exact .accept _ _ unused ran
  | receive connected ran => exact .receive _ _ connected ran
  | line connected found ran => exact .line _ _ _ connected found ran
  | release connected ran => exact .release _ connected ran

theorem Happens.found {line rest : Bytes}
    (happens : Happens host world (.line c line rest) after) :
    evbufferReadln (world.client c).evbuf = some (line, rest) := by
  cases happens with
  | line connected found ran => exact found

/-- What happens determines the next state. -/
theorem Happens.unique {other : World}
    (happens : Happens host world happening after)
    (again : Happens host world happening other) : after = other := by
  have same : ∀ {program : WorldProgram Unit} {world : World},
      program world = .ok () after → program world = .ok () other →
        after = other := by
    intro program world ran ran'
    rw [ran] at ran'
    exact (EStateM.Result.ok.inj ran').2
  cases happens with
  | accept _ ran =>
      cases again with
      | accept _ ran' => exact same ran ran'
  | receive _ ran =>
      cases again with
      | receive _ ran' => exact same ran ran'
  | line _ _ ran =>
      cases again with
      | line _ _ ran' => exact same ran ran'
  | release _ ran =>
      cases again with
      | release _ ran' => exact same ran ran'

theorem Step.happens (step : Step host world after) :
    ∃ happening, Happens host world happening after := by
  cases step with
  | accept sock behaviour unused ran => exact ⟨_, .accept unused ran⟩
  | receive c input connected ran => exact ⟨_, .receive connected ran⟩
  | line c line rest connected found ran => exact ⟨_, .line connected found ran⟩
  | release c connected ran => exact ⟨_, .release connected ran⟩

theorem Reachable.run (reachable : Reachable host start)
    (run : Run (Happens host) start happenings world) :
    Reachable host world :=
  run.keeps reachable fun reachable happens => reachable.step happens.step

/-! ## What a step does -/

/-- What a line of a client makes it do. -/
def lineAction (world : World) (c : Nat) (line : Bytes) : Option Action :=
  ((clientReader world c).read (cStr line)).2

/-- The effect of a step outside the heap. -/
inductive Effect (host : Host) (world : World) : Happening → World → Prop where
  | refused {sock : Nat} {behaviour : Nat → Nat → WriteResult} {memory : Memory}
      (full : world.server.maxConnections ≤ serverGetCurrentConnections world) :
      Effect host world (.accept sock behaviour) (world.setMemory memory)
  | admitted {sock : Nat} {behaviour : Nat → Nat → WriteResult}
      (room : ¬ world.server.maxConnections ≤ serverGetCurrentConnections world)
      (workers : world.server.workerCount ≠ 0) :
      Effect host world (.accept sock behaviour)
        ((world.openSocket sock behaviour).admitted sock)
  | received {c : Nat} {input : Bytes} {msg : Ptr} {memory : Memory}
      (connected : c ∈ world.connected) :
      Effect host world (.receive c input)
        ((world.setClient c fun client =>
          { client with
            msg := some msg
            evbuf := client.evbuf ++ input }).setMemory memory)
  | processed {c : Nat} {line rest : Bytes} {memory : Memory}
      (connected : c ∈ world.connected) :
      Effect host world (.line c line rest)
        ((((world.setEvbuf c rest).counting c (lineAction world c line)).logged
          ((routing host.toPlatform world.server.ketama).lineEvents c
            (clientReader world c) line)).setMemory memory)
  | released {c : Nat} {memory : Memory} (connected : c ∈ world.connected) :
      Effect host world (.release c) ((world.departed c).setMemory memory)

theorem serverEventAccept_effect {sock : Nat}
    {behaviour : Nat → Nat → WriteResult}
    (ran : serverEventAccept sock (world.openSocket sock behaviour) =
      .ok () after) :
    Effect host world (.accept sock behaviour) after := by
  cases serverEventAccept_cases ran with
  | inl refused =>
      obtain ⟨full, res, refused⟩ := refused
      obtain ⟨memory, -, ended⟩ := of_focus_ok refused
      rw [ended]
      exact .refused full
  | inr admitted =>
      obtain ⟨room, workers, ended⟩ := admitted
      rw [ended]
      exact .admitted room workers

theorem clientEventReceive_effect {input : Bytes}
    (connected : c ∈ world.connected)
    (ran : clientEventReceive c input world = .ok () after) :
    Effect host world (.receive c input) after := by
  cases found : (world.client c).msg with
  | none =>
      unfold clientEventReceive at ran
      rw [bind_run_ok (get_run world)] at ran
      simp only [found] at ran
      obtain ⟨msg, middle, ranInit, ran⟩ := of_bind_ok ran
      obtain ⟨memory, -, ended⟩ := of_focus_ok ranInit
      cases ran
      rw [ended]
      have moved := @Effect.received host world c input msg memory connected
      simpa [World.setClient, World.setMemory] using moved
  | some msg =>
      rw [clientEventReceive_attached found] at ran
      cases ran
      have moved := @Effect.received host world c input msg world.memory connected
      simpa [World.setClient, World.setMemory, World.setEvbuf, found] using moved

/-- Every step has its effect. -/
theorem Happens.effect (reachable : Reachable host world)
    (happens : Happens host world happening after) :
    Effect host world happening after := by
  obtain ⟨sessions, coherent⟩ := reachable.coherent
  cases happens with
  | accept unused ran => exact serverEventAccept_effect ran
  | receive connected ran => exact clientEventReceive_effect connected ran
  | @line c line rest after connected found ran =>
      obtain ⟨ring, serving⟩ := reachable.serving
      obtain ⟨shape, session, begun, -⟩ :=
        coherent.line ring serving connected found
      have reader := coherent.clientReader_eq connected
      rw [session] at reader
      obtain ⟨memory, ended⟩ := clientEventLine_outcome ring
        (begun.keeps.serving serving) begun.session ran
      change clientReader world c = shape.reader at reader
      rw [ended, ← reader]
      exact .processed connected
  | release connected ran =>
      obtain ⟨memory, ended, -⟩ :=
        (clientConnectionRelease_spec coherent connected).result ran
      rw [ended]
      exact .released connected

/-- A client keeps its socket. -/
theorem Happens.same_socket (reachable : Reachable host world)
    (happens : Happens host world happening after)
    (connected : c ∈ world.connected) :
    (after.client c).socket = (world.client c).socket := by
  cases happens.effect reachable with
  | refused full => rfl
  | @admitted sock behaviour room workers =>
      obtain ⟨sessions, coherent⟩ := reachable.coherent
      have older := Nat.ne_of_lt (coherent.known c connected)
      have same := @World.admitted_client_of_ne
        (world.openSocket sock behaviour) c sock older
      rw [same]
      rfl
  | @received doing input msg memory doingConnected =>
      by_cases own : c = doing
      · rw [own]
        simp [World.setClient, World.setMemory]
      · simp [World.setClient, World.setMemory, own]
  | @processed doing line rest memory doingConnected =>
      have counted := @World.counting_socket (world.setEvbuf doing rest) doing
        (lineAction world doing line) c
      have same : ((world.setEvbuf doing rest).client c).socket =
          (world.client c).socket := by
        by_cases own : c = doing
        · rw [own]
          simp [World.setEvbuf, World.setClient]
        · simp [World.setEvbuf, World.setClient, own]
      exact counted.trans same
  | released leaving => rfl

/-! ## Steps that can happen -/

/-- At the limit a connection is refused. -/
theorem Reachable.refuses (reachable : Reachable host world) {sock : Nat}
    (unused : ∀ c ∈ world.connected, (world.client c).socket ≠ sock)
    (behaviour : Nat → Nat → WriteResult)
    (full : world.server.maxConnections ≤ serverGetCurrentConnections world) :
    ∃ after, Happens host world (.accept sock behaviour) after := by
  obtain ⟨sessions, coherent⟩ := reachable.coherent
  obtain ⟨res, after, refused, -⟩ := coherent.refuses sock behaviour
  refine ⟨after, .accept unused ?_⟩
  unfold serverEventAccept
  rw [bind_run_ok (get_run _)]
  change (if world.server.maxConnections ≤ serverGetCurrentConnections world
    then _ else _ : WorldProgram Unit) _ = _
  rw [if_pos full, bind_run_ok refused]
  rfl

/-- A connected client can always be heard. -/
theorem Reachable.receives (reachable : Reachable host world)
    (connected : c ∈ world.connected) (input : Bytes) :
    ∃ after, Happens host world (.receive c input) after ∧
      clientReader after c = clientReader world c ∧
      (after.client c).evbuf = (world.client c).evbuf ++ input ∧
      after.connected = world.connected := by
  obtain ⟨sessions, coherent⟩ := reachable.coherent
  have received := @clientEventReceive_spec world _ c observed _
    (coherent.attached c connected) (coherent.holdsOne connected) input
  obtain ⟨_, after, ran, next, reader, evbuf, moved⟩ := received.returns rfl
  refine ⟨after, .receive connected ran, ?_, evbuf, moved.keeps.connected⟩
  have later := coherent.moved connected moved
  rw [later.clientReader_eq (moved.keeps.connected ▸ connected),
    Function.update_self, coherent.clientReader_eq connected]
  exact reader

/-- A complete line can be processed unless it crashes a handler. -/
theorem Reachable.processes (reachable : Reachable host world)
    (connected : c ∈ world.connected) {line rest : Bytes}
    (found : evbufferReadln (world.client c).evbuf = some (line, rest))
    (safe : lineAction world c line ≠ some (.dispatch ⟨ascii "GET", []⟩)) :
    ∃ after, Happens host world (.line c line rest) after := by
  obtain ⟨sessions, coherent⟩ := reachable.coherent
  obtain ⟨ring, serving⟩ := reachable.serving
  obtain ⟨shape, session, -, follows⟩ :=
    coherent.line ring serving connected found
  have reader := coherent.clientReader_eq connected
  rw [session] at reader
  change clientReader world c = shape.reader at reader
  have harmless : (shape.reader.read (cStr line)).2.toList.any
      (routing host.toPlatform world.server.ketama).fatal = false := by
    rw [lineAction, reader] at safe
    rw [List.any_eq_false]
    intro action member fatal
    rw [Option.mem_toList] at member
    rw [Option.mem_def.mp member] at safe
    cases action with
    | dispatch request =>
        rw [routing_crashes.mp fatal] at safe
        exact safe rfl
    | wrongFormat => cases fatal
    | wrongParam => cases fatal
  obtain ⟨_, after, ran, -⟩ := follows.returns harmless
  exact ⟨after, .line connected found ran⟩

/-- A connected client can always leave. -/
theorem Reachable.releases (reachable : Reachable host world)
    (connected : c ∈ world.connected) :
    ∃ after, Happens host world (.release c) after := by
  obtain ⟨sessions, coherent⟩ := reachable.coherent
  obtain ⟨_, after, ran, -⟩ := clientConnectionRelease_spec coherent connected
  exact ⟨after, .release connected ran⟩

/-- The first client of a router has sent its first line. -/
theorem Host.firstLine (host : Host) (line : Bytes) (noLf : 10 ∉ line) :
    ∃ start world, serverInit host.toPlatform 1 8 = .ok start ∧
      Run (Happens host) start
        [.accept 0 fun _ _ => .fails, .receive 0 (line ++ [10])] world ∧
      0 ∈ world.connected ∧ clientReader world 0 = .idle ∧
      evbufferReadln (world.client 0).evbuf = some (chompCr line, []) ∧
      (world.client 0).reqAll = 0 ∧ (world.client 0).reqOk = 0 ∧
      (world.client 0).reqErr = 0 := by
  obtain ⟨start, middle, ran, nobody, admits, connected, client, -⟩ :=
    host.firstAccept fun _ _ => .fails
  have accepted : Happens host start (.accept 0 fun _ _ => .fails) middle :=
    .accept (by simp [nobody]) admits
  have reachable := (Reachable.start ran).step accepted.step
  obtain ⟨world, received, reader, evbuf, same⟩ :=
    reachable.receives connected (line ++ [10])
  have counters : (world.client 0).reqAll = 0 ∧ (world.client 0).reqOk = 0 ∧
      (world.client 0).reqErr = 0 := by
    cases received.effect reachable with
    | received => simp [World.setClient, World.setMemory, client]
  rw [client] at evbuf
  refine ⟨start, world, ran, (Run.nil.snoc accepted).snoc received,
    same ▸ connected, ?_, ?_, counters⟩
  · rw [reader]
    exact clientReader_fresh (by rw [client])
  · rw [evbuf, List.nil_append]
    unfold evbufferReadln
    rw [Delimited.cutAt_append [] noLf]
    rfl

end KetamaRouter
