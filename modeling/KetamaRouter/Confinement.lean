import KetamaRouter.Happenings
import KetamaRouter.WorldInvariant

/-!
# Confinement to a worker

The pools take no lock, so a line of a client may use the pools of the client's
worker only.  Every path of a line but one builds its reply from them: the
reply to an unknown command comes from the server's own pools.
-/

namespace KetamaRouter

open FaultProgram

/-- Processing changed only the client and its worker. -/
structure Confined (c : Nat) (world after : World) : Prop where
  clients : ∀ other, other ≠ c → after.client other = world.client other
  workers : ∀ w, w ≠ (world.client c).worker → after.worker w = world.worker w
  server : after.server = world.server
  pools : ∀ buf, buf ≠ .worker (world.client c).worker →
    after.memory.pool buf = world.memory.pool buf
  sockets : ∀ sock, sock ≠ (world.client c).socket →
    after.memory.socket sock = world.memory.socket sock
  messages : ∀ other ∈ world.connected, other ≠ c →
    clientReader after other = clientReader world other
  clientBrk : after.clientBrk = world.clientBrk
  connected : after.connected = world.connected

/-- A `PING`, or a `GET` that does not begin with a key/value parameter. -/
def Request.Local (request : Request) : Prop :=
  request.name = ascii "PING" ∨
    request.name = ascii "GET" ∧
      ∀ key value, request.params.head? ≠ some (.keyValue key value)

variable {host : Host} {platform : Platform} {world start after : World}
  {c w : Nat} {msgs : List Ptr} {msg : Ptr}

/-! ## Pools out of reach -/

/-- The pools of other buffers are these, and the messages are not from another
buffer. -/
structure Stays (home : BufId) (pools : BufId → PoolKind → Pool)
    (msgs : List Ptr) (memory : Memory) : Prop where
  pools : ∀ buf, buf ≠ home → memory.pool buf = pools buf
  header : ∀ msg ∈ msgs, ∀ buf, (memory.msg msg).buf = some buf → buf = home

theorem stays_stable (home : BufId) (pools : BufId → PoolKind → Pool) :
    Stable (· = home) (Stays home pools) where
  setPool {_ memory buf} within stays kind pool := by
    refine ⟨?_, stays.header⟩
    intro other apart
    rw [← stays.pools other apart, within]
    exact Function.update_of_ne apart _ _
  setMsg {msgs memory other change} keeps stays := by
    refine ⟨stays.pools, ?_⟩
    intro msg member buf found
    by_cases same : msg = other
    · subst same
      have written : (memory.setMsg msg change).msg msg =
          change (memory.msg msg) :=
        Function.update_self _ _ _
      rw [written] at found
      cases keeps _ buf found with
      | inl here => exact here
      | inr before => exact stays.header msg member buf before
    · have kept : (memory.setMsg other change).msg msg = memory.msg msg :=
        Function.update_of_ne same _ _
      rw [kept] at found
      exact stays.header msg member buf found
  write stays pool header _ _ := by
    constructor
    · rw [pool]
      exact stays.pools
    · rw [header]
      exact stays.header
  knows stays member found := stays.header _ member _ found
  learns {_ _ fresh _} stays within found := by
    refine ⟨stays.pools, ?_⟩
    intro msg member buf header
    cases List.mem_cons.mp member with
    | inl new =>
        rw [new, found] at header
        rw [← Option.some.inj header]
        exact within
    | inr old => exact stays.header msg old buf header
  forgets {_ _ fresh} stays :=
    ⟨stays.pools, fun msg member =>
      stays.header msg (List.mem_cons_of_mem fresh member)⟩
  malloc stays _ := ⟨stays.pools, stays.header⟩
  free stays _ := ⟨stays.pools, stays.header⟩

/-- Only the pools of this worker, and its client, may differ from `start`. -/
abbrev Keeping (start : World) (w : Nat) : Nat → List Ptr → World → Prop :=
  Inside (Stays (.worker w) start.memory.pool) start w

/-! ## A line -/

section OneLine

variable {owned : Multiset Cell} {shape : MsgShape} {ketama : Ketama}
  {line : Bytes}

theorem inside_stopDispatch (msg : Ptr) :
    Maintains (Keeping start w c msgs) (stopDispatch c msg) :=
  Maintains.throw _

/-- The handler of a local request keeps to the client's worker. -/
theorem inside_local {request : Request} (stays : request.Local)
    (msg : Ptr) :
    Maintains (Keeping start w c msgs)
      (match commandListGetl commandListLoad request.name with
        | none => do
            let _ ← onMemory (respSend .server (world.client c).socket
              unknownReply)
            return CmdFuncRet.unknown
        | some command => do
            log (.invoke c command (UInt16.ofNat request.params.length))
            command.func.call platform c msg) := by
  have known := commandListGetl_load request.name
  cases stays with
  | inl isPing =>
      rw [if_pos isPing] at known
      rw [known]
      apply Maintains.bind (inside_log _)
      intro logged
      exact inside_commandPING (stays_stable _ _) rfl msg
  | inr isGet =>
      have notPing : request.name ≠ ascii "PING" := by
        rw [isGet.1]
        decide
      rw [if_neg notPing, if_pos isGet.1] at known
      rw [known]
      apply Maintains.bind (inside_log _)
      intro logged
      exact inside_commandGET (stays_stable _ _) rfl msg

/-- Wherever a line ends, it kept to the client's worker, unless it completed
a request that is not local. -/
theorem clientEventLine_inside (inside : Keeping start w c [shape.obj] world)
    (commands : world.server.commandList = commandListLoad)
    (session : Session world c shape owned)
    (stays : ∀ request, (shape.reader.read (cStr line)).2 =
      some (.dispatch request) → request.Local) :
    Keeping start w c [shape.obj]
      (final (clientEventLine (commandProc platform) c line world)) := by
  have before : Maintains (Keeping start w c [shape.obj])
      (clientEventLine stopDispatch c line) :=
    inside_clientEventLine (stays_stable _ _) rfl
      (fun msg _ => inside_stopDispatch msg) line
  cases verdict : shape.reader.accept (cStr line) with
  | none =>
      obtain ⟨_, after, ran, -⟩ :=
        clientEventLine_rejected stopDispatch session verdict
      rw [clientEventLine_quiet ran (commandProc platform)]
      exact before.kept inside ran
  | some accepted =>
      obtain ⟨name, count, params⟩ := accepted
      by_cases full : params.length = count
      · subst full
        have read := Reader.read_accepted verdict
        rw [if_pos rfl] at read
        have isLocal := stays ⟨name, params⟩ (by rw [read])
        obtain ⟨full, memory, sameObj, -, complete, asks, msgAt, holds, frame,
          run⟩ := clientEventLine_completes session verdict
        have stops : stopDispatch c full.obj
            (world.dispatching c memory line ⟨name, params⟩) =
              .error .unspecified
                (world.dispatching c memory line ⟨name, params⟩) :=
          rfl
        have dispatching : Keeping start w c [shape.obj]
            (world.dispatching c memory line ⟨name, params⟩) := by
          have ends := before.ends inside
          rw [run stopDispatch, bind_run_error stops] at ends
          exact ends
        have member : full.obj ∈ [shape.obj] := by
          rw [sameObj]
          exact List.mem_cons_self
        have handles := @commandProc_run
          (world.dispatching c memory line ⟨name, params⟩) c platform full
          ⟨name, params⟩ commands asks msgAt
        rw [run (commandProc platform), bind_run_congr handles]
        exact (inside_dispatch (stays_stable _ _) member
          (inside_local isLocal full.obj)).ends dispatching
      · obtain ⟨_, after, ran, -⟩ :=
          clientEventLine_opens stopDispatch session verdict full
        rw [clientEventLine_quiet ran (commandProc platform)]
        exact before.kept inside ran

theorem Request.Local.handled {request : Request} (stays : request.Local)
    (safe : request ≠ ⟨ascii "GET", []⟩) : request.Handled := by
  obtain ⟨name, params⟩ := request
  cases stays with
  | inl isPing => exact .inl isPing
  | inr isGet =>
      obtain ⟨isGet, first⟩ := isGet
      dsimp only at isGet first
      subst isGet
      cases params with
      | nil => exact absurd rfl safe
      | cons param rest =>
          cases param with
          | str text => exact .inr ⟨rfl, rfl⟩
          | keyValue key value => exact absurd rfl (first key value)

/-- What the end of a line leaves of the world and of what others own. -/
structure Leaves (c : Nat) (owned : Multiset Cell) (world after : World) :
    Prop where
  keeps : Keeps c world after
  server : after.server = world.server
  frame : ∃ replies, Frame owned (world.offered c replies) after.memory
  holds : ∃ cells, Holds after.memory (cells + owned)

theorem World.counting_server {action : Option Action}
    (handled : ∀ request, action = some (.dispatch request) →
      request.Handled) : (world.counting c action).server = world.server := by
  cases action with
  | none => rfl
  | some action =>
      cases action with
      | wrongFormat => rfl
      | wrongParam => rfl
      | dispatch request =>
          rw [World.counting, if_pos (handled request rfl)]
          rfl

/-- A request without parameters crashes before it touches what others own. -/
theorem clientEventLine_leaves_crash
    (serving : Serving commandListLoad ketama world)
    (session : Session world c shape owned)
    (crash : (shape.reader.read (cStr line)).2 =
      some (.dispatch ⟨ascii "GET", []⟩)) :
    Leaves c owned world
      (final (clientEventLine (commandProc host.toPlatform) c line world)) := by
  cases verdict : shape.reader.accept (cStr line) with
  | none =>
      rw [Reader.read_rejected verdict] at crash
      cases reader : shape.reader <;> rw [reader] at crash <;> cases crash
  | some accepted =>
      obtain ⟨name, count, params⟩ := accepted
      have read := Reader.read_accepted verdict
      by_cases full : params.length = count
      · subst full
        rw [if_pos rfl] at read
        rw [read] at crash
        cases crash
        obtain ⟨full, memory, sameObj, -, complete, asks, msgAt, holds, frame,
          run⟩ := clientEventLine_completes session verdict
        have dispatching := @Keeps.dispatching world c memory line
          ⟨ascii "GET", []⟩
        have handles := @commandProc_run
          (world.dispatching c memory line ⟨ascii "GET", []⟩) c
          host.toPlatform full ⟨ascii "GET", []⟩
          (dispatching.serving serving).commands asks msgAt
        have chain : full.params = [] := by
          obtain ⟨cmd, -, same⟩ := Option.map_eq_some_iff.mp asks
          exact List.map_eq_nil_iff.mp (Request.mk.inj same).2
        have crashes : commandProc host.toPlatform c full.obj
            (world.dispatching c memory line ⟨ascii "GET", []⟩) =
              .error .nullPointer ((world.dispatching c memory line
                ⟨ascii "GET", []⟩).logged
                  [.invoke c getCommand (UInt16.ofNat 0)]) := by
          rw [handles, commandListGetl_load]
          exact (bind_run_ok (log_run _)).trans
            (commandGET_empty msgAt chain)
        rw [run (commandProc host.toPlatform), bind_run_error crashes]
        refine ⟨dispatching.logged _, rfl, ⟨[], ?_⟩, ⟨full.cells, holds⟩⟩
        rw [World.offered_nil]
        exact frame
      · rw [if_neg full] at read
        rw [read] at crash
        cases crash

/-- Every other local request is handled, and the line returns. -/
theorem clientEventLine_leaves_return (ring : Routing host ketama)
    (serving : Serving commandListLoad ketama world)
    (session : Session world c shape owned)
    (stays : ∀ request, (shape.reader.read (cStr line)).2 =
      some (.dispatch request) → request.Local)
    (safe : (shape.reader.read (cStr line)).2 ≠
      some (.dispatch ⟨ascii "GET", []⟩)) :
    Leaves c owned world
      (final (clientEventLine (commandProc host.toPlatform) c line world)) := by
  have follows := clientEventLine_spec (commandProc_obeys ring.1 ring.2)
    serving session line
  have harmless : (shape.reader.read (cStr line)).2.toList.any
      (routing host.toPlatform ketama).fatal = false := by
    rw [List.any_eq_false]
    intro action member fatal
    have same := Option.mem_toList.mp member
    cases action with
    | dispatch request =>
        rw [routing_crashes.mp fatal] at same
        exact safe same
    | wrongFormat => cases fatal
    | wrongParam => cases fatal
  obtain ⟨_, after, ran, next, -, -, moved⟩ := follows.returns harmless
  obtain ⟨memory, ended⟩ := clientEventLine_outcome ring serving session ran
  have handled : ∀ request, (shape.reader.read (cStr line)).2 =
      some (.dispatch request) → request.Handled := by
    intro request found
    apply (stays request found).handled
    intro same
    exact safe (same ▸ found)
  rw [ran]
  refine ⟨moved.keeps, ?_, ⟨_, moved.frame⟩, ⟨_, moved.session.holds⟩⟩
  change after.server = _
  rw [ended]
  exact World.counting_server handled

/-- A line that completes no request or a local one, even if it crashes. -/
theorem clientEventLine_leaves (ring : Routing host ketama)
    (serving : Serving commandListLoad ketama world)
    (session : Session world c shape owned)
    (stays : ∀ request, (shape.reader.read (cStr line)).2 =
      some (.dispatch request) → request.Local) :
    Leaves c owned world
      (final (clientEventLine (commandProc host.toPlatform) c line world)) := by
  by_cases crash : (shape.reader.read (cStr line)).2 =
      some (.dispatch ⟨ascii "GET", []⟩)
  · exact clientEventLine_leaves_crash serving session crash
  · exact clientEventLine_leaves_return ring serving session stays crash

end OneLine

/-! ## Reachable states -/

/-- The messages of other clients read as before. -/
theorem Coherent.others_readers {sessions : Nat → Option MsgShape}
    {cells : Multiset Cell} {sock : Nat} {socket : Socket}
    (coherent : Coherent host world sessions)
    (holds : Holds after.memory
      (cells + heldBy sessions (world.connected.erase c)))
    (frame : Frame (heldBy sessions (world.connected.erase c))
      (world.memory.setSocket sock socket) after.memory)
    (same : ∀ other, other ≠ c → after.client other = world.client other) :
    ∀ other ∈ world.connected, other ≠ c →
      clientReader after other = clientReader world other := by
  intro other member apart
  have kept : other ∈ world.connected.erase c :=
    (List.mem_erase_of_ne apart).mpr member
  have inside : sessionCells (sessions other) ≤
      heldBy sessions (world.connected.erase c) :=
    sessionCells_le kept
  have attached := (coherent.attached other member).frame frame
    (fun cell found => Multiset.mem_of_le inside found) (same other apart)
  rw [coherent.clientReader_eq member]
  cases session : sessions other with
  | none =>
      rw [session] at attached
      exact clientReader_fresh attached.1
  | some shape =>
      rw [session] at attached inside
      obtain ⟨others, split⟩ := Multiset.le_iff_exists_add.mp inside
      rw [split, add_left_comm] at holds
      rw [clientReader, attached.msg]
      exact readerAt_eq attached.msgAt holds

theorem Request.Handled.isLocal {request : Request} (handled : request.Handled) :
    request.Local := by
  cases handled with
  | inl isPing => exact .inl isPing
  | inr isGet =>
      refine .inr ⟨isGet.1, ?_⟩
      intro key value first
      have begins := isGet.2
      cases params : request.params with
      | nil =>
          rw [params] at begins
          cases begins
      | cons param others =>
          rw [params] at first begins
          cases first
          cases begins

/-- A request that is not local moves a counter of the server. -/
theorem Reachable.escapes (reachable : Reachable host world)
    (connected : c ∈ world.connected) {line rest : Bytes} {request : Request}
    (found : evbufferReadln (world.client c).evbuf = some (line, rest))
    (completes : lineAction world c line = some (.dispatch request))
    (notLocal : ¬ request.Local) :
    ¬ Confined c world (final (clientEventLine (commandProc host.toPlatform) c
      line (world.setEvbuf c rest))) := by
  intro confined
  have safe : lineAction world c line ≠
      some (.dispatch ⟨ascii "GET", []⟩) := by
    intro empty
    rw [completes] at empty
    cases empty
    exact notLocal (.inr ⟨rfl, fun _ _ first => by cases first⟩)
  obtain ⟨after, happens⟩ := reachable.processes connected found safe
  have unhandled : ¬ request.Handled := fun handled =>
    notLocal handled.isLocal
  have counted : after.server.reqOk = world.server.reqOk + 1 := by
    cases happens.effect reachable with
    | processed =>
        rw [completes, World.counting, if_neg unhandled]
        rfl
  have server : after.server = world.server := by
    cases happens with
    | line _ _ ran =>
        have server := confined.server
        rw [ran] at server
        exact server
  rw [server] at counted
  have same : world.server.reqOk.toNat =
      (world.server.reqOk.toNat + 1) % 2 ^ 64 := by
    rw [← UInt64.toNat_one, ← UInt64.toNat_add, ← counted]
  have bound := world.server.reqOk.toNat_lt
  omega

/-- Processing a line is confined to the client and its worker exactly if the
line completes no request or a local one. -/
theorem line_confined_iff (reachable : Reachable host world)
    (connected : c ∈ world.connected) {line rest : Bytes}
    (found : evbufferReadln (world.client c).evbuf = some (line, rest)) :
    Confined c world (final (clientEventLine (commandProc host.toPlatform) c
        line (world.setEvbuf c rest))) ↔
      ∀ request, lineAction world c line = some (.dispatch request) →
        request.Local := by
  obtain ⟨sessions, coherent⟩ := reachable.coherent
  obtain ⟨ring, serving⟩ := reachable.serving
  obtain ⟨shape, session, begun, follows⟩ :=
    coherent.line ring serving connected found
  have reader := coherent.clientReader_eq connected
  rw [session] at reader
  change clientReader world c = shape.reader at reader
  rw [lineAction, reader]
  constructor
  · intro confined request completes
    by_contra notLocal
    apply reachable.escapes connected found _ notLocal confined
    rw [lineAction, reader]
    exact completes
  · intro stays
    have inside : Keeping world (world.client c).worker c [shape.obj]
        (world.setEvbuf c rest) := by
      have carries := begun.session.toCarries
      refine ⟨⟨fun _ _ => rfl, ?_⟩, begun.keeps.worker, ?_, fun _ _ => rfl⟩
      · intro msg member buf header
        rw [List.mem_singleton.mp member, carries.msgAt.header] at header
        rw [← Option.some.inj header, carries.home, begun.keeps.worker]
      · intro msg held
        rw [carries.msg] at held
        exact List.mem_singleton.mpr (Option.some.inj held).symm
    have ends := @clientEventLine_inside host.toPlatform _ _ c _ _ shape line
      inside (begun.keeps.serving serving).commands begun.session stays
    obtain ⟨keeps, server, ⟨replies, frame⟩, ⟨cells, holds⟩⟩ :=
      clientEventLine_leaves ring (begun.keeps.serving serving) begun.session
        stays
    have offered : (world.setEvbuf c rest).offered c replies =
        world.memory.setSocket (world.client c).socket
          ((world.memory.socket (world.client c).socket).offer replies) := by
      rw [World.offered, begun.keeps.socket]
      rfl
    rw [offered] at frame
    have keeps := begun.keeps.trans keeps
    exact
      { clients := keeps.others
        workers := ends.workers
        server := server
        pools := ends.memory.pools
        sockets := fun sock apart => by
          rw [frame.socket]
          exact Function.update_of_ne apart _ _
        messages := coherent.others_readers holds frame keeps.others
        clientBrk := keeps.clientBrk
        connected := keeps.connected }

theorem line_confined_ping :
    ∃ world, Reachable Host.standard world ∧ 0 ∈ world.connected ∧
      evbufferReadln (world.client 0).evbuf = some (ascii "+PING", []) ∧
      Confined 0 world (final (clientEventLine
        (commandProc Host.standard.toPlatform) 0 (ascii "+PING")
        (world.setEvbuf 0 []))) := by
  obtain ⟨start, world, ran, run, connected, idle, found, -⟩ :=
    Host.standard.firstLine (ascii "+PING") (by decide)
  have reachable := (Reachable.start ran).run run
  have line : evbufferReadln (world.client 0).evbuf =
      some (ascii "+PING", []) := found
  refine ⟨world, reachable, connected, line,
    (line_confined_iff reachable connected line).mpr ?_⟩
  intro request completes
  have action : lineAction world 0 (ascii "+PING") =
      some (.dispatch ⟨ascii "PING", []⟩) := by
    rw [lineAction, idle]
    decide
  rw [action] at completes
  cases completes
  exact .inl rfl

/-- A command that does not exist is not confined to the worker. -/
theorem line_not_confined :
    ∃ world, Reachable Host.standard world ∧ 0 ∈ world.connected ∧
      evbufferReadln (world.client 0).evbuf = some (ascii "+FOO", []) ∧
      ¬ Confined 0 world (final (clientEventLine
        (commandProc Host.standard.toPlatform) 0 (ascii "+FOO")
        (world.setEvbuf 0 []))) := by
  obtain ⟨start, world, ran, run, connected, idle, found, -⟩ :=
    Host.standard.firstLine (ascii "+FOO") (by decide)
  have reachable := (Reachable.start ran).run run
  have line : evbufferReadln (world.client 0).evbuf =
      some (ascii "+FOO", []) := found
  have action : lineAction world 0 (ascii "+FOO") =
      some (.dispatch ⟨ascii "FOO", []⟩) := by
    rw [lineAction, idle]
    decide
  refine ⟨world, reachable, connected, line,
    reachable.escapes connected line action ?_⟩
  intro isLocal
  cases isLocal with
  | inl isPing => exact absurd isPing (by decide)
  | inr isGet => exact absurd isGet.1 (by decide)

end KetamaRouter
