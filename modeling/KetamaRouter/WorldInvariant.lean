import KetamaRouter.MemoryInvariant
import KetamaRouter.Source.Server

/-!
# Invariants of the callbacks

The callbacks of a client work on the memory, on the client, on the client's
worker and on counters of the server.  An invariant of memory programs survives
them, and the other workers stay as they were.
-/

namespace KetamaRouter

open FaultProgram

/-- The invariant holds of the memory, the client is served by this worker, its
message is one of these, and the other workers are as they were in `start`. -/
structure Inside (inv : List Ptr → Memory → Prop) (start : World) (w c : Nat)
    (msgs : List Ptr) (world : World) : Prop where
  memory : inv msgs world.memory
  home : (world.client c).worker = w
  msg : ∀ msg, (world.client c).msg = some msg → msg ∈ msgs
  workers : ∀ other, other ≠ w → world.worker other = start.worker other

variable {reach : BufId → Prop} {inv : List Ptr → Memory → Prop}
  {platform : Platform} {world start after : World} {c w : Nat}
  {msgs : List Ptr} {msg : Ptr}

theorem inside_onMemory {α : Type} {program : MemProgram α}
    (keeps : Maintains (inv msgs) program) :
    Maintains (Inside inv start w c msgs) (onMemory program) := by
  apply Maintains.focus
  intro world inside
  exact ⟨keeps.ends inside.memory, inside.home, inside.msg, inside.workers⟩

theorem inside_log (event : Event) :
    Maintains (Inside inv start w c msgs) (log event) := by
  apply Maintains.modify
  intro world inside
  exact ⟨inside.memory, inside.home, inside.msg, inside.workers⟩

theorem inside_deref {α : Type} (pointer : Option α) :
    Maintains (Inside inv start w c msgs) (deref pointer) := by
  cases pointer with
  | none => exact Maintains.throw _
  | some target => exact Maintains.pure target

theorem inside_setClient {change : Client → Client}
    (home : ∀ client, (change client).worker = client.worker)
    (msg : ∀ client, (change client).msg = client.msg) :
    Maintains (Inside inv start w c msgs)
      (modify fun world => world.setClient c change : WorldProgram Unit) := by
  apply Maintains.modify
  intro world inside
  refine ⟨inside.memory, ?_, ?_, inside.workers⟩
  · simp [World.setClient, home, inside.home]
  · intro found held
    simp only [World.setClient, Function.update_self, msg] at held
    exact inside.msg found held

theorem inside_setWorker {change : Worker → Worker} :
    Maintains (Inside inv start w c msgs)
      (modify fun world => world.setWorker w change : WorldProgram Unit) := by
  apply Maintains.modify
  intro world inside
  refine ⟨inside.memory, inside.home, inside.msg, ?_⟩
  intro other apart
  rw [← inside.workers other apart]
  exact Function.update_of_ne apart _ _

theorem inside_countUndone (ret : CmdFuncRet) :
    Maintains (Inside inv start w c msgs) (countUndone c ret) := by
  unfold countUndone
  split
  · apply Maintains.modify
    intro world inside
    refine ⟨inside.memory, ?_, ?_, inside.workers⟩
    · simp [World.setServer, World.setClient, inside.home]
    · intro found held
      simp only [World.setServer, World.setClient, Function.update_self] at held
      exact inside.msg found held
  · exact Maintains.pure _

section Callbacks

variable {proc : Nat → Ptr → WorldProgram CmdFuncRet}
  (stable : Stable reach inv)

include stable

theorem inside_clientEventRejected {event : Event}
    {respError : BufId → Nat → MemProgram RespRes} (member : msg ∈ msgs)
    (keeps : ∀ sock, Maintains (inv msgs)
      (respError (.worker w) sock)) :
    Maintains (Inside inv start w c msgs)
      (clientEventRejected c msg event respError) := by
  unfold clientEventRejected
  apply Maintains.get_bind
  intro world inside
  dsimp only
  rw [inside.home]
  apply Maintains.bind
  · exact inside_setClient (fun _ => rfl) fun _ => rfl
  · intro counted
    apply Maintains.bind inside_setWorker
    intro countedWorker
    apply Maintains.bind (inside_onMemory (maintains_msgClean stable member))
    intro cleaned
    apply Maintains.bind (inside_log event)
    intro logged
    apply Maintains.bind (inside_onMemory (keeps _))
    intro res
    exact Maintains.pure _

/-- What follows a dispatch. -/
theorem inside_dispatch {handler : WorldProgram CmdFuncRet}
    (member : msg ∈ msgs)
    (keeps : Maintains (Inside inv start w c msgs) handler) :
    Maintains (Inside inv start w c msgs) (do
      let ret ← handler
      countUndone c ret
      onMemory (msgClean msg)) := by
  apply Maintains.bind keeps
  intro ret
  apply Maintains.bind (inside_countUndone ret)
  intro undone
  exact inside_onMemory (maintains_msgClean stable member)

theorem inside_clientEventComplete (member : msg ∈ msgs)
    (keeps : Maintains (Inside inv start w c msgs) (proc c msg)) :
    Maintains (Inside inv start w c msgs) (clientEventComplete proc c msg) := by
  unfold clientEventComplete
  apply Maintains.get_bind
  intro world inside
  dsimp only
  rw [inside.home]
  apply Maintains.bind (inside_onMemory (maintains_msgGetStat msg))
  intro stat
  cases stat with
  | none => exact Maintains.pure _
  | dataMore => exact Maintains.pure _
  | done =>
      apply Maintains.bind
      · exact inside_setClient (fun _ => rfl) fun _ => rfl
      · intro counted
        apply Maintains.bind inside_setWorker
        intro countedWorker
        apply Maintains.get_bind
        intro dispatching there
        apply Maintains.bind (inside_log _)
        intro logged
        exact inside_dispatch stable member keeps

variable (within : reach (.worker w))

include within

theorem inside_commandPING (msg : Ptr) :
    Maintains (Inside inv start w c msgs) (commandPING c msg) := by
  unfold commandPING
  apply Maintains.get_bind
  intro world inside
  rw [inside.home]
  apply Maintains.bind (inside_onMemory (maintains_respPong stable within _))
  intro res
  exact Maintains.pure _

theorem inside_commandGET (msg : Ptr) :
    Maintains (Inside inv start w c msgs) (commandGET platform c msg) := by
  unfold commandGET
  apply Maintains.get_bind
  intro world inside
  dsimp only
  apply Maintains.bind (inside_deref _)
  intro param
  split
  · exact Maintains.pure _
  · split
    · exact Maintains.pure _
    · apply Maintains.bind (inside_deref _)
      intro str
      apply Maintains.bind (inside_onMemory (maintains_readStr _))
      intro key
      apply Maintains.bind
      · cases ketamaGetServerOrdinal platform world.server.ketama key with
        | error fault => exact Maintains.throw fault
        | ok ordinal => exact Maintains.pure ordinal
      · intro ordinal
        rw [inside.home]
        apply Maintains.bind
          (inside_onMemory (maintains_respNode stable within _ _))
        intro res
        exact Maintains.pure _

/-- A command that does not exist is answered from the server's own pools. -/
theorem inside_commandProc (server : reach .server) (msg : Ptr) :
    Maintains (Inside inv start w c msgs) (commandProc platform c msg) := by
  unfold commandProc
  apply Maintains.get_bind
  intro world inside
  apply Maintains.bind (inside_deref _)
  intro cmd
  apply Maintains.bind (inside_deref _)
  intro str
  apply Maintains.bind (inside_onMemory (maintains_readStr _))
  intro name
  split
  · apply Maintains.bind
      (inside_onMemory (maintains_respError stable server _ _ _))
    intro res
    exact Maintains.pure _
  · rename_i command found
    apply Maintains.bind (inside_log _)
    intro logged
    cases command.func with
    | commandGET => exact inside_commandGET stable within msg
    | commandPING => exact inside_commandPING stable within msg

theorem inside_clientEventDecoded (member : msg ∈ msgs)
    (res : DecodeResult) :
    Maintains (Inside inv start w c msgs) (clientEventDecoded c msg res) := by
  cases res with
  | ok => exact Maintains.pure _
  | errFormat =>
      apply inside_clientEventRejected stable member
      intro sock
      exact maintains_respError stable within sock _ _
  | errParamFormat =>
      apply inside_clientEventRejected stable member
      intro sock
      exact maintains_respError stable within sock _ _

theorem inside_clientEventLine
    (keeps : ∀ msg ∈ msgs, Maintains (Inside inv start w c msgs) (proc c msg))
    (line : Bytes) :
    Maintains (Inside inv start w c msgs) (clientEventLine proc c line) := by
  unfold clientEventLine
  apply Maintains.bind (inside_log _)
  intro logged
  apply Maintains.bind (inside_onMemory (maintains_mallocText stable line))
  intro row
  apply Maintains.get_bind
  intro world inside
  cases held : (world.client c).msg with
  | none => exact Maintains.throw _
  | some msg =>
      have member := inside.msg msg held
      change Maintains (Inside inv start w c msgs) (do
        let res ← onMemory (decoderRun msg row)
        clientEventDecoded c msg res
        clientEventComplete proc c msg)
      apply Maintains.bind
        (inside_onMemory (maintains_decoderRun stable member row))
      intro res
      apply Maintains.bind (inside_clientEventDecoded stable within member res)
      intro decoded
      exact inside_clientEventComplete stable member (keeps msg member)

end Callbacks

/-! ## The part of a line before the dispatch -/

/-- A dispatcher that stops at once. -/
def stopDispatch (_c : Nat) (_msg : Ptr) : WorldProgram CmdFuncRet :=
  throw .unspecified

/-- A line that does not dispatch does the same with every dispatcher. -/
theorem clientEventLine_quiet {line : Bytes}
    (ran : clientEventLine stopDispatch c line world = .ok () after)
    (proc : Nat → Ptr → WorldProgram CmdFuncRet) :
    clientEventLine proc c line world = .ok () after := by
  unfold clientEventLine at ran ⊢
  obtain ⟨_, first, ranFirst, ran⟩ := of_bind_ok ran
  obtain ⟨row, second, ranSecond, ran⟩ := of_bind_ok ran
  obtain ⟨_, third, ranThird, ran⟩ := of_bind_ok ran
  obtain ⟨msg, fourth, ranFourth, ran⟩ := of_bind_ok ran
  obtain ⟨res, fifth, ranFifth, ran⟩ := of_bind_ok ran
  obtain ⟨_, sixth, ranSixth, ran⟩ := of_bind_ok ran
  rw [bind_run_ok ranFirst, bind_run_ok ranSecond, bind_run_ok ranThird,
    bind_run_ok ranFourth, bind_run_ok ranFifth, bind_run_ok ranSixth]
  unfold clientEventComplete at ran ⊢
  obtain ⟨_, seventh, ranSeventh, ran⟩ := of_bind_ok ran
  obtain ⟨stat, eighth, ranEighth, ran⟩ := of_bind_ok ran
  rw [bind_run_ok ranSeventh, bind_run_ok ranEighth]
  cases stat with
  | none => exact ran
  | dataMore => exact ran
  | done =>
      obtain ⟨_, _, -, ran⟩ := of_bind_ok ran
      obtain ⟨_, _, -, ran⟩ := of_bind_ok ran
      obtain ⟨_, _, -, ran⟩ := of_bind_ok ran
      obtain ⟨_, _, -, ran⟩ := of_bind_ok ran
      obtain ⟨_, _, stops, -⟩ := of_bind_ok ran
      cases stops

end KetamaRouter
