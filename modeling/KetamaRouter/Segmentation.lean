import KetamaRouter.Library.Oblivious
import KetamaRouter.System

/-!
# Segmentation of a stream

Nothing that a line does depends on the bytes that wait behind it.  So a read
event amounts to its lines run over a buffer that already holds the rest, and
cutting the stream elsewhere changes nothing.
-/

namespace KetamaRouter

open FaultProgram Delimited

variable {platform : Platform} {c : Nat} {world : World}

/-! ## Lines do not see the buffer -/

/-- A program that does not see the client's buffer and keeps its message
pointer. -/
abbrev Unreading {α : Type} (c : Nat) (program : WorldProgram α) : Prop :=
  ∀ bytes, Oblivious (fun world : World => world.setEvbuf c bytes)
    (fun world => (world.client c).msg) program

@[simp] theorem World.setEvbuf_memory (bytes : Bytes) :
    (world.setEvbuf c bytes).memory = world.memory :=
  rfl

@[simp] theorem World.setEvbuf_server (bytes : Bytes) :
    (world.setEvbuf c bytes).server = world.server :=
  rfl

@[simp] theorem World.setEvbuf_client (bytes : Bytes) :
    (world.setEvbuf c bytes).client c =
      { world.client c with evbuf := bytes } := by
  simp [World.setEvbuf, World.setClient]

@[simp] theorem World.setEvbuf_setEvbuf (first second : Bytes) :
    (world.setEvbuf c first).setEvbuf c second = world.setEvbuf c second := by
  simp [World.setEvbuf, World.setClient]

theorem World.setEvbuf_same :
    world.setEvbuf c (world.client c).evbuf = world := by
  simp [World.setEvbuf, World.setClient]

theorem unreading_onMemory {α : Type} (program : MemProgram α) :
    Unreading c (onMemory program) :=
  fun _ => Oblivious.focus (fun _ => rfl) (fun _ _ => rfl) (fun _ _ => rfl)

theorem unreading_log (event : Event) : Unreading c (log event) :=
  fun _ => Oblivious.modify (fun _ => rfl) (fun _ => rfl)

theorem unreading_deref {α : Type} (pointer : Option α) :
    Unreading c (deref pointer : WorldProgram α) := by
  intro bytes
  cases pointer with
  | none => exact Oblivious.throw _
  | some target => exact Oblivious.pure target

theorem unreading_fromExcept {α : Type} (result : Except Fault α) :
    Unreading c (fromExcept result) := by
  intro bytes
  cases result with
  | ok value => exact Oblivious.pure value
  | error fault => exact Oblivious.throw fault

/-- Counting on the client's record. -/
theorem unreading_setClient {change : Client → Client}
    (commutes : ∀ client bytes, change { client with evbuf := bytes } =
      { change client with evbuf := bytes })
    (keeps : ∀ client, (change client).msg = client.msg) :
    Unreading c (modify fun world => world.setClient c change) := by
  intro bytes
  refine Oblivious.modify ?_ ?_
  · intro world
    simp only [World.setEvbuf, World.setClient, Function.update_self,
      Function.update_idem]
    rw [commutes]
  · intro world
    simp [World.setClient, keeps]

theorem unreading_setWorker (w : Nat) (change : Worker → Worker) :
    Unreading c (modify fun world => world.setWorker w change) :=
  fun _ => Oblivious.modify (fun _ => rfl) (fun _ => rfl)

theorem unreading_clientIncreaseReqOk : Unreading c (clientIncreaseReqOk c) := by
  refine unreading_setClient ?_ ?_
  · exact fun _ _ => rfl
  · exact fun _ => rfl

theorem unreading_clientIncreaseReqErr :
    Unreading c (clientIncreaseReqErr c) := by
  refine unreading_setClient ?_ ?_
  · exact fun _ _ => rfl
  · exact fun _ => rfl

theorem unreading_clientEventRejected (msg : Ptr) (event : Event)
    (respError : BufId → Nat → MemProgram RespRes) :
    Unreading c (clientEventRejected c msg event respError) := by
  intro bytes
  unfold clientEventRejected
  refine Oblivious.get_bind (by simp) fun world => ?_
  refine .bind (unreading_clientIncreaseReqErr bytes) fun _ => ?_
  refine .bind (unreading_setWorker _ _ bytes) fun _ => ?_
  refine .bind (unreading_onMemory _ bytes) fun _ => ?_
  refine .bind (unreading_log event bytes) fun _ => ?_
  exact .bind (unreading_onMemory _ bytes) fun _ => .pure _

theorem unreading_clientEventDecoded (msg : Ptr) (res : DecodeResult) :
    Unreading c (clientEventDecoded c msg res) := by
  intro bytes
  cases res with
  | ok => exact Oblivious.pure _
  | errFormat => exact unreading_clientEventRejected _ _ _ bytes
  | errParamFormat => exact unreading_clientEventRejected _ _ _ bytes

theorem unreading_countUndone (ret : CmdFuncRet) :
    Unreading c (countUndone c ret) := by
  intro bytes
  unfold countUndone
  split
  · refine Oblivious.modify ?_ ?_
    · intro world
      simp [World.setEvbuf, World.setClient, World.setServer]
    · intro world
      simp [World.setClient, World.setServer]
  · exact Oblivious.pure _

theorem unreading_commandGET (msg : Ptr) :
    Unreading c (commandGET platform c msg) := by
  intro bytes
  unfold commandGET
  refine Oblivious.get_bind (by simp) fun world => ?_
  refine .bind (unreading_deref _ bytes) fun param => ?_
  split
  · exact .pure _
  · split
    · exact .pure _
    · refine .bind (unreading_deref _ bytes) fun str => ?_
      refine .bind (unreading_onMemory _ bytes) fun key => ?_
      refine .bind (unreading_fromExcept _ bytes) fun ordinal => ?_
      exact .bind (unreading_onMemory _ bytes) fun _ => .pure _

theorem unreading_commandPING (msg : Ptr) :
    Unreading c (commandPING c msg) := by
  intro bytes
  unfold commandPING
  refine Oblivious.get_bind (by simp) fun world => ?_
  exact .bind (unreading_onMemory _ bytes) fun _ => .pure _

theorem unreading_commandProc (msg : Ptr) :
    Unreading c (commandProc platform c msg) := by
  intro bytes
  unfold commandProc
  refine Oblivious.get_bind (by simp) fun world => ?_
  refine .bind (unreading_deref _ bytes) fun cmd => ?_
  refine .bind (unreading_deref _ bytes) fun name => ?_
  refine .bind (unreading_onMemory _ bytes) fun text => ?_
  split
  · exact .bind (unreading_onMemory _ bytes) fun _ => .pure _
  · rename_i command _
    refine .bind (unreading_log _ bytes) fun _ => ?_
    cases command.func with
    | commandGET => exact unreading_commandGET msg bytes
    | commandPING => exact unreading_commandPING msg bytes

theorem unreading_clientEventComplete
    {proc : Nat → Ptr → WorldProgram CmdFuncRet}
    (unreading : ∀ msg, Unreading c (proc c msg)) (msg : Ptr) :
    Unreading c (clientEventComplete proc c msg) := by
  intro bytes
  unfold clientEventComplete
  refine Oblivious.get_bind (by simp) fun world => ?_
  refine .bind (unreading_onMemory _ bytes) fun stat => ?_
  cases stat with
  | none => exact .pure _
  | dataMore => exact .pure _
  | done =>
      refine .bind (unreading_clientIncreaseReqOk bytes) fun _ => ?_
      refine .bind (unreading_setWorker _ _ bytes) fun _ => ?_
      refine .get_bind (by simp) fun world => ?_
      refine .bind (unreading_log _ bytes) fun _ => ?_
      refine .bind (unreading msg bytes) fun ret => ?_
      refine .bind (unreading_countUndone ret bytes) fun _ => ?_
      exact unreading_onMemory _ bytes

theorem unreading_clientEventLine
    {proc : Nat → Ptr → WorldProgram CmdFuncRet}
    (unreading : ∀ msg, Unreading c (proc c msg)) (line : Bytes) :
    Unreading c (clientEventLine proc c line) := by
  intro bytes
  unfold clientEventLine
  refine Oblivious.bind (unreading_log _ bytes) fun _ => ?_
  refine .bind (unreading_onMemory _ bytes) fun row => ?_
  refine .get_bind (by simp) fun world => ?_
  refine .bind (unreading_deref _ bytes) fun msg => ?_
  refine .bind (unreading_onMemory _ bytes) fun res => ?_
  refine .bind (unreading_clientEventDecoded msg res bytes) fun _ => ?_
  exact unreading_clientEventComplete unreading msg bytes

/-! ## A read event is its lines -/

/-- Lines of a client, one after the other. -/
def clientEventLines (proc : Nat → Ptr → WorldProgram CmdFuncRet) (c : Nat) :
    List Bytes → WorldProgram Unit
  | [] => pure ()
  | line :: lines => do
      clientEventLine proc c line
      clientEventLines proc c lines

theorem clientEventLines_append (proc : Nat → Ptr → WorldProgram CmdFuncRet)
    (first later : List Bytes) :
    clientEventLines proc c (first ++ later) = (do
      clientEventLines proc c first
      clientEventLines proc c later) := by
  induction first with
  | nil => rfl
  | cons line first induction =>
      rw [List.cons_append, clientEventLines, clientEventLines, induction,
        bind_assoc]

/-- A result up to the unread bytes that a crash leaves behind. -/
def upToUnread (c : Nat) :
    EStateM.Result Fault World Unit → EStateM.Result Fault World Unit
  | .ok value after => .ok value after
  | .error fault after => .error fault (after.setEvbuf c [])

theorem upToUnread_bind {first second next : WorldProgram Unit}
    {other : World}
    (same : upToUnread c (first world) = upToUnread c (second other)) :
    upToUnread c ((do first; next) world) =
      upToUnread c ((do second; next) other) := by
  cases left : first world with
  | ok value after =>
      cases right : second other with
      | ok value' after' =>
          rw [left, right] at same
          cases same
          rw [bind_run_ok left, bind_run_ok right]
      | error fault' after' =>
          rw [left, right] at same
          cases same
  | error fault after =>
      cases right : second other with
      | ok value' after' =>
          rw [left, right] at same
          cases same
      | error fault' after' =>
          rw [bind_run_error left, bind_run_error right, ← left, ← right]
          exact same

section

variable {proc : Nat → Ptr → WorldProgram CmdFuncRet}
  (unreading : ∀ msg, Unreading c (proc c msg))

include unreading

theorem unreading_clientEventLines (lines : List Bytes) :
    Unreading c (clientEventLines proc c lines) := by
  induction lines with
  | nil => exact fun _ => Oblivious.pure _
  | cons line lines induction =>
      exact fun bytes => .bind (unreading_clientEventLine unreading line bytes)
        fun _ => induction bytes

/-- The loop runs the lines of the buffer; only a crash shows what it had not
read yet. -/
theorem clientEventLoop_lines {pieces : List Bytes} {rest : Bytes}
    {fuel : Nat} (enough : pieces.length < fuel)
    (found : split 10 (world.client c).evbuf = (pieces, rest)) :
    upToUnread c (clientEventLoop proc c fuel world) =
      upToUnread c (clientEventLines proc c (pieces.map chompCr)
        (world.setEvbuf c rest)) := by
  induction pieces generalizing fuel world with
  | nil =>
      obtain ⟨fuel, rfl⟩ : ∃ less, fuel = less + 1 := ⟨fuel - 1, by omega⟩
      cases cut : cutAt 10 (world.client c).evbuf with
      | none =>
          rw [split_of_no_cut cut] at found
          cases found
          rw [clientEventLoop_pending proc cut, World.setEvbuf_same]
          rfl
      | some parts =>
          rw [split_of_cut cut] at found
          cases found
  | cons piece pieces induction =>
      obtain ⟨fuel, rfl⟩ : ∃ less, fuel = less + 1 := ⟨fuel - 1, by omega⟩
      cases cut : cutAt 10 (world.client c).evbuf with
      | none =>
          rw [split_of_no_cut cut] at found
          cases found
      | some parts =>
          obtain ⟨line, later⟩ := parts
          rw [split_of_cut cut] at found
          cases found
          have line := unreading_clientEventLine unreading (chompCr piece)
          have early := (line later).commutes world
          have late := (line (split 10 later).2).commutes world
          rw [clientEventLoop_line proc cut, List.map_cons, clientEventLines]
          cases ran : clientEventLine proc c (chompCr piece) world with
          | ok value middle =>
              rw [ran] at early late
              rw [bind_run_ok early, bind_run_ok late, induction
                (Nat.lt_of_succ_lt_succ enough) (by simp),
                World.setEvbuf_setEvbuf]
          | error fault middle =>
              rw [ran] at early late
              rw [bind_run_error early, bind_run_error late]
              simp [upToUnread]

omit unreading in
theorem clientEventReceive_attached {msg : Ptr}
    (found : (world.client c).msg = some msg) (input : Bytes) :
    clientEventReceive c input world =
      .ok () (world.setEvbuf c ((world.client c).evbuf ++ input)) := by
  unfold clientEventReceive
  rw [bind_run_ok (get_run world)]
  simp only [found]
  rfl

theorem clientEventRead_lines (hasMsg : (world.client c).msg ≠ none)
    (input : Bytes) :
    upToUnread c (clientEventRead proc c input world) =
      upToUnread c (clientEventLines proc c
        (linesOf ((world.client c).evbuf ++ input))
        (world.setEvbuf c (pendingOf ((world.client c).evbuf ++ input)))) := by
  obtain ⟨msg, found⟩ := Option.ne_none_iff_exists'.mp hasMsg
  unfold clientEventRead
  rw [bind_run_ok (clientEventReceive_attached found input),
    bind_run_ok (get_run _)]
  rw [clientEventLoop_lines unreading
    (Nat.lt_succ_of_le (split_length_le 10 _)) rfl]
  simp [linesOf, pendingOf]

/-- Two read events amount to one. -/
theorem clientEventRead_merge_attached
    (hasMsg : (world.client c).msg ≠ none) (first second : Bytes) :
    upToUnread c ((do
        clientEventRead proc c first
        clientEventRead proc c second) world) =
      upToUnread c (clientEventRead proc c (first ++ second) world) := by
  have lines := unreading_clientEventLines unreading
    (linesOf ((world.client c).evbuf ++ first))
  have early :=
    (lines (pendingOf ((world.client c).evbuf ++ first))).commutes world
  have late := (lines (pendingOf (pendingOf ((world.client c).evbuf ++ first) ++
    second))).commutes world
  rw [upToUnread_bind (clientEventRead_lines unreading hasMsg first),
    clientEventRead_lines unreading hasMsg (first ++ second),
    ← List.append_assoc,
    linesOf_append ((world.client c).evbuf ++ first) second,
    pendingOf_append ((world.client c).evbuf ++ first) second,
    clientEventLines_append]
  cases ran : clientEventLines proc c
      (linesOf ((world.client c).evbuf ++ first)) world with
  | ok value middle =>
      rw [ran] at early late
      have kept := (lines []).keeps _ _ _ ran
      have stillHas : ((middle.setEvbuf c
          (pendingOf ((world.client c).evbuf ++ first))).client c).msg ≠
            none := by
        rw [World.setEvbuf_client]
        exact kept ▸ hasMsg
      rw [bind_run_ok early, bind_run_ok late,
        clientEventRead_lines unreading stillHas]
      simp
  | error fault middle =>
      rw [ran] at early late
      rw [bind_run_error early, bind_run_error late]
      simp [upToUnread]

omit unreading in
/-- The first read event gives the client its message. -/
theorem clientEventRead_attaches (noMsg : (world.client c).msg = none) :
    (∃ middle, (middle.client c).msg ≠ none ∧
        ∀ input, clientEventRead proc c input world =
          clientEventRead proc c input middle) ∨
      ∃ fault after, ∀ input,
        clientEventRead proc c input world = .error fault after := by
  cases ran : onMemory (msgInit (.worker (world.client c).worker)) world with
  | ok msg middle =>
      have attached : ((middle.setClient c fun client =>
          { client with msg := some msg }).client c).msg = some msg := by
        simp [World.setClient]
      refine .inl ⟨_, Option.ne_none_iff_exists'.mpr ⟨msg, attached⟩,
        fun input => bind_run_congr ?_⟩
      rw [clientEventReceive_attached attached input]
      unfold clientEventReceive
      rw [bind_run_ok (get_run world)]
      simp only [noMsg]
      rw [bind_run_ok ran]
      rfl
  | error fault after =>
      refine .inr ⟨fault, after, fun input => bind_run_error ?_⟩
      unfold clientEventReceive
      rw [bind_run_ok (get_run world)]
      simp only [noMsg]
      exact bind_run_error ran

/-- Two read events amount to one, the first of the connection included. -/
theorem clientEventRead_merge (first second : Bytes) :
    upToUnread c ((do
        clientEventRead proc c first
        clientEventRead proc c second) world) =
      upToUnread c (clientEventRead proc c (first ++ second) world) := by
  by_cases hasMsg : (world.client c).msg ≠ none
  · exact clientEventRead_merge_attached unreading hasMsg first second
  · rw [ne_eq, not_not] at hasMsg
    rcases @clientEventRead_attaches c world proc hasMsg with
      ⟨middle, attached, same⟩ | ⟨fault, after, stopped⟩
    · have merged := clientEventRead_merge_attached unreading attached first
        second
      have start : upToUnread c ((do
          clientEventRead proc c first
          clientEventRead proc c second) world) =
            upToUnread c ((do
              clientEventRead proc c first
              clientEventRead proc c second) middle) :=
        upToUnread_bind (congrArg (upToUnread c) (same first))
      rw [start, merged, same]
    · rw [bind_run_error (stopped first), stopped]

/-- All read events of a stream amount to one. -/
theorem clientEventReads_merge (input : Bytes) (later : List Bytes) :
    upToUnread c (clientEventReads proc c (input :: later) world) =
      upToUnread c (clientEventRead proc c (input :: later).flatten world) := by
  induction later generalizing input with
  | nil =>
      rw [List.flatten_cons, List.flatten_nil, List.append_nil]
      change upToUnread c ((clientEventRead proc c input >>= pure) world) = _
      rw [bind_pure]
  | cons next later induction =>
      have merged : upToUnread c (((do
          clientEventRead proc c input
          clientEventRead proc c next) >>= fun _ =>
            clientEventReads proc c later) world) =
          upToUnread c ((do
            clientEventRead proc c (input ++ next)
            clientEventReads proc c later) world) :=
        upToUnread_bind (clientEventRead_merge unreading input next)
      rw [bind_assoc] at merged
      refine merged.trans ((induction (input ++ next)).trans ?_)
      simp

end

/-- However a stream is cut into read events, the router ends in the same
state: the trace, the counters, the partial message and the unread bytes
included.  A stream of no bytes has no event, whatever it is cut into. -/
theorem clientEventReads_recut (platform : Platform) (c : Nat) (world : World)
    {first second : List Bytes} (same : first.flatten = second.flatten)
    (empty : first = [] ↔ second = []) :
    upToUnread c (clientEventReads (commandProc platform) c first world) =
      upToUnread c (clientEventReads (commandProc platform) c second world) := by
  cases first with
  | nil => rw [empty.mp rfl]
  | cons input later =>
      cases second with
      | nil => cases empty.mpr rfl
      | cons input' later' =>
          rw [clientEventReads_merge unreading_commandProc,
            clientEventReads_merge unreading_commandProc, same]

/-- `+PING` cut between its two line ends. -/
theorem clientEventReads_recut_ping : ∃ world,
    Reachable Host.standard world ∧ 0 ∈ world.connected ∧
      upToUnread 0 (clientEventReads (commandProc Platform.standard) 0
          [ascii "+PING\r", ascii "\n"] world) =
        upToUnread 0 (clientEventReads (commandProc Platform.standard) 0
          [ascii "+PI", ascii "NG\r\n"] world) := by
  obtain ⟨world, reachable, connected, -, -⟩ :=
    Host.standard.firstClient fun _ _ => .fails
  exact ⟨world, reachable, connected,
    clientEventReads_recut _ _ _ (by decide) (by simp)⟩

end KetamaRouter
