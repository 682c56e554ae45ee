import KetamaRouter.DecoderRefinement
import KetamaRouter.ReplyOwnership
import KetamaRouter.Source.Server

/-!
# What one line does

The body of the loop of `client_event_read` on a message that waits for lines.
A rejected line costs one error reply, an accepted one moves the message, and a
completed message is handed to `command_proc`.
-/

namespace KetamaRouter

open PointerChain FaultProgram

variable {memory : Memory} {world : World} {owned : Multiset Cell}
  {buf : BufId} {c : Nat}

/-! ## Reading a message -/

theorem readStr_run {block : Nat} {line text : Bytes} {str : Ptr}
    (strAt : StrAt memory block line str text)
    (live : memory.text block = some line) :
    readStr str memory = .ok text memory := by
  obtain ⟨off, contents, inside, part⟩ := strAt
  have within : ¬ line.length < off + text.length := by omega
  have readBlock : readText block memory = .ok line memory := by
    unfold readText
    rw [bind_run_ok (get_run memory)]
    simp only [live]
    rfl
  unfold readStr
  rw [bind_run_ok (get_run memory)]
  simp only [contents, deref, pure_bind]
  rw [bind_run_ok readBlock]
  simp only [within, if_false, part]
  rfl

theorem readParam_run {param : ParamShape}
    (paramAt : ParamAt memory buf param) :
    readParam param.obj memory = .ok param.body.parameter memory := by
  have body := paramAt.body
  unfold readParam
  rw [bind_run_ok (get_run memory)]
  cases shape : param.body with
  | str str text =>
      rw [shape] at body
      obtain ⟨-, fields, strAt⟩ := body
      simp only [fields.type, fields.str, deref, pure_bind]
      rw [bind_run_ok (readStr_run strAt paramAt.text)]
      rfl
  | kv kv key value keyText valueText =>
      rw [shape] at body
      obtain ⟨-, fields, kvEq, keyAt, valueAt⟩ := body
      simp only [fields.type, fields.kv, deref, pure_bind, kvEq]
      rw [bind_run_ok (readStr_run keyAt paramAt.text),
        bind_run_ok (readStr_run valueAt paramAt.text)]
      rfl

theorem readParams_run {params : List ParamShape} {fuel : Nat}
    (enough : params.length ≤ fuel)
    (linked : Linked memory.paramNext (params.map ParamShape.obj).head?
      (params.map ParamShape.obj))
    (paramsAt : ∀ param ∈ params, ParamAt memory buf param) :
    readParams fuel (params.map ParamShape.obj).head? memory =
      .ok (params.map fun param => param.body.parameter) memory := by
  induction params generalizing fuel with
  | nil => cases fuel <;> rfl
  | cons param params induction =>
      obtain ⟨fuel, rfl⟩ : ∃ less, fuel = less + 1 :=
        ⟨fuel - 1, by simp at enough; omega⟩
      simp only [List.map_cons, List.head?_cons, linked_cons, true_and]
        at linked ⊢
      have start : (memory.param param.obj).next =
          (params.map ParamShape.obj).head? := linked.start_eq
      have rest := induction (Nat.le_of_succ_le_succ enough) (start ▸ linked)
        fun other found => paramsAt other (List.mem_cons_of_mem param found)
      unfold readParams
      rw [bind_run_ok (readParam_run (paramsAt param List.mem_cons_self)),
        bind_run_ok (get_run memory), start, bind_run_ok rest]
      rfl

theorem readRequest_run {shape : MsgShape} {request : Request}
    (msgAt : MsgAt memory shape)
    (holds : Holds memory (shape.cells + owned))
    (asks : shape.request = some request) :
    readRequest shape.obj memory = .ok request memory := by
  obtain ⟨cmd, found, rfl⟩ := Option.map_eq_some_iff.mp asks
  have cmdAt := msgAt.cmd cmd found
  have header := msgAt.header
  rw [found] at header
  unfold readRequest
  rw [bind_run_ok (get_run memory)]
  simp only [header, Option.map_some, deref, pure_bind, cmdAt.obj]
  rw [bind_run_ok (readStr_run cmdAt.name cmdAt.text),
    bind_run_ok (msgBuf_run (by rw [header])),
    bind_run_ok (readParams_run (msgAt.enoughFuel holds) msgAt.linked
      msgAt.params)]
  rfl

/-- An observer sees the request a message stands for. -/
theorem requestAt_eq {shape : MsgShape} {request : Request}
    (msgAt : MsgAt memory shape)
    (holds : Holds memory (shape.cells + owned))
    (asks : shape.request = some request) :
    requestAt memory shape.obj = some request := by
  unfold requestAt
  rw [readRequest_run msgAt holds asks]

/-- An open message asks for what its reader has collected. -/
theorem MsgShape.request_of_reader {shape : MsgShape} {name : Bytes}
    {count : Nat} {params : List Parameter}
    (opens : shape.reader = .opened name count params) :
    shape.request = some ⟨name, params⟩ := by
  obtain ⟨msg, cmd, chain, fits⟩ := shape
  cases cmd with
  | none => cases opens
  | some cmd =>
      simp only [MsgShape.reader, Reader.opened.injEq] at opens
      simp only [MsgShape.request, Option.map_some, opens.1]
      rw [opens.2.2]

/-! ## Memory programs in the world -/

@[simp] theorem World.setMemory_memory (memory : Memory) :
    (world.setMemory memory).memory = memory :=
  rfl

theorem onMemory_yields {α : Type} {program : MemProgram α}
    {post : α → Memory → Prop} (yields : Yields program world.memory post) :
    Yields (onMemory program) world fun value after =>
      ∃ memory, after = world.setMemory memory ∧ post value memory :=
  Yields.focus yields

theorem onMemory_run {α : Type} {program : MemProgram α} {value : α}
    {after : Memory} (ran : program world.memory = .ok value after) :
    onMemory program world = .ok value (world.setMemory after) := by
  simp [onMemory, focus, ran]

theorem log_run (event : Event) :
    log event world = .ok () (world.logged [event]) :=
  rfl

theorem clientIncreaseReqOk_run :
    clientIncreaseReqOk c world = .ok () (world.setClient c fun client =>
      { client with
        reqAll := client.reqAll + 1
        reqOk := client.reqOk + 1 }) :=
  rfl

theorem workerIncreaseReqOk_run {w : Nat} :
    workerIncreaseReqOk w world = .ok () (world.setWorker w fun worker =>
      { worker with
        reqAll := worker.reqAll + 1
        reqOk := worker.reqOk + 1 }) :=
  rfl

/-! ## Rejected lines -/

/-- The counters after a request was counted as an error. -/
def World.countErr (world : World) (c : Nat) : World :=
  (world.setClient c fun client =>
    { client with reqAll := client.reqAll + 1, reqErr := client.reqErr + 1 }
  ).setWorker (world.client c).worker fun worker =>
    { worker with reqAll := worker.reqAll + 1, reqErr := worker.reqErr + 1 }

/-- The counters after a request was counted as done. -/
def World.countOk (world : World) (c : Nat) : World :=
  (world.setClient c fun client =>
    { client with reqAll := client.reqAll + 1, reqOk := client.reqOk + 1 }
  ).setWorker (world.client c).worker fun worker =>
    { worker with reqAll := worker.reqAll + 1, reqOk := worker.reqOk + 1 }

/-- How an action shows up in the trace. -/
def Action.event (c : Nat) : Action → Event
  | .dispatch request => .dispatch c (some request)
  | .wrongFormat => .wrongFormat c
  | .wrongParam => .wrongParam c

/-- The reply to a line that a reader in this state rejects. -/
def Reader.complaintReply : Reader → Request
  | .idle => errorReply errWrongMsgFormatNo errWrongMsgFormat
  | .opened _ _ _ => errorReply errWrongParamFormatNo errWrongParamFormat

theorem Reader.complaintReply_printable (reader : Reader) :
    reader.complaintReply.Printable := by
  cases reader
  · exact errorReply_printable errWrongMsgFormatNo errWrongMsgFormat
      (by decide) (by decide)
  · exact errorReply_printable errWrongParamFormatNo errWrongParamFormat
      (by decide) (by decide)

/-- Either error case of the first `switch`. -/
theorem clientEventRejected_spec {shape : MsgShape} {event : Event}
    {respError : BufId → Nat → MemProgram RespRes} {reply : Request}
    (sends : ∀ buf sock, respError buf sock = respSend buf sock reply)
    (printable : reply.Printable)
    (msgAt : MsgAt world.memory shape)
    (holds : Holds world.memory (shape.cells + owned)) :
    Yields (clientEventRejected c shape.obj event respError) world
      fun _ after => ∃ memory,
        after = ((world.countErr c).logged [event]).setMemory memory ∧
        MsgAt memory (.idle shape.obj) ∧
        Holds memory ((MsgShape.idle shape.obj).cells + owned) ∧
        Frame owned (world.memory.setSocket (world.client c).socket
          ((world.memory.socket (world.client c).socket).writeAll
            (reply.pieces.map cStr)).2) memory := by
  unfold clientEventRejected
  refine Yields.get_bind ?_
  dsimp only
  refine Yields.modify_bind (Yields.modify_bind ?_)
  refine Yields.bind (onMemory_yields (msgClean_spec msgAt holds)) ?_
  intro _ _ outcome
  rcases outcome with ⟨cleaned, rfl, idle, holdsCleaned, frameCleaned⟩
  refine Yields.modify_bind ?_
  rw [sends]
  refine Yields.bind (onMemory_yields
    (respSend_spec holdsCleaned printable (world.client c).socket)) ?_
  intro _ _ outcome
  rcases outcome with ⟨sent, rfl, -, holdsSent, frameSent⟩
  refine Yields.pure ⟨sent, rfl, ?_, holdsSent, ?_⟩
  · exact (idle.setSocket _ _).frame frameSent fun _ member =>
      Multiset.mem_add.mpr (.inl member)
  · change Frame _ (cleaned.setSocket _ ((cleaned.socket _).writeAll _).2) sent
      at frameSent
    rw [frameCleaned.socket] at frameSent
    refine (frameCleaned.setSocket _ _).trans (frameSent.mono ?_)
    exact fun _ member => Multiset.mem_add.mpr (.inr member)

theorem clientEventDecoded_rejected {shape : MsgShape}
    (msgAt : MsgAt world.memory shape)
    (holds : Holds world.memory (shape.cells + owned)) :
    Yields (clientEventDecoded c shape.obj shape.rejection) world
      fun _ after => ∃ memory,
        after = ((world.countErr c).logged
          [shape.reader.complaint.event c]).setMemory memory ∧
        MsgAt memory (.idle shape.obj) ∧
        Holds memory ((MsgShape.idle shape.obj).cells + owned) ∧
        Frame owned (world.memory.setSocket (world.client c).socket
          ((world.memory.socket (world.client c).socket).writeAll
            (shape.reader.complaintReply.pieces.map cStr)).2) memory := by
  have printable := shape.reader.complaintReply_printable
  cases found : shape.cmd with
  | none =>
      have reader : shape.reader = .idle := by simp [MsgShape.reader, found]
      have rejection : shape.rejection = .errFormat := by
        simp [MsgShape.rejection, found]
      rw [reader] at printable ⊢
      rw [rejection]
      exact clientEventRejected_spec (fun buf sock => respError_eq buf sock _ _)
        printable msgAt holds
  | some cmd =>
      have reader := MsgShape.reader_of_cmd found
      have rejection : shape.rejection = .errParamFormat := by
        simp [MsgShape.rejection, found]
      rw [reader] at printable ⊢
      rw [rejection]
      exact clientEventRejected_spec (fun buf sock => respError_eq buf sock _ _)
        printable msgAt holds

/-! ## Whole lines -/

/-- Between two lines the client's message has this shape and waits for
more. -/
structure Carries (world : World) (c : Nat) (shape : MsgShape) : Prop where
  msg : (world.client c).msg = some shape.obj
  home : shape.obj.buf = .worker (world.client c).worker
  msgAt : MsgAt world.memory shape
  waiting : shape.Waiting

/-- The client carries a message, and `owned` belongs to others. -/
structure Session (world : World) (c : Nat) (shape : MsgShape)
    (owned : Multiset Cell) : Prop extends Carries world c shape where
  holds : Holds world.memory (shape.cells + owned)

theorem MsgShape.idle_waiting (msg : Ptr) : (MsgShape.idle msg).Waiting := by
  simp [MsgShape.Waiting, MsgShape.stat, MsgShape.idle]

/-- Without a complete message the second `switch` does nothing. -/
theorem clientEventComplete_waiting {shape : MsgShape}
    (proc : Nat → Ptr → WorldProgram CmdFuncRet)
    (msgAt : MsgAt world.memory shape) (waiting : shape.Waiting) :
    clientEventComplete proc c shape.obj world = .ok () world := by
  have stat : onMemory (msgGetStat shape.obj) world = .ok shape.stat world :=
    onMemory_run (msgGetStat_run msgAt)
  unfold clientEventComplete
  rw [bind_run_ok (get_run world), bind_run_ok stat]
  cases known : shape.stat with
  | none => rfl
  | dataMore => rfl
  | done => exact absurd known waiting

/-- A line is stored in a buffer that never existed before. -/
theorem mallocText_block {after : Memory} {contents : Bytes} {row : Nat}
    (ran : mallocText contents memory = .ok row after) :
    row = memory.textBrk := by
  cases ran
  rfl

/-- A rejected line costs a reply and the open request.  Its buffer stays
behind. -/
theorem clientEventLine_rejected {shape : MsgShape} {line : Bytes}
    (proc : Nat → Ptr → WorldProgram CmdFuncRet)
    (session : Session world c shape owned)
    (rejected : shape.reader.accept (cStr line) = none) :
    Yields (clientEventLine proc c line) world fun _ after => ∃ memory,
      after = ((world.countErr c).logged
        [.line c line, shape.reader.complaint.event c]).setMemory memory ∧
      Session after c (.idle shape.obj) owned ∧
      memory.text world.memory.textBrk = some line ∧
      Frame owned (world.memory.setSocket (world.client c).socket
        ((world.memory.socket (world.client c).socket).writeAll
          (shape.reader.complaintReply.pieces.map cStr)).2) memory := by
  obtain ⟨⟨msgEq, home, msgAt, waiting⟩, holds⟩ := session
  unfold clientEventLine
  refine Yields.modify_bind ?_
  obtain ⟨row, second, ranSecond, outside, holdsSecond, frameSecond, text⟩ :=
    @mallocText_spec (world.logged [.line c line]).memory _ holds line
  have isRow := mallocText_block ranSecond
  subst isRow
  rw [← Multiset.add_cons] at holdsSecond
  refine Yields.bind_run (onMemory_run ranSecond) (Yields.get_bind ?_)
  change Yields (deref (world.client c).msg >>= _) _ _
  rw [msgEq]
  simp only [deref, pure_bind]
  have msgSecond := msgAt.frame frameSecond
    fun _ member => Multiset.mem_add.mpr (.inl member)
  refine Yields.bind_run
    (onMemory_run (decoderRun_rejects text msgSecond waiting rejected)) ?_
  refine Yields.bind (clientEventDecoded_rejected msgSecond holdsSecond) ?_
  intro _ _ outcome
  rcases outcome with ⟨third, rfl, idle, holdsThird, frameThird⟩
  rw [Multiset.add_cons] at holdsThird
  refine Yields.congr (@clientEventComplete_waiting _ _ (.idle shape.obj)
    proc idle (MsgShape.idle_waiting shape.obj))
    (Yields.pure ⟨third, ?_, ⟨⟨?_, ?_, idle, MsgShape.idle_waiting _⟩,
      holdsThird.forgetText⟩, ?_, ?_⟩)
  · simp [World.logged, World.countErr, World.setMemory, World.setClient,
      World.setWorker]
  · simp [World.logged, World.countErr, World.setMemory, World.setClient,
      World.setWorker, msgEq, MsgShape.idle]
  · simp [World.logged, World.countErr, World.setMemory, World.setClient,
      World.setWorker, home, MsgShape.idle]
  · exact (frameThird.text _ (Multiset.mem_cons_self _ _)).trans text
  · have frameLast := frameThird.tail
    change Frame _ (second.setSocket _ ((second.socket _).writeAll _).2) third
      at frameLast
    rw [frameSecond.socket] at frameLast
    have others := frameSecond.mono
      fun _ member => Multiset.mem_add.mpr (.inr member)
    exact (others.setSocket _ _).trans frameLast

/-- An accepted line moves the message on, whatever comes of it. -/
theorem clientEventLine_accepted {shape : MsgShape} {line name : Bytes}
    {count : Nat} {params : List Parameter}
    (session : Session world c shape owned)
    (accepted : shape.reader.accept (cStr line) = some (name, count, params)) :
    ∃ (next : MsgShape) (memory : Memory), next.obj = shape.obj ∧
      next.reader = .opened name count params ∧
      next.blocks = shape.blocks ++ [world.memory.textBrk] ∧
      MsgAt memory next ∧
      Holds memory (next.cells + owned) ∧ Frame owned world.memory memory ∧
      ∀ proc, clientEventLine proc c line world =
        clientEventComplete proc c next.obj
          ((world.logged [.line c line]).setMemory memory) := by
  obtain ⟨⟨msgEq, home, msgAt, waiting⟩, holds⟩ := session
  obtain ⟨row, second, ranSecond, outside, holdsSecond, frameSecond, text⟩ :=
    @mallocText_spec (world.logged [.line c line]).memory _ holds line
  have msgSecond := msgAt.frame frameSecond
    fun _ member => Multiset.mem_add.mpr (.inl member)
  obtain ⟨_, third, ranThird, next, rfl, sameObj, reader, blocks, msgThird,
    holdsThird, frameThird⟩ :=
      decoderRun_accepts text msgSecond waiting holdsSecond accepted
  have isRow := mallocText_block ranSecond
  subst isRow
  refine ⟨next, third, sameObj, reader, blocks, msgThird, holdsThird, ?_, ?_⟩
  · refine Frame.trans ?_ frameThird
    exact frameSecond.mono fun _ member => Multiset.mem_add.mpr (.inr member)
  · intro proc
    unfold clientEventLine
    rw [bind_run_ok (log_run _), bind_run_ok (onMemory_run ranSecond),
      bind_run_ok (get_run _)]
    change (deref (world.client c).msg >>= _) _ = _
    rw [msgEq]
    simp only [deref, pure_bind]
    rw [bind_run_ok (onMemory_run ranThird), sameObj]
    rfl

/-- The world in which a completed message is handed to `command_proc`. -/
def World.dispatching (world : World) (c : Nat) (memory : Memory)
    (line : Bytes) (request : Request) : World :=
  ((world.countOk c).logged
    [.line c line, .dispatch c (some request)]).setMemory memory

/-- A line that completes the request hands it to `command_proc`. -/
theorem clientEventLine_completes {shape : MsgShape} {line name : Bytes}
    {params : List Parameter} (session : Session world c shape owned)
    (accepted : shape.reader.accept (cStr line) =
      some (name, params.length, params)) :
    ∃ (full : MsgShape) (memory : Memory), full.obj = shape.obj ∧
      full.blocks = shape.blocks ++ [world.memory.textBrk] ∧
      full.stat = .done ∧ full.request = some ⟨name, params⟩ ∧
      MsgAt memory full ∧ Holds memory (full.cells + owned) ∧
      Frame owned world.memory memory ∧
      ∀ proc, clientEventLine proc c line world =
        (do
          let ret ← proc c full.obj
          countUndone c ret
          onMemory (msgClean full.obj))
          (world.dispatching c memory line ⟨name, params⟩) := by
  obtain ⟨next, memory, sameObj, reader, blocks, msgAt, holds, frame, run⟩ :=
    clientEventLine_accepted session accepted
  have complete := (MsgShape.stat_eq_done_iff reader).mpr rfl
  have asks := MsgShape.request_of_reader reader
  refine ⟨next, memory, sameObj, blocks, complete, asks, msgAt, holds, frame,
    ?_⟩
  intro proc
  refine (run proc).trans ?_
  have stat : onMemory (msgGetStat next.obj)
      ((world.logged [.line c line]).setMemory memory) =
        .ok .done ((world.logged [.line c line]).setMemory memory) := by
    rw [← complete]
    exact onMemory_run (msgGetStat_run msgAt)
  unfold clientEventComplete
  rw [bind_run_ok (get_run _), bind_run_ok stat]
  change (clientIncreaseReqOk c >>= _) _ = _
  rw [bind_run_ok clientIncreaseReqOk_run, bind_run_ok workerIncreaseReqOk_run,
    bind_run_ok (get_run _)]
  change (log (.dispatch c (requestAt memory next.obj)) >>= _) _ = _
  rw [requestAt_eq msgAt holds asks, bind_run_ok (log_run _)]
  simp [World.dispatching, World.logged, World.countOk, World.setMemory,
    World.setClient, World.setWorker]

/-- A line that leaves the request open. -/
theorem clientEventLine_opens {shape : MsgShape} {line name : Bytes}
    {count : Nat} {params : List Parameter}
    (proc : Nat → Ptr → WorldProgram CmdFuncRet)
    (session : Session world c shape owned)
    (accepted : shape.reader.accept (cStr line) = some (name, count, params))
    (more : params.length ≠ count) :
    Yields (clientEventLine proc c line) world fun _ after =>
      ∃ next memory, after = (world.logged [.line c line]).setMemory memory ∧
        next.obj = shape.obj ∧ next.reader = .opened name count params ∧
        next.blocks = shape.blocks ++ [world.memory.textBrk] ∧
        Session after c next owned ∧ Frame owned world.memory memory := by
  obtain ⟨next, memory, sameObj, reader, blocks, msgAt, holds, frame, run⟩ :=
    clientEventLine_accepted session accepted
  have waiting : next.Waiting := fun complete =>
    more ((MsgShape.stat_eq_done_iff reader).mp complete)
  have ran := (run proc).trans (clientEventComplete_waiting proc msgAt waiting)
  refine ⟨(), _, ran, next, memory, rfl, sameObj, reader, blocks,
    ⟨⟨?_, ?_, msgAt, waiting⟩, holds⟩, frame⟩
  · change (world.client c).msg = _
    rw [session.msg, sameObj]
  · rw [sameObj]
    exact session.home

end KetamaRouter
