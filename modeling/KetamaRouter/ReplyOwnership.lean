import KetamaRouter.MessageOwnership
import KetamaRouter.Protocol.Wire
import KetamaRouter.Source.Response

/-!
# What the replies own and send

Building a message from texts, writing it to a socket and freeing it.  The
socket is the only thing outside the pools that a reply changes, and it sees
the data strings of the message in order.
-/

namespace KetamaRouter

open PointerChain FaultProgram

variable {memory : Memory} {owned : Multiset Cell} {buf : BufId}

/-! ## Writing -/

/-- The effect on a socket of writing strings until one write returns what is
negative as an `int`. -/
def Socket.writeAll (socket : Socket) : List Bytes → RespRes × Socket
  | [] => (.ok, socket)
  | piece :: pieces =>
      if (socket.write piece).1.toInt32 < 0 then
        (.sockErr, (socket.write piece).2)
      else (socket.write piece).2.writeAll pieces

/-- The data strings of a parameter chain. -/
def paramPieces (params : List ParamShape) : List Bytes :=
  params.map fun param => cStr param.line

/-- The data strings of a message, in the order they are sent. -/
def MsgShape.pieces (shape : MsgShape) : List Bytes :=
  (shape.cmd.map fun cmd => cStr cmd.line).toList ++ paramPieces shape.params

theorem write_run (sock : Nat) (bytes : Bytes) :
    write sock bytes memory =
      .ok ((memory.socket sock).write bytes).1
        (memory.setSocket sock ((memory.socket sock).write bytes).2) :=
  rfl

@[simp] theorem Memory.setSocket_socket_self (sock : Nat) (socket : Socket) :
    (memory.setSocket sock socket).socket sock = socket := by
  simp [Memory.setSocket]

@[simp] theorem Memory.setSocket_setSocket (sock : Nat)
    (first second : Socket) :
    (memory.setSocket sock first).setSocket sock second =
      memory.setSocket sock second := by
  simp [Memory.setSocket]

@[simp] theorem Memory.setSocket_same (sock : Nat) :
    memory.setSocket sock (memory.socket sock) = memory := by
  simp [Memory.setSocket]

theorem ParamAt.setSocket {param : ParamShape}
    (paramAt : ParamAt memory buf param) (sock : Nat) (socket : Socket) :
    ParamAt (memory.setSocket sock socket) buf param where
  home := paramAt.home
  body := paramAt.body
  text := paramAt.text

/-- `resp_msg` writes the parameters of a chain one after the other. -/
theorem respMsgParams_run {params : List ParamShape} {fuel : Nat} (sock : Nat)
    (enough : params.length ≤ fuel)
    (linked : Linked memory.paramNext (params.map ParamShape.obj).head?
      (params.map ParamShape.obj))
    (paramsAt : ∀ param ∈ params, ParamAt memory buf param) :
    respMsgParams sock fuel (params.map ParamShape.obj).head? memory =
      .ok ((memory.socket sock).writeAll (paramPieces params)).1
        (memory.setSocket sock
          ((memory.socket sock).writeAll (paramPieces params)).2) := by
  induction params generalizing fuel memory with
  | nil =>
      cases fuel <;> simp [respMsgParams, paramPieces, Socket.writeAll]
  | cons param params induction =>
      obtain ⟨fuel, rfl⟩ : ∃ less, fuel = less + 1 :=
        ⟨fuel - 1, by simp at enough; omega⟩
      simp only [List.map_cons, List.head?_cons, linked_cons, true_and]
        at linked ⊢
      have start : (memory.param param.obj).next =
          (params.map ParamShape.obj).head? := linked.start_eq
      have paramAt := paramsAt param List.mem_cons_self
      unfold respMsgParams
      rw [bind_run_ok (get_run memory)]
      simp only [paramAt.data, deref, pure_bind]
      rw [bind_run_ok (readCStr_run paramAt.text), bind_run_ok (write_run _ _),
        List.drop_zero, paramPieces, List.map_cons, Socket.writeAll]
      by_cases failed :
          ((memory.socket sock).write (cStr param.line)).1.toInt32 < 0
      · simp only [failed, if_true]
        rfl
      · simp only [failed, if_false, start]
        have rest := @induction
          (memory.setSocket sock
            ((memory.socket sock).write (cStr param.line)).2)
          fuel (Nat.le_of_succ_le_succ enough) (start ▸ linked)
          (fun other found =>
            (paramsAt other (List.mem_cons_of_mem param found)).setSocket _ _)
        simp only [Memory.setSocket_socket_self, Memory.setSocket_setSocket]
          at rest
        exact rest

/-- `resp_msg` sends the data strings of a complete message. -/
theorem respMsg_run {shape : MsgShape} (msgAt : MsgAt memory shape)
    (holds : Holds memory (shape.cells + owned)) (complete : shape.stat = .done)
    (sock : Nat) :
    respMsg sock shape.obj memory =
      .ok ((memory.socket sock).writeAll shape.pieces).1
        (memory.setSocket sock
          ((memory.socket sock).writeAll shape.pieces).2) := by
  obtain ⟨msg, cmd, params, fits⟩ := shape
  cases cmd with
  | none => cases complete
  | some cmd =>
      have cmdAt := msgAt.cmd cmd rfl
      have header := msgAt.header
      rw [complete] at header
      have enough : params.length ≤ paramFuel msg.buf memory :=
        msgAt.enoughFuel holds
      unfold respMsg
      rw [bind_run_ok (get_run memory)]
      simp only [header, ne_eq, not_true_eq_false, if_false, Option.map_some,
        deref, pure_bind, cmdAt.obj]
      rw [bind_run_ok (readCStr_run cmdAt.text), bind_run_ok (write_run _ _),
        List.drop_zero, MsgShape.pieces, Option.map_some, Option.toList_some,
        List.singleton_append, Socket.writeAll]
      by_cases failed :
          ((memory.socket sock).write (cStr cmd.line)).1.toInt32 < 0
      · simp only [failed, if_true]
        rfl
      · simp only [failed, if_false]
        have home : ((memory.setSocket sock
            ((memory.socket sock).write (cStr cmd.line)).2).msg msg).buf =
              some msg.buf := by
          simp [Memory.setSocket, header]
        rw [bind_run_ok (msgBuf_run home)]
        have rest := @respMsgParams_run
          (memory.setSocket sock
            ((memory.socket sock).write (cStr cmd.line)).2)
          msg.buf params (paramFuel msg.buf memory) sock enough msgAt.linked
          (fun param found => (msgAt.params param found).setSocket _ _)
        simp only [Memory.setSocket_socket_self, Memory.setSocket_setSocket]
          at rest
        exact rest

/-! ## Building -/

/-- The generator for a parameter of either kind. -/
def msgGenParam (buf : BufId) : Parameter → MemProgram Ptr
  | .str text => msgGenParamStr buf text text.length
  | .keyValue key value =>
      msgGenParamKv buf key key.length value value.length

/-- Generate parameters and add them to a message, one after the other. -/
def msgAddParams (buf : BufId) (msg : Ptr) : List Parameter → MemProgram Unit
  | [] => pure ()
  | param :: params => do
      let _ ← msgAddParam msg (← msgGenParam buf param)
      msgAddParams buf msg params

/-- Assemble a message for a request, as the replies do. -/
def msgAssemble (buf : BufId) (request : Request) : MemProgram Ptr := do
  let msg ← msgInit buf
  let cmd ← msgGenCmd buf request.name request.name.length
    (UInt16.ofNat request.params.length)
  let _ ← msgSetCmd msg cmd
  msgAddParams buf msg request.params
  return msg

theorem cStr_eq_self {text : Bytes} (noNul : 0 ∉ text) : cStr text = text := by
  refine List.takeWhile_eq_self_iff.mpr fun char member => decide_eq_true ?_
  rintro rfl
  exact noNul member

theorem formatStr_precision {text : Bytes} (noNul : 0 ∉ text)
    (short : text.length ≤ intMax) :
    formatStr (precision text.length) text = text := by
  have bound : text.length < 2 ^ 31 := by
    unfold intMax at short
    omega
  have whole : precision text.length = text.length := by
    unfold precision
    exact Int.bmod_eq_of_le (by omega) (by omega)
  unfold formatStr
  rw [whole, if_neg (by omega), cStr_eq_self noNul, Int.toNat_natCast,
    List.take_length]

theorem callocSprintf_spec {size : Nat} {text : Bytes}
    (holds : Holds memory owned) (short : text.length ≤ intMax)
    (room : text.length < size) :
    Yields (callocSprintf size text) memory fun block after =>
      .text block ∉ owned ∧ Holds after (.text block ::ₘ owned) ∧
        Frame owned memory after ∧ after.text block = some text := by
  unfold callocSprintf
  rw [if_neg (by omega), if_neg (by omega)]
  exact mallocText_spec holds text

/-- The text `msg_gen_cmd` prints, whatever the name. -/
theorem commandText_eq (name : Bytes) (count : UInt16) :
    (if count = 0 then [msgCmdHeader] ++ name ++ msgCrlf
      else [msgCmdHeader] ++ name ++ [32] ++ formatInt count.toNat ++ msgCrlf) =
      commandText name count.toNat ++ crlf := by
  have zero : count = 0 ↔ count.toNat = 0 := by
    rw [← UInt16.toNat_inj, UInt16.toNat_zero]
  unfold commandText
  by_cases none : count.toNat = 0
  · rw [if_pos (zero.mpr none), if_pos none]
    rfl
  · rw [if_neg (zero.not.mpr none), if_neg none, formatInt_natCast]
    simp [msgCmdHeader, msgCrlf, crlf]

theorem commandText_length (name : Bytes) (count : UInt16) :
    (commandText name count.toNat).length ≤ name.length + 7 := by
  have digits := formatDecimal_length count.toNat_lt
  unfold commandText
  split
  · simp
  · simp
    omega

theorem commandText_drop (name : Bytes) (count : Nat) :
    ((commandText name count ++ crlf).drop 1).take name.length = name := by
  unfold commandText
  split <;> simp

theorem msgGenCmd_spec {name : Bytes} {count : UInt16}
    (holds : Holds memory owned) (noNul : 0 ∉ name)
    (short : (commandText name count.toNat ++ crlf).length ≤ intMax) :
    Yields (msgGenCmd buf name name.length count) memory fun obj after =>
      ∃ cmd : CmdShape, cmd.obj = obj ∧ cmd.nameText = name ∧
        cmd.count = count ∧ cmd.line = commandText name count.toNat ++ crlf ∧
        CmdAt after buf cmd ∧ Holds after (cmd.cells + owned) ∧
        Frame owned memory after := by
  have header : name.length + 1 ≤ (commandText name count.toNat).length := by
    unfold commandText
    split <;> simp
  have longer := commandText_length name count
  have tail : (commandText name count.toNat ++ crlf).length =
      (commandText name count.toNat).length + 2 := List.length_append
  unfold msgGenCmd
  simp only [formatStr_precision noNul (by omega : name.length ≤ intMax),
    commandText_eq]
  refine Yields.bind (callocSprintf_spec holds short (by omega)) ?_
  intro block middle outcome
  rcases outcome with ⟨outside, holdsMiddle, frameMiddle, text⟩
  refine (msgInitCmd_spec holdsMiddle text
    (by omega) buf count).mono ?_
  intro obj after outcome
  rcases outcome with ⟨strPtr, cmdAt, holdsAfter, frameAfter⟩
  rw [commandText_drop] at cmdAt holdsAfter
  exact ⟨_, rfl, rfl, rfl, rfl, cmdAt, holdsAfter,
    frameMiddle.trans frameAfter.tail⟩

/-- Either generator makes a parameter that says what it was given. -/
theorem msgGenParam_spec {param : Parameter} (holds : Holds memory owned)
    (noNul : param.Avoids 0) (short : (param.text ++ crlf).length ≤ intMax) :
    Yields (msgGenParam buf param) memory fun obj after =>
      ∃ shape : ParamShape, shape.obj = obj ∧ shape.body.parameter = param ∧
        shape.line = param.text ++ crlf ∧ ParamAt after buf shape ∧
        Holds after (shape.cells + owned) ∧ Frame owned memory after := by
  cases param with
  | str text =>
      have lengths := short
      simp only [Parameter.text, List.length_append, List.length_cons] at lengths
      have printed : [msgStrHeader] ++ text ++ msgCrlf =
          Parameter.text (.str text) ++ crlf := rfl
      have inside : 1 + text.length ≤
          (Parameter.text (.str text) ++ crlf).length := by
        simp [Parameter.text, crlf]
        omega
      have view : ((Parameter.text (.str text) ++ crlf).drop 1).take
          text.length = text := by
        simp [Parameter.text]
      change Yields (msgGenParamStr buf text text.length) memory _
      unfold msgGenParamStr
      rw [formatStr_precision noNul (by omega), printed]
      refine Yields.bind (callocSprintf_spec holds short ?_) ?_
      · simp [Parameter.text, crlf]
      intro block middle outcome
      rcases outcome with ⟨outside, holdsMiddle, frameMiddle, contents⟩
      refine (msgInitParamStr_spec holdsMiddle contents inside buf).mono ?_
      intro obj after outcome
      rcases outcome with ⟨strPtr, paramAt, holdsAfter, frameAfter⟩
      rw [view] at paramAt holdsAfter
      exact ⟨_, rfl, rfl, rfl, paramAt, holdsAfter,
        frameMiddle.trans frameAfter.tail⟩
  | keyValue key value =>
      have lengths := short
      simp only [Parameter.text, List.length_append, List.length_cons] at lengths
      have printed : [msgKvHeader] ++ key ++ [msgKvSept] ++ value ++ msgCrlf =
          Parameter.text (.keyValue key value) ++ crlf := by
        simp [Parameter.text, msgKvHeader, msgKvSept, msgCrlf, crlf]
      have inside : 1 + key.length + 1 + value.length ≤
          (Parameter.text (.keyValue key value) ++ crlf).length := by
        simp [Parameter.text, crlf]
        omega
      have keyView : ((Parameter.text (.keyValue key value) ++ crlf).drop
          1).take key.length = key := by
        simp [Parameter.text]
      have valueView : ((Parameter.text (.keyValue key value) ++ crlf).drop
          (1 + key.length + 1)).take value.length = value := by
        have skipped : 1 + key.length + 1 = (37 :: (key ++ [61])).length := by
          simp
          omega
        have split : Parameter.text (.keyValue key value) ++ crlf =
            (37 :: (key ++ [61])) ++ (value ++ crlf) := by
          simp [Parameter.text]
        rw [split, skipped, List.drop_left, List.take_left]
      change Yields (msgGenParamKv buf key key.length value value.length) memory _
      unfold msgGenParamKv
      rw [formatStr_precision noNul.1 (by omega),
        formatStr_precision noNul.2 (by omega), printed]
      refine Yields.bind (callocSprintf_spec holds short ?_) ?_
      · simp [Parameter.text, crlf]
        omega
      intro block middle outcome
      rcases outcome with ⟨outside, holdsMiddle, frameMiddle, contents⟩
      refine (msgInitParamKv_spec holdsMiddle contents (by omega) inside
        buf).mono ?_
      intro obj after outcome
      rcases outcome with ⟨kvPtr, keyPtr, valuePtr, paramAt, holdsAfter,
        frameAfter⟩
      rw [keyView, valueView] at paramAt holdsAfter
      exact ⟨_, rfl, rfl, rfl, paramAt, holdsAfter,
        frameMiddle.trans frameAfter.tail⟩

/-- Adding generated parameters up to the declared number.  The induction is on
the parameters still to come. -/
theorem msgAddParams_spec {shape : MsgShape} {params : List Parameter}
    (msgAt : MsgAt memory shape) (holds : Holds memory (shape.cells + owned))
    (noNul : ∀ param ∈ params, param.Avoids 0)
    (short : ∀ param ∈ params, (param.text ++ crlf).length ≤ intMax)
    (room : shape.params.length + params.length ≤ declaredCount shape.cmd) :
    Yields (msgAddParams shape.obj.buf shape.obj params) memory
      fun _ after => ∃ final : MsgShape,
        final.obj = shape.obj ∧ final.cmd = shape.cmd ∧
        final.params.length = shape.params.length + params.length ∧
        final.parameters = shape.parameters ++ params ∧
        final.params.map ParamShape.line =
          shape.params.map ParamShape.line ++ params.map (·.text ++ crlf) ∧
        MsgAt after final ∧ Holds after (final.cells + owned) ∧
        Frame owned memory after := by
  induction params generalizing shape memory with
  | nil =>
      exact Yields.pure ⟨shape, rfl, rfl, rfl, by simp, by simp, msgAt, holds,
        Frame.refl owned memory⟩
  | cons param params induction =>
      rw [List.length_cons] at room
      unfold msgAddParams
      refine Yields.bind (msgGenParam_spec holds
        (noNul param List.mem_cons_self) (short param List.mem_cons_self)) ?_
      intro obj second outcome
      rcases outcome with ⟨paramShape, rfl, meaning, line, paramAt, holdsSecond,
        frameSecond⟩
      have msgSecond : MsgAt second shape :=
        msgAt.frame frameSecond fun _ member => Multiset.mem_add.mpr (.inl member)
      refine Yields.bind
        (msgAddParam_spec msgSecond paramAt (by omega) holdsSecond) ?_
      intro _ third outcome
      rcases outcome with ⟨msgThird, holdsThird, frameThird⟩
      refine (induction msgThird holdsThird
        (fun other member => noNul other (List.mem_cons_of_mem param member))
        (fun other member => short other (List.mem_cons_of_mem param member))
        ?_).mono ?_
      · simp only [MsgShape.push, List.length_append, List.length_singleton]
        omega
      intro _ after outcome
      rcases outcome with ⟨final, objEq, cmdEq, count, parameters, lines,
        msgAfter, holdsAfter, frameAfter⟩
      refine ⟨final, objEq, cmdEq, ?_, ?_, ?_, msgAfter, holdsAfter, ?_⟩
      · rw [count]
        simp only [MsgShape.push, List.length_append, List.length_cons,
          List.length_nil]
        omega
      · rw [parameters]
        simp [MsgShape.push, MsgShape.parameters, meaning]
      · rw [lines]
        simp [MsgShape.push, line]
      · refine ((frameSecond.mono ?_).trans frameThird).trans frameAfter
        exact fun _ member => Multiset.mem_add.mpr (.inr member)

/-- A request whose texts can be printed: no NUL, and lines that `printf` can
count. -/
structure Request.Printable (request : Request) : Prop where
  count : request.params.length < 65536
  name : 0 ∉ request.name
  params : ∀ param ∈ request.params, param.Avoids 0
  short : ∀ piece ∈ request.pieces, piece.length ≤ intMax

/-- The message assembled for a request is complete and says the request. -/
theorem msgAssemble_spec {request : Request} (holds : Holds memory owned)
    (printable : request.Printable) :
    Yields (msgAssemble buf request) memory fun msg after =>
      ∃ shape : MsgShape, shape.obj = msg ∧ msg.buf = buf ∧
        shape.stat = .done ∧ shape.request = some request ∧
        shape.pieces = request.pieces.map cStr ∧ MsgAt after shape ∧
        Holds after (shape.cells + owned) ∧ Frame owned memory after := by
  have countNat : (UInt16.ofNat request.params.length).toNat =
      request.params.length := by
    rw [UInt16.toNat_ofNat']
    exact Nat.mod_eq_of_lt printable.count
  have cmdShort : (commandText request.name
      (UInt16.ofNat request.params.length).toNat ++ crlf).length ≤ intMax := by
    rw [countNat]
    exact printable.short _ (by simp [Request.pieces, Request.texts])
  have paramShort : ∀ param ∈ request.params,
      (param.text ++ crlf).length ≤ intMax := by
    intro param member
    refine printable.short _ (List.mem_map_of_mem ?_)
    exact List.mem_cons_of_mem _ (List.mem_map_of_mem member)
  unfold msgAssemble
  refine Yields.bind (msgInit_spec holds buf) ?_
  intro msg second outcome
  rcases outcome with ⟨rfl, msgSecond, holdsSecond, frameSecond⟩
  refine Yields.bind
    (msgGenCmd_spec holdsSecond printable.name cmdShort) ?_
  intro obj third outcome
  rcases outcome with ⟨cmd, rfl, nameText, count, line, cmdThird, holdsThird,
    frameThird⟩
  have msgThird : MsgAt third (.idle msg) :=
    msgSecond.frame frameThird fun _ member => Multiset.mem_add.mpr (.inl member)
  have msgOutside : Cell.obj .msg msg ∉ owned := by
    have distinct := holdsSecond.distinct
    rw [Multiset.nodup_add] at distinct
    exact Multiset.disjoint_left.mp distinct.2.2 (by simp)
  refine Yields.bind
    (msgSetCmd_spec msgThird cmdThird holdsThird msgOutside) ?_
  intro _ fourth outcome
  rcases outcome with ⟨msgFourth, holdsFourth, frameFourth⟩
  have opened : Holds fourth ((MsgShape.opened msg cmd).cells + owned) := by
    convert holdsFourth using 1
    simp only [MsgShape.opened_cells, MsgShape.idle_cells,
      ← Multiset.singleton_add]
    abel
  have room : (MsgShape.opened msg cmd).params.length +
      request.params.length ≤ declaredCount (MsgShape.opened msg cmd).cmd := by
    simp [MsgShape.opened, declaredCount, count, countNat]
  refine Yields.bind (msgAddParams_spec msgFourth opened printable.params
    paramShort room) ?_
  intro _ after outcome
  rcases outcome with ⟨final, objEq, cmdEq, length, parameters, lines, msgAfter,
    holdsAfter, frameAfter⟩
  have noneYet : (MsgShape.opened msg cmd).params = [] := rfl
  have opensCmd : (MsgShape.opened msg cmd).cmd = some cmd := rfl
  have silent : (MsgShape.opened msg cmd).parameters = [] := rfl
  rw [noneYet] at length lines
  rw [silent, List.nil_append] at parameters
  rw [opensCmd] at cmdEq
  refine Yields.pure ⟨final, objEq, rfl, ?_, ?_, ?_, msgAfter, holdsAfter, ?_⟩
  · simp [MsgShape.stat, cmdEq, length, count, countNat]
  · simp [MsgShape.request, cmdEq, nameText, parameters]
  · have mapped : paramPieces final.params =
        (final.params.map ParamShape.line).map cStr := by
      simp [paramPieces]
    simp only [MsgShape.pieces, cmdEq, Option.map_some, Option.toList_some,
      mapped, lines, line, countNat, Request.pieces, Request.texts]
    simp
  · refine (((frameSecond.mono ?_).trans (frameThird.mono ?_)).trans
      frameFourth).trans frameAfter
    · exact fun _ member => member
    · exact fun _ member => Multiset.mem_add.mpr (.inr member)

/-! ## Replying -/

/-- Send a request as a message of its own and free it. -/
def respSend (buf : BufId) (sock : Nat) (request : Request) :
    MemProgram RespRes := do
  let msg ← msgAssemble buf request
  let res ← respMsg sock msg
  msgFree (some msg)
  return res

theorem Frame.setSocket {after : Memory} (frame : Frame owned memory after)
    (sock : Nat) (socket : Socket) :
    Frame owned (memory.setSocket sock socket)
      (after.setSocket sock socket) where
  msg := frame.msg
  cmd := frame.cmd
  param := frame.param
  paramKv := frame.paramKv
  str := frame.str
  text := frame.text
  socket := by
    change Function.update after.socket sock socket =
      Function.update memory.socket sock socket
    rw [frame.socket]

theorem MsgAt.setSocket {shape : MsgShape} (msgAt : MsgAt memory shape)
    (sock : Nat) (socket : Socket) :
    MsgAt (memory.setSocket sock socket) shape where
  header := msgAt.header
  cmd := fun cmd found =>
    let cmdAt := msgAt.cmd cmd found
    { home := cmdAt.home, obj := cmdAt.obj, name := cmdAt.name,
      text := cmdAt.text }
  linked := msgAt.linked
  params := fun param found => (msgAt.params param found).setSocket sock socket

/-- A reply owns nothing in the end, changes nothing but its socket, and offers
that socket the lines of the reply. -/
theorem respSend_spec {request : Request} (holds : Holds memory owned)
    (printable : request.Printable) (sock : Nat) :
    Yields (respSend buf sock request) memory fun res after =>
      let sent := (memory.socket sock).writeAll (request.pieces.map cStr)
      res = sent.1 ∧ Holds after owned ∧
        Frame owned (memory.setSocket sock sent.2) after := by
  unfold respSend
  refine Yields.bind (msgAssemble_spec holds printable) ?_
  intro _ second outcome
  rcases outcome with ⟨shape, rfl, -, complete, -, pieces, msgAt, holdsSecond,
    frameSecond⟩
  refine Yields.bind_run (respMsg_run msgAt holdsSecond complete sock) ?_
  rw [pieces, frameSecond.socket]
  refine Yields.bind (msgFree_spec (msgAt.setSocket sock _)
    (holdsSecond.congr rfl rfl rfl)) ?_
  intro _ after outcome
  rcases outcome with ⟨holdsAfter, frameAfter⟩
  exact Yields.pure ⟨rfl, holdsAfter, (frameSecond.setSocket sock _).trans
    frameAfter⟩

/-- The message `resp_error` sends. -/
def errorReply (errno error : Bytes) : Request :=
  ⟨commandStrErr, [.str errno, .str error]⟩

/-- The message `resp_node` sends. -/
def nodeReply (node : Bytes) : Request :=
  ⟨commandStrNode, [.str node]⟩

/-- The message `resp_pong` sends. -/
def pongReply : Request :=
  ⟨commandStrPong, []⟩

theorem cStr_noNul (text : Bytes) : 0 ∉ cStr text := by
  intro member
  simpa using List.mem_takeWhile_imp member

theorem msgGenParamStr_cStr (buf : BufId) (text : Bytes) :
    msgGenParamStr buf text (strlen text) =
      msgGenParam buf (.str (cStr text)) := by
  have again := cStr_eq_self (cStr_noNul text)
  simp only [msgGenParam, msgGenParamStr, formatStr, strlen, again]
  rfl

theorem respError_eq (buf : BufId) (sock : Nat) (errno error : Bytes) :
    respError buf sock errno error =
      respSend buf sock (errorReply (cStr errno) (cStr error)) := by
  have nameLength : strlen commandStrErr = commandStrErr.length := by decide
  unfold respError respSend msgAssemble errorReply
  simp only [msgGenParamStr_cStr, nameLength, msgAddParams, bind_assoc,
    pure_bind]
  rfl

theorem respNode_eq (buf : BufId) (sock : Nat) (node : Bytes) :
    respNode buf sock node =
      respSend buf sock (nodeReply (cStr node)) := by
  have nameLength : strlen commandStrNode = commandStrNode.length := by decide
  unfold respNode respSend msgAssemble nodeReply
  simp only [msgGenParamStr_cStr, nameLength, msgAddParams, bind_assoc,
    pure_bind]
  rfl

theorem respPong_eq (buf : BufId) (sock : Nat) :
    respPong buf sock = respSend buf sock pongReply := by
  have nameLength : strlen commandStrPong = commandStrPong.length := by decide
  unfold respPong respSend msgAssemble pongReply
  simp only [nameLength, msgAddParams, bind_assoc, pure_bind]
  rfl

theorem Request.piece_length {request : Request} {piece : Bytes}
    {bound : Nat} (member : piece ∈ request.pieces)
    (count : request.params.length < 65536)
    (name : request.name.length + 9 ≤ bound)
    (params : ∀ param ∈ request.params, (param.text ++ crlf).length ≤ bound) :
    piece.length ≤ bound := by
  obtain ⟨text, textIn, rfl⟩ := List.mem_map.mp member
  rcases List.mem_cons.mp textIn with rfl | inParams
  · have longest := commandText_length request.name
      (UInt16.ofNat request.params.length)
    rw [UInt16.toNat_ofNat', Nat.mod_eq_of_lt count] at longest
    rw [List.length_append, crlf, List.length_cons, List.length_singleton]
    omega
  · obtain ⟨param, found, rfl⟩ := List.mem_map.mp inParams
    exact params param found

/-- A reply made of strings of moderate length can be printed. -/
theorem printable_of_strs {name : Bytes} (texts : List Bytes)
    (count : texts.length < 65536) (nameNoNul : 0 ∉ name)
    (noNul : ∀ text ∈ texts, 0 ∉ text) (nameShort : name.length + 9 ≤ intMax)
    (short : ∀ text ∈ texts, text.length + 3 ≤ intMax) :
    (Request.mk name (texts.map .str)).Printable where
  count := by simpa using count
  name := nameNoNul
  params := by
    intro param member
    obtain ⟨text, found, rfl⟩ := List.mem_map.mp member
    exact noNul text found
  short := by
    intro piece member
    refine Request.piece_length member (by simpa using count) nameShort ?_
    intro param found
    obtain ⟨text, textIn, rfl⟩ := List.mem_map.mp found
    have fits := short text textIn
    rw [Parameter.text, List.length_append, List.length_cons, crlf,
      List.length_cons, List.length_singleton]
    omega

theorem errorReply_printable (errno error : Bytes)
    (errnoShort : strlen errno + 3 ≤ intMax)
    (errorShort : strlen error + 3 ≤ intMax) :
    (errorReply (cStr errno) (cStr error)).Printable := by
  refine printable_of_strs [cStr errno, cStr error] (by simp)
    (by decide) ?_ (by decide) ?_
  · simp [cStr_noNul]
  · intro text member
    rcases List.mem_pair.mp member with rfl | rfl
    · exact errnoShort
    · exact errorShort

theorem nodeReply_printable {node : Bytes} (short : strlen node + 3 ≤ intMax) :
    (nodeReply (cStr node)).Printable := by
  refine printable_of_strs [cStr node] (by simp) (by decide) ?_
    (by decide) ?_
  · simp [cStr_noNul]
  · intro text member
    rw [List.mem_singleton.mp member]
    exact short

theorem pongReply_printable : pongReply.Printable :=
  printable_of_strs [] (by simp) (by decide) (by simp) (by decide)
    (by simp)

end KetamaRouter
