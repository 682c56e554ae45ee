import KetamaRouter.ReplyPerRequest
import KetamaRouter.TextBounds

/-!
# Decoding undoes encoding

A request is assembled as a message, sent, cut into lines and decoded by a
fresh message.  It comes back as it was, with `DR_OK` on every line and
`MSG_STAT_DONE` at the last, as long as no line is longer than `printf` can
count: the precision of a longer text is cut to 32 bits.
-/

namespace KetamaRouter

open FaultProgram Delimited

variable {memory : Memory} {owned : Multiset Cell} {buf : BufId}

/-! ## The trip -/

/-- Feed lines to `decoder_run`, and note the result and the status after each
of them. -/
def decodeLines (msg : Ptr) :
    List Bytes → MemProgram (List (DecodeResult × MsgStat))
  | [] => return []
  | line :: lines => do
      let res ← decoderRun msg (← mallocText line)
      let stat ← msgGetStat msg
      return (res, stat) :: (← decodeLines msg lines)

/-- What is seen on the way: the assembled message, the bytes after the last
line end, the answers of the decoder and the decoded message. -/
structure Trip where
  stat : MsgStat
  assembled : Reader
  unread : Bytes
  answers : List (DecodeResult × MsgStat)
  decoded : Reader

def roundTrip (buf : BufId) (sock : Nat) (request : Request) :
    MemProgram Trip := do
  let msg ← msgAssemble buf request
  let stat ← msgGetStat msg
  let assembled := readerAt (← get) msg
  let _ ← respMsg sock msg
  let encoding := ((← get).socket sock).sent
  let fresh ← msgInit buf
  let answers ← decodeLines fresh (linesOf encoding)
  let decoded := readerAt (← get) fresh
  return ⟨stat, assembled, pendingOf encoding, answers, decoded⟩

/-- A message that has collected all parameters of a request. -/
def Request.collected (request : Request) : Reader :=
  .opened request.name request.params.length request.params

/-- Every line is accepted and the last one, only, completes the request. -/
def Request.answers (request : Request) : List (DecodeResult × MsgStat) :=
  List.replicate request.params.length (.ok, .dataMore) ++ [(.ok, .done)]

/-- The trip that brings the request back. -/
def Request.trip (request : Request) : Trip where
  stat := .done
  assembled := request.collected
  unread := []
  answers := request.answers
  decoded := request.collected

/-- On every socket that has taken nothing yet and takes everything, in every
state of the pools, the request comes back. -/
def Request.ComesBack (request : Request) : Prop :=
  ∀ (memory : Memory) (owned : Multiset Cell) (buf : BufId) (sock : Nat),
    Holds memory owned → (memory.socket sock).Accepting →
      (memory.socket sock).sent = [] →
        ∃ after, roundTrip buf sock request memory = .ok request.trip after

/-! ## Lines that fit -/

theorem MsgShape.cmd_of_reader {shape : MsgShape} {name : Bytes}
    {count : Nat} {params : List Parameter}
    (opens : shape.reader = .opened name count params) :
    ∃ cmd, shape.cmd = some cmd := by
  cases found : shape.cmd with
  | none =>
      rw [MsgShape.reader, found] at opens
      cases opens
  | some cmd => exact ⟨cmd, rfl⟩

/-- The parameters still missing are decoded one by one, and the last one
completes the message. -/
theorem decodeLines_params {shape : MsgShape} {name : Bytes} {count : Nat}
    {collected params : List Parameter} (msgAt : MsgAt memory shape)
    (holds : Holds memory (shape.cells + owned))
    (opens : shape.reader = .opened name count collected)
    (waiting : shape.Waiting) (nonempty : params ≠ [])
    (total : collected.length + params.length = count)
    (readable : ∀ param ∈ params, param.Readable)
    (noNul : ∀ param ∈ params, 0 ∉ param.text) :
    Yields (decodeLines shape.obj (params.map Parameter.text)) memory
      fun answers after => ∃ final : MsgShape, final.obj = shape.obj ∧
        MsgAt after final ∧ Holds after (final.cells + owned) ∧
        final.reader = .opened name count (collected ++ params) ∧
        answers = List.replicate (params.length - 1) (.ok, .dataMore) ++
          [(.ok, .done)] := by
  induction params generalizing shape memory collected with
  | nil => exact absurd rfl nonempty
  | cons param params induction =>
      rw [List.length_cons] at total
      have accepted : shape.reader.accept (cStr param.text) =
          some (name, count, collected ++ [param]) := by
        rw [opens, cStr_eq_self (noNul param List.mem_cons_self)]
        simp [Reader.accept, paramLine_text
          (readable param List.mem_cons_self)]
      rw [List.map_cons]
      unfold decodeLines
      apply Yields.bind (mallocText_spec holds param.text)
      intro row second known
      obtain ⟨-, holdsSecond, frameSecond, text⟩ := known
      have msgSecond : MsgAt second shape :=
        msgAt.frame frameSecond fun _ member => Multiset.mem_add.mpr (.inl member)
      apply Yields.bind
        (decoderRun_accepts text msgSecond waiting holdsSecond accepted)
      intro res third known
      obtain ⟨next, rfl, same, reader, -, msgThird, holdsThird, -⟩ := known
      rw [← same]
      apply Yields.bind_run (msgGetStat_run msgThird)
      cases params with
      | nil =>
          have complete : next.stat = .done := by
            apply (MsgShape.stat_eq_done_iff reader).mpr
            rw [List.length_append]
            exact total
          rw [complete]
          exact Yields.pure ⟨next, rfl, msgThird, holdsThird, reader, rfl⟩
      | cons other params =>
          have open_ : next.Waiting := by
            intro complete
            have full := (MsgShape.stat_eq_done_iff reader).mp complete
            rw [List.length_append, List.length_singleton] at full
            rw [List.length_cons] at total
            omega
          obtain ⟨cmd, found⟩ := MsgShape.cmd_of_reader reader
          rw [open_.stat found]
          apply Yields.bind (induction msgThird holdsThird reader open_
            (List.cons_ne_nil other params)
            (by rw [List.length_append, List.length_singleton]; omega)
            (fun later member => readable later (List.mem_cons_of_mem _ member))
            (fun later member => noNul later (List.mem_cons_of_mem _ member)))
          intro answers after known
          obtain ⟨final, finalObj, msgAfter, holdsAfter, finalReader, rest⟩ :=
            known
          apply Yields.pure
          refine ⟨final, finalObj, msgAfter, holdsAfter, ?_, ?_⟩
          · rw [finalReader, List.append_assoc]
            rfl
          · rw [rest, List.length_cons, List.length_cons]
            simp [List.replicate_succ]

/-- A fresh message decodes the lines of a request. -/
theorem decodeLines_texts {request : Request} {msg : Ptr}
    (wellFormed : request.WellFormed) (msgAt : MsgAt memory (.idle msg))
    (holds : Holds memory ((MsgShape.idle msg).cells + owned)) :
    Yields (decodeLines msg request.texts) memory fun answers after =>
      ∃ final : MsgShape, final.obj = msg ∧ MsgAt after final ∧
        Holds after (final.cells + owned) ∧
        final.reader = request.collected ∧ answers = request.answers := by
  obtain ⟨name, params⟩ := request
  have commandNoNul := wellFormed.texts_noNul (List.mem_cons_self)
  have accepted : (MsgShape.idle msg).reader.accept
      (cStr (commandText name params.length)) =
        some (name, params.length, []) := by
    rw [cStr_eq_self commandNoNul]
    simp [MsgShape.reader, MsgShape.idle, Reader.accept,
      commandLine_commandText wellFormed.nonempty wellFormed.noSpace
        wellFormed.count]
  unfold Request.texts decodeLines
  apply Yields.bind (mallocText_spec holds _)
  intro row second known
  obtain ⟨-, holdsSecond, frameSecond, text⟩ := known
  have msgSecond : MsgAt second (.idle msg) :=
    msgAt.frame frameSecond fun _ member => Multiset.mem_add.mpr (.inl member)
  apply Yields.bind (decoderRun_accepts text msgSecond
    (MsgShape.idle_waiting msg) holdsSecond accepted)
  intro res third known
  obtain ⟨next, rfl, same, reader, -, msgThird, holdsThird, -⟩ := known
  change next.obj = msg at same
  rw [← same]
  apply Yields.bind_run (msgGetStat_run msgThird)
  cases params with
  | nil =>
      have complete := (MsgShape.stat_eq_done_iff reader).mpr rfl
      rw [complete]
      exact Yields.pure ⟨next, rfl, msgThird, holdsThird, reader, rfl⟩
  | cons param params =>
      have waiting : next.Waiting := by
        intro complete
        have full := (MsgShape.stat_eq_done_iff reader).mp complete
        cases full
      obtain ⟨cmd, found⟩ := MsgShape.cmd_of_reader reader
      rw [waiting.stat found]
      apply Yields.bind (decodeLines_params msgThird holdsThird reader waiting
        (List.cons_ne_nil param params) (Nat.zero_add _) wellFormed.readable
        fun other member => wellFormed.texts_noNul
          (List.mem_cons_of_mem _ (List.mem_map_of_mem member)))
      intro answers after known
      obtain ⟨final, finalObj, msgAfter, holdsAfter, finalReader, rest⟩ := known
      apply Yields.pure
      refine ⟨final, finalObj, msgAfter, holdsAfter, finalReader, ?_⟩
      rw [rest]
      simp [Request.answers, List.replicate_succ]

/-- A complete message has collected the parameters of its request. -/
theorem MsgShape.reader_of_complete {shape : MsgShape} {request : Request}
    (complete : shape.stat = .done) (asks : shape.request = some request) :
    shape.reader = request.collected := by
  obtain ⟨cmd, found, rfl⟩ := Option.map_eq_some_iff.mp asks
  have reader := MsgShape.reader_of_cmd found
  have full := (MsgShape.stat_eq_done_iff reader).mp complete
  rw [reader, ← full]
  rfl

/-- A well-formed request with short lines can be printed. -/
theorem Request.WellFormed.printable {request : Request}
    (wellFormed : request.WellFormed)
    (short : ∀ piece ∈ request.pieces, piece.length ≤ intMax) :
    request.Printable where
  count := wellFormed.count
  name := wellFormed.noNul.1
  params := wellFormed.noNul.2
  short := short

theorem Request.WellFormed.comesBack {request : Request}
    (wellFormed : request.WellFormed)
    (short : ∀ piece ∈ request.pieces, piece.length ≤ intMax) :
    request.ComesBack := by
  intro memory owned buf sock holds accepting nothing
  suffices trip : Yields (roundTrip buf sock request) memory
      fun trip _ => trip = request.trip by
    obtain ⟨trip, after, ran, rfl⟩ := trip
    exact ⟨after, ran⟩
  unfold roundTrip
  apply Yields.bind (msgAssemble_spec holds (wellFormed.printable short))
  intro msg second known
  obtain ⟨shape, rfl, -, complete, asks, pieces, msgAt, holdsSecond,
    frameSecond⟩ := known
  apply Yields.bind_run (msgGetStat_run msgAt)
  apply Yields.get_bind
  rw [complete, readerAt_eq msgAt holdsSecond]
  apply Yields.bind_run (respMsg_run msgAt holdsSecond complete sock)
  apply Yields.get_bind
  have sent := (accepting.writeAll short).2
  rw [nothing, List.nil_append] at sent
  have encoding : ((second.socket sock).writeAll shape.pieces).2.sent =
      [request].flatMap Request.wire := by
    rw [frameSecond.socket, pieces, wellFormed.pieces_cStr, sent]
    simp [Request.wire]
  rw [Memory.setSocket_socket_self, encoding]
  have one : ∀ other ∈ [request], other.WellFormed := by
    intro other member
    rw [List.mem_singleton.mp member]
    exact wellFormed
  have lines : linesOf ([request].flatMap Request.wire) = request.texts := by
    rw [linesOf_wires one]
    simp
  have unread : pendingOf ([request].flatMap Request.wire) = [] := by
    rw [pendingOf, split_wires one]
  have holdsThird : Holds (second.setSocket sock
      ((second.socket sock).writeAll shape.pieces).2) (shape.cells + owned) :=
    holdsSecond.congr rfl rfl rfl
  simp only [lines, unread]
  apply Yields.bind (msgInit_spec holdsThird buf)
  intro fresh fourth known
  obtain ⟨-, idle, holdsFourth, -⟩ := known
  apply Yields.bind (decodeLines_texts wellFormed idle holdsFourth)
  intro answers after known
  obtain ⟨final, rfl, msgAfter, holdsAfter, reader, rfl⟩ := known
  apply Yields.get_bind
  apply Yields.pure
  rw [readerAt_eq msgAfter holdsAfter, reader,
    MsgShape.reader_of_complete complete asks]
  rfl

/-! ## The law -/

theorem printed_eq {param : Parameter} (noNul : param.Avoids 0)
    (short : param.Within intMax) : param.printed = param.text ++ crlf := by
  cases param with
  | str text =>
      rw [Parameter.printed, formatStr_precision noNul short]
      rfl
  | keyValue key value =>
      rw [Parameter.printed, formatStr_precision noNul.1 short.1,
        formatStr_precision noNul.2 short.2]
      simp [Parameter.text, msgKvHeader, msgKvSept, msgCrlf, crlf]

theorem printedCmd_eq {request : Request} (noNul : 0 ∉ request.name)
    (short : request.name.length ≤ intMax)
    (count : request.params.length < 65536) :
    request.printedCmd =
      commandText request.name request.params.length ++ crlf := by
  have stored : (UInt16.ofNat request.params.length).toNat =
      request.params.length := by
    rw [UInt16.toNat_ofNat']
    exact Nat.mod_eq_of_lt count
  rw [Request.printedCmd, formatStr_precision noNul short, commandText_eq,
    stored]

theorem readerAt_within {msg : Ptr} {request : Request}
    (bounded : TextsBounded memory)
    (assembled : readerAt memory msg = request.collected) :
    request.name.length ≤ intMax ∧
      ∀ param ∈ request.params, param.Within intMax := by
  unfold readerAt requestAt at assembled
  cases cmd : (memory.msg msg).cmd with
  | none =>
      simp only [cmd] at assembled
      cases assembled
  | some obj =>
      cases read : readRequest msg memory with
      | error fault after =>
          simp only [cmd, read] at assembled
          cases assembled
      | ok other after =>
          simp only [cmd, read, Request.collected, Reader.opened.injEq]
            at assembled
          have within := readRequest_ok bounded read
          rw [assembled.1, assembled.2.2] at within
          exact within

/-- A request that comes back has lines that `printf` can count. -/
theorem Request.ComesBack.short {request : Request}
    (wellFormed : request.WellFormed) (back : request.ComesBack) :
    ∀ piece ∈ request.pieces, piece.length ≤ intMax := by
  have start : Holds (initialMemory.setSocket 0
      { behaviour := fun _ length => .accepts length, calls := 0,
        sent := [] }) 0 :=
    initialMemory_holds.congr rfl rfl rfl
  obtain ⟨after, ran⟩ := back _ 0 .server 0 start
    (fun _ _ => ⟨_, Nat.le_refl _, rfl⟩) rfl
  unfold roundTrip at ran
  obtain ⟨msg, second, assembles, next⟩ := of_bind_ok ran
  obtain ⟨stat, third, readsStat, next⟩ := of_bind_ok next
  have same : third = second := by
    cases readsStat
    rfl
  rw [same, bind_run_ok (get_run second)] at next
  obtain ⟨res, fourth, -, next⟩ := of_bind_ok next
  rw [bind_run_ok (get_run fourth)] at next
  obtain ⟨fresh, fifth, -, next⟩ := of_bind_ok next
  obtain ⟨answers, sixth, -, next⟩ := of_bind_ok next
  rw [bind_run_ok (get_run sixth)] at next
  have assembled : readerAt second msg = request.collected := by
    have trip := congrArg (fun result => match result with
      | EStateM.Result.ok trip _ => trip.assembled
      | .error _ _ => .idle) next
    exact trip
  have bounded : TextsBounded second := by
    apply (preserves_msgAssemble request).kept _ assembles
    intro block text found
    cases found
  obtain ⟨cmdFits, paramsFit⟩ := msgAssemble_fits assembles
  obtain ⟨nameWithin, paramsWithin⟩ := readerAt_within bounded assembled
  intro piece member
  obtain ⟨text, found, rfl⟩ := List.mem_map.mp member
  cases List.mem_cons.mp found with
  | inl isCmd =>
      rw [isCmd, ← printedCmd_eq wellFormed.noNul.1 nameWithin
        wellFormed.count]
      exact cmdFits
  | inr isParam =>
      obtain ⟨param, inParams, rfl⟩ := List.mem_map.mp isParam
      rw [← printed_eq (wellFormed.noNul.2 param inParams)
        (paramsWithin param inParams)]
      exact paramsFit param inParams

/-- Decoding undoes encoding exactly for requests whose lines have at most
2^31 - 1 bytes each. -/
theorem comesBack_iff {request : Request} (wellFormed : request.WellFormed) :
    request.ComesBack ↔
      ∀ piece ∈ request.pieces, piece.length ≤ intMax := by
  constructor
  · exact fun back => back.short wellFormed
  · exact fun short => wellFormed.comesBack short

/-- A request with parameters of both kinds, with an empty text, and with the byte
that ends a key in a value. -/
theorem comesBack_mixed : Request.ComesBack
    ⟨ascii "SET", [.str (ascii "a key"), .keyValue (ascii "as") (ascii "x=y=z"),
      .str [], .keyValue (ascii "k") []]⟩ := by
  apply (comesBack_iff _).mpr
  · decide
  · constructor <;> decide

/-- A `GET` for a key of as many letters. -/
def letterGet (letters : Nat) : Request :=
  ⟨ascii "GET", [.str (List.replicate letters 97)]⟩

theorem letterGet_wellFormed (letters : Nat) :
    (letterGet letters).WellFormed := by
  have clean : ∀ char : UInt8, char ≠ 97 →
      ∀ text ∈ [List.replicate letters (97 : UInt8)], char ∉ text := by
    intro char different text member found
    rw [List.mem_singleton.mp member] at found
    exact different (List.eq_of_mem_replicate found)
  apply wellFormed_of_strs [List.replicate letters 97]
  · decide
  · decide
  · exact Nat.le_succ 1
  · exact clean 10 (by decide)
  · exact clean 0 (by decide)

theorem letterGet_long {letters : Nat} (long : intMax < letters) :
    ¬ (letterGet letters).ComesBack := by
  intro back
  have short := back.short (letterGet_wellFormed letters)
    (Parameter.text (.str (List.replicate letters 97)) ++ crlf)
    (by simp [Request.pieces, Request.texts, letterGet])
  simp only [Parameter.text, List.length_append, List.length_cons,
    List.length_replicate] at short
  omega

/-- A key of 2^32 letters does not come back: its precision is zero. -/
theorem not_comesBack_long : ∃ letters, letters = 2 ^ 32 ∧
    (letterGet letters).WellFormed ∧ ¬ (letterGet letters).ComesBack := by
  apply Exists.intro (2 ^ 32)
  refine ⟨rfl, letterGet_wellFormed _, letterGet_long ?_⟩
  unfold intMax
  omega

end KetamaRouter
