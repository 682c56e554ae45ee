import KetamaRouter.MessageOwnership
import KetamaRouter.Protocol.Wire
import KetamaRouter.Source.Decoder

/-!
# The decoder follows the reference reader

A message in memory stands for a state of the reference reader.  `decoder_run`
accepts exactly the lines the reader accepts, takes over their buffers, and
leaves the message in the next state; on the other lines it changes nothing.
-/

namespace KetamaRouter

open PointerChain FaultProgram Delimited

variable {memory : Memory} {owned : Multiset Cell} {buf : BufId}

/-! ## Views of a line -/

theorem cStr_initial (line : Bytes) : cStr line <+: line :=
  List.takeWhile_prefix _

theorem cStr_length_le (line : Bytes) : (cStr line).length ≤ line.length :=
  (cStr_initial line).length_le

theorem cStr_drop {line : Bytes} {skip : Nat}
    (inside : skip ≤ (cStr line).length) :
    cStr (line.drop skip) = (cStr line).drop skip := by
  induction skip generalizing line with
  | zero => rfl
  | succ skip induction =>
      cases line with
      | nil => simp [cStr]
      | cons char line =>
          by_cases nul : char = 0
          · simp [cStr, nul] at inside
          · have unfolded : cStr (char :: line) = char :: cStr line := by
              simp [cStr, nul]
            rw [unfolded] at inside ⊢
            rw [List.drop_succ_cons, List.drop_succ_cons]
            exact induction (Nat.le_of_succ_le_succ inside)

/-- What a text has behind its first byte. -/
theorem cStr_rest {line rest : Bytes} {header : UInt8} {skip : Nat}
    (whole : cStr line = header :: rest) (inside : skip ≤ rest.length) :
    cStr (line.drop (1 + skip)) = rest.drop skip := by
  have within : 1 + skip ≤ (cStr line).length := by
    rw [whole, List.length_cons]
    omega
  rw [cStr_drop within, whole, Nat.add_comm, List.drop_succ_cons]

theorem cStr_take {line : Bytes} {len : Nat}
    (inside : len ≤ (cStr line).length) :
    line.take len = (cStr line).take len := by
  obtain ⟨rest, whole⟩ := cStr_initial line
  conv_lhs => rw [← whole]
  rw [List.take_append_of_le_length inside]

/-- The whole string from an offset on, as a view into its buffer. -/
theorem view_rest {line : Bytes} {off : Nat}
    (inside : off ≤ (cStr line).length) :
    (line.drop off).take ((cStr line).drop off).length =
        (cStr line).drop off ∧
      off + ((cStr line).drop off).length ≤ line.length := by
  have whole := cStr_take (by rw [cStr_drop inside])
  rw [cStr_drop inside, List.take_length] at whole
  have bound := cStr_length_le line
  refine ⟨whole, ?_⟩
  rw [List.length_drop]
  omega

theorem strchr_cons (first char : UInt8) (text : Bytes) :
    strchr (first :: text) char =
      if first = char then some 0 else (strchr text char).map (· + 1) := by
  simp [strchr, List.idxOf?_cons]

/-- `strchr` finds the place where `cutAt` cuts. -/
theorem cutAt_eq (char : UInt8) (text : Bytes) :
    cutAt char text = (strchr text char).map fun place =>
      (text.take place, text.drop (place + 1)) := by
  induction text with
  | nil => rfl
  | cons first text induction =>
      rw [strchr_cons, cutAt_cons, induction]
      by_cases same : first = char
      · simp [same]
      · simp only [same, if_false]
        cases strchr text char <;> simp

theorem strchr_lt {char : UInt8} {text : Bytes} {place : Nat}
    (found : strchr text char = some place) : place < text.length := by
  induction text generalizing place with
  | nil => cases found
  | cons first text induction =>
      rw [strchr_cons] at found
      split at found
      · cases found
        exact Nat.succ_pos _
      · obtain ⟨before, foundBefore, rfl⟩ := Option.map_eq_some_iff.mp found
        exact Nat.succ_lt_succ (induction foundBefore)

/-! ## What a line does -/

/-- `decoder_command` rejects the line and stops, or records a view of the name
and a count. -/
theorem decoderCommand_cases {msg : Ptr} {row : Nat} {line : Bytes}
    (text : memory.text row = some line)
    (home : (memory.msg msg).buf = some buf) :
    commandLine (cStr line) = none ∧
        decoderCommand msg row memory = .ok .errFormat memory ∨
      ∃ (len : Nat) (count : UInt16),
        commandLine (cStr line) =
          some (((cStr line).drop 1).take len, count.toNat) ∧
        1 + len ≤ (cStr line).length ∧
        decoderCommand msg row memory =
          (do
            let cmd ← msgInitCmd buf ⟨row, 1⟩ len count row
            let _ ← msgSetCmd msg cmd
            return DecodeResult.ok) memory := by
  unfold decoderCommand
  rw [bind_run_ok (readCStr_run text), List.drop_zero]
  cases whole : cStr line with
  | nil => exact .inl ⟨rfl, rfl⟩
  | cons header rest =>
      by_cases isCommand : header = 43
      · subst isCommand
        have restText : cStr (line.drop 1) = rest :=
          cStr_rest whole (Nat.zero_le _)
        have long : ¬ ((43 :: rest).length ≤ 0 ∨
            (43 :: rest : Bytes).head? ≠ some msgCmdHeader) := by
          simp [msgCmdHeader]
        rw [if_neg long]
        simp only
        rw [bind_run_ok (readCStr_run text), restText]
        by_cases empty : rest = []
        · subst empty
          exact .inl ⟨rfl, rfl⟩
        · have some : ¬ rest.length ≤ 0 := by
            simpa using empty
          rw [if_neg some, bind_run_ok (msgBuf_run home)]
          cases found : strchr rest 32 with
          | none =>
              refine .inr ⟨rest.length, 0, ?_, ?_, rfl⟩
              · simp [commandLine, cutAt_eq, found, empty]
              · simp
                omega
          | some place =>
              have inside := strchr_lt found
              have numberText : cStr (line.drop (1 + place + 1)) =
                  rest.drop (place + 1) :=
                cStr_rest whole inside
              simp only
              rw [bind_run_ok (readCStr_run text), numberText]
              by_cases missing : rest.drop (place + 1) = []
              · refine .inl ⟨?_, ?_⟩
                · simp [commandLine, cutAt_eq, found, missing]
                · rw [missing]
                  rfl
              · have present : ¬ (rest.drop (place + 1)).length ≤ 0 :=
                  fun none => missing
                    (List.eq_nil_of_length_eq_zero (Nat.le_zero.mp none))
                rw [if_neg present]
                by_cases zero : UInt32.ofInt (atoi (rest.drop (place + 1))) = 0
                · refine .inl ⟨?_, ?_⟩
                  · simp [commandLine, cutAt_eq, found, zero]
                  · rw [zero]
                    rfl
                · have positive :
                      ¬ UInt32.ofInt (atoi (rest.drop (place + 1))) ≤ 0 := by
                    simpa using zero
                  rw [if_neg positive]
                  refine .inr ⟨place, _, ?_, ?_, rfl⟩
                  · simp only [commandLine, cutAt_eq, found, Option.map_some]
                    simp [empty, missing, zero]
                  · simp
                    omega
      · refine .inl ⟨?_, ?_⟩
        · simp [commandLine, isCommand]
        · have other : (header :: rest).length ≤ 0 ∨
              (header :: rest).head? ≠ some msgCmdHeader := by
            simp [msgCmdHeader, isCommand]
          rw [if_pos other]
          rfl

/-- `decoder_param` rejects the line and stops, or records views of a string or
of a key and a value. -/
theorem decoderParam_cases {msg : Ptr} {row : Nat} {line : Bytes}
    (text : memory.text row = some line)
    (home : (memory.msg msg).buf = some buf) :
    paramLine (cStr line) = none ∧
        decoderParam msg row memory = .ok .errParamFormat memory ∨
      (∃ len, paramLine (cStr line) = some (.str ((cStr line).drop 1)) ∧
        1 ≤ (cStr line).length ∧ len = ((cStr line).drop 1).length ∧
        decoderParam msg row memory =
          (do
            let param ← msgInitParamStr buf ⟨row, 1⟩ len row
            let _ ← msgAddParam msg param
            return DecodeResult.ok) memory) ∨
      ∃ keyLen valueLen, paramLine (cStr line) =
          some (.keyValue (((cStr line).drop 1).take keyLen)
            ((cStr line).drop (1 + keyLen + 1))) ∧
        1 + keyLen + 1 ≤ (cStr line).length ∧
        valueLen = ((cStr line).drop (1 + keyLen + 1)).length ∧
        decoderParam msg row memory =
          (do
            let param ← msgInitParamKv buf ⟨row, 1⟩ keyLen
              ⟨row, 1 + keyLen + 1⟩ valueLen row
            let _ ← msgAddParam msg param
            return DecodeResult.ok) memory := by
  unfold decoderParam
  rw [bind_run_ok (readCStr_run text), List.drop_zero,
    bind_run_ok (msgBuf_run home)]
  cases whole : cStr line with
  | nil => exact .inl ⟨rfl, rfl⟩
  | cons header rest =>
      have restText : cStr (line.drop 1) = rest :=
        cStr_rest whole (Nat.zero_le _)
      simp only [List.head?_cons]
      by_cases isStr : header = msgStrHeader
      · subst isStr
        rw [if_pos rfl, bind_run_ok (readCStr_run text), restText]
        refine .inr (.inl ⟨rest.length, rfl, ?_, rfl, rfl⟩)
        rw [List.length_cons]
        omega
      · rw [if_neg isStr]
        by_cases isKv : header = msgKvHeader
        · subst isKv
          rw [if_pos rfl, bind_run_ok (readCStr_run text), restText]
          cases found : strchr rest msgKvSept with
          | none =>
              refine .inl ⟨?_, rfl⟩
              rw [msgKvSept] at found
              simp [paramLine, msgKvHeader, cutAt_eq, found]
          | some place =>
              have inside := strchr_lt found
              have shifted : 1 + place + 1 = (place + 1) + 1 := by omega
              have within : 1 + place + 1 ≤ (msgKvHeader :: rest).length := by
                rw [List.length_cons]
                omega
              have valueText : cStr (line.drop (1 + place + 1)) =
                  rest.drop (place + 1) :=
                cStr_rest whole inside
              simp only
              rw [bind_run_ok (readCStr_run text), valueText]
              refine .inr (.inr ⟨place, _, ?_, within, rfl, ?_⟩)
              · rw [msgKvSept] at found
                simp [paramLine, msgKvHeader, cutAt_eq, found, shifted]
              · rw [shifted, List.drop_succ_cons]
        · rw [if_neg isKv]
          refine .inl ⟨?_, rfl⟩
          rw [msgStrHeader] at isStr
          rw [msgKvHeader] at isKv
          simp [paramLine, isStr, isKv]

/-! ## Refinement -/

/-- The state of the reference reader that a message stands for. -/
def MsgShape.reader (shape : MsgShape) : Reader :=
  match shape.cmd with
  | none => .idle
  | some cmd => .opened cmd.nameText cmd.count.toNat shape.parameters

/-- `decoder_command` on an idle message accepts what the reader accepts. -/
theorem decoderCommand_spec {msg : Ptr} {row : Nat} {line name : Bytes}
    {count : Nat} (text : memory.text row = some line)
    (idle : MsgAt memory (.idle msg))
    (holds : Holds memory
      (.text row ::ₘ ((MsgShape.idle msg).cells + owned)))
    (accepted : commandLine (cStr line) = some (name, count)) :
    Yields (decoderCommand msg row) memory fun res after =>
      ∃ cmd : CmdShape, res = .ok ∧ cmd.nameText = name ∧
        cmd.count.toNat = count ∧ cmd.block = row ∧
        MsgAt after (.opened msg cmd) ∧
        Holds after ((MsgShape.opened msg cmd).cells + owned) ∧
        Frame owned memory after := by
  have home : (memory.msg msg).buf = some msg.buf := by
    have header := idle.header
    simp only [MsgShape.idle] at header
    rw [header]
  rcases decoderCommand_cases text home with ⟨rejected, -⟩ |
    ⟨len, stored, view, inside, run⟩
  · rw [rejected] at accepted
    cases accepted
  · rw [view] at accepted
    obtain ⟨rfl, rfl⟩ := Prod.mk.inj (Option.some.inj accepted)
    have bound := cStr_length_le line
    have nameView : (line.drop 1).take len = ((cStr line).drop 1).take len := by
      rw [← cStr_drop (by omega)]
      refine cStr_take ?_
      rw [cStr_drop (by omega), List.length_drop]
      omega
    have msgOutside : Cell.obj .msg msg ∉ owned := by
      have distinct := (Multiset.nodup_cons.mp holds.distinct).2
      rw [Multiset.nodup_add] at distinct
      exact Multiset.disjoint_left.mp distinct.2.2 (by simp)
    refine Yields.congr run (Yields.bind
      (msgInitCmd_spec holds text (by omega) msg.buf stored) ?_)
    intro obj second outcome
    rcases outcome with ⟨strPtr, cmdAt, holdsSecond, frameSecond⟩
    rw [nameView] at cmdAt holdsSecond
    have idleSecond : MsgAt second (.idle msg) :=
      idle.frame frameSecond fun cell member =>
        Multiset.mem_cons_of_mem (Multiset.mem_add.mpr (.inl member))
    refine Yields.bind (msgSetCmd_spec idleSecond cmdAt holdsSecond
      msgOutside) ?_
    intro _ after outcome
    rcases outcome with ⟨msgAfter, holdsAfter, frameAfter⟩
    refine Yields.pure ⟨_, rfl, rfl, rfl, rfl, msgAfter, ?_, ?_⟩
    · convert holdsAfter using 1
      simp only [MsgShape.opened_cells, MsgShape.idle_cells,
        ← Multiset.singleton_add]
      abel
    · refine (frameSecond.tail.mono ?_).trans frameAfter
      exact fun _ member => Multiset.mem_add.mpr (.inr member)

/-- The last step of `decoder_param`, once its parameter exists. -/
theorem decoderParam_adds {shape : MsgShape} {param : ParamShape}
    (msgAt : MsgAt memory shape)
    (paramAt : ParamAt memory shape.obj.buf param)
    (room : shape.params.length < declaredCount shape.cmd)
    (holds : Holds memory (param.cells + (shape.cells + owned))) :
    Yields (do
        let _ ← msgAddParam shape.obj param.obj
        return DecodeResult.ok) memory fun res after =>
      res = .ok ∧ MsgAt after (shape.push param room) ∧
        Holds after ((shape.push param room).cells + owned) ∧
        Frame owned memory after := by
  refine Yields.bind (msgAddParam_spec msgAt paramAt room holds) ?_
  intro _ after outcome
  rcases outcome with ⟨msgAfter, holdsAfter, frameAfter⟩
  exact Yields.pure ⟨rfl, msgAfter, holdsAfter, frameAfter⟩

/-- `decoder_param` on an open message accepts what the reader accepts. -/
theorem decoderParam_spec {shape : MsgShape} {row : Nat} {line : Bytes}
    {parameter : Parameter} (text : memory.text row = some line)
    (msgAt : MsgAt memory shape)
    (room : shape.params.length < declaredCount shape.cmd)
    (holds : Holds memory (.text row ::ₘ (shape.cells + owned)))
    (accepted : paramLine (cStr line) = some parameter) :
    Yields (decoderParam shape.obj row) memory fun res after =>
      ∃ param : ParamShape, res = .ok ∧ param.body.parameter = parameter ∧
        param.block = row ∧ MsgAt after (shape.push param room) ∧
        Holds after ((shape.push param room).cells + owned) ∧
        Frame owned memory after := by
  have home : (memory.msg shape.obj).buf = some shape.obj.buf := by
    rw [msgAt.header]
  have bound := cStr_length_le line
  have keeps : ∀ cell ∈ shape.cells,
      cell ∈ (.text row ::ₘ (shape.cells + owned) : Multiset Cell) :=
    fun cell member =>
      Multiset.mem_cons_of_mem (Multiset.mem_add.mpr (.inl member))
  have others : ∀ cell ∈ owned,
      cell ∈ (.text row ::ₘ (shape.cells + owned) : Multiset Cell) :=
    fun cell member =>
      Multiset.mem_cons_of_mem (Multiset.mem_add.mpr (.inr member))
  rcases decoderParam_cases text home with ⟨rejected, -⟩ |
    ⟨len, view, inside, rfl, run⟩ | ⟨keyLen, valueLen, view, inside, rfl, run⟩
  · rw [rejected] at accepted
    cases accepted
  · rw [view] at accepted
    obtain rfl := Option.some.inj accepted
    obtain ⟨whole, fits⟩ := view_rest inside
    refine Yields.congr run (Yields.bind
      (msgInitParamStr_spec holds text fits shape.obj.buf) ?_)
    intro obj second outcome
    rcases outcome with ⟨str, paramAt, holdsSecond, frameSecond⟩
    rw [whole] at paramAt holdsSecond
    refine (decoderParam_adds (msgAt.frame frameSecond keeps) paramAt room
      holdsSecond).mono ?_
    intro res after outcome
    rcases outcome with ⟨rfl, msgAfter, holdsAfter, frameAfter⟩
    exact ⟨_, rfl, rfl, rfl, msgAfter, holdsAfter,
      (frameSecond.mono others).trans frameAfter⟩
  · rw [view] at accepted
    obtain rfl := Option.some.inj accepted
    obtain ⟨whole, fits⟩ := view_rest inside
    have keyView : (line.drop 1).take keyLen =
        ((cStr line).drop 1).take keyLen := by
      rw [← cStr_drop (by omega)]
      refine cStr_take ?_
      rw [cStr_drop (by omega), List.length_drop]
      omega
    refine Yields.congr run (Yields.bind
      (msgInitParamKv_spec holds text
        (by omega) fits shape.obj.buf) ?_)
    intro obj second outcome
    rcases outcome with ⟨kv, key, value, paramAt, holdsSecond, frameSecond⟩
    rw [whole, keyView] at paramAt holdsSecond
    refine (decoderParam_adds (msgAt.frame frameSecond keeps) paramAt room
      holdsSecond).mono ?_
    intro res after outcome
    rcases outcome with ⟨rfl, msgAfter, holdsAfter, frameAfter⟩
    exact ⟨_, rfl, rfl, rfl, msgAfter, holdsAfter,
      (frameSecond.mono others).trans frameAfter⟩

/-- A message that is still waiting for lines. -/
def MsgShape.Waiting (shape : MsgShape) : Prop :=
  shape.stat ≠ .done

theorem MsgShape.reader_of_cmd {shape : MsgShape} {cmd : CmdShape}
    (found : shape.cmd = some cmd) :
    shape.reader =
      .opened cmd.nameText cmd.count.toNat shape.parameters := by
  simp [MsgShape.reader, found]

theorem MsgShape.idle_of_cmd {shape : MsgShape} (none : shape.cmd = none) :
    shape = .idle shape.obj := by
  obtain ⟨msg, cmd, params, fits⟩ := shape
  obtain rfl : cmd = Option.none := none
  obtain rfl : params = [] :=
    List.eq_nil_of_length_eq_zero (Nat.le_zero.mp fits)
  rfl

theorem MsgShape.Waiting.room {shape : MsgShape} {cmd : CmdShape}
    (waiting : shape.Waiting) (found : shape.cmd = some cmd) :
    shape.params.length < declaredCount shape.cmd := by
  by_contra full
  rw [found] at full
  exact waiting (by simpa [MsgShape.stat, found, declaredCount] using full)

/-- An open request is complete when it has as many parameters as declared. -/
theorem MsgShape.stat_eq_done_iff {shape : MsgShape} {name : Bytes}
    {count : Nat} {params : List Parameter}
    (opens : shape.reader = .opened name count params) :
    shape.stat = .done ↔ params.length = count := by
  obtain ⟨msg, cmd, chain, fits⟩ := shape
  cases cmd with
  | none => cases opens
  | some cmd =>
      simp only [MsgShape.reader, Reader.opened.injEq] at opens
      obtain ⟨-, rfl, rfl⟩ := opens
      simp only [declaredCount, Option.elim_some] at fits
      simp only [MsgShape.stat, MsgShape.parameters, List.length_map,
        ite_eq_right_iff, reduceCtorEq, imp_false, Nat.not_lt]
      omega

/-- The result of `decoder_run` on a line it rejects. -/
def MsgShape.rejection (shape : MsgShape) : DecodeResult :=
  match shape.cmd with
  | none => .errFormat
  | some _ => .errParamFormat

theorem msgGetStat_run {shape : MsgShape} (msgAt : MsgAt memory shape) :
    msgGetStat shape.obj memory = .ok shape.stat memory := by
  unfold msgGetStat
  rw [bind_run_ok (get_run memory), msgAt.header]
  rfl

theorem MsgShape.stat_idle {shape : MsgShape} (none : shape.cmd = none) :
    shape.stat = .none := by
  simp [MsgShape.stat, none]

theorem MsgShape.Waiting.stat {shape : MsgShape} {cmd : CmdShape}
    (waiting : shape.Waiting) (found : shape.cmd = some cmd) :
    shape.stat = .dataMore := by
  have room := waiting.room found
  rw [found] at room
  simpa [MsgShape.stat, found, declaredCount] using room

/-- `decoder_run` rejects the lines the reader rejects, and changes nothing. -/
theorem decoderRun_rejects {shape : MsgShape} {row : Nat} {line : Bytes}
    (text : memory.text row = some line) (msgAt : MsgAt memory shape)
    (waiting : shape.Waiting)
    (rejected : shape.reader.accept (cStr line) = none) :
    decoderRun shape.obj row memory = .ok shape.rejection memory := by
  have home : (memory.msg shape.obj).buf = some shape.obj.buf := by
    rw [msgAt.header]
  unfold decoderRun
  rw [bind_run_ok (msgGetStat_run msgAt)]
  cases found : shape.cmd with
  | none =>
      simp only [MsgShape.reader, found, Reader.accept, Option.map_eq_none_iff]
        at rejected
      simp only [MsgShape.stat_idle found, MsgShape.rejection, found]
      rcases decoderCommand_cases text home with ⟨-, run⟩ |
        ⟨len, count, view, -, -⟩
      · exact run
      · rw [rejected] at view
        cases view
  | some cmd =>
      simp only [MsgShape.reader, found, Reader.accept, Option.map_eq_none_iff]
        at rejected
      simp only [waiting.stat found, MsgShape.rejection, found]
      rcases decoderParam_cases text home with ⟨-, run⟩ | ⟨len, view, -⟩ |
        ⟨keyLen, valueLen, view, -⟩
      · exact run
      · rw [rejected] at view
        cases view
      · rw [rejected] at view
        cases view

/-- `decoder_run` takes over the lines the reader accepts. -/
theorem decoderRun_accepts {shape : MsgShape} {row : Nat} {line name : Bytes}
    {count : Nat} {params : List Parameter}
    (text : memory.text row = some line) (msgAt : MsgAt memory shape)
    (waiting : shape.Waiting)
    (holds : Holds memory (.text row ::ₘ (shape.cells + owned)))
    (accepted : shape.reader.accept (cStr line) = some (name, count, params)) :
    Yields (decoderRun shape.obj row) memory fun res after =>
      ∃ next : MsgShape, res = .ok ∧ next.obj = shape.obj ∧
        next.reader = .opened name count params ∧
        next.blocks = shape.blocks ++ [row] ∧ MsgAt after next ∧
        Holds after (next.cells + owned) ∧ Frame owned memory after := by
  unfold decoderRun
  refine Yields.bind_run (msgGetStat_run msgAt) ?_
  cases found : shape.cmd with
  | none =>
      simp only [MsgShape.reader, found, Reader.accept, Option.map_eq_some_iff]
        at accepted
      obtain ⟨⟨name', count'⟩, read, same⟩ := accepted
      obtain ⟨rfl, rfl, rfl⟩ : name' = name ∧ count' = count ∧ [] = params := by
        simpa using same
      rw [MsgShape.stat_idle found]
      have idle := MsgShape.idle_of_cmd found
      rw [idle] at msgAt holds
      refine (decoderCommand_spec text msgAt holds read).mono ?_
      intro res after outcome
      rcases outcome with ⟨cmd, rfl, rfl, rfl, block, msgAfter, holdsAfter,
        frameAfter⟩
      refine ⟨.opened shape.obj cmd, rfl, rfl, rfl, ?_, msgAfter, holdsAfter,
        frameAfter⟩
      rw [idle, ← block]
      rfl
  | some cmd =>
      rw [MsgShape.reader_of_cmd found] at accepted
      simp only [Reader.accept, Option.map_eq_some_iff] at accepted
      obtain ⟨parameter, read, same⟩ := accepted
      obtain ⟨rfl, rfl, rfl⟩ : cmd.nameText = name ∧ cmd.count.toNat = count ∧
          shape.parameters ++ [parameter] = params := by
        simpa using same
      rw [waiting.stat found]
      refine (decoderParam_spec text msgAt (waiting.room found) holds
        read).mono ?_
      intro res after outcome
      rcases outcome with ⟨param, rfl, rfl, block, msgAfter, holdsAfter,
        frameAfter⟩
      refine ⟨shape.push param (waiting.room found), rfl, rfl, ?_, ?_, msgAfter,
        holdsAfter, frameAfter⟩
      · simp [MsgShape.reader, MsgShape.push, found, MsgShape.parameters]
      · rw [shape.push_blocks, block]

end KetamaRouter
