import KetamaRouter.MessageShape

/-!
# What the message operations own

One rule for each function of `message.c`: which cells it acquires or gives
up, the shape it leaves, and that it leaves every other owned cell alone.
-/

namespace KetamaRouter

open PointerChain FaultProgram

variable {memory : Memory} {owned : Multiset Cell} {buf : BufId}

/-! ## Strings -/

theorem bstrInit_spec (holds : Holds memory owned) (buf : BufId)
    (data : CharPtr) (len : Nat) :
    Yields (bstrInit buf data len) memory fun str after =>
      str.buf = buf ∧ .obj .str str ∉ owned ∧
        Holds after (.obj .str str ::ₘ owned) ∧ Frame owned memory after ∧
        after.str str = { type := .none, data := some data, len := len } := by
  unfold bstrInit bstrInitTyped
  refine Yields.bind (poolGet_spec holds buf .str) ?_
  intro str middle outcome
  rcases outcome with ⟨home, outside, holdsMiddle, frame⟩
  refine Yields.modify_bind (Yields.pure ⟨home, outside, ?_, ?_, ?_⟩)
  · exact holdsMiddle.congr rfl rfl rfl
  · exact frame.trans (Frame.setStr outside _)
  · simp [Memory.setStr]

theorem bstrFree_spec {str : Ptr}
    (holds : Holds memory (.obj .str str ::ₘ owned)) (home : str.buf = buf)
    (borrowed : (memory.str str).type = .none) :
    Yields (bstrFree buf str) memory fun _ after =>
      Holds after owned ∧ Frame owned memory after := by
  unfold bstrFree
  refine Yields.get_bind ?_
  simp only [borrowed]
  exact poolBack_spec holds home

/-- The part of `line` at `off`, seen through a fresh `str_t`. -/
theorem StrAt.of_view {block off len : Nat} {line : Bytes} {str : Ptr}
    (inside : off + len ≤ line.length)
    (view : memory.str str =
      { type := .none, data := some ⟨block, off⟩, len := len }) :
    StrAt memory block line str ((line.drop off).take len) := by
  have length : ((line.drop off).take len).length = len := by
    simp only [List.length_take, List.length_drop]
    omega
  refine ⟨off, ?_, ?_, ?_⟩
  · rw [length]
    exact view
  · rw [length]
    exact inside
  · rw [length]

/-! ## Commands -/

theorem msgInitCmd_spec {block off len : Nat} {line : Bytes}
    (holds : Holds memory (.text block ::ₘ owned))
    (text : memory.text block = some line)
    (inside : off + len ≤ line.length) (buf : BufId) (count : UInt16) :
    Yields (msgInitCmd buf ⟨block, off⟩ len count block) memory
      fun obj after => ∃ name,
        let cmd : CmdShape :=
          ⟨obj, name, block, line, (line.drop off).take len, count⟩
        CmdAt after buf cmd ∧ Holds after (cmd.cells + owned) ∧
          Frame (.text block ::ₘ owned) memory after := by
  unfold msgInitCmd
  refine Yields.bind (poolGet_spec holds buf .cmd) ?_
  intro obj second outcome
  rcases outcome with ⟨objHome, objOutside, holdsSecond, frameSecond⟩
  refine Yields.bind (bstrInit_spec holdsSecond buf ⟨block, off⟩ len) ?_
  intro name third outcome
  rcases outcome with ⟨nameHome, nameOutside, holdsThird, frameThird, nameEq⟩
  have frame := (frameSecond.trans frameThird.tail).trans
    (Frame.setCmd objOutside fun old =>
      { old with name := some name, paramCount := count, data := some block })
  refine Yields.modify_bind (Yields.pure ⟨name, ?_, ?_, frame⟩)
  · exact ⟨⟨objHome, nameHome⟩, by simp [Memory.setCmd],
      StrAt.of_view inside nameEq, (frame.text block (by simp)).trans text⟩
  · refine @Holds.congr third _ _ ?_ rfl rfl rfl
    convert holdsThird using 1
    simp only [CmdShape.cells, Multiset.insert_eq_cons,
      ← Multiset.singleton_add]
    abel

theorem CmdAt.setMsg {cmd : CmdShape} (cmdAt : CmdAt memory buf cmd)
    (msg : Ptr) (change : Msg → Msg) :
    CmdAt (memory.setMsg msg change) buf cmd := by
  refine cmdAt.frame (Frame.setMsg ?_ change)
    fun _ member => member
  simp [CmdShape.cells]

/-- `msg_set_cmd` on an idle message. -/
theorem msgSetCmd_spec {msg : Ptr} {cmd : CmdShape}
    (idle : MsgAt memory (.idle msg)) (cmdAt : CmdAt memory msg.buf cmd)
    (holds : Holds memory owned) {rest : Multiset Cell}
    (outside : .obj .msg msg ∉ rest) :
    Yields (msgSetCmd msg cmd.obj) memory fun _ after =>
      MsgAt after (.opened msg cmd) ∧ Holds after owned ∧
        Frame rest memory after := by
  have header := idle.header
  simp only [MsgShape.idle, Option.map_none, List.length_nil, List.map_nil,
    List.head?_nil, List.getLast?_nil, MsgShape.stat] at header
  have written : (memory.setMsg msg fun old =>
      { old with cmd := some cmd.obj }).cmd cmd.obj =
        { name := some cmd.name, paramCount := cmd.count,
          data := some cmd.block } := cmdAt.obj
  unfold msgSetCmd
  refine Yields.modify_bind (Yields.get_bind ?_)
  simp only [written]
  by_cases positive : 0 < cmd.count
  · have positiveNat : 0 < cmd.count.toNat := by
      simpa using UInt16.lt_iff_toNat_lt.mp positive
    simp only [gt_iff_lt, positive, if_true]
    refine Yields.modify_bind (Yields.pure ⟨⟨?_, ?_, rfl, ?_⟩, ?_, ?_⟩)
    · simp [Memory.setMsg, header, MsgShape.opened, MsgShape.stat, positiveNat]
    · rintro _ ⟨⟩
      exact (cmdAt.setMsg msg _).setMsg msg _
    · rintro param ⟨⟩
    · exact holds.congr rfl rfl rfl
    · exact (Frame.setMsg outside _).trans (Frame.setMsg outside _)
  · have zeroNat : ¬ 0 < cmd.count.toNat := fun above =>
      positive (UInt16.lt_iff_toNat_lt.mpr (by simpa using above))
    simp only [gt_iff_lt, positive, if_false]
    refine Yields.modify_bind (Yields.pure ⟨⟨?_, ?_, rfl, ?_⟩, ?_, ?_⟩)
    · simp [Memory.setMsg, header, MsgShape.opened, MsgShape.stat, zeroNat]
    · rintro _ ⟨⟩
      exact (cmdAt.setMsg msg _).setMsg msg _
    · rintro param ⟨⟩
    · exact holds.congr rfl rfl rfl
    · exact (Frame.setMsg outside _).trans (Frame.setMsg outside _)

/-! ## Parameters -/

theorem msgInitParamStr_spec {block off len : Nat} {line : Bytes}
    (holds : Holds memory (.text block ::ₘ owned))
    (text : memory.text block = some line)
    (inside : off + len ≤ line.length) (buf : BufId) :
    Yields (msgInitParamStr buf ⟨block, off⟩ len block) memory
      fun obj after => ∃ str,
        let param : ParamShape :=
          ⟨obj, block, line, .str str ((line.drop off).take len)⟩
        ParamAt after buf param ∧ Holds after (param.cells + owned) ∧
          Frame (.text block ::ₘ owned) memory after := by
  unfold msgInitParamStr
  refine Yields.bind (poolGet_spec holds buf .param) ?_
  intro obj second outcome
  rcases outcome with ⟨objHome, objOutside, holdsSecond, frameSecond⟩
  refine Yields.bind (bstrInit_spec holdsSecond buf ⟨block, off⟩ len) ?_
  intro str third outcome
  rcases outcome with ⟨strHome, strOutside, holdsThird, frameThird, strEq⟩
  have frame := (frameSecond.trans frameThird.tail).trans
    (Frame.setParam objOutside fun old =>
      { old with
        type := .str
        str := some str
        kv := none
        next := none
        data := some block })
  refine Yields.modify_bind (Yields.pure ⟨str, ⟨objHome, ?_, ?_⟩, ?_, frame⟩)
  · exact ⟨strHome, by constructor <;> simp [Memory.setParam],
      StrAt.of_view inside strEq⟩
  · exact (frame.text block (by simp)).trans text
  · refine @Holds.congr third _ _ ?_ rfl rfl rfl
    convert holdsThird using 1
    simp only [ParamShape.cells, ParamBody.cells, ← Multiset.singleton_add]
    abel

theorem msgInitParamKv_spec {block keyOff keyLen valueOff valueLen : Nat}
    {line : Bytes} (holds : Holds memory (.text block ::ₘ owned))
    (text : memory.text block = some line)
    (keyInside : keyOff + keyLen ≤ line.length)
    (valueInside : valueOff + valueLen ≤ line.length) (buf : BufId) :
    Yields (msgInitParamKv buf ⟨block, keyOff⟩ keyLen ⟨block, valueOff⟩ valueLen
        block) memory
      fun obj after => ∃ kv key value,
        let param : ParamShape :=
          ⟨obj, block, line, .kv kv key value
            ((line.drop keyOff).take keyLen)
            ((line.drop valueOff).take valueLen)⟩
        ParamAt after buf param ∧ Holds after (param.cells + owned) ∧
          Frame (.text block ::ₘ owned) memory after := by
  unfold msgInitParamKv
  refine Yields.bind (poolGet_spec holds buf .param) ?_
  intro obj second outcome
  rcases outcome with ⟨objHome, objOutside, holdsSecond, frameSecond⟩
  refine Yields.bind (poolGet_spec holdsSecond buf .paramKv) ?_
  intro kv third outcome
  rcases outcome with ⟨kvHome, kvOutside, holdsThird, frameThird⟩
  refine Yields.bind (bstrInit_spec holdsThird buf ⟨block, keyOff⟩ keyLen) ?_
  intro key fourth outcome
  rcases outcome with ⟨keyHome, keyOutside, holdsFourth, frameFourth, keyEq⟩
  refine Yields.bind
    (bstrInit_spec holdsFourth buf ⟨block, valueOff⟩ valueLen) ?_
  intro value fifth outcome
  rcases outcome with ⟨valueHome, valueOutside, holdsFifth, frameFifth, valueEq⟩
  refine Yields.modify_bind (Yields.modify_bind ?_)
  have keyKept : fifth.str key = _ :=
    (frameFifth.str key (Multiset.mem_cons_self _ _)).trans keyEq
  have kvFresh : Cell.obj .paramKv kv ∉ .text block ::ₘ owned := fun member =>
    kvOutside (Multiset.mem_cons_of_mem member)
  have frame := (((frameSecond.trans frameThird.tail).trans
    frameFourth.tail.tail).trans frameFifth.tail.tail.tail).trans
      ((Frame.setParamKv kvFresh fun old =>
        { old with key := some key, value := some value }).trans
      (Frame.setParam objOutside fun old =>
        { old with
          type := .kv
          kv := some kv
          str := none
          next := none
          data := some block }))
  refine Yields.pure ⟨kv, key, value, ⟨objHome, ?_, ?_⟩, ?_, frame⟩
  · refine ⟨⟨kvHome, keyHome, valueHome⟩,
      by constructor <;> simp [Memory.setParam],
      by simp [Memory.setParam, Memory.setParamKv], ?_, ?_⟩
    · exact StrAt.of_view keyInside keyKept
    · exact StrAt.of_view valueInside valueEq
  · exact (frame.text block (by simp)).trans text
  · refine @Holds.congr fifth _ _ ?_ rfl rfl rfl
    convert holdsFifth using 1
    simp only [ParamShape.cells, ParamBody.cells, Multiset.insert_eq_cons,
      ← Multiset.singleton_add]
    abel

/-! ## The parameter chain -/

theorem CmdAt.setParam {cmd : CmdShape} (cmdAt : CmdAt memory buf cmd)
    (param : Ptr) (change : Param → Param) :
    CmdAt (memory.setParam param change) buf cmd := by
  refine cmdAt.frame (Frame.setParam ?_ change)
    fun _ member => member
  simp [CmdShape.cells]

theorem ParamAt.setMsg {param : ParamShape}
    (paramAt : ParamAt memory buf param) (msg : Ptr) (change : Msg → Msg) :
    ParamAt (memory.setMsg msg change) buf param := by
  refine paramAt.frame (Frame.setMsg ?_ change)
    fun _ member => member
  cases body : param.body <;> simp [ParamShape.cells, ParamBody.cells, body]

/-- Relinking any parameter leaves what the parameters say. -/
theorem ParamAt.setNext {param : ParamShape}
    (paramAt : ParamAt memory buf param) (target : Ptr) (next : Option Ptr) :
    ParamAt (memory.setParam target fun old => { old with next := next })
      buf param where
  home := paramAt.home
  text := paramAt.text
  body := by
    have body := paramAt.body
    by_cases same : param.obj = target
    · cases shape : param.body with
      | str str text =>
          rw [shape] at body
          obtain ⟨home, contents, strAt⟩ := body
          refine ⟨home, ?_, strAt⟩
          rw [same] at contents ⊢
          simp only [Memory.setParam, Function.update_self]
          exact { contents with }
      | kv kv key value keyText valueText =>
          rw [shape] at body
          obtain ⟨home, contents, rest⟩ := body
          refine ⟨home, ?_, rest⟩
          rw [same] at contents ⊢
          simp only [Memory.setParam, Function.update_self]
          exact { contents with }
    · refine @ParamBodyAt.frame _ _
        (.obj .param param.obj ::ₘ param.body.cells) _ _ _ body
        (Frame.setParam ?_ _) (by simp) fun cell member => by simp [member]
      cases shape : param.body <;>
        simp [ParamBody.cells, Ne.symm (a := param.obj) same]

/-- `msg_put_paramlist` on a message with a command. -/
theorem msgPutParamlist_spec {shape : MsgShape} {param : ParamShape}
    {rest : Multiset Cell} (msgAt : MsgAt memory shape)
    (paramAt : ParamAt memory shape.obj.buf param)
    (distinct : (param.cells + (shape.cells + rest)).Nodup) :
    Yields (msgPutParamlist shape.obj param.obj) memory fun _ after =>
      after.msg shape.obj =
        { memory.msg shape.obj with
          paramCount := (memory.msg shape.obj).paramCount + 1
          paramFirst :=
            ((shape.params ++ [param]).map ParamShape.obj).head?
          paramLast := some param.obj } ∧
      (∀ cmd ∈ shape.cmd, CmdAt after shape.obj.buf cmd) ∧
      Linked after.paramNext
        ((shape.params ++ [param]).map ParamShape.obj).head?
        ((shape.params ++ [param]).map ParamShape.obj) ∧
      (∀ other ∈ shape.params ++ [param], ParamAt after shape.obj.buf other) ∧
      (∀ holding, Holds memory holding → Holds after holding) ∧
      Frame rest memory after := by
  obtain ⟨msg, cmd, params, fits⟩ := shape
  rw [Multiset.nodup_add, Multiset.nodup_add] at distinct
  obtain ⟨-, ⟨shapeDistinct, -, shapeRest⟩, paramApart⟩ := distinct
  rw [Multiset.disjoint_add_right] at paramApart
  have msgOutside : Cell.obj .msg msg ∉ rest :=
    Multiset.disjoint_left.mp shapeRest (by simp [MsgShape.cells])
  have paramOutside : Cell.obj .param param.obj ∉ rest :=
    Multiset.disjoint_left.mp paramApart.2 (by simp [ParamShape.cells])
  unfold msgPutParamlist
  refine Yields.modify_bind (Yields.get_bind ?_)
  have first : (memory.msg msg).paramFirst =
      (params.map ParamShape.obj).head? := by
    rw [msgAt.header]
  have last : (memory.msg msg).paramLast =
      (params.map ParamShape.obj).getLast? := by
    rw [msgAt.header]
  rcases List.eq_nil_or_concat' params with rfl | ⟨init, tail, rfl⟩
  · simp only [Memory.setParam_msg, first, List.map_nil, List.head?_nil]
    refine Yields.modify_bind (Yields.modify_bind
      (Yields.pure ⟨by simp, ?_, ?_, ?_, ?_, ?_⟩))
    · intro other found
      exact (((msgAt.cmd other found).setParam _ _).setMsg _ _).setMsg _ _
    · simp [Memory.paramNext]
    · intro other member
      cases List.mem_singleton.mp member
      exact ((paramAt.setNext _ _).setMsg _ _).setMsg _ _
    · exact fun holding holds => holds.congr rfl rfl rfl
    · exact ((Frame.setParam paramOutside _).trans
        (Frame.setMsg msgOutside _)).trans (Frame.setMsg msgOutside _)
  · have paramOf : ∀ other ∈ init ++ [tail], Cell.obj .param other.obj ∈
        (⟨msg, cmd, init ++ [tail], fits⟩ : MsgShape).cells :=
      fun other member =>
        MsgShape.mem_cells_of_param member (by simp [ParamShape.cells])
    have tailOutside : Cell.obj .param tail.obj ∉ rest :=
      Multiset.disjoint_left.mp shapeRest (paramOf tail (by simp))
    have newOf : ∀ other ∈ init ++ [tail], other.obj ≠ param.obj := by
      intro other member same
      have inNew : Cell.obj .param other.obj ∈ param.cells := by
        simp [ParamShape.cells, same]
      exact Multiset.disjoint_left.mp paramApart.1 inNew (paramOf other member)
    have distinctObjs : ((init ++ [tail]).map ParamShape.obj).Nodup := by
      refine paramCells_objs_nodup (Multiset.nodup_of_le ?_ shapeDistinct)
      exact (Multiset.le_add_left _ _).trans (Multiset.le_cons_self _ _)
    have linked := msgAt.linked
    obtain ⟨head, headEq⟩ : ∃ head,
        ((init ++ [tail]).map ParamShape.obj).head? = some head := by
      cases init <;> simp
    have lastEq : ((init ++ [tail]).map ParamShape.obj).getLast? =
        some tail.obj := by simp
    simp only [Memory.setParam_msg, first, headEq, last, lastEq, deref,
      pure_bind]
    refine Yields.modify_bind (Yields.modify_bind (Yields.modify_bind
      (Yields.pure ⟨?_, ?_, ?_, ?_, ?_, ?_⟩)))
    · simp [first]
    · intro other found
      exact ((((msgAt.cmd other found).setParam _ _).setParam _ _).setMsg
        _ _).setMsg _ _
    · have start : ((init ++ [tail] ++ [param]).map ParamShape.obj).head? =
          ((init ++ [tail]).map ParamShape.obj).head? := by
        cases init <;> simp
      rw [start]
      simp only [List.map_append, List.map_cons, List.map_nil,
        List.append_assoc, List.cons_append, List.nil_append]
        at linked distinctObjs ⊢
      have tailNew : tail.obj ≠ param.obj := newOf tail (by simp)
      refine linked.append_last ?_ ?_ ?_
      · intro obj member
        obtain ⟨other, found, rfl⟩ := List.mem_map.mp member
        have otherNew : other.obj ≠ param.obj :=
          newOf other (List.mem_append_left _ found)
        have notTail : other.obj ≠ tail.obj := by
          intro same
          rw [List.nodup_append] at distinctObjs
          exact distinctObjs.2.2 _ member _ (by simp) same
        simp [Memory.paramNext, Memory.setParam_param_of_ne, otherNew, notTail]
      · simp [Memory.paramNext]
      · simp [Memory.paramNext, Memory.setParam_param_of_ne, tailNew.symm]
    · intro other member
      rcases List.mem_append.mp member with old | new
      · exact ((((msgAt.params other old).setNext _ _).setNext _ _).setMsg
          _ _).setMsg _ _
      · cases List.mem_singleton.mp new
        exact (((paramAt.setNext _ _).setNext _ _).setMsg _ _).setMsg _ _
    · exact fun holding holds => holds.congr rfl rfl rfl
    · exact (((Frame.setParam paramOutside _).trans
        (Frame.setParam tailOutside _)).trans
        (Frame.setMsg msgOutside _)).trans (Frame.setMsg msgOutside _)

private theorem ofNat_succ_ge {length : Nat} {count : UInt16}
    (room : length < count.toNat) :
    UInt16.ofNat length + 1 ≥ count ↔ ¬ length + 1 < count.toNat := by
  have bound := count.toNat_lt
  have small : (UInt16.ofNat length + 1).toNat = length + 1 := by
    rw [UInt16.toNat_add, UInt16.toNat_ofNat', UInt16.toNat_one]
    omega
  rw [ge_iff_le, UInt16.le_iff_toNat_le, small]
  omega

/-- `msg_add_param` while the message still waits for parameters. -/
theorem msgAddParam_spec {shape : MsgShape} {param : ParamShape}
    {rest : Multiset Cell} (msgAt : MsgAt memory shape)
    (paramAt : ParamAt memory shape.obj.buf param)
    (room : shape.params.length < declaredCount shape.cmd)
    (holds : Holds memory (param.cells + (shape.cells + rest))) :
    Yields (msgAddParam shape.obj param.obj) memory fun _ after =>
      MsgAt after (shape.push param room) ∧
        Holds after ((shape.push param room).cells + rest) ∧
        Frame rest memory after := by
  have msgOutside : Cell.obj .msg shape.obj ∉ rest := by
    have distinct := holds.distinct
    rw [Multiset.nodup_add, Multiset.nodup_add] at distinct
    exact Multiset.disjoint_left.mp distinct.2.1.2.2 (by simp [MsgShape.cells])
  unfold msgAddParam
  refine Yields.bind (msgPutParamlist_spec msgAt paramAt holds.distinct) ?_
  intro _ middle outcome
  rcases outcome with ⟨header, cmdAt, linked, params, keeps, frame⟩
  refine Yields.get_bind ?_
  obtain ⟨msg, cmd, init, fits⟩ := shape
  cases cmd with
  | none => exact absurd room (Nat.not_lt_zero _)
  | some cmd =>
      have before := msgAt.header
      have count : (middle.cmd cmd.obj).paramCount = cmd.count := by
        rw [(cmdAt cmd rfl).obj]
      rw [before] at header
      simp only [Option.map_some] at header
      simp only [header, deref, pure_bind]
      have holdsAfter : ∀ change : Msg → Msg,
          Holds (middle.setMsg msg change)
            ((MsgShape.push ⟨msg, some cmd, init, fits⟩ param room).cells +
              rest) := by
        intro change
        rw [MsgShape.push_cells, add_assoc]
        exact (keeps _ holds).congr rfl rfl rfl
      have lastEq : ((init ++ [param]).map ParamShape.obj).getLast? =
          some param.obj := by simp
      have grown : UInt16.ofNat init.length + 1 =
          UInt16.ofNat (init ++ [param]).length := by
        rw [List.length_append, List.length_singleton, UInt16.ofNat_add]
        rfl
      simp only [count]
      by_cases full : UInt16.ofNat init.length + 1 ≥ cmd.count
      · have notShort : ¬ init.length + 1 < cmd.count.toNat :=
          (ofNat_succ_ge room).mp full
        simp only [full, if_true]
        refine Yields.modify_bind (Yields.get_bind (Yields.pure
          ⟨⟨?_, ?_, ?_, ?_⟩, holdsAfter _, frame.trans
            (Frame.setMsg msgOutside _)⟩))
        · simp [header, MsgShape.push, MsgShape.stat, notShort]
        · exact fun other found => (cmdAt other found).setMsg _ _
        · exact linked
        · exact fun other found => (params other found).setMsg _ _
      · have short : init.length + 1 < cmd.count.toNat :=
          not_not.mp fun notShort => full ((ofNat_succ_ge room).mpr notShort)
        simp only [full, if_false]
        refine Yields.modify_bind (Yields.get_bind (Yields.pure
          ⟨⟨?_, ?_, ?_, ?_⟩, holdsAfter _, frame.trans
            (Frame.setMsg msgOutside _)⟩))
        · simp [header, MsgShape.push, MsgShape.stat, short]
        · exact fun other found => (cmdAt other found).setMsg _ _
        · exact linked
        · exact fun other found => (params other found).setMsg _ _

/-! ## Cleaning -/

theorem StrAt.type_none {block : Nat} {line text : Bytes} {str : Ptr}
    (strAt : StrAt memory block line str text) :
    (memory.str str).type = .none := by
  obtain ⟨off, contents, -⟩ := strAt
  rw [contents]

/-- Give up a buffer and then an object. -/
theorem freeText_poolBack_spec {kind : PoolKind} {obj : Ptr} {block : Nat}
    (holds : Holds memory (.text block ::ₘ .obj kind obj ::ₘ owned))
    (home : obj.buf = buf) :
    Yields (do freeText (some block); poolBack buf kind obj) memory
      fun _ after => Holds after owned ∧ Frame owned memory after := by
  refine Yields.bind (freeText_spec holds) ?_
  intro _ middle outcome
  rcases outcome with ⟨holdsMiddle, frameMiddle⟩
  refine (poolBack_spec holdsMiddle home).mono ?_
  intro _ after outcome
  rcases outcome with ⟨holdsAfter, frameAfter⟩
  exact ⟨holdsAfter, frameMiddle.tail.trans frameAfter⟩

theorem msgCleanParam_spec {param : ParamShape}
    (paramAt : ParamAt memory buf param)
    (holds : Holds memory (param.cells + owned)) :
    Yields (msgCleanParam buf param.obj) memory fun _ after =>
      Holds after owned ∧ Frame owned memory after := by
  have body := paramAt.body
  unfold msgCleanParam
  refine Yields.get_bind ?_
  cases shape : param.body with
  | str str text =>
      rw [shape] at body
      obtain ⟨home, fields, strAt⟩ := body
      simp only [fields.type, fields.str, fields.data, deref, pure_bind]
      have ordered : Holds memory
          (.obj .str str ::ₘ .text param.block ::ₘ .obj .param param.obj ::ₘ
            owned) := by
        convert holds using 1
        simp only [ParamShape.cells, ParamBody.cells, shape,
          ← Multiset.singleton_add]
        abel
      refine Yields.bind (bstrFree_spec ordered home strAt.type_none) ?_
      intro _ middle outcome
      rcases outcome with ⟨holdsMiddle, frameMiddle⟩
      refine (freeText_poolBack_spec holdsMiddle paramAt.home).mono ?_
      intro _ after outcome
      rcases outcome with ⟨holdsAfter, frameAfter⟩
      exact ⟨holdsAfter, frameMiddle.tail.tail.trans frameAfter⟩
  | kv kv key value keyText valueText =>
      rw [shape] at body
      obtain ⟨⟨kvHome, keyHome, valueHome⟩, fields, kvEq, keyAt, valueAt⟩ :=
        body
      simp only [fields.type, fields.kv, fields.data, deref, pure_bind]
      have ordered : Holds memory
          (.obj .str key ::ₘ .obj .str value ::ₘ .obj .paramKv kv ::ₘ
            .text param.block ::ₘ .obj .param param.obj ::ₘ owned) := by
        convert holds using 1
        simp only [ParamShape.cells, ParamBody.cells, shape,
          Multiset.insert_eq_cons, ← Multiset.singleton_add]
        abel
      refine Yields.get_bind ?_
      simp only [kvEq, pure_bind]
      refine Yields.bind (bstrFree_spec ordered keyHome keyAt.type_none) ?_
      intro _ second outcome
      rcases outcome with ⟨holdsSecond, frameSecond⟩
      refine Yields.get_bind ?_
      have kvKept : second.paramKv kv = _ :=
        (frameSecond.paramKv kv (by simp)).trans kvEq
      have valueKept := valueAt.frame frameSecond (by simp)
      simp only [kvKept, pure_bind]
      refine Yields.bind
        (bstrFree_spec holdsSecond valueHome valueKept.type_none) ?_
      intro _ third outcome
      rcases outcome with ⟨holdsThird, frameThird⟩
      refine Yields.bind (poolBack_spec holdsThird kvHome) ?_
      intro _ fourth outcome
      rcases outcome with ⟨holdsFourth, frameFourth⟩
      refine (freeText_poolBack_spec holdsFourth paramAt.home).mono ?_
      intro _ after outcome
      rcases outcome with ⟨holdsAfter, frameAfter⟩
      exact ⟨holdsAfter,
        ((frameSecond.tail.tail.tail.tail.trans frameThird.tail.tail.tail).trans
          frameFourth.tail.tail).trans frameAfter⟩

/-- The loop of `msg_clean` returns everything below the parameters.  The
induction is on the chain, whose tail survives the cleaning of its head. -/
theorem msgCleanParams_spec {params : List ParamShape} {fuel : Nat}
    (enough : params.length ≤ fuel)
    (linked : Linked memory.paramNext (params.map ParamShape.obj).head?
      (params.map ParamShape.obj))
    (paramsAt : ∀ param ∈ params, ParamAt memory buf param)
    (holds : Holds memory (paramCells params + owned)) :
    Yields (msgCleanParams buf fuel (params.map ParamShape.obj).head?) memory
      fun _ after => Holds after owned ∧ Frame owned memory after := by
  induction params generalizing fuel memory with
  | nil =>
      cases fuel <;> exact Yields.pure
        ⟨by simpa using holds, Frame.refl owned memory⟩
  | cons param params induction =>
      obtain ⟨fuel, rfl⟩ : ∃ less, fuel = less + 1 :=
        ⟨fuel - 1, by simp at enough; omega⟩
      rw [paramCells_cons, add_assoc] at holds
      simp only [List.map_cons, List.head?_cons, linked_cons, true_and]
        at linked ⊢
      unfold msgCleanParams
      refine Yields.get_bind ?_
      refine Yields.bind
        (msgCleanParam_spec (paramsAt param List.mem_cons_self) holds) ?_
      intro _ middle outcome
      rcases outcome with ⟨holdsMiddle, frameMiddle⟩
      have start : (memory.param param.obj).next =
          (params.map ParamShape.obj).head? := linked.start_eq
      rw [start]
      have tailIn : ∀ other ∈ params, ∀ cell ∈ other.cells,
          cell ∈ paramCells params + owned := by
        intro other found cell member
        exact Multiset.mem_add.mpr
          (.inl (Multiset.mem_of_le (ParamShape.cells_le found) member))
      have linkedMiddle : Linked middle.paramNext
          (params.map ParamShape.obj).head? (params.map ParamShape.obj) := by
        rw [← start]
        refine linked.congr fun obj member => ?_
        obtain ⟨other, found, rfl⟩ := List.mem_map.mp member
        have kept := frameMiddle.param other.obj
          (tailIn other found _ (by simp [ParamShape.cells]))
        simp only [Memory.paramNext, kept]
      have paramsMiddle : ∀ other ∈ params, ParamAt middle buf other :=
        fun other found =>
          (paramsAt other (List.mem_cons_of_mem param found)).frame frameMiddle
            (tailIn other found)
      refine (induction (Nat.le_of_succ_le_succ enough) linkedMiddle
        paramsMiddle holdsMiddle).mono ?_
      intro _ after outcome
      rcases outcome with ⟨holdsAfter, frameAfter⟩
      refine ⟨holdsAfter, (frameMiddle.mono ?_).trans frameAfter⟩
      exact fun cell member => Multiset.mem_add.mpr (.inr member)

theorem msgCleanCmd_spec {cmd : Option CmdShape}
    (cmdAt : ∀ shape ∈ cmd, CmdAt memory buf shape)
    (holds : Holds memory (MsgShape.cmdCells cmd + owned)) :
    Yields (msgCleanCmd buf (cmd.map CmdShape.obj)) memory fun _ after =>
      Holds after owned ∧ Frame owned memory after := by
  cases cmd with
  | none =>
      exact Yields.pure
        ⟨by simpa [MsgShape.cmdCells] using holds, Frame.refl owned memory⟩
  | some cmd =>
      have shapeAt := cmdAt cmd rfl
      have ordered : Holds memory
          (.obj .str cmd.name ::ₘ .text cmd.block ::ₘ .obj .cmd cmd.obj ::ₘ
            owned) := by
        convert holds using 1
        simp only [MsgShape.cmdCells, Option.elim_some, CmdShape.cells,
          Multiset.insert_eq_cons, ← Multiset.singleton_add]
        abel
      unfold msgCleanCmd
      simp only [Option.map_some]
      refine Yields.get_bind ?_
      simp only [shapeAt.obj]
      refine Yields.bind
        (bstrFree_spec ordered shapeAt.home.2 shapeAt.name.type_none) ?_
      intro _ middle outcome
      rcases outcome with ⟨holdsMiddle, frameMiddle⟩
      refine (freeText_poolBack_spec holdsMiddle shapeAt.home.1).mono ?_
      intro _ after outcome
      rcases outcome with ⟨holdsAfter, frameAfter⟩
      exact ⟨holdsAfter, frameMiddle.tail.tail.trans frameAfter⟩

/-- A chain of owned parameters is no longer than the number of parameters its
pool ever allocated. -/
theorem paramFuel_enough {params : List ParamShape}
    (holds : Holds memory (paramCells params + owned))
    (home : ∀ param ∈ params, param.obj.buf = buf) :
    params.length ≤ paramFuel buf memory := by
  obtain ⟨cached, -, -, -, allocated⟩ := holds.pools buf .param
  have distinct := paramCells_objs_nodup
    (Multiset.nodup_of_le (Multiset.le_add_right _ _) holds.distinct)
  have ranks : ((params.map ParamShape.obj).map Ptr.idx).Nodup := by
    refine distinct.map_on ?_
    intro left leftIn right rightIn same
    obtain ⟨leftParam, leftFound, rfl⟩ := List.mem_map.mp leftIn
    obtain ⟨rightParam, rightFound, rfl⟩ := List.mem_map.mp rightIn
    exact Ptr.ext ((home _ leftFound).trans (home _ rightFound).symm) same
  have bounded : (params.map ParamShape.obj).map Ptr.idx ⊆
      List.range (paramFuel buf memory) := by
    intro rank member
    obtain ⟨obj, objIn, rfl⟩ := List.mem_map.mp member
    obtain ⟨param, found, rfl⟩ := List.mem_map.mp objIn
    refine List.mem_range.mpr (allocated param.obj ?_).2
    refine Multiset.mem_add.mpr (.inr (mem_fromPool.mpr ⟨?_, home param found⟩))
    refine Multiset.mem_add.mpr (.inl ?_)
    exact Multiset.mem_of_le (ParamShape.cells_le found)
      (by simp [ParamShape.cells])
  simpa using (ranks.subperm bounded).length_le

theorem declaredCount_lt (cmd : Option CmdShape) : declaredCount cmd < 65536 := by
  cases cmd with
  | none => exact Nat.succ_pos _
  | some cmd => exact cmd.count.toNat_lt

theorem msgBuf_run {msg : Ptr} (header : (memory.msg msg).buf = some buf) :
    msgBuf msg memory = .ok buf memory := by
  unfold msgBuf
  rw [bind_run_ok (get_run memory), header]
  rfl

/-- The parameter chain of a message is short enough to walk. -/
theorem MsgAt.enoughFuel {shape : MsgShape} (msgAt : MsgAt memory shape)
    (holds : Holds memory (shape.cells + owned)) :
    shape.params.length ≤ paramFuel shape.obj.buf memory := by
  refine @paramFuel_enough _
    (MsgShape.cmdCells shape.cmd + (.obj .msg shape.obj ::ₘ owned)) _ _ ?_
    fun param found => (msgAt.params param found).home
  convert holds using 1
  simp only [MsgShape.cells, ← Multiset.singleton_add]
  abel

/-- The counter of a message is zero only if it has no parameters. -/
theorem MsgAt.uncounted {shape : MsgShape} (msgAt : MsgAt memory shape)
    (zero : ¬ (memory.msg shape.obj).paramCount > 0) : shape.params = [] := by
  have small : shape.params.length < 65536 :=
    shape.fits.trans_lt (declaredCount_lt shape.cmd)
  have countNat : (UInt16.ofNat shape.params.length).toNat =
      shape.params.length := by
    rw [UInt16.toNat_ofNat']
    omega
  rw [msgAt.header, gt_iff_lt, UInt16.lt_iff_toNat_lt, countNat] at zero
  exact List.eq_nil_of_length_eq_zero (by simpa using zero)

/-- The parameter loop of `msg_clean`, behind its test of the counter. -/
theorem msgCleanChain_spec {shape : MsgShape} (msgAt : MsgAt memory shape)
    (home : shape.obj.buf = buf)
    (holds : Holds memory (paramCells shape.params + owned)) :
    Yields (msgCleanChain buf shape.obj) memory
      fun _ after => Holds after owned ∧ Frame owned memory after := by
  have paramsAt : ∀ param ∈ shape.params, ParamAt memory buf param :=
    home ▸ msgAt.params
  unfold msgCleanChain
  refine Yields.get_bind ?_
  by_cases positive : (memory.msg shape.obj).paramCount > 0
  · simp only [positive, if_true]
    rw [msgAt.header]
    exact msgCleanParams_spec
      (paramFuel_enough holds fun param found => (paramsAt param found).home)
      msgAt.linked paramsAt holds
  · have empty := msgAt.uncounted positive
    simp only [positive, if_false]
    exact Yields.pure ⟨by simpa [empty] using holds, Frame.refl owned memory⟩

/-- `msg_clean` gives up everything but the message object itself. -/
theorem msgClean_spec {shape : MsgShape} (msgAt : MsgAt memory shape)
    (holds : Holds memory (shape.cells + owned)) :
    Yields (msgClean shape.obj) memory fun _ after =>
      MsgAt after (.idle shape.obj) ∧
        Holds after ((MsgShape.idle shape.obj).cells + owned) ∧
        Frame owned memory after := by
  obtain ⟨msg, cmd, params, fits⟩ := shape
  have ordered : Holds memory (paramCells params +
      (MsgShape.cmdCells cmd + (.obj .msg msg ::ₘ owned))) := by
    convert holds using 1
    simp only [MsgShape.cells, ← Multiset.singleton_add]
    abel
  have header := msgAt.header
  have msgOutside : Cell.obj .msg msg ∉ owned := by
    have distinct := holds.distinct
    rw [Multiset.nodup_add] at distinct
    exact Multiset.disjoint_left.mp distinct.2.2 (by simp [MsgShape.cells])
  unfold msgClean
  refine Yields.bind_run (msgBuf_run (by rw [header])) ?_
  refine Yields.bind (msgCleanChain_spec msgAt rfl ordered) ?_
  intro _ second outcome
  rcases outcome with ⟨holdsSecond, frameSecond⟩
  refine Yields.get_bind ?_
  have cmdSecond : (second.msg msg).cmd = cmd.map CmdShape.obj := by
    rw [frameSecond.msg msg (by simp), header]
  have bufSecond : (second.msg msg).buf = some msg.buf := by
    rw [frameSecond.msg msg (by simp), header]
  have cmdAtSecond : ∀ other ∈ cmd, CmdAt second msg.buf other := by
    rintro other ⟨⟩
    refine (msgAt.cmd other rfl).frame frameSecond fun cell member => ?_
    exact Multiset.mem_add.mpr (.inl member)
  rw [cmdSecond]
  refine Yields.bind (msgCleanCmd_spec cmdAtSecond holdsSecond) ?_
  intro _ third outcome
  rcases outcome with ⟨holdsThird, frameThird⟩
  have bufThird : (third.msg msg).buf = some msg.buf := by
    rw [frameThird.msg msg (by simp), bufSecond]
  refine Yields.modify ⟨⟨?_, ?_, rfl, ?_⟩, ?_, ?_⟩
  · simp [MsgShape.idle, MsgShape.stat, bufThird]
  · rintro other ⟨⟩
  · rintro other ⟨⟩
  · exact holdsThird.congr rfl rfl rfl
  · refine ((frameSecond.mono ?_).trans frameThird.tail).trans
      (Frame.setMsg msgOutside _)
    intro cell member
    simp [member]

/-- `msg_init` acquires an idle message. -/
theorem msgInit_spec (holds : Holds memory owned) (buf : BufId) :
    Yields (msgInit buf) memory fun msg after =>
      msg.buf = buf ∧ MsgAt after (.idle msg) ∧
        Holds after ((MsgShape.idle msg).cells + owned) ∧
        Frame owned memory after := by
  unfold msgInit
  refine Yields.bind (poolGet_spec holds buf .msg) ?_
  intro msg middle outcome
  rcases outcome with ⟨home, outside, holdsMiddle, frame⟩
  refine Yields.modify_bind (Yields.pure ⟨home, ⟨?_, ?_, rfl, ?_⟩, ?_, ?_⟩)
  · simp [MsgShape.idle, MsgShape.stat, home]
  · rintro other ⟨⟩
  · rintro other ⟨⟩
  · exact holdsMiddle.congr rfl rfl rfl
  · exact frame.trans (Frame.setMsg outside _)

/-- `msg_free` gives up the whole message. -/
theorem msgFree_spec {shape : MsgShape} (msgAt : MsgAt memory shape)
    (holds : Holds memory (shape.cells + owned)) :
    Yields (msgFree (some shape.obj)) memory fun _ after =>
      Holds after owned ∧ Frame owned memory after := by
  unfold msgFree
  refine Yields.bind_run (msgBuf_run
    (by rw [msgAt.header])) ?_
  refine Yields.bind (msgClean_spec msgAt holds) ?_
  intro _ middle outcome
  rcases outcome with ⟨-, holdsMiddle, frameMiddle⟩
  refine (poolBack_spec holdsMiddle rfl).mono ?_
  intro _ after outcome
  rcases outcome with ⟨holdsAfter, frameAfter⟩
  exact ⟨holdsAfter, frameMiddle.trans frameAfter⟩

end KetamaRouter
