import KetamaRouter.MemoryInvariant
import KetamaRouter.MessageOwnership

/-!
# The buffers of lines

Character buffers fade: one that was freed never comes back.  Cleaning a message
ends the buffers of all lines it came in, which are what the `data` fields of
its command and of its parameters point to.
-/

namespace KetamaRouter

open FaultProgram PointerChain

variable {memory after : Memory} {owned : Multiset Cell} {buf : BufId}
  {block : Nat}

/-! ## Fading -/

/-- Every buffer that existed in `start` and is live now was live then. -/
structure Fades (start memory : Memory) : Prop where
  textBrk : start.textBrk ≤ memory.textBrk
  live : ∀ block, block < start.textBrk → memory.text block ≠ none →
    start.text block ≠ none

theorem Fades.refl (memory : Memory) : Fades memory memory :=
  ⟨Nat.le_refl _, fun _ _ live => live⟩

theorem Fades.stays_dead (fades : Fades memory after)
    (old : block < memory.textBrk) (dead : memory.text block = none) :
    after.text block = none := by
  by_contra live
  exact fades.live block old live dead

/-- Nothing that a message program does revives a buffer. -/
theorem fades_stable (start : Memory) :
    Stable (fun _ => True) fun _ => Fades start where
  setPool _ fades _ _ := ⟨fades.textBrk, fades.live⟩
  setMsg _ fades := ⟨fades.textBrk, fades.live⟩
  write fades _ _ text textBrk := by
    constructor
    · rw [textBrk]
      exact fades.textBrk
    · rw [text]
      exact fades.live
  malloc {_ memory} fades contents := by
    constructor
    · exact Nat.le_succ_of_le fades.textBrk
    · intro block old live
      have other : block ≠ memory.textBrk :=
        Nat.ne_of_lt (Nat.lt_of_lt_of_le old fades.textBrk)
      apply fades.live block old
      simpa [Memory.setText, other] using live
  free {_ memory} fades freed := by
    refine ⟨fades.textBrk, ?_⟩
    intro block old live
    apply fades.live block old
    by_cases same : block = freed
    · subst same
      simp [Memory.setText] at live
    · simpa [Memory.setText, same] using live
  knows _ _ _ := trivial
  learns fades _ _ := fades
  forgets fades := fades

/-! ## The `data` fields of a message -/

/-- The `data` fields along a chain of parameters. -/
def chainData (memory : Memory) : Nat → Option Ptr → List Nat
  | 0, _ => []
  | _ + 1, none => []
  | fuel + 1, some param =>
      (memory.param param).data.toList ++
        chainData memory fuel (memory.param param).next

/-- The `data` fields of the command and of the parameters of a message. -/
def msgData (memory : Memory) (msg : Ptr) : List Nat :=
  ((memory.msg msg).cmd.bind fun cmd => (memory.cmd cmd).data).toList ++
    chainData memory (paramFuel msg.buf memory) (memory.msg msg).paramFirst

theorem chainData_eq {params : List ParamShape} {fuel : Nat}
    (enough : params.length ≤ fuel)
    (linked : Linked memory.paramNext (params.map ParamShape.obj).head?
      (params.map ParamShape.obj))
    (paramsAt : ∀ param ∈ params, ParamAt memory buf param) :
    chainData memory fuel (params.map ParamShape.obj).head? =
      params.map ParamShape.block := by
  induction params generalizing fuel with
  | nil => cases fuel <;> rfl
  | cons param params induction =>
      cases fuel with
      | zero => cases enough
      | succ fuel =>
          simp only [List.map_cons, List.head?_cons, linked_cons, true_and]
            at linked ⊢
          have start : (memory.param param.obj).next =
              (params.map ParamShape.obj).head? := linked.start_eq
          have rest := induction (Nat.le_of_succ_le_succ enough)
            (start ▸ linked)
            fun other found => paramsAt other (List.mem_cons_of_mem param found)
          rw [chainData, (paramsAt param List.mem_cons_self).data, start, rest]
          rfl

/-- The `data` fields of a message point to the lines it came in. -/
theorem msgData_eq {shape : MsgShape} (msgAt : MsgAt memory shape)
    (holds : Holds memory (shape.cells + owned)) :
    msgData memory shape.obj = shape.blocks := by
  have chain := chainData_eq (msgAt.enoughFuel holds) msgAt.linked msgAt.params
  unfold msgData MsgShape.blocks
  rw [msgAt.header, chain]
  congr 1
  cases found : shape.cmd with
  | none => rfl
  | some cmd =>
      simp only [Option.map_some, Option.bind_some, (msgAt.cmd cmd found).obj]
      rfl

/-! ## Cleaning ends buffers -/

theorem freeText_ends (ran : freeText (some block) memory = .ok () after) :
    after.text block = none := by
  unfold freeText at ran
  dsimp only at ran
  rw [bind_run_ok (get_run memory)] at ran
  cases live : memory.text block with
  | none =>
      simp only [live] at ran
      cases ran
  | some contents =>
      simp only [live] at ran
      cases ran
      simp [Memory.setText]

theorem poolBack_text {kind : PoolKind} {obj : Ptr}
    (ran : poolBack buf kind obj memory = .ok () after) :
    after.text = memory.text := by
  unfold poolBack at ran
  obtain ⟨_, middle, returned, ran⟩ := of_bind_ok ran
  obtain ⟨pabuf, -, same⟩ := of_focus_ok returned
  cases ran
  rw [same]
  rfl

/-- The end of `msg_clean`'s work on a command or on a parameter. -/
theorem freeText_poolBack_ends {kind : PoolKind} {obj : Ptr}
    (ran : (do freeText (some block); poolBack buf kind obj) memory =
      .ok () after) : after.text block = none := by
  obtain ⟨_, middle, freed, returned⟩ := of_bind_ok ran
  rw [poolBack_text returned]
  exact freeText_ends freed

theorem msgCleanParam_ends {param : Ptr}
    (data : (memory.param param).data = some block)
    (ran : msgCleanParam buf param memory = .ok () after) :
    after.text block = none := by
  unfold msgCleanParam at ran
  rw [bind_run_ok (get_run memory)] at ran
  dsimp only at ran
  rw [data] at ran
  cases type : (memory.param param).type with
  | str =>
      simp only [type] at ran
      obtain ⟨_, _, -, ran⟩ := of_bind_ok ran
      obtain ⟨_, _, -, ran⟩ := of_bind_ok ran
      exact freeText_poolBack_ends ran
  | kv =>
      simp only [type] at ran
      obtain ⟨_, _, -, ran⟩ := of_bind_ok ran
      obtain ⟨_, _, -, ran⟩ := of_bind_ok ran
      obtain ⟨_, _, -, ran⟩ := of_bind_ok ran
      obtain ⟨_, _, -, ran⟩ := of_bind_ok ran
      obtain ⟨_, _, -, ran⟩ := of_bind_ok ran
      obtain ⟨_, _, -, ran⟩ := of_bind_ok ran
      obtain ⟨_, _, -, ran⟩ := of_bind_ok ran
      obtain ⟨_, _, -, ran⟩ := of_bind_ok ran
      exact freeText_poolBack_ends ran

theorem msgCleanCmd_ends {cmd : Ptr}
    (data : (memory.cmd cmd).data = some block)
    (ran : msgCleanCmd buf (some cmd) memory = .ok () after) :
    after.text block = none := by
  unfold msgCleanCmd at ran
  dsimp only at ran
  rw [bind_run_ok (get_run memory), data] at ran
  cases name : (memory.cmd cmd).name with
  | none =>
      simp only [name] at ran
      exact freeText_poolBack_ends ran
  | some name =>
      simp only [name] at ran
      obtain ⟨_, _, -, ran⟩ := of_bind_ok ran
      exact freeText_poolBack_ends ran

/-- Objects that cleaning only returns to their pools. -/
structure SameObjects (start memory : Memory) : Prop where
  msg : memory.msg = start.msg
  cmd : memory.cmd = start.cmd
  param : memory.param = start.param

theorem sameObjects_returnable (start : Memory) :
    Returnable (fun _ => True) (SameObjects start) where
  setPool _ same _ _ := ⟨same.msg, same.cmd, same.param⟩
  free same _ := ⟨same.msg, same.cmd, same.param⟩

theorem fades_returnable (start : Memory) :
    Returnable (fun _ => True) (Fades start) :=
  (fades_stable start).returnable []

/-- The loop of `msg_clean` ends the buffer of every parameter: that of the
first one at once, and those of the others because they are still there. -/
theorem msgCleanParams_ends {params : List ParamShape} {fuel : Nat}
    (linked : Linked memory.paramNext (params.map ParamShape.obj).head?
      (params.map ParamShape.obj))
    (data : ∀ param ∈ params,
      (memory.param param.obj).data = some param.block)
    (old : ∀ param ∈ params, param.block < memory.textBrk)
    (ran : msgCleanParams buf fuel (params.map ParamShape.obj).head? memory =
      .ok () after) : ∀ param ∈ params, after.text param.block = none := by
  induction params generalizing fuel memory with
  | nil =>
      intro param member
      cases member
  | cons first params induction =>
      cases fuel with
      | zero => cases ran
      | succ fuel =>
          simp only [List.map_cons, List.head?_cons, linked_cons, true_and]
            at linked ran
          unfold msgCleanParams at ran
          rw [bind_run_ok (get_run memory)] at ran
          obtain ⟨_, middle, cleaned, ran⟩ := of_bind_ok ran
          have same := (maintains_msgCleanParam (sameObjects_returnable memory)
            trivial first.obj).kept ⟨rfl, rfl, rfl⟩ cleaned
          have fades := (maintains_msgCleanParam (fades_returnable memory)
            trivial first.obj).kept (Fades.refl memory) cleaned
          have later := (maintains_msgCleanParams (fades_returnable middle)
            trivial fuel _).kept (Fades.refl middle) ran
          have start : (memory.param first.obj).next =
              (params.map ParamShape.obj).head? := linked.start_eq
          rw [start] at ran
          have next : middle.paramNext = memory.paramNext := by
            funext param
            rw [Memory.paramNext, same.param]
            rfl
          intro param member
          cases List.mem_cons.mp member with
          | inl isFirst =>
              rw [isFirst]
              apply later.stays_dead
              · exact Nat.lt_of_lt_of_le (old first List.mem_cons_self)
                  fades.textBrk
              · exact msgCleanParam_ends (data first List.mem_cons_self) cleaned
          | inr isLater =>
              apply induction _ _ _ ran param isLater
              · rw [next, ← start]
                exact linked
              · intro other found
                rw [same.param]
                exact data other (List.mem_cons_of_mem first found)
              · intro other found
                exact Nat.lt_of_lt_of_le
                  (old other (List.mem_cons_of_mem first found)) fades.textBrk

theorem msgCleanChain_ends {shape : MsgShape} (msgAt : MsgAt memory shape)
    (old : ∀ param ∈ shape.params, param.block < memory.textBrk)
    (ran : msgCleanChain buf shape.obj memory = .ok () after) :
    ∀ param ∈ shape.params, after.text param.block = none := by
  unfold msgCleanChain at ran
  rw [bind_run_ok (get_run memory)] at ran
  by_cases positive : (memory.msg shape.obj).paramCount > 0
  · rw [if_pos positive, msgAt.header] at ran
    exact msgCleanParams_ends msgAt.linked
      (fun param member => (msgAt.params param member).data) old ran
  · rw [msgAt.uncounted positive]
    intro param member
    cases member

/-- `msg_clean` ends the buffers of all lines the message came in. -/
theorem msgClean_ends {shape : MsgShape} (msgAt : MsgAt memory shape)
    (old : ∀ block ∈ shape.blocks, block < memory.textBrk)
    (ran : msgClean shape.obj memory = .ok () after) :
    ∀ block ∈ shape.blocks, after.text block = none := by
  unfold msgClean at ran
  rw [bind_run_ok (msgBuf_run (by rw [msgAt.header]))] at ran
  obtain ⟨_, second, chain, ran⟩ := of_bind_ok ran
  rw [bind_run_ok (get_run second)] at ran
  obtain ⟨_, third, command, ran⟩ := of_bind_ok ran
  have same := (maintains_msgCleanChain (sameObjects_returnable memory)
    trivial _).kept ⟨rfl, rfl, rfl⟩ chain
  have begins := (maintains_msgCleanChain (fades_returnable memory)
    trivial _).kept (Fades.refl memory) chain
  have fades := (maintains_msgCleanCmd (fades_returnable second)
    trivial _).kept (Fades.refl second) command
  have text : after.text = third.text := by
    cases ran
    rfl
  intro block member
  rw [text]
  cases List.mem_append.mp member with
  | inl inCmd =>
      obtain ⟨cmd, found, isBlock⟩ := List.mem_map.mp inCmd
      have known := Option.mem_toList.mp found
      have contents := msgAt.cmd cmd known
      rw [same.msg, msgAt.header, Option.mem_def.mp known] at command
      rw [← isBlock]
      apply msgCleanCmd_ends _ command
      rw [same.cmd, contents.obj]
  | inr inParams =>
      obtain ⟨param, found, isBlock⟩ := List.mem_map.mp inParams
      rw [← isBlock]
      have begun : ∀ param ∈ shape.params, param.block < memory.textBrk := by
        intro other isOther
        exact old _ (List.mem_append_right _ (List.mem_map_of_mem isOther))
      apply fades.stays_dead
      · exact Nat.lt_of_lt_of_le (begun param found) begins.textBrk
      · exact msgCleanChain_ends msgAt begun chain param found

theorem msgFree_ends {shape : MsgShape} (msgAt : MsgAt memory shape)
    (old : ∀ block ∈ shape.blocks, block < memory.textBrk)
    (ran : msgFree (some shape.obj) memory = .ok () after) :
    ∀ block ∈ shape.blocks, after.text block = none := by
  unfold msgFree at ran
  dsimp only at ran
  rw [bind_run_ok (msgBuf_run (by rw [msgAt.header]))] at ran
  obtain ⟨_, middle, cleaned, returned⟩ := of_bind_ok ran
  rw [poolBack_text returned]
  exact msgClean_ends msgAt old cleaned

/-! ## Buffers among the cells of a message -/

def Cell.textBlock : Cell → Option Nat
  | .obj _ _ => none
  | .text block => some block

/-- The buffers in a set of cells. -/
def textBlocks (cells : Multiset Cell) : Multiset Nat :=
  cells.filterMap Cell.textBlock

@[simp] theorem textBlocks_zero : textBlocks 0 = 0 :=
  rfl

@[simp] theorem textBlocks_add (left right : Multiset Cell) :
    textBlocks (left + right) = textBlocks left + textBlocks right :=
  Multiset.filterMap_add _ left right

@[simp] theorem textBlocks_cons_obj (kind : PoolKind) (ptr : Ptr)
    (cells : Multiset Cell) :
    textBlocks (.obj kind ptr ::ₘ cells) = textBlocks cells :=
  Multiset.filterMap_cons_none _ _ rfl

@[simp] theorem textBlocks_cons_text (block : Nat) (cells : Multiset Cell) :
    textBlocks (.text block ::ₘ cells) = block ::ₘ textBlocks cells :=
  Multiset.filterMap_cons_some _ _ _ rfl

@[simp] theorem textBlocks_singleton_obj (kind : PoolKind) (ptr : Ptr) :
    textBlocks {.obj kind ptr} = 0 :=
  textBlocks_cons_obj kind ptr 0

@[simp] theorem textBlocks_singleton_text (block : Nat) :
    textBlocks {.text block} = {block} :=
  textBlocks_cons_text block 0

theorem mem_textBlocks {cells : Multiset Cell} :
    block ∈ textBlocks cells ↔ .text block ∈ cells := by
  rw [textBlocks, Multiset.mem_filterMap]
  constructor
  · intro found
    obtain ⟨cell, member, same⟩ := found
    cases cell with
    | obj kind ptr => cases same
    | text other =>
        cases same
        exact member
  · intro member
    exact ⟨_, member, rfl⟩

theorem textBlocks_nodup {cells : Multiset Cell} (distinct : cells.Nodup) :
    (textBlocks cells).Nodup := by
  apply distinct.filterMap
  intro first second block inFirst inSecond
  cases first with
  | obj kind ptr => cases inFirst
  | text block =>
      cases second with
      | obj kind ptr => cases inSecond
      | text other =>
          cases inFirst
          cases inSecond
          rfl

theorem ParamShape.cells_blocks (param : ParamShape) :
    textBlocks param.cells = {param.block} := by
  cases body : param.body with
  | str str text => simp [ParamShape.cells, ParamBody.cells, body]
  | kv kv key value keyText valueText =>
      simp [ParamShape.cells, ParamBody.cells, body]

theorem paramCells_blocks (params : List ParamShape) :
    textBlocks (paramCells params) = ↑(params.map ParamShape.block) := by
  induction params with
  | nil => rfl
  | cons param params induction =>
      rw [paramCells_cons, textBlocks_add, param.cells_blocks, induction]
      rfl

/-- The buffers a message owns are those of the lines it came in. -/
theorem MsgShape.cells_blocks (shape : MsgShape) :
    textBlocks shape.cells = ↑shape.blocks := by
  rw [MsgShape.cells, textBlocks_cons_obj, textBlocks_add, paramCells_blocks,
    MsgShape.blocks, ← Multiset.coe_add]
  congr 1
  cases shape.cmd with
  | none => rfl
  | some cmd => simp [MsgShape.cmdCells, CmdShape.cells]

theorem MsgShape.text_mem_cells {shape : MsgShape} :
    .text block ∈ shape.cells ↔ block ∈ shape.blocks := by
  rw [← mem_textBlocks, shape.cells_blocks, Multiset.mem_coe]

/-- The buffers of a message exist. -/
theorem Holds.blocks_old {shape : MsgShape}
    (holds : Holds memory (shape.cells + owned)) :
    ∀ block ∈ shape.blocks, block < memory.textBrk := by
  intro block member
  have inside := MsgShape.text_mem_cells.mpr member
  exact (holds.texts block (Multiset.mem_add.mpr (.inl inside))).1

end KetamaRouter
