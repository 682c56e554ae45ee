import Mathlib.Algebra.Order.Group.Multiset
import Mathlib.Tactic.Abel
import KetamaRouter.Ownership
import KetamaRouter.Protocol.Reader
import KetamaRouter.Source.Message

/-!
# Shape of a message in memory

A `MsgShape` lists the objects and buffers a message owns together with what
they say: the command with its name, and the parameters in order.  It cannot
hold more parameters than the command declares.  `MsgAt memory shape` says
that the memory contains a message of that shape, which determines its status
field, its counter and both ends of its parameter chain.
-/

namespace KetamaRouter

open PointerChain FaultProgram

structure CmdShape where
  obj : Ptr
  name : Ptr
  block : Nat
  line : Bytes
  nameText : Bytes
  count : UInt16

/-- The objects below a parameter. -/
inductive ParamBody where
  | str (str : Ptr) (text : Bytes)
  | kv (kv key value : Ptr) (keyText valueText : Bytes)

structure ParamShape where
  obj : Ptr
  block : Nat
  line : Bytes
  body : ParamBody

/-- How many parameters a message with this command expects. -/
def declaredCount (cmd : Option CmdShape) : Nat :=
  cmd.elim 0 fun cmd => cmd.count.toNat

structure MsgShape where
  obj : Ptr
  cmd : Option CmdShape
  params : List ParamShape
  fits : params.length ≤ declaredCount cmd

def CmdShape.cells (cmd : CmdShape) : Multiset Cell :=
  {.obj .cmd cmd.obj, .obj .str cmd.name, .text cmd.block}

def ParamBody.cells : ParamBody → Multiset Cell
  | .str ptr _ => {.obj .str ptr}
  | .kv pair key value _ _ =>
      {.obj .paramKv pair, .obj .str key, .obj .str value}

def ParamBody.parameter : ParamBody → Parameter
  | .str _ text => .str text
  | .kv _ _ _ keyText valueText => .keyValue keyText valueText

def ParamShape.cells (param : ParamShape) : Multiset Cell :=
  .obj .param param.obj ::ₘ .text param.block ::ₘ param.body.cells

/-- The cells of a message's parameters. -/
def paramCells : List ParamShape → Multiset Cell
  | [] => 0
  | param :: params => param.cells + paramCells params

@[simp] theorem paramCells_nil : paramCells [] = 0 :=
  rfl

@[simp] theorem paramCells_cons (param : ParamShape)
    (params : List ParamShape) :
    paramCells (param :: params) = param.cells + paramCells params :=
  rfl

@[simp] theorem paramCells_append (left right : List ParamShape) :
    paramCells (left ++ right) = paramCells left + paramCells right := by
  induction left with
  | nil => simp
  | cons param params induction => simp [induction, add_assoc]

namespace MsgShape

def cmdCells (cmd : Option CmdShape) : Multiset Cell :=
  cmd.elim 0 CmdShape.cells

def cells (shape : MsgShape) : Multiset Cell :=
  .obj .msg shape.obj ::ₘ (cmdCells shape.cmd + paramCells shape.params)

def stat (shape : MsgShape) : MsgStat :=
  match shape.cmd with
  | none => .none
  | some cmd =>
      if shape.params.length < cmd.count.toNat then .dataMore else .done

/-- A message without a command. -/
def idle (obj : Ptr) : MsgShape :=
  { obj := obj, cmd := none, params := [], fits := Nat.zero_le _ }

/-- A message with a command and no parameters yet. -/
def opened (obj : Ptr) (cmd : CmdShape) : MsgShape :=
  { obj := obj, cmd := some cmd, params := [], fits := Nat.zero_le _ }

/-- One more parameter for a message that still waits for one. -/
def push (shape : MsgShape) (param : ParamShape)
    (room : shape.params.length < declaredCount shape.cmd) : MsgShape :=
  { shape with
    params := shape.params ++ [param]
    fits := by
      rw [List.length_append, List.length_singleton]
      exact room }

@[simp] theorem idle_cells (obj : Ptr) :
    (idle obj).cells = {.obj .msg obj} :=
  rfl

@[simp] theorem opened_cells (obj : Ptr) (cmd : CmdShape) :
    (opened obj cmd).cells = .obj .msg obj ::ₘ cmd.cells := by
  simp [opened, cells, cmdCells]

theorem push_cells (shape : MsgShape) (param : ParamShape)
    (room : shape.params.length < declaredCount shape.cmd) :
    (shape.push param room).cells = param.cells + shape.cells := by
  simp only [push, cells, paramCells_append, paramCells_cons, paramCells_nil,
    ← Multiset.singleton_add]
  abel

def parameters (shape : MsgShape) : List Parameter :=
  shape.params.map fun param => param.body.parameter

/-- The buffers of the lines the message came in, oldest first. -/
def blocks (shape : MsgShape) : List Nat :=
  shape.cmd.toList.map CmdShape.block ++ shape.params.map ParamShape.block

theorem push_blocks (shape : MsgShape) (param : ParamShape)
    (room : shape.params.length < declaredCount shape.cmd) :
    (shape.push param room).blocks = shape.blocks ++ [param.block] := by
  simp [blocks, push]

/-- What the message asks for so far. -/
def request (shape : MsgShape) : Option Request :=
  shape.cmd.map fun cmd => ⟨cmd.nameText, shape.parameters⟩

end MsgShape

/-- The object `str` denotes `text`, a part of the buffer `block` holding
`line`. -/
def StrAt (memory : Memory) (block : Nat) (line : Bytes) (str : Ptr)
    (text : Bytes) : Prop :=
  ∃ off,
    memory.str str =
      { type := .none, data := some ⟨block, off⟩, len := text.length } ∧
    off + text.length ≤ line.length ∧
    (line.drop off).take text.length = text

structure CmdAt (memory : Memory) (buf : BufId) (cmd : CmdShape) : Prop where
  home : cmd.obj.buf = buf ∧ cmd.name.buf = buf
  obj : memory.cmd cmd.obj =
    { name := some cmd.name, paramCount := cmd.count, data := some cmd.block }
  name : StrAt memory cmd.block cmd.line cmd.name cmd.nameText
  text : memory.text cmd.block = some cmd.line

/-- The fields of a `param_t` other than `next`, which belongs to the chain. -/
structure ParamFields (contents : Param) (type : ParamType)
    (str kv : Option Ptr) (block : Nat) : Prop where
  type : contents.type = type
  str : contents.str = str
  kv : contents.kv = kv
  data : contents.data = some block

def ParamBodyAt (memory : Memory) (buf : BufId) (param : ParamShape) :
    ParamBody → Prop
  | .str str text =>
      str.buf = buf ∧
      ParamFields (memory.param param.obj) .str (some str) none param.block ∧
      StrAt memory param.block param.line str text
  | .kv kv key value keyText valueText =>
      (kv.buf = buf ∧ key.buf = buf ∧ value.buf = buf) ∧
      ParamFields (memory.param param.obj) .kv none (some kv) param.block ∧
      memory.paramKv kv = { key := some key, value := some value } ∧
      StrAt memory param.block param.line key keyText ∧
      StrAt memory param.block param.line value valueText

structure ParamAt (memory : Memory) (buf : BufId) (param : ParamShape) :
    Prop where
  home : param.obj.buf = buf
  body : ParamBodyAt memory buf param param.body
  text : memory.text param.block = some param.line

def Memory.paramNext (memory : Memory) (param : Ptr) : Option Ptr :=
  (memory.param param).next

structure MsgAt (memory : Memory) (shape : MsgShape) : Prop where
  header : memory.msg shape.obj =
    { buf := some shape.obj.buf
      cmd := shape.cmd.map CmdShape.obj
      paramCount := UInt16.ofNat shape.params.length
      paramFirst := (shape.params.map ParamShape.obj).head?
      paramLast := (shape.params.map ParamShape.obj).getLast?
      stat := shape.stat }
  cmd : ∀ cmd ∈ shape.cmd, CmdAt memory shape.obj.buf cmd
  linked : Linked memory.paramNext (shape.params.map ParamShape.obj).head?
    (shape.params.map ParamShape.obj)
  params : ∀ param ∈ shape.params, ParamAt memory shape.obj.buf param

variable {memory after : Memory} {owned : Multiset Cell} {buf : BufId}

theorem ParamShape.cells_le {param : ParamShape} {params : List ParamShape}
    (member : param ∈ params) : param.cells ≤ paramCells params := by
  induction params with
  | nil => cases member
  | cons head params induction =>
      rcases List.mem_cons.mp member with rfl | later
      · exact Multiset.le_add_right _ _
      · exact (induction later).trans (Multiset.le_add_left _ _)

theorem ParamAt.data {param : ParamShape}
    (paramAt : ParamAt memory buf param) :
    (memory.param param.obj).data = some param.block := by
  have body := paramAt.body
  cases shape : param.body with
  | str str text =>
      rw [shape] at body
      exact body.2.1.data
  | kv kv key value keyText valueText =>
      rw [shape] at body
      exact body.2.1.data

/-! ## Steps that leave the cells of a message alone -/

theorem StrAt.frame {block : Nat} {line text : Bytes} {str : Ptr}
    (holds : StrAt memory block line str text)
    (frame : Frame owned memory after) (member : .obj .str str ∈ owned) :
    StrAt after block line str text := by
  obtain ⟨off, contents, inside, part⟩ := holds
  exact ⟨off, (frame.str str member).trans contents, inside, part⟩

theorem CmdAt.frame {cmd : CmdShape} (holds : CmdAt memory buf cmd)
    (frame : Frame owned memory after)
    (sub : ∀ cell ∈ cmd.cells, cell ∈ owned) : CmdAt after buf cmd where
  home := holds.home
  obj := (frame.cmd _ (sub _ (by simp [CmdShape.cells]))).trans holds.obj
  name := holds.name.frame frame (sub _ (by simp [CmdShape.cells]))
  text := (frame.text _ (sub _ (by simp [CmdShape.cells]))).trans holds.text

theorem ParamBodyAt.frame {param : ParamShape} {body : ParamBody}
    (holds : ParamBodyAt memory buf param body)
    (frame : Frame owned memory after)
    (objOwned : .obj .param param.obj ∈ owned)
    (sub : ∀ cell ∈ body.cells, cell ∈ owned) :
    ParamBodyAt after buf param body := by
  have objSame := frame.param param.obj objOwned
  cases body with
  | str str text =>
      obtain ⟨home, contents, strHolds⟩ := holds
      have strOwned : .obj .str str ∈ owned := sub _ (by simp [ParamBody.cells])
      refine ⟨home, ?_, strHolds.frame frame strOwned⟩
      rw [objSame]
      exact contents
  | kv kv key value keyText valueText =>
      obtain ⟨home, contents, kvHolds, keyHolds, valueHolds⟩ := holds
      have kvOwned : .obj .paramKv kv ∈ owned :=
        sub _ (by simp [ParamBody.cells])
      have keyOwned : .obj .str key ∈ owned := sub _ (by simp [ParamBody.cells])
      have valueOwned : .obj .str value ∈ owned :=
        sub _ (by simp [ParamBody.cells])
      refine ⟨home, ?_, (frame.paramKv kv kvOwned).trans kvHolds,
        keyHolds.frame frame keyOwned, valueHolds.frame frame valueOwned⟩
      rw [objSame]
      exact contents

theorem ParamAt.frame {param : ParamShape} (holds : ParamAt memory buf param)
    (frame : Frame owned memory after)
    (sub : ∀ cell ∈ param.cells, cell ∈ owned) : ParamAt after buf param where
  home := holds.home
  body := by
    refine holds.body.frame frame (sub _ (by simp [ParamShape.cells])) ?_
    intro cell member
    exact sub cell (by simp [ParamShape.cells, member])
  text := (frame.text _ (sub _ (by simp [ParamShape.cells]))).trans holds.text

theorem MsgShape.mem_cells_of_cmd {shape : MsgShape} {cmd : CmdShape}
    (found : shape.cmd = some cmd) {cell : Cell} (member : cell ∈ cmd.cells) :
    cell ∈ shape.cells := by
  simp [MsgShape.cells, MsgShape.cmdCells, found, member]

theorem MsgShape.mem_cells_of_param {shape : MsgShape} {param : ParamShape}
    (found : param ∈ shape.params) {cell : Cell}
    (member : cell ∈ param.cells) : cell ∈ shape.cells := by
  have inParams : cell ∈ paramCells shape.params :=
    Multiset.mem_of_le (ParamShape.cells_le found) member
  simp [MsgShape.cells, inParams]

theorem MsgAt.frame {shape : MsgShape} (holds : MsgAt memory shape)
    (frame : Frame owned memory after)
    (sub : ∀ cell ∈ shape.cells, cell ∈ owned) : MsgAt after shape where
  header := (frame.msg _ (sub _ (by simp [MsgShape.cells]))).trans holds.header
  cmd := fun cmd found => (holds.cmd cmd found).frame frame fun _ member =>
    sub _ (MsgShape.mem_cells_of_cmd found member)
  linked := holds.linked.congr fun obj member => by
    obtain ⟨param, found, rfl⟩ := List.mem_map.mp member
    have inside : Cell.obj .param param.obj ∈ shape.cells :=
      MsgShape.mem_cells_of_param found (by simp [ParamShape.cells])
    simp only [Memory.paramNext, frame.param _ (sub _ inside)]
  params := fun param found =>
    (holds.params param found).frame frame fun _ member =>
      sub _ (MsgShape.mem_cells_of_param found member)

/-- Distinct parameters of a message are distinct objects. -/
theorem paramCells_objs_nodup {params : List ParamShape}
    (distinct : (paramCells params).Nodup) :
    (params.map ParamShape.obj).Nodup := by
  induction params with
  | nil => exact List.nodup_nil
  | cons param params induction =>
      rw [paramCells_cons, Multiset.nodup_add] at distinct
      obtain ⟨-, tailDistinct, apart⟩ := distinct
      rw [List.map_cons, List.nodup_cons]
      refine ⟨?_, induction tailDistinct⟩
      intro member
      obtain ⟨other, found, same⟩ := List.mem_map.mp member
      have inHead : Cell.obj .param param.obj ∈ param.cells := by
        simp [ParamShape.cells]
      have inTail : Cell.obj .param param.obj ∈ paramCells params :=
        Multiset.mem_of_le (ParamShape.cells_le found)
          (by simp [ParamShape.cells, same])
      exact Multiset.disjoint_left.mp apart inHead inTail

end KetamaRouter
