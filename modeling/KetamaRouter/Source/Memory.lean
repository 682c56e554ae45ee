import KetamaRouter.Library.Ledger
import KetamaRouter.Source.CString
import KetamaRouter.Source.Pabuf

/-!
# Memory, pools and sockets

The heap has one component for each structure of `str.h` and `message.h`, and
one for character buffers.  A pooled object is named by the message buffer
whose pool allocated it and the rank of that allocation.  Objects recycled by
a pool keep their old contents; `calloc` zeroes fresh ones.  Each pool keeps a
ledger of the objects it handed out and took back, and each socket a record of
the bytes it accepted; the code reads neither.
-/

namespace KetamaRouter

/-- A `msg_buf_t`: the server's own, or that of a worker. -/
inductive BufId where
  | server
  | worker (index : Nat)
  deriving DecidableEq, Repr

/-- The pools of a `msg_buf_t`. -/
inductive PoolKind where
  | msg
  | str
  | cmd
  | param
  | paramKv
  deriving DecidableEq, Repr

/-- A pooled object. -/
@[ext] structure Ptr where
  buf : BufId
  idx : Nat
  deriving DecidableEq, Repr

/-- A `char *` into the buffer `block`. -/
structure CharPtr where
  block : Nat
  off : Nat
  deriving DecidableEq, Repr

inductive StrType where
  | none
  | alloc
  deriving DecidableEq, Repr

/-- `str_t` -/
structure Str where
  type : StrType
  data : Option CharPtr
  len : Nat
  deriving DecidableEq, Repr

/-- `cmd_t` -/
structure Cmd where
  name : Option Ptr
  paramCount : UInt16
  data : Option Nat
  deriving DecidableEq, Repr

/-- `param_kv_t` -/
structure ParamKv where
  key : Option Ptr
  value : Option Ptr
  deriving DecidableEq, Repr

inductive ParamType where
  | str
  | kv
  deriving DecidableEq, Repr

/-- `param_t` -/
structure Param where
  type : ParamType
  str : Option Ptr
  kv : Option Ptr
  next : Option Ptr
  data : Option Nat
  deriving DecidableEq, Repr

inductive MsgStat where
  | none
  | dataMore
  | done
  deriving DecidableEq, Repr

/-- `msg_t` -/
structure Msg where
  buf : Option BufId
  cmd : Option Ptr
  paramCount : UInt16
  paramFirst : Option Ptr
  paramLast : Option Ptr
  stat : MsgStat
  deriving DecidableEq, Repr

/-- What one call of `write` does: it fails, or it accepts at most `limit` of
the bytes offered. -/
inductive WriteResult where
  | fails
  | accepts (limit : Nat)
  deriving DecidableEq, Repr

/-- A socket: how its writes behave, given the rank of the call and the number
of bytes offered, and what it has accepted. -/
structure Socket where
  behaviour : Nat → Nat → WriteResult
  calls : Nat
  sent : Bytes

/-- One `write` on a socket: the `ssize_t` it returns, and the socket after it. -/
def Socket.write (socket : Socket) (bytes : Bytes) : Int64 × Socket :=
  match socket.behaviour socket.calls bytes.length with
  | .fails => (-1, { socket with calls := socket.calls + 1 })
  | .accepts limit =>
      (Int64.ofNat (bytes.take limit).length,
        { socket with
          calls := socket.calls + 1
          sent := socket.sent ++ bytes.take limit })

structure Pool where
  pabuf : Pabuf Ptr
  objBrk : Nat
  ledger : List (Ledger.Entry Ptr)

structure Memory where
  msg : Ptr → Msg
  cmd : Ptr → Cmd
  param : Ptr → Param
  paramKv : Ptr → ParamKv
  str : Ptr → Str
  pool : BufId → PoolKind → Pool
  text : Nat → Option Bytes
  textBrk : Nat
  socket : Nat → Socket

abbrev MemProgram := EStateM Fault Memory

namespace Memory

variable (memory : Memory)

def setMsg (msg : Ptr) (change : Msg → Msg) : Memory :=
  { memory with msg := Function.update memory.msg msg (change (memory.msg msg)) }

def setCmd (cmd : Ptr) (change : Cmd → Cmd) : Memory :=
  { memory with cmd := Function.update memory.cmd cmd (change (memory.cmd cmd)) }

def setParam (param : Ptr) (change : Param → Param) : Memory :=
  { memory with
    param := Function.update memory.param param (change (memory.param param)) }

def setParamKv (kv : Ptr) (change : ParamKv → ParamKv) : Memory :=
  { memory with
    paramKv := Function.update memory.paramKv kv (change (memory.paramKv kv)) }

def setStr (str : Ptr) (change : Str → Str) : Memory :=
  { memory with str := Function.update memory.str str (change (memory.str str)) }

def setPool (buf : BufId) (kind : PoolKind) (pool : Pool) : Memory :=
  { memory with
    pool := Function.update memory.pool buf
      (Function.update (memory.pool buf) kind pool) }

def setText (block : Nat) (contents : Option Bytes) : Memory :=
  { memory with text := Function.update memory.text block contents }

def setSocket (sock : Nat) (socket : Socket) : Memory :=
  { memory with socket := Function.update memory.socket sock socket }

/-- The effect of `calloc` on a fresh object. -/
def zero (kind : PoolKind) (obj : Ptr) : Memory :=
  match kind with
  | .msg => memory.setMsg obj fun _ =>
      { buf := none, cmd := none, paramCount := 0, paramFirst := none,
        paramLast := none, stat := .none }
  | .str => memory.setStr obj fun _ => { type := .none, data := none, len := 0 }
  | .cmd => memory.setCmd obj fun _ =>
      { name := none, paramCount := 0, data := none }
  | .param => memory.setParam obj fun _ =>
      { type := .str, str := none, kv := none, next := none, data := none }
  | .paramKv => memory.setParamKv obj fun _ => { key := none, value := none }

end Memory

/-- Use a pointer that must not be null. -/
def deref {σ α : Type} (pointer : Option α) : EStateM Fault σ α :=
  match pointer with
  | some target => pure target
  | none => throw .nullPointer

/-- `pabuf_get(buf->kind)` -/
def poolGet (buf : BufId) (kind : PoolKind) : MemProgram Ptr := do
  let memory ← get
  let fresh : Ptr := ⟨buf, (memory.pool buf kind).objBrk⟩
  let obj ← FaultProgram.focus (fun memory => (memory.pool buf kind).pabuf)
    (fun memory pabuf => memory.setPool buf kind
      { memory.pool buf kind with pabuf := pabuf })
    (pabufGet fresh)
  modify fun memory =>
    let pool := memory.pool buf kind
    memory.setPool buf kind { pool with ledger := .taken obj :: pool.ledger }
  if obj = fresh then
    modify fun memory =>
      let pool := memory.pool buf kind
      (memory.setPool buf kind { pool with objBrk := pool.objBrk + 1 }).zero
        kind fresh
  return obj

/-- `pabuf_back(buf->kind, obj)` -/
def poolBack (buf : BufId) (kind : PoolKind) (obj : Ptr) :
    MemProgram Unit := do
  FaultProgram.focus (fun memory => (memory.pool buf kind).pabuf)
    (fun memory pabuf => memory.setPool buf kind
      { memory.pool buf kind with pabuf := pabuf })
    (pabufBack obj)
  modify fun memory =>
    let pool := memory.pool buf kind
    memory.setPool buf kind { pool with ledger := .returned obj :: pool.ledger }

/-- A new character buffer. -/
def mallocText (contents : Bytes) : MemProgram Nat := do
  let memory ← get
  set { memory.setText memory.textBrk (some contents) with
    textBrk := memory.textBrk + 1 }
  return memory.textBrk

/-- `calloc(size, 1)` followed by `sprintf` of `text` into the new buffer. -/
def callocSprintf (size : Nat) (text : Bytes) : MemProgram Nat := do
  if intMax < text.length then
    throw .unspecified
  else if size < text.length + 1 then
    throw .outOfBounds
  else
    mallocText text

/-- `free` of a character buffer. -/
def freeText (block : Option Nat) : MemProgram Unit := do
  match block with
  | none => pure ()
  | some block =>
      let memory ← get
      match memory.text block with
      | none => throw .freedMemory
      | some _ => set (memory.setText block none)

/-- The bytes of a live buffer. -/
def readText (block : Nat) : MemProgram Bytes := do
  let memory ← get
  match memory.text block with
  | none => throw .freedMemory
  | some contents => return contents

/-- The C string at `pointer`. -/
def readCStr (pointer : CharPtr) : MemProgram Bytes := do
  let contents ← readText pointer.block
  return cStr (contents.drop pointer.off)

/-- The bytes a `str_t` denotes: `len` bytes from `data` on. -/
def readStr (str : Ptr) : MemProgram Bytes := do
  let memory ← get
  let data ← deref (memory.str str).data
  let contents ← readText data.block
  if contents.length < data.off + (memory.str str).len then
    throw .outOfBounds
  else
    return (contents.drop data.off).take (memory.str str).len

/-- `write(sock, bytes, strlen(bytes))` -/
def write (sock : Nat) (bytes : Bytes) : MemProgram Int64 := do
  let memory ← get
  let (res, socket) := (memory.socket sock).write bytes
  set (memory.setSocket sock socket)
  return res

end KetamaRouter
