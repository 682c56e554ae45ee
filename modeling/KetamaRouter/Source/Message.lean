import KetamaRouter.Source.Memory

/-!
# Messages

`message.c` and the pooled half of `str.c`.  A message owns its command and a
chain of parameters; both point into character buffers they also own.
-/

namespace KetamaRouter

def msgCmdHeader : UInt8 := 43

def msgStrHeader : UInt8 := 36

def msgKvHeader : UInt8 := 37

def msgKvSept : UInt8 := 61

def msgCrlf : Bytes := [13, 10]

/-- `_bstr_init` -/
def bstrInitTyped (buf : BufId) (type : StrType) (data : CharPtr)
    (len : Nat) : MemProgram Ptr := do
  let str ← poolGet buf .str
  modify fun memory => memory.setStr str fun old =>
    { old with data := some data, len := len, type := type }
  return str

def bstrInit (buf : BufId) (data : CharPtr) (len : Nat) : MemProgram Ptr :=
  bstrInitTyped buf .none data len

def bstrFree (buf : BufId) (str : Ptr) : MemProgram Unit := do
  let memory ← get
  match (memory.str str).type with
  | .alloc => freeText ((memory.str str).data.map CharPtr.block)
  | .none => pure ()
  poolBack buf .str str

/-- `msg_buf_init`, with the sizes of the pooled structures. -/
def msgBufInit (kind : PoolKind) : Pool :=
  let objSize : UInt64 := match kind with
    | .msg => 48
    | .str => 24
    | .cmd => 24
    | .param => 40
    | .paramKv => 16
  { pabuf := pabufInit objSize, objBrk := 0, ledger := [] }

def msgInit (buf : BufId) : MemProgram Ptr := do
  let msg ← poolGet buf .msg
  modify fun memory => memory.setMsg msg fun old =>
    { old with
      buf := some buf
      cmd := none
      paramCount := 0
      paramFirst := none
      paramLast := none
      stat := .none }
  return msg

/-- `msg->buf` -/
def msgBuf (msg : Ptr) : MemProgram BufId := do
  let memory ← get
  deref (memory.msg msg).buf

/-- How far a walk over `param->next` can go before it must have met a
parameter twice. -/
def paramFuel (buf : BufId) (memory : Memory) : Nat :=
  (memory.pool buf .param).objBrk

/-- The body of the loop of `msg_clean`. -/
def msgCleanParam (buf : BufId) (param : Ptr) : MemProgram Unit := do
  let contents := (← get).param param
  match contents.type with
  | .str => bstrFree buf (← deref contents.str)
  | .kv =>
      let kv ← deref contents.kv
      bstrFree buf (← deref ((← get).paramKv kv).key)
      bstrFree buf (← deref ((← get).paramKv kv).value)
      poolBack buf .paramKv kv
  freeText contents.data
  poolBack buf .param param

/-- The loop of `msg_clean` over the parameters. -/
def msgCleanParams (buf : BufId) : Nat → Option Ptr → MemProgram Unit
  | _, none => pure ()
  | 0, some _ => throw .diverges
  | fuel + 1, some param => do
      let paramNext := ((← get).param param).next
      msgCleanParam buf param
      msgCleanParams buf fuel paramNext

/-- The part of `msg_clean` that returns the parameters. -/
def msgCleanChain (buf : BufId) (msg : Ptr) : MemProgram Unit := do
  let memory ← get
  if (memory.msg msg).paramCount > 0 then
    msgCleanParams buf (paramFuel buf memory) (memory.msg msg).paramFirst

/-- The part of `msg_clean` that returns the command. -/
def msgCleanCmd (buf : BufId) (cmd : Option Ptr) : MemProgram Unit := do
  match cmd with
  | none => pure ()
  | some cmd =>
      let contents := (← get).cmd cmd
      match contents.name with
      | none => pure ()
      | some name => bstrFree buf name
      freeText contents.data
      poolBack buf .cmd cmd

def msgClean (msg : Ptr) : MemProgram Unit := do
  let buf ← msgBuf msg
  msgCleanChain buf msg
  msgCleanCmd buf ((← get).msg msg).cmd
  modify fun memory => memory.setMsg msg fun old =>
    { old with
      cmd := none
      paramCount := 0
      paramFirst := none
      paramLast := none
      stat := .none }

def msgPutParamlist (msg param : Ptr) : MemProgram Ptr := do
  modify fun memory => memory.setParam param fun old =>
    { old with next := none }
  let memory ← get
  match (memory.msg msg).paramFirst with
  | none =>
      modify fun memory => memory.setMsg msg fun old =>
        { old with paramFirst := some param, paramLast := some param }
  | some _ =>
      let last ← deref (memory.msg msg).paramLast
      modify fun memory => memory.setParam last fun old =>
        { old with next := some param }
      modify fun memory => memory.setMsg msg fun old =>
        { old with paramLast := some param }
  modify fun memory => memory.setMsg msg fun old =>
    { old with paramCount := old.paramCount + 1 }
  return param

def msgInitCmd (buf : BufId) (cmd : CharPtr) (cmdLen : Nat)
    (paramCount : UInt16) (data : Nat) : MemProgram Ptr := do
  let ncmd ← poolGet buf .cmd
  let name ← bstrInit buf cmd cmdLen
  modify fun memory => memory.setCmd ncmd fun old =>
    { old with name := some name, paramCount := paramCount, data := some data }
  return ncmd

/-- `msg_gen_cmd`; `cmd` is the string the caller passes.  The object is filled
by the statements of `msg_init_cmd`. -/
def msgGenCmd (buf : BufId) (cmd : Bytes) (cmdLen : Nat)
    (paramCount : UInt16) : MemProgram Ptr := do
  let name := formatStr (precision cmdLen) cmd
  let data ← callocSprintf (cmdLen + 10)
    (if paramCount = 0 then [msgCmdHeader] ++ name ++ msgCrlf
      else [msgCmdHeader] ++ name ++ [32] ++ formatInt paramCount.toNat ++
        msgCrlf)
  msgInitCmd buf ⟨data, 1⟩ cmdLen paramCount data

def msgSetCmd (msg cmd : Ptr) : MemProgram Ptr := do
  modify fun memory => memory.setMsg msg fun old => { old with cmd := some cmd }
  let memory ← get
  if (memory.cmd cmd).paramCount > 0 then
    modify fun memory => memory.setMsg msg fun old =>
      { old with stat := .dataMore }
  else
    modify fun memory => memory.setMsg msg fun old => { old with stat := .done }
  return cmd

def msgInitParamStr (buf : BufId) (param : CharPtr) (paramLen : Nat)
    (data : Nat) : MemProgram Ptr := do
  let nparam ← poolGet buf .param
  let str ← bstrInit buf param paramLen
  modify fun memory => memory.setParam nparam fun old =>
    { old with
      type := .str
      str := some str
      kv := none
      next := none
      data := some data }
  return nparam

def msgInitParamKv (buf : BufId) (key : CharPtr) (keyLen : Nat)
    (value : CharPtr) (valueLen : Nat) (data : Nat) : MemProgram Ptr := do
  let nparam ← poolGet buf .param
  let kv ← poolGet buf .paramKv
  let keyStr ← bstrInit buf key keyLen
  let valueStr ← bstrInit buf value valueLen
  modify fun memory => memory.setParamKv kv fun old =>
    { old with key := some keyStr, value := some valueStr }
  modify fun memory => memory.setParam nparam fun old =>
    { old with
      type := .kv
      kv := some kv
      str := none
      next := none
      data := some data }
  return nparam

def msgGenParamStr (buf : BufId) (str : Bytes) (strLen : Nat) :
    MemProgram Ptr := do
  let data ← callocSprintf (strLen + 4)
    ([msgStrHeader] ++ formatStr (precision strLen) str ++ msgCrlf)
  msgInitParamStr buf ⟨data, 1⟩ strLen data

def msgGenParamKv (buf : BufId) (key : Bytes) (keyLen : Nat)
    (value : Bytes) (valueLen : Nat) : MemProgram Ptr := do
  let data ← callocSprintf (keyLen + valueLen + 5)
    ([msgKvHeader] ++ formatStr (precision keyLen) key ++ [msgKvSept] ++
      formatStr (precision valueLen) value ++ msgCrlf)
  msgInitParamKv buf ⟨data, 1⟩ keyLen ⟨data, 1 + keyLen + 1⟩ valueLen data

def msgAddParam (msg param : Ptr) : MemProgram UInt16 := do
  let _ ← msgPutParamlist msg param
  let memory ← get
  let cmd ← deref (memory.msg msg).cmd
  if (memory.msg msg).paramCount ≥ (memory.cmd cmd).paramCount then
    modify fun memory => memory.setMsg msg fun old => { old with stat := .done }
  else
    modify fun memory => memory.setMsg msg fun old =>
      { old with stat := .dataMore }
  return ((← get).msg msg).paramCount

def msgGetStat (msg : Ptr) : MemProgram MsgStat := do
  let memory ← get
  return (memory.msg msg).stat

def msgFree (msg : Option Ptr) : MemProgram Unit := do
  match msg with
  | none => pure ()
  | some msg =>
      let buf ← msgBuf msg
      msgClean msg
      poolBack buf .msg msg

end KetamaRouter
