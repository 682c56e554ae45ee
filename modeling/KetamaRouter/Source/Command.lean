import KetamaRouter.Source.World

/-!
# Commands

`command.c`, `command_func.c` and the hash-table callbacks of `str.c`.  The
table of commands is a list; a lookup compares hashes before it compares keys,
as `g_hash_table_lookup` does.
-/

namespace KetamaRouter

/-- The value of a byte read through a `signed char`. -/
def signedChar (char : UInt8) : UInt32 :=
  UInt32.ofInt ((char.toNat : ℤ).bmod 256)

def strHash (str : Bytes) : UInt32 :=
  str.foldl (fun h char => (h <<< 5) + h + signedChar char) 5381

/-- `strncmp(a, b, n) == 0` for strings of length `n`. -/
def strncmpEqual (a b : Bytes) : Bool :=
  cStr a = cStr b

def strEqual (a b : Bytes) : Bool :=
  if a.length ≠ b.length then false else strncmpEqual a b

def commandListGetl (commands : List Command) (name : Bytes) :
    Option Command :=
  commands.find? fun command =>
    strHash command.name = strHash name && strEqual command.name name

def commandListInsert (commands : List Command) (name : Bytes)
    (paramMin paramMax : UInt16) (func : CommandFunc) : List Command :=
  let others := match commandListGetl commands name with
    | none => commands
    | some old => commands.erase old
  { name := name, paramMin := paramMin, paramMax := paramMax, func := func } ::
    others

def commandListLoad : List Command :=
  let commands := commandListInsert [] (ascii "GET") 1 1 .commandGET
  commandListInsert commands (ascii "PING") 0 0 .commandPING

def commandGET (platform : Platform) (client : Nat) (msg : Ptr) :
    WorldProgram CmdFuncRet := do
  let world ← get
  let ketama := world.server.ketama
  let param ← deref (world.memory.msg msg).paramFirst
  if (world.memory.param param).type ≠ .str then
    return .errParamType
  else if ketamaGetServerNum ketama ≤ 0 then
    return .zeroNodes
  else
    let key ← onMemory (readStr (← deref (world.memory.param param).str))
    let ordinal ← fromExcept (ketamaGetServerOrdinal platform ketama key)
    let serverAddr := ketamaGetServerAddress ketama ordinal
    let _ ← onMemory (respNode (.worker (world.client client).worker)
      (world.client client).socket serverAddr)
    return .done

def commandPING (client : Nat) (_msg : Ptr) : WorldProgram CmdFuncRet := do
  let world ← get
  let _ ← onMemory (respPong (.worker (world.client client).worker)
    (world.client client).socket)
  return .done

def CommandFunc.call (platform : Platform) (func : CommandFunc) (client : Nat)
    (msg : Ptr) : WorldProgram CmdFuncRet :=
  match func with
  | .commandGET => KetamaRouter.commandGET platform client msg
  | .commandPING => KetamaRouter.commandPING client msg

def commandProc (platform : Platform) (client : Nat) (msg : Ptr) :
    WorldProgram CmdFuncRet := do
  let world ← get
  let cmd ← deref (world.memory.msg msg).cmd
  let name ← onMemory (readStr (← deref (world.memory.cmd cmd).name))
  match commandListGetl world.server.commandList name with
  | none =>
      let _ ← onMemory
        (respErrorUnknownCommand .server (world.client client).socket)
      return .unknown
  | some command =>
      log (.invoke client command (world.memory.msg msg).paramCount)
      command.func.call platform client msg

end KetamaRouter
