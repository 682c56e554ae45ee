import KetamaRouter.Protocol.Reader
import KetamaRouter.Source.Ketama
import KetamaRouter.Source.Response

/-!
# Clients, workers and the server

The records of `client.h`, `worker.h`, `command.h` and `server.h`.  Clients are
named by the rank of their allocation and workers by their index.  The trace
lists what an observer of the router sees, oldest first; the code never reads
it.
-/

namespace KetamaRouter

/-- The functions a `command_t` can point to. -/
inductive CommandFunc where
  | commandGET
  | commandPING
  deriving DecidableEq, Repr

/-- `command_t` -/
structure Command where
  name : Bytes
  paramMin : UInt16
  paramMax : UInt16
  func : CommandFunc
  deriving DecidableEq, Repr

/-- `enum cmd_func_ret` -/
inductive CmdFuncRet where
  | done
  | unknown
  | errParamType
  | zeroNodes
  | errUnknown
  deriving DecidableEq, Repr

/-- `client_t`; `evbuf` holds the bytes of its `evbuffer`. -/
structure Client where
  worker : Nat
  socket : Nat
  evbuf : Bytes
  msg : Option Ptr
  reqAll : UInt64
  reqOk : UInt64
  reqErr : UInt64
  deriving DecidableEq, Repr

/-- `worker_t` -/
structure Worker where
  numClient : UInt32
  reqAll : UInt64
  reqOk : UInt64
  reqErr : UInt64
  deriving DecidableEq, Repr

/-- `server_t`, with the configured maximum of connections. -/
structure Server where
  connCurCount : UInt64
  connMax : UInt64
  reqOk : UInt64
  commandList : List Command
  ketama : Ketama
  maxConnections : UInt64
  workerCount : Nat
  deriving DecidableEq, Repr

/-- What can be observed while lines are processed. -/
inductive Event where
  | line (client : Nat) (text : Bytes)
  | wrongFormat (client : Nat)
  | wrongParam (client : Nat)
  | dispatch (client : Nat) (request : Option Request)
  | invoke (client : Nat) (command : Command) (paramCount : UInt16)
  deriving DecidableEq, Repr

structure World where
  memory : Memory
  server : Server
  worker : Nat → Worker
  client : Nat → Client
  clientBrk : Nat
  connected : List Nat
  trace : List Event

abbrev WorldProgram := EStateM Fault World

namespace World

variable (world : World)

def setClient (c : Nat) (change : Client → Client) : World :=
  { world with
    client := Function.update world.client c (change (world.client c)) }

def setWorker (w : Nat) (change : Worker → Worker) : World :=
  { world with
    worker := Function.update world.worker w (change (world.worker w)) }

def setServer (change : Server → Server) : World :=
  { world with server := change world.server }

def setMemory (memory : Memory) : World :=
  { world with memory := memory }

def logged (events : List Event) : World :=
  { world with trace := world.trace ++ events }

end World

/-- Run a program on the memory of the world. -/
def onMemory {α : Type} (program : MemProgram α) : WorldProgram α :=
  FaultProgram.focus World.memory World.setMemory program

def log (event : Event) : WorldProgram Unit :=
  modify fun world => world.logged [event]

end KetamaRouter
