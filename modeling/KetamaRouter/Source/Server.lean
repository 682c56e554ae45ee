import KetamaRouter.RingConstruction
import KetamaRouter.Source.Command
import KetamaRouter.Source.Decoder

/-!
# The server's event callbacks

`server.c`, `client.c` and `worker.c`.  What `command_proc` does is a parameter
of the read callback, so that a dispatch can also be observed on its own.
-/

namespace KetamaRouter

open Delimited

/-! ## Counters -/

def clientIncreaseReqOk (c : Nat) : WorldProgram Unit :=
  modify fun world => world.setClient c fun client =>
    { client with reqAll := client.reqAll + 1, reqOk := client.reqOk + 1 }

def clientIncreaseReqErr (c : Nat) : WorldProgram Unit :=
  modify fun world => world.setClient c fun client =>
    { client with reqAll := client.reqAll + 1, reqErr := client.reqErr + 1 }

def workerIncreaseReqOk (w : Nat) : WorldProgram Unit :=
  modify fun world => world.setWorker w fun worker =>
    { worker with reqAll := worker.reqAll + 1, reqOk := worker.reqOk + 1 }

def workerIncreaseReqErr (w : Nat) : WorldProgram Unit :=
  modify fun world => world.setWorker w fun worker =>
    { worker with reqAll := worker.reqAll + 1, reqErr := worker.reqErr + 1 }

def workerIncreaseCount (w : Nat) : WorldProgram Unit :=
  modify fun world => world.setWorker w fun worker =>
    { worker with numClient := worker.numClient + 1 }

def workerDecreaseCount (w : Nat) : WorldProgram Unit :=
  modify fun world => world.setWorker w fun worker =>
    { worker with numClient := worker.numClient - 1 }

/-! ## Reading -/

/-- A line without the carriage return at its end, if there is one. -/
def chompCr (line : Bytes) : Bytes :=
  if line.getLast? = some 13 then line.dropLast else line

/-- `evbuffer_readln(evbuf, NULL, EVBUFFER_EOL_CRLF)`: the line and what is left
in the buffer. -/
def evbufferReadln (evbuf : Bytes) : Option (Bytes × Bytes) :=
  (cutAt 10 evbuf).map fun (line, rest) => (chompCr line, rest)

/-- The texts of a parameter. -/
def readParam (param : Ptr) : MemProgram Parameter := do
  let memory ← get
  match (memory.param param).type with
  | .str => return .str (← readStr (← deref (memory.param param).str))
  | .kv =>
      let kv ← deref (memory.param param).kv
      return .keyValue (← readStr (← deref (memory.paramKv kv).key))
        (← readStr (← deref (memory.paramKv kv).value))

/-- The parameters of a chain. -/
def readParams : Nat → Option Ptr → MemProgram (List Parameter)
  | _, none => return []
  | 0, some _ => throw .diverges
  | fuel + 1, some param => do
      let parameter ← readParam param
      let rest ← readParams fuel ((← get).param param).next
      return parameter :: rest

/-- The request a message carries. -/
def readRequest (msg : Ptr) : MemProgram Request := do
  let memory ← get
  let cmd ← deref (memory.msg msg).cmd
  let name ← readStr (← deref (memory.cmd cmd).name)
  let buf ← msgBuf msg
  let params ← readParams (paramFuel buf memory) (memory.msg msg).paramFirst
  return ⟨name, params⟩

/-- What an observer sees of a message. -/
def requestAt (memory : Memory) (msg : Ptr) : Option Request :=
  match readRequest msg memory with
  | .ok request _ => some request
  | .error _ _ => none

/-- An error case of the first `switch` of the loop of `client_event_read`. -/
def clientEventRejected (c : Nat) (msg : Ptr) (event : Event)
    (respError : BufId → Nat → MemProgram RespRes) : WorldProgram Unit := do
  let client := (← get).client c
  clientIncreaseReqErr c
  workerIncreaseReqErr client.worker
  onMemory (msgClean msg)
  log event
  let _ ← onMemory (respError (.worker client.worker) client.socket)

/-- The first `switch` of the loop. -/
def clientEventDecoded (c : Nat) (msg : Ptr) (res : DecodeResult) :
    WorldProgram Unit :=
  match res with
  | .errFormat =>
      clientEventRejected c msg (.wrongFormat c) respErrorWrongMsgFormat
  | .errParamFormat =>
      clientEventRejected c msg (.wrongParam c) respErrorParamFormat
  | .ok => pure ()

/-- The body of the test on the result of `command_proc`. -/
def countUndone (c : Nat) (ret : CmdFuncRet) : WorldProgram Unit :=
  if ret ≠ .done then
    modify fun world =>
      (world.setClient c fun client =>
        { client with reqOk := client.reqOk + 1 }).setServer fun server =>
          { server with reqOk := server.reqOk + 1 }
  else pure ()

/-- The second `switch` of the loop. -/
def clientEventComplete (proc : Nat → Ptr → WorldProgram CmdFuncRet) (c : Nat)
    (msg : Ptr) : WorldProgram Unit := do
  let client := (← get).client c
  match ← onMemory (msgGetStat msg) with
  | .done =>
      clientIncreaseReqOk c
      workerIncreaseReqOk client.worker
      log (.dispatch c (requestAt (← get).memory msg))
      let ret ← proc c msg
      countUndone c ret
      onMemory (msgClean msg)
  | _ => pure ()

/-- The body of the loop of `client_event_read`. -/
def clientEventLine (proc : Nat → Ptr → WorldProgram CmdFuncRet) (c : Nat)
    (line : Bytes) : WorldProgram Unit := do
  log (.line c line)
  let row ← onMemory (mallocText line)
  let msg ← deref ((← get).client c).msg
  let res ← onMemory (decoderRun msg row)
  clientEventDecoded c msg res
  clientEventComplete proc c msg

/-- The loop of `client_event_read`. -/
def clientEventLoop (proc : Nat → Ptr → WorldProgram CmdFuncRet) (c : Nat) :
    Nat → WorldProgram Unit
  | 0 => throw .diverges
  | fuel + 1 => do
      match evbufferReadln ((← get).client c).evbuf with
      | none => pure ()
      | some (line, rest) =>
          modify fun world => world.setClient c fun client =>
            { client with evbuf := rest }
          clientEventLine proc c line
          clientEventLoop proc c fuel

/-- `client_event_read` up to its loop: `input` is what the bufferevent has
received. -/
def clientEventReceive (c : Nat) (input : Bytes) : WorldProgram Unit := do
  let client := (← get).client c
  match client.msg with
  | none =>
      let msg ← onMemory (msgInit (.worker client.worker))
      modify fun world => world.setClient c fun client =>
        { client with msg := some msg }
  | some _ => pure ()
  modify fun world => world.setClient c fun client =>
    { client with evbuf := client.evbuf ++ input }

def clientEventRead (proc : Nat → Ptr → WorldProgram CmdFuncRet) (c : Nat)
    (input : Bytes) : WorldProgram Unit := do
  clientEventReceive c input
  let world ← get
  clientEventLoop proc c ((world.client c).evbuf.length + 1)

/-! ## Connections -/

/-- `client_connection_release` and `client_free`.  No event of the client
follows. -/
def clientConnectionRelease (c : Nat) : WorldProgram Unit := do
  let client := (← get).client c
  workerDecreaseCount client.worker
  modify fun world => world.setServer fun server =>
    { server with connCurCount := server.connCurCount - 1 }
  onMemory (msgFree client.msg)
  modify fun world => { world with connected := world.connected.erase c }

def serverGetCurrentConnections (world : World) : UInt64 :=
  (List.range world.server.workerCount).foldl
    (fun cons w => cons + (world.worker w).numClient.toUInt64) 0

/-- The loop of `server_get_req_all`, `server_get_req_ok` and
`server_get_req_err`, over the field that each of them reads. -/
def serverGetReq (field : Worker → UInt64) (world : World) : UInt64 :=
  (List.range world.server.workerCount).foldl
    (fun req w => req + field (world.worker w)) 0

def serverGetReqAll (world : World) : UInt64 :=
  serverGetReq Worker.reqAll world

def serverGetReqOk (world : World) : UInt64 :=
  serverGetReq Worker.reqOk world

def serverGetReqErr (world : World) : UInt64 :=
  serverGetReq Worker.reqErr world

def serverGetLeastConnectionWorker (world : World) : Nat :=
  (List.range world.server.workerCount).foldl
    (fun least w =>
      if (world.worker least).numClient > (world.worker w).numClient then w
      else least) 0

/-- `server_event_accept` of the connection on socket `sock`. -/
def serverEventAccept (sock : Nat) : WorldProgram Unit := do
  let world ← get
  if world.server.maxConnections ≤ serverGetCurrentConnections world then
    let _ ← onMemory (respErrorMaxConnection .server sock)
  else if world.server.workerCount = 0 then
    throw .outOfBounds
  else
    modify fun world => world.setServer fun server =>
      if server.connCurCount > server.connMax then
        { server with connMax := server.connCurCount }
      else server
    let w := serverGetLeastConnectionWorker world
    modify fun world =>
      { world.setClient world.clientBrk fun _ =>
          { worker := w, socket := sock, evbuf := [], msg := none,
            reqAll := 0, reqOk := 0, reqErr := 0 } with
        clientBrk := world.clientBrk + 1
        connected := world.connected ++ [world.clientBrk] }
    workerIncreaseCount w

/-- The servers that `server_init` registers. -/
def serverRegistrations : List Registration :=
  [⟨ascii "127.0.0.1", 6379, 100⟩, ⟨ascii "127.0.0.2", 6379, 100⟩,
    ⟨ascii "127.0.0.3", 6379, 100⟩]

/-- An empty heap, with the pools of the server and of the workers. -/
def initialMemory : Memory :=
  { msg := fun _ => { buf := none, cmd := none, paramCount := 0,
                      paramFirst := none, paramLast := none, stat := .none }
    cmd := fun _ => { name := none, paramCount := 0, data := none }
    param := fun _ => { type := .str, str := none, kv := none, next := none,
                        data := none }
    paramKv := fun _ => { key := none, value := none }
    str := fun _ => { type := .none, data := none, len := 0 }
    pool := fun _ kind => msgBufInit kind
    text := fun _ => none
    textBrk := 0
    socket := fun _ => { behaviour := fun _ _ => .fails, calls := 0, sent := [] } }

/-- `server_init`, and the configured maximum of connections. -/
def serverInit (platform : Platform) (numOfWorkers : Nat)
    (maxConnections : UInt64) : Except Fault World := do
  let ketama ← ketamaBuild platform serverRegistrations
  return { memory := initialMemory
           server := { connCurCount := 0, connMax := 0, reqOk := 0,
                       commandList := commandListLoad, ketama := ketama,
                       maxConnections := maxConnections,
                       workerCount := numOfWorkers }
           worker := fun _ =>
             { numClient := 0, reqAll := 0, reqOk := 0, reqErr := 0 }
           client := fun _ =>
             { worker := 0, socket := 0, evbuf := [], msg := none,
               reqAll := 0, reqOk := 0, reqErr := 0 }
           clientBrk := 0
           connected := []
           trace := [] }

end KetamaRouter
