import KetamaRouter.Source.Message

/-!
# Replies

`response.c`: a reply is assembled as a message, written to the socket data
string by data string, and freed.  What `write` returns is stored in an `int`.
-/

namespace KetamaRouter

inductive RespRes where
  | ok
  | sockErr
  | msgErr
  deriving DecidableEq, Repr

def commandStrErr : Bytes := ascii "ERROR"

def commandStrNode : Bytes := ascii "NODE"

def commandStrPong : Bytes := ascii "PONG"

def errUnknownCommandNo : Bytes := ascii "99"

def errUnknownCommand : Bytes := ascii "Unknown command."

def errWrongMsgFormatNo : Bytes := ascii "1001"

def errWrongMsgFormat : Bytes := ascii "Wrong message format."

def errWrongParamFormatNo : Bytes := ascii "1002"

def errWrongParamFormat : Bytes := ascii "Wrong parameter format."

def errReachedMaxConnNo : Bytes := ascii "2001"

def errReachedMaxConn : Bytes := ascii "Reached connections to maximum."

/-- The loop of `resp_msg` over the parameters. -/
def respMsgParams (sock : Nat) : Nat → Option Ptr → MemProgram RespRes
  | _, none => return .ok
  | 0, some _ => throw .diverges
  | fuel + 1, some param => do
      let contents := (← get).param param
      let written ← write sock (← readCStr ⟨← deref contents.data, 0⟩)
      let res := written.toInt32
      if res < 0 then
        return .sockErr
      else
        respMsgParams sock fuel contents.next

def respMsg (sock : Nat) (msg : Ptr) : MemProgram RespRes := do
  let memory ← get
  if (memory.msg msg).stat ≠ .done then
    return .msgErr
  else
    let cmd ← deref (memory.msg msg).cmd
    let written ← write sock (← readCStr ⟨← deref (memory.cmd cmd).data, 0⟩)
    let res := written.toInt32
    if res < 0 then
      return .sockErr
    else
      let buf ← msgBuf msg
      respMsgParams sock (paramFuel buf memory) (memory.msg msg).paramFirst

def respError (buf : BufId) (sock : Nat) (errno error : Bytes) :
    MemProgram RespRes := do
  let msg ← msgInit buf
  let cmd ← msgGenCmd buf commandStrErr (strlen commandStrErr) 2
  let _ ← msgSetCmd msg cmd
  let param ← msgGenParamStr buf errno (strlen errno)
  let _ ← msgAddParam msg param
  let param ← msgGenParamStr buf error (strlen error)
  let _ ← msgAddParam msg param
  let res ← respMsg sock msg
  msgFree (some msg)
  return res

def respNode (buf : BufId) (sock : Nat) (node : Bytes) :
    MemProgram RespRes := do
  let msg ← msgInit buf
  let cmd ← msgGenCmd buf commandStrNode (strlen commandStrNode) 1
  let _ ← msgSetCmd msg cmd
  let param ← msgGenParamStr buf node (strlen node)
  let _ ← msgAddParam msg param
  let res ← respMsg sock msg
  msgFree (some msg)
  return res

def respPong (buf : BufId) (sock : Nat) : MemProgram RespRes := do
  let msg ← msgInit buf
  let cmd ← msgGenCmd buf commandStrPong (strlen commandStrPong) 0
  let _ ← msgSetCmd msg cmd
  let res ← respMsg sock msg
  msgFree (some msg)
  return res

def respErrorUnknownCommand (buf : BufId) (sock : Nat) : MemProgram RespRes :=
  respError buf sock errUnknownCommandNo errUnknownCommand

def respErrorWrongMsgFormat (buf : BufId) (sock : Nat) : MemProgram RespRes :=
  respError buf sock errWrongMsgFormatNo errWrongMsgFormat

def respErrorParamFormat (buf : BufId) (sock : Nat) : MemProgram RespRes :=
  respError buf sock errWrongParamFormatNo errWrongParamFormat

def respErrorMaxConnection (buf : BufId) (sock : Nat) : MemProgram RespRes :=
  respError buf sock errReachedMaxConnNo errReachedMaxConn

end KetamaRouter
