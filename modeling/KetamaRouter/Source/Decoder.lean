import KetamaRouter.Source.Message

/-!
# The line decoder

`decoder.c`.  A row is the heap buffer of one line.
-/

namespace KetamaRouter

inductive DecodeResult where
  | ok
  | errFormat
  | errParamFormat
  deriving DecidableEq, Repr

def decoderCommand (msg : Ptr) (row : Nat) : MemProgram DecodeResult := do
  let text ← readCStr ⟨row, 0⟩
  if text.length ≤ 0 ∨ text.head? ≠ some msgCmdHeader then
    return .errFormat
  else
    let c : CharPtr := ⟨row, 1⟩
    let cText ← readCStr c
    if cText.length ≤ 0 then
      return .errFormat
    else
      let buf ← msgBuf msg
      match strchr cText 32 with
      | none =>
          let cmd ← msgInitCmd buf c cText.length 0 row
          let _ ← msgSetCmd msg cmd
          return .ok
      | some clen =>
          let s : CharPtr := ⟨row, 1 + clen + 1⟩
          let sText ← readCStr s
          if sText.length ≤ 0 then
            return .errFormat
          else
            let paramCount : UInt32 := UInt32.ofInt (atoi sText)
            if paramCount ≤ 0 then
              return .errFormat
            else
              let cmd ← msgInitCmd buf c clen paramCount.toUInt16 row
              let _ ← msgSetCmd msg cmd
              return .ok

def decoderParam (msg : Ptr) (row : Nat) : MemProgram DecodeResult := do
  let text ← readCStr ⟨row, 0⟩
  let buf ← msgBuf msg
  match text.head? with
  | some header =>
      if header = msgStrHeader then
        let s : CharPtr := ⟨row, 1⟩
        let sText ← readCStr s
        let param ← msgInitParamStr buf s sText.length row
        let _ ← msgAddParam msg param
        return .ok
      else if header = msgKvHeader then
        let k : CharPtr := ⟨row, 1⟩
        let kText ← readCStr k
        match strchr kText msgKvSept with
        | none => return .errParamFormat
        | some klen =>
            let v : CharPtr := ⟨row, 1 + klen + 1⟩
            let vText ← readCStr v
            let param ← msgInitParamKv buf k klen v vText.length row
            let _ ← msgAddParam msg param
            return .ok
      else
        return .errParamFormat
  | none => return .errParamFormat

def decoderRun (msg : Ptr) (row : Nat) : MemProgram DecodeResult := do
  match ← msgGetStat msg with
  | .none => decoderCommand msg row
  | .dataMore => decoderParam msg row
  | .done => return .ok

end KetamaRouter
