import Mathlib.Logic.Function.Basic
import KetamaRouter.Library.FaultProgram

/-!
# Object pools

`pabuf.c` keeps returned objects in a chain of shells (`first`) and the shells
freed by handing objects out again in a second chain (`first_eshell`).  Shells
live in a private heap; `shellBrk` is the next shell address `calloc` returns.
The build defines `PABUF_NOLOCK`, so there is no lock to model.
-/

namespace KetamaRouter

/-- What ends the process. -/
inductive Fault where
  | nullPointer
  | freedMemory
  | outOfBounds
  | diverges
  | unspecified
  | assertion
  | division
  deriving DecidableEq, Repr

/-- Use the result of a function that may fault. -/
def fromExcept {σ α : Type} (result : Except Fault α) : EStateM Fault σ α :=
  match result with
  | .ok value => pure value
  | .error fault => throw fault

/-- `pabuf_shell_t`; shell addresses are natural numbers. -/
structure PabufShell (Obj : Type) where
  obj : Option Obj
  next : Option Nat

/-- `pabuf_t`, with the heap its shells live in. -/
structure Pabuf (Obj : Type) where
  objSize : UInt64
  memory : UInt64
  shellMemory : UInt64
  count : UInt32
  maxRemainCount : UInt32
  maxEshellCount : UInt32
  remainCount : UInt32
  eshellCount : UInt32
  first : Option Nat
  firstEshell : Option Nat
  shells : Nat → PabufShell Obj
  shellBrk : Nat

/-- `sizeof(pabuf_shell_t)`: two pointers. -/
def pabufShellSize : UInt64 := 16

def pabufDefaultMaxRemainCount : UInt32 := 1000

def pabufDefaultMaxEshellCount : UInt32 := 1000

variable {Obj : Type}

def pabufInit3 (objSize : UInt64) (maxRemainCount maxEshellCount : UInt32) :
    Pabuf Obj :=
  { objSize := objSize
    memory := 0
    shellMemory := 0
    count := 0
    maxRemainCount := maxRemainCount
    maxEshellCount := maxEshellCount
    remainCount := 0
    eshellCount := 0
    first := none
    firstEshell := none
    shells := fun _ => { obj := none, next := none }
    shellBrk := 0 }

def pabufInit (objSize : UInt64) : Pabuf Obj :=
  pabufInit3 objSize pabufDefaultMaxRemainCount pabufDefaultMaxEshellCount

def Pabuf.setShell (pabuf : Pabuf Obj) (shell : Nat)
    (contents : PabufShell Obj) : Pabuf Obj :=
  { pabuf with shells := Function.update pabuf.shells shell contents }

def pabufGetEshell (obj : Obj) : EStateM Fault (Pabuf Obj) Nat := do
  let pabuf ← get
  if pabuf.eshellCount = 0 then
    let shell := pabuf.shellBrk
    set { pabuf.setShell shell { obj := some obj, next := none } with
      shellMemory := pabuf.shellMemory + pabufShellSize
      shellBrk := shell + 1 }
    return shell
  else
    match pabuf.firstEshell with
    | none => throw .nullPointer
    | some shell =>
        set { pabuf.setShell shell { obj := some obj, next := none } with
          firstEshell := (pabuf.shells shell).next
          eshellCount := pabuf.eshellCount - 1 }
        return shell

def pabufBackEshell (shell : Nat) : EStateM Fault (Pabuf Obj) Unit := do
  let pabuf ← get
  if pabuf.eshellCount ≥ pabuf.maxEshellCount then
    set { pabuf with shellMemory := pabuf.shellMemory - pabufShellSize }
  else
    set { pabuf.setShell shell { obj := none, next := pabuf.firstEshell } with
      firstEshell := some shell
      eshellCount := pabuf.eshellCount + 1 }

/-- `pabuf_get`.  The argument is the address `calloc` returns if the pool has
to allocate. -/
def pabufGet (calloc : Obj) : EStateM Fault (Pabuf Obj) Obj := do
  let pabuf ← get
  if pabuf.remainCount ≤ 0 then
    set { pabuf with
      memory := pabuf.memory + pabuf.objSize
      count := pabuf.count + 1 }
    return calloc
  else
    match pabuf.first with
    | none => throw .nullPointer
    | some shell =>
        set { pabuf with first := (pabuf.shells shell).next }
        match (pabuf.shells shell).obj with
        | none => throw .nullPointer
        | some obj =>
            pabufBackEshell shell
            modify fun pabuf =>
              { pabuf with remainCount := pabuf.remainCount - 1 }
            return obj

/-- `pabuf_back`.  In the first branch the object goes to `free`. -/
def pabufBack (obj : Obj) : EStateM Fault (Pabuf Obj) Unit := do
  let pabuf ← get
  if pabuf.maxRemainCount ≤ pabuf.remainCount then
    set { pabuf with
      memory := pabuf.memory - pabuf.objSize
      count := pabuf.count - 1 }
  else
    let shell ← pabufGetEshell obj
    modify fun pabuf =>
      { pabuf.setShell shell
          { pabuf.shells shell with next := pabuf.first } with
        first := some shell
        remainCount := pabuf.remainCount + 1 }

end KetamaRouter
