import Mathlib.Algebra.Ring.Int.Defs
import KetamaRouter.Library.Ledger
import KetamaRouter.Source.Pabuf

/-!
# Event counters

`countque.c`.  A counter merges events into tics of `tic_per_sec` seconds and
keeps them in a chain, oldest first.  Counters and tics come from two pools, named
by the rank of their allocation; a recycled one keeps its old contents.
`time_t` is a 64-bit signed integer.
-/

namespace KetamaRouter

open FaultProgram

/-- Signed arithmetic of the machine.  C says what a result is only if it fits the
type. -/
structure SignedArithmetic where
  mulInt : Int32 → Int32 → Int32
  subTime : Int64 → Int64 → Int64
  mulInt_fits : ∀ a b, -2 ^ 31 ≤ a.toInt * b.toInt →
    a.toInt * b.toInt < 2 ^ 31 → (mulInt a b).toInt = a.toInt * b.toInt
  subTime_fits : ∀ a b, -2 ^ 63 ≤ a.toInt - b.toInt →
    a.toInt - b.toInt < 2 ^ 63 → (subTime a b).toInt = a.toInt - b.toInt

/-- `countque_tic_t` -/
structure CountqueTic where
  count : UInt32
  time : Int64
  newer : Option Nat
  deriving DecidableEq

/-- `countque_t`, whose two pools are those of the memory. -/
structure Countque where
  count : UInt64
  ticPerSec : Int64
  ticMaxCnt : UInt32
  first : Option Nat
  last : Option Nat
  deriving DecidableEq

/-- A `pabuf_t` of numbered objects, with a ledger of what it handed out and took
back. -/
structure NumberedPool where
  pabuf : Pabuf Nat
  objBrk : Nat
  ledger : List (Ledger.Entry Nat)

structure CountqueMemory where
  tic : Nat → CountqueTic
  item : Nat → Countque
  ticBuffer : NumberedPool
  itemBuffer : NumberedPool

abbrev CountqueProgram := EStateM Fault CountqueMemory

namespace CountqueMemory

variable (memory : CountqueMemory)

def setTic (tic : Nat) (change : CountqueTic → CountqueTic) : CountqueMemory :=
  { memory with tic := Function.update memory.tic tic (change (memory.tic tic)) }

def setItem (item : Nat) (change : Countque → Countque) : CountqueMemory :=
  { memory with
    item := Function.update memory.item item (change (memory.item item)) }

def setTicBuffer (pool : NumberedPool) : CountqueMemory :=
  { memory with ticBuffer := pool }

def setItemBuffer (pool : NumberedPool) : CountqueMemory :=
  { memory with itemBuffer := pool }

end CountqueMemory

/-- `pabuf_init` -/
def numberedInit (objSize : UInt64) : NumberedPool :=
  { pabuf := pabufInit objSize, objBrk := 0, ledger := [] }

/-- Memory with nothing in it but the two pools. -/
def countqueMemory : CountqueMemory :=
  { tic := fun _ => { count := 0, time := 0, newer := none }
    item := fun _ =>
      { count := 0, ticPerSec := 0, ticMaxCnt := 0, first := none, last := none }
    ticBuffer := numberedInit 24
    itemBuffer := numberedInit 56 }

/-- `pabuf_get`; a fresh object has the next number. -/
def numberedGet : EStateM Fault NumberedPool Nat := do
  let pool ← get
  let obj ← focus NumberedPool.pabuf
    (fun pool pabuf => { pool with pabuf := pabuf }) (pabufGet pool.objBrk)
  modify fun pool => { pool with ledger := .taken obj :: pool.ledger }
  if obj = pool.objBrk then
    modify fun pool => { pool with objBrk := pool.objBrk + 1 }
  return obj

/-- `pabuf_back` -/
def numberedBack (obj : Nat) : EStateM Fault NumberedPool Unit := do
  focus NumberedPool.pabuf (fun pool pabuf => { pool with pabuf := pabuf })
    (pabufBack obj)
  modify fun pool => { pool with ledger := .returned obj :: pool.ledger }

/-- `pabuf_get(cqi->tic_buffer)`; `calloc` clears a fresh tic. -/
def ticGet : CountqueProgram Nat := do
  let fresh := (← get).ticBuffer.objBrk
  let tic ← focus CountqueMemory.ticBuffer CountqueMemory.setTicBuffer
    numberedGet
  if tic = fresh then
    modify fun memory => memory.setTic fresh fun _ =>
      { count := 0, time := 0, newer := none }
  return tic

/-- `pabuf_back(cqi->tic_buffer, tic)` -/
def ticBack (tic : Nat) : CountqueProgram Unit :=
  focus CountqueMemory.ticBuffer CountqueMemory.setTicBuffer (numberedBack tic)

/-- `pabuf_back(item_buffer, cqi)` -/
def itemBack (item : Nat) : CountqueProgram Unit :=
  focus CountqueMemory.itemBuffer CountqueMemory.setItemBuffer
    (numberedBack item)

/-- `t-(t%term)`, where there is a remainder. -/
def baseTimeBy (term t : Int64) : Int64 :=
  t - t % term

/-- The machine traps on a division by zero and on one whose quotient does not
fit. -/
def getBaseTimeByTime (term t : Int64) : Except Fault Int64 :=
  if term = 0 ∨ t = Int64.minValue ∧ term = -1 then throw .division
  else return baseTimeBy term t

def getTtlTime (machine : SignedArithmetic) (baseTime : Int64)
    (ticPerSec ticMaxCnt : Int32) : Int64 :=
  machine.subTime baseTime (machine.mulInt ticPerSec ticMaxCnt).toInt64

def cqTicInit : CountqueProgram Nat := do
  let tic ← ticGet
  modify fun memory => memory.setTic tic fun old =>
    { old with count := 0, newer := none }
  return tic

/-- How far a walk over `newer` can go before it must have met a tic twice. -/
def ticFuel (memory : CountqueMemory) : Nat :=
  memory.ticBuffer.objBrk + 1

/-- The loop of `cq_adjust`, which ends at the tic it returns. -/
def cqAdjustLoop (item : Nat) (ttl : Int64) :
    Nat → Option Nat → CountqueProgram (Option Nat)
  | _, none => return none
  | 0, some _ => throw .diverges
  | fuel + 1, some tic => do
      let contents := (← get).tic tic
      if contents.time ≤ ttl then
        modify fun memory => memory.setItem item fun old =>
          { old with first := contents.newer }
        modify fun memory => memory.setItem item fun old =>
          { old with count := old.count - contents.count.toUInt64 }
        ticBack tic
        cqAdjustLoop item ttl fuel ((← get).item item).first
      else
        return some tic

def cqAdjust (machine : SignedArithmetic) (item : Nat) (baseTime : Int64) :
    CountqueProgram Unit := do
  let memory ← get
  let contents := memory.item item
  let ttl := getTtlTime machine baseTime contents.ticPerSec.toInt32
    contents.ticMaxCnt.toInt32
  let tic ← cqAdjustLoop item ttl (ticFuel memory) contents.first
  if tic = none then
    modify fun memory => memory.setItem item fun old =>
      { old with first := none, last := none }

/-- `cq_count` at the time `now` that `time(NULL)` returns. -/
def cqCount (machine : SignedArithmetic) (item : Nat) (now : Int64) :
    CountqueProgram UInt64 := do
  let baseTime ←
    fromExcept (getBaseTimeByTime ((← get).item item).ticPerSec now)
  cqAdjust machine item baseTime
  return ((← get).item item).count

def cqInit (ticPerSec : Int64) (ticMaxCnt : UInt32) : CountqueProgram Nat := do
  let item ← focus CountqueMemory.itemBuffer CountqueMemory.setItemBuffer
    numberedGet
  modify fun memory => memory.setItem item fun _ =>
    { count := 0, ticPerSec := ticPerSec, ticMaxCnt := ticMaxCnt,
      first := none, last := none }
  return item

/-- A tic of its own for an event. -/
def cqTicFirst (baseTime : Int64) : CountqueProgram Nat := do
  let tic ← cqTicInit
  modify fun memory => memory.setTic tic fun old =>
    { old with time := baseTime }
  modify fun memory => memory.setTic tic fun old =>
    { old with count := old.count + 1 }
  return tic

/-- The part of `cq_tic_time` that counts the event. -/
def cqRecord (item : Nat) (baseTime : Int64) : CountqueProgram Unit := do
  match ((← get).item item).last with
  | none =>
      let tic ← cqTicFirst baseTime
      modify fun memory => memory.setItem item fun old =>
        { old with first := some tic, last := some tic }
  | some last =>
      if ((← get).tic last).time = baseTime then
        modify fun memory => memory.setTic last fun old =>
          { old with count := old.count + 1 }
      else
        let tic ← cqTicFirst baseTime
        modify fun memory => memory.setTic last fun old =>
          { old with newer := some tic }
        modify fun memory => memory.setItem item fun old =>
          { old with last := some tic }
  modify fun memory => memory.setItem item fun old =>
    { old with count := old.count + 1 }

def cqTicTime (machine : SignedArithmetic) (item : Nat) (t : Int64) :
    CountqueProgram UInt64 := do
  let baseTime ←
    fromExcept (getBaseTimeByTime ((← get).item item).ticPerSec t)
  cqRecord item baseTime
  cqAdjust machine item baseTime
  return ((← get).item item).count

/-- The loop of `cq_free`. -/
def cqFreeLoop (item : Nat) : Nat → Option Nat → CountqueProgram Unit
  | _, none => return ()
  | 0, some _ => throw .diverges
  | fuel + 1, some tic => do
      modify fun memory => memory.setItem item fun old =>
        { old with first := (memory.tic tic).newer }
      ticBack tic
      cqFreeLoop item fuel ((← get).item item).first

/-- The part of `cq_free` that returns the tics. -/
def cqFreeTics (item : Nat) : CountqueProgram Unit := do
  let memory ← get
  cqFreeLoop item (ticFuel memory) (memory.item item).first

def cqFree (item : Nat) : CountqueProgram Unit := do
  cqFreeTics item
  itemBack item

end KetamaRouter
