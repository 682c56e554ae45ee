import KetamaRouter.Library.CellHeap
import KetamaRouter.Library.HashTable
import KetamaRouter.Source.Command

/-!
# The command table in memory

The functions of `command.c` and `str.c` on the table of commands, with the
cells they allocate and free.  The `GHashTable` is GLib's, so it is a parameter:
it keeps keys and values as pointers, and calls `str_hash` and `str_equal` on
keys in the memory of the moment.  Callers pass texts in buffers of their own.
-/

namespace KetamaRouter

namespace CommandTable

open FaultProgram CellHeap

/-- `command_t`, with a pointer for its name. -/
structure CommandCell where
  name : Nat
  paramMin : UInt16
  paramMax : UInt16
  func : CommandFunc
  deriving DecidableEq, Repr

structure TableMemory (Table : Type) where
  text : Heap Bytes
  str : Heap Str
  command : Heap CommandCell
  table : Table

abbrev TableProgram (Table : Type) := EStateM Fault (TableMemory Table)

variable {Table : Type}

def onText {α : Type} : EStateM Fault (Heap Bytes) α → TableProgram Table α :=
  focus TableMemory.text fun memory text => { memory with text := text }

def onStr {α : Type} : EStateM Fault (Heap Str) α → TableProgram Table α :=
  focus TableMemory.str fun memory str => { memory with str := str }

def onCommand {α : Type} :
    EStateM Fault (Heap CommandCell) α → TableProgram Table α :=
  focus TableMemory.command fun memory command =>
    { memory with command := command }

/-! ## `str.c` -/

/-- The `len` bytes from `data` on. -/
def readBytes (data : Option CharPtr) (len : Nat) :
    TableProgram Table Bytes := do
  let pointer ← deref data
  let block ← onText (load .freedMemory pointer.block)
  if pointer.off + len ≤ block.length then
    return (block.drop pointer.off).take len
  else throw .outOfBounds

/-- `strlen(data)` -/
def readStrlen (data : CharPtr) : TableProgram Table Nat := do
  let block ← onText (load .freedMemory data.block)
  if 0 ∈ block.drop data.off then return strlen (block.drop data.off)
  else throw .outOfBounds

/-- `_str_init` -/
def strInitType (type : StrType) (data : Option CharPtr) (len : Nat) :
    TableProgram Table Nat :=
  onStr (malloc { type := type, data := data, len := len })

def strInit (data : CharPtr) (len : Nat) : TableProgram Table Nat :=
  strInitType .none (some data) len

/-- `str_init_alloc`.  The last byte of the copy is what was there before. -/
def strInitAlloc (left : UInt8) (data : CharPtr) (len : Nat) :
    TableProgram Table Nat := do
  let bytes ← readBytes (some data) len
  let ndata ← onText (malloc (bytes ++ [left]))
  strInitType .alloc (some ⟨ndata, 0⟩) len

/-- `free(data)`, which takes the start of a buffer. -/
def freeText (data : Option CharPtr) : TableProgram Table Unit :=
  match data with
  | none => return
  | some pointer =>
      if pointer.off = 0 then onText (free .freedMemory pointer.block)
      else throw .unspecified

def strFree (str : Nat) : TableProgram Table Unit := do
  let contents ← onStr (load .freedMemory str)
  if contents.type = .alloc then freeText contents.data
  onStr (free .freedMemory str)

def strEqual (a b : Nat) : TableProgram Table Bool := do
  let astr ← onStr (load .freedMemory a)
  let bstr ← onStr (load .freedMemory b)
  if astr.len ≠ bstr.len then return false
  else
    let first ← readBytes astr.data astr.len
    let second ← readBytes bstr.data astr.len
    return strncmpEqual first second

def strHash (str : Nat) : TableProgram Table UInt32 := do
  let contents ← onStr (load .freedMemory str)
  let bytes ← readBytes contents.data contents.len
  return KetamaRouter.strHash bytes

/-! ## `GHashTable` -/

variable (glib : HashTable.Interface Fault Nat Nat)

/-- The functions that `command_list_init` gives to `g_hash_table_new`. -/
def callbacks (memory : TableMemory Table) :
    HashTable.KeyFunctions Fault Nat where
  hash key := outcome (strHash key) memory
  equal a b := outcome (strEqual a b) memory

/-- `g_hash_table_lookup` -/
def hashTableLookup (key : Nat) : TableProgram glib.Table (Option Nat) := do
  let memory ← get
  ofExcept (glib.lookup (callbacks memory) memory.table key)

/-- `g_hash_table_remove` -/
def hashTableRemove (key : Nat) : TableProgram glib.Table Unit := do
  let memory ← get
  let table ← ofExcept (glib.remove (callbacks memory) memory.table key)
  set { memory with table := table }

/-- `g_hash_table_insert` -/
def hashTableInsert (key value : Nat) : TableProgram glib.Table Unit := do
  let memory ← get
  let table ← ofExcept (glib.insert (callbacks memory) memory.table key value)
  set { memory with table := table }

/-! ## `command.c` -/

def commandListInit : TableMemory glib.Table :=
  { text := Heap.empty
    str := Heap.empty
    command := Heap.empty
    table := glib.new }

def commandListGetl (name : CharPtr) (len : Nat) :
    TableProgram glib.Table (Option Nat) := do
  let key ← strInit name len
  let cmd ← hashTableLookup glib key
  strFree key
  return cmd

def commandListGet (name : CharPtr) : TableProgram glib.Table (Option Nat) := do
  commandListGetl glib name (← readStrlen name)

def commandInit (left : UInt8) (name : CharPtr) (paramMin paramMax : UInt16)
    (func : CommandFunc) : TableProgram Table Nat := do
  let copy ← strInitAlloc left name (← readStrlen name)
  onCommand (malloc
    { name := copy, paramMin := paramMin, paramMax := paramMax, func := func })

def commandFree (cmd : Nat) : TableProgram Table Unit := do
  let contents ← onCommand (load .freedMemory cmd)
  strFree contents.name
  onCommand (free .freedMemory cmd)

/-- What `command_list_insert` does to a command of that name. -/
def commandListDrop (name : CharPtr) : TableProgram glib.Table Unit := do
  match ← commandListGet glib name with
  | none => return
  | some cmd =>
      let contents ← onCommand (load .freedMemory cmd)
      hashTableRemove glib contents.name
      commandFree cmd

def commandListInsert (left : UInt8) (name : CharPtr)
    (paramMin paramMax : UInt16) (func : CommandFunc) :
    TableProgram glib.Table Unit := do
  commandListDrop glib name
  let cmd ← commandInit left name paramMin paramMax func
  let contents ← onCommand (load .freedMemory cmd)
  hashTableInsert glib contents.name cmd

end CommandTable

end KetamaRouter
