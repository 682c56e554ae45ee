import KetamaRouter.Library.Delimited
import KetamaRouter.Source.CString

/-!
# The reference reader

What the line protocol is for, stated without messages, pools or status
fields.  A reader is idle or has an open request that still lacks parameters.
Each line moves it and may cause one action.
-/

namespace KetamaRouter

open Delimited

inductive Parameter where
  | str (text : Bytes)
  | keyValue (key value : Bytes)
  deriving DecidableEq, Repr

structure Request where
  name : Bytes
  params : List Parameter
  deriving DecidableEq, Repr

inductive Action where
  | dispatch (request : Request)
  | wrongFormat
  | wrongParam
  deriving DecidableEq, Repr

inductive Reader where
  | idle
  | opened (name : Bytes) (count : Nat) (params : List Parameter)
  deriving DecidableEq, Repr

/-- The name and the stored parameter count of an accepted command line. -/
def commandLine (line : Bytes) : Option (Bytes × Nat) :=
  match line with
  | [] => none
  | header :: rest =>
      if header ≠ 43 ∨ rest = [] then none
      else
        match cutAt 32 rest with
        | none => some (rest, 0)
        | some (name, number) =>
            let count : UInt32 := UInt32.ofInt (atoi number)
            if number = [] ∨ count = 0 then none
            else some (name, count.toUInt16.toNat)

def paramLine (line : Bytes) : Option Parameter :=
  match line with
  | [] => none
  | header :: rest =>
      if header = 36 then some (.str rest)
      else if header = 37 then
        (cutAt 61 rest).map fun (key, value) => .keyValue key value
      else none

namespace Reader

def read (reader : Reader) (line : Bytes) : Reader × Option Action :=
  match reader with
  | .idle =>
      match commandLine line with
      | none => (.idle, some .wrongFormat)
      | some (name, count) =>
          if count = 0 then (.idle, some (.dispatch ⟨name, []⟩))
          else (.opened name count [], none)
  | .opened name count params =>
      match paramLine line with
      | none => (.idle, some .wrongParam)
      | some param =>
          if params.length + 1 = count then
            (.idle, some (.dispatch ⟨name, params ++ [param]⟩))
          else (.opened name count (params ++ [param]), none)

/-- The reader and the actions after a sequence of lines. -/
def readAll (reader : Reader) : List Bytes → Reader × List Action
  | [] => (reader, [])
  | line :: lines =>
      let (next, action) := reader.read line
      let (last, actions) := next.readAll lines
      (last, action.toList ++ actions)

theorem readAll_cons (reader : Reader) (line : Bytes) (lines : List Bytes) :
    reader.readAll (line :: lines) =
      (((reader.read line).1.readAll lines).1,
        (reader.read line).2.toList ++
          ((reader.read line).1.readAll lines).2) :=
  rfl

theorem readAll_append (reader : Reader) (first later : List Bytes) :
    reader.readAll (first ++ later) =
      (((reader.readAll first).1.readAll later).1,
        (reader.readAll first).2 ++
          ((reader.readAll first).1.readAll later).2) := by
  induction first generalizing reader with
  | nil => rfl
  | cons line first induction =>
      rw [List.cons_append, readAll_cons, readAll_cons, induction]
      simp

/-- What an accepted line makes of the request: its name, its declared count
and the parameters so far. -/
def accept (reader : Reader) (line : Bytes) :
    Option (Bytes × Nat × List Parameter) :=
  match reader with
  | .idle => (commandLine line).map fun (name, count) => (name, count, [])
  | .opened name count params =>
      (paramLine line).map fun param => (name, count, params ++ [param])

/-- The action of a rejected line. -/
def complaint : Reader → Action
  | .idle => .wrongFormat
  | .opened _ _ _ => .wrongParam

theorem read_rejected {reader : Reader} {line : Bytes}
    (rejected : reader.accept line = none) :
    reader.read line = (.idle, some reader.complaint) := by
  cases reader with
  | idle =>
      have unread := Option.map_eq_none_iff.mp rejected
      simp [read, unread, complaint]
  | opened name count params =>
      have unread := Option.map_eq_none_iff.mp rejected
      simp [read, unread, complaint]

theorem read_accepted {reader : Reader} {line name : Bytes} {count : Nat}
    {params : List Parameter}
    (accepted : reader.accept line = some (name, count, params)) :
    reader.read line =
      if params.length = count then (.idle, some (.dispatch ⟨name, params⟩))
      else (.opened name count params, none) := by
  cases reader with
  | idle =>
      obtain ⟨⟨name', count'⟩, found, same⟩ := Option.map_eq_some_iff.mp accepted
      obtain ⟨rfl, rfl, rfl⟩ : name' = name ∧ count' = count ∧ [] = params := by
        simpa using same
      simp [read, found, eq_comm]
  | opened name' count' params' =>
      obtain ⟨param, found, same⟩ := Option.map_eq_some_iff.mp accepted
      obtain ⟨rfl, rfl, rfl⟩ :
          name' = name ∧ count' = count ∧ params' ++ [param] = params := by
        simpa using same
      simp [read, found]

end Reader

end KetamaRouter
