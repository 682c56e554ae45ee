import Mathlib.Data.Finset.Card
import KetamaRouter.CommandCells
import KetamaRouter.Library.LabelledRun

/-!
# The command table

In memory the table does what the list of commands does: it answers with the
command that was inserted last under a name.  It holds the cells of its commands
and no others, and no pointer to a text of a caller.
-/

namespace KetamaRouter

namespace CommandTable

open FaultProgram CellHeap LabelledRun

variable {glib : HashTable.Interface Fault Nat Nat}
  {Holds : glib.Table → Multiset (HashTable.Entry Nat Bytes Nat) → Prop}
  {memory : TableMemory glib.Table} {rows : Multiset Row} {table : List Row}
  {cmds : Multiset (Nat × CommandCell)} {strs : Multiset (Nat × Str)}
  {texts : Multiset (Nat × Bytes)} {name : Bytes} {row : Row}
  {pointer : CharPtr}

/-! ## Inserting -/

/-- A command that is found splits the table, and nothing else has its name. -/
theorem TableAt.split (tableAt : TableAt Holds memory table texts) {old : Row}
    (found : rowOf table name = some old) :
    old.command.name = name ∧ ∃ before later, table = before ++ old :: later ∧
      ∀ row ∈ before ++ later, row.command.name ≠ name := by
  obtain ⟨member, named⟩ := rowOf_eq_some tableAt.noNul found
  obtain ⟨before, later, split⟩ := List.append_of_mem member
  refine ⟨named, before, later, split, ?_⟩
  have once := tableAt.once
  rw [split, (List.perm_middle.map _).nodup_iff, List.map_cons,
    List.nodup_cons, named] at once
  intro row inside same
  exact once.1 (List.mem_map.mpr ⟨row, inside, same⟩)

section Documented

variable (documented : HashTable.Documented glib KetamaRouter.strHash Holds)

include documented

/-- A command of the name goes with its cells. -/
theorem commandListDrop_spec (tableAt : TableAt Holds memory table texts)
    (noNul : 0 ∉ name) (passes : Passes texts pointer (name ++ [0])) :
    Yields (commandListDrop glib pointer) memory fun _ after => ∃ others,
      TableAt Holds after others texts ∧
      (∀ row ∈ others, row.command.name ≠ name) ∧
      others.map Row.command =
        match KetamaRouter.commandListGetl (table.map Row.command) name with
        | none => table.map Row.command
        | some old => (table.map Row.command).erase old := by
  apply Yields.bind (commandListGet_spec documented tableAt noNul passes)
  intro found middle looked
  obtain ⟨same, tableAt⟩ := looked
  subst same
  rw [rowOf_command]
  cases found : rowOf table name with
  | none =>
      apply Yields.pure
      exact ⟨table, tableAt, rowOf_eq_none found, rfl⟩
  | some old =>
      obtain ⟨named, before, later, split, others⟩ := tableAt.split found
      subst split
      have order : (↑(before ++ old :: later) : Multiset Row) =
          old ::ₘ ↑(before ++ later) :=
        Multiset.coe_eq_coe.mpr List.perm_middle
      have cells := tableAt.cells
      have entries := tableAt.entries
      have noNul : ∀ row ∈ (↑(before ++ old :: later) : Multiset Row),
          0 ∉ row.command.name := tableAt.noNul
      rw [order] at cells entries noNul
      have known := onCommand_load (cells_cons.mp cells).command
        (Multiset.mem_add.mpr (.inr (Multiset.mem_cons_self _ _)))
      apply Yields.bind_run known
      apply Yields.bind (hashTableRemove_spec documented cells entries noNul)
      intro _ last removed
      apply (commandFree_spec removed.1).mono
      intro _ after done
      have entries := removed.2
      rw [← done.2] at entries
      refine ⟨before ++ later, ⟨done.1, entries, ?_, ?_⟩, others, ?_⟩
      · intro row member
        exact noNul row (Multiset.mem_cons_of_mem member)
      · have once := tableAt.once
        rw [(List.perm_middle.map _).nodup_iff, List.map_cons] at once
        exact (List.nodup_cons.mp once).2
      · have apart : old.command ∉ before.map Row.command := by
          intro member
          obtain ⟨row, inside, same⟩ := List.mem_map.mp member
          exact others row (List.mem_append_left _ inside)
            ((congrArg Command.name same).trans named)
        simp only [Option.map_some]
        rw [List.map_append, List.map_append, List.map_cons,
          List.erase_append_right _ apart, List.erase_cons_head]

/-- The table after an insertion is that of the list of commands. -/
theorem commandListInsert_spec (tableAt : TableAt Holds memory table texts)
    (noNul : 0 ∉ name) (passes : Passes texts pointer (name ++ [0]))
    (left : UInt8) (paramMin paramMax : UInt16) (func : CommandFunc) :
    Yields (commandListInsert glib left pointer paramMin paramMax func) memory
      fun _ after => ∃ next, TableAt Holds after next texts ∧
        next.map Row.command =
          KetamaRouter.commandListInsert (table.map Row.command) name paramMin
            paramMax func := by
  apply Yields.bind (commandListDrop_spec documented tableAt noNul passes)
  intro _ middle dropped
  obtain ⟨others, tableAt, apart, same⟩ := dropped
  apply Yields.bind
    (commandInit_spec tableAt.cells noNul passes left paramMin paramMax func)
  intro cmd made init
  obtain ⟨row, address, command, cells, kept⟩ := init
  subst address
  have known := onCommand_load (cells_cons.mp cells).command
    (Multiset.mem_add.mpr (.inr (Multiset.mem_cons_self _ _)))
  apply Yields.bind_run known
  have named : row.command.name = name := congrArg Command.name command
  have entries := tableAt.entries
  rw [← kept] at entries
  rw [← named] at apart
  apply (hashTableInsert_spec documented cells entries tableAt.noNul
    apart).mono
  intro _ after inserted
  refine ⟨row :: others, ⟨inserted.1, inserted.2, ?_, ?_⟩, ?_⟩
  · intro other member
    cases member with
    | head =>
        rw [named]
        exact noNul
    | tail _ later => exact tableAt.noNul other later
  · rw [List.map_cons, List.nodup_cons]
    refine ⟨?_, tableAt.once⟩
    intro member
    obtain ⟨other, inside, same⟩ := List.mem_map.mp member
    exact apart other inside same
  · rw [List.map_cons, command, same]
    rfl

end Documented

/-! ## Calls -/

/-- A call of a caller who has the text in a buffer of its own. -/
inductive TableCall where
  | insert (name : Bytes) (paramMin paramMax : UInt16) (func : CommandFunc)
  | get (name : Bytes)
  deriving DecidableEq, Repr

/-- What a caller sees of a command. -/
def readCommand {Table : Type} (cmd : Nat) : TableProgram Table Command := do
  let contents ← onCommand (load .freedMemory cmd)
  let str ← onStr (load .freedMemory contents.name)
  let name ← readBytes str.data str.len
  return ⟨name, contents.paramMin, contents.paramMax, contents.func⟩

namespace TableCall

/-- The caller frees the buffer as soon as the call returns. -/
def run (glib : HashTable.Interface Fault Nat Nat) (left : UInt8) :
    TableCall → TableProgram glib.Table (Option Command)
  | insert name paramMin paramMax func => do
      let block ← onText (malloc (name ++ [0]))
      commandListInsert glib left ⟨block, 0⟩ paramMin paramMax func
      freeText (some ⟨block, 0⟩)
      return none
  | get name => do
      let block ← onText (malloc name)
      let found ← commandListGetl glib ⟨block, 0⟩ name.length
      freeText (some ⟨block, 0⟩)
      match found with
      | none => return none
      | some cmd => return some (← readCommand cmd)

def Takes (glib : HashTable.Interface Fault Nat Nat)
    (memory : TableMemory glib.Table) (call : TableCall)
    (after : TableMemory glib.Table) : Prop :=
  ∃ left found, call.run glib left memory = .ok found after

/-- The command that a call inserts. -/
def inserted : TableCall → Option Command
  | insert name paramMin paramMax func =>
      some ⟨cStr name, paramMin, paramMax, func⟩
  | get _ => none

/-- What the call does to the list of commands. -/
def effect (commands : List Command) : TableCall → List Command
  | insert name paramMin paramMax func =>
      KetamaRouter.commandListInsert commands (cStr name) paramMin paramMax func
  | get _ => commands

def answer (commands : List Command) : TableCall → Option Command
  | insert _ _ _ _ => none
  | get name => KetamaRouter.commandListGetl commands name

end TableCall

theorem readCommand_run (cells : Cells memory rows cmds strs texts)
    (member : row ∈ rows) :
    readCommand row.cmd memory = .ok row.command memory := by
  obtain ⟨type, pointer, known, points⟩ := cells.reads member
  have command := onCommand_load cells.command (Multiset.mem_add.mpr
    (.inl (Multiset.mem_map_of_mem Row.commandCell member)))
  unfold readCommand
  rw [bind_run_ok command]
  dsimp only
  rw [bind_run_ok known]
  dsimp only
  rw [bind_run_ok (readBytes_run points)]
  rfl

theorem passes_cStr (block : Nat) (name : Bytes) :
    Passes {(block, name ++ [0])} ⟨block, 0⟩ (cStr name ++ [0]) := by
  have nul : 0 ∈ name ++ [0] := List.mem_append_right _ List.mem_cons_self
  obtain ⟨tail, cut⟩ := cStr_cut nul
  rw [cStr_append_nul] at cut
  refine ⟨[], tail, ?_, rfl⟩
  rw [cut, Multiset.mem_singleton, List.nil_append, List.append_assoc]
  rfl

theorem TableCall.run_spec
    (documented : HashTable.Documented glib KetamaRouter.strHash Holds)
    (tableAt : TableAt Holds memory table 0) (call : TableCall) (left : UInt8) :
    Yields (call.run glib left) memory fun found after =>
      found = call.answer (table.map Row.command) ∧
      ∃ next, TableAt Holds after next 0 ∧
        next.map Row.command = call.effect (table.map Row.command) := by
  cases call with
  | insert name paramMin paramMax func =>
      apply Yields.bind (mallocText_spec tableAt.cells (name ++ [0]))
      intro block middle made
      apply Yields.bind (commandListInsert_spec documented
        (tableAt.leaves made) (cStr_noNul name) (passes_cStr block name) left
        paramMin paramMax func)
      intro _ last done
      obtain ⟨next, tableAt, same⟩ := done
      apply Yields.bind (freeText_spec tableAt.cells)
      intro _ after freed
      apply Yields.pure
      exact ⟨rfl, next, tableAt.leaves freed, same⟩
  | get name =>
      apply Yields.bind (mallocText_spec tableAt.cells name)
      intro block middle made
      have passes : Passes {(block, name)} ⟨block, 0⟩ name :=
        ⟨[], [], by simp, rfl⟩
      apply Yields.bind
        (commandListGetl_spec documented (tableAt.leaves made) passes)
      intro found last looked
      obtain ⟨same, tableAt⟩ := looked
      apply Yields.bind (freeText_spec tableAt.cells)
      intro _ after freed
      have ended : TableAt Holds after table 0 := tableAt.leaves freed
      subst same
      change Yields _ after fun found after => found =
        KetamaRouter.commandListGetl (table.map Row.command) name ∧ _
      rw [rowOf_command]
      cases known : rowOf table name with
      | none =>
          apply Yields.pure
          exact ⟨rfl, table, ended, rfl⟩
      | some row =>
          have member : row ∈ (↑table : Multiset Row) :=
            Multiset.mem_coe.mpr (List.mem_of_find?_eq_some known)
          apply Yields.bind_run (readCommand_run ended.cells member)
          apply Yields.pure
          exact ⟨rfl, table, ended, rfl⟩

/-! ## Runs -/

/-- The list of commands after these calls. -/
def commandsOf (calls : List TableCall) : List Command :=
  calls.foldl TableCall.effect []

/-- The command inserted last under this name. -/
def lastInserted (calls : List TableCall) (name : Bytes) : Option Command :=
  (calls.filterMap TableCall.inserted).reverse.find? fun command =>
    command.name = name

/-- The names that commands were inserted under. -/
def insertedNames (calls : List TableCall) : Finset Bytes :=
  ((calls.filterMap TableCall.inserted).map Command.name).toFinset

variable {calls : List TableCall}

theorem commandsOf_snoc (calls : List TableCall) (call : TableCall) :
    commandsOf (calls ++ [call]) = call.effect (commandsOf calls) :=
  List.foldl_append

theorem tableAt_of_run
    (documented : HashTable.Documented glib KetamaRouter.strHash Holds)
    (run : Run (TableCall.Takes glib) (commandListInit glib) calls memory) :
    ∃ table, TableAt Holds memory table 0 ∧
      table.map Row.command = commandsOf calls := by
  induction run with
  | nil => exact ⟨[], commandListInit_tableAt documented, rfl⟩
  | snoc run takes induction =>
      obtain ⟨table, tableAt, same⟩ := induction
      obtain ⟨left, found, ran⟩ := takes
      obtain ⟨-, next, tableAt, after⟩ :=
        (TableCall.run_spec documented tableAt _ left).result ran
      exact ⟨next, tableAt, by rw [after, same, commandsOf_snoc]⟩

/-! ## The list of commands -/

theorem commandListGetl_noNul {commands : List Command}
    (noNul : ∀ command ∈ commands, 0 ∉ command.name) (name : Bytes) :
    KetamaRouter.commandListGetl commands name =
      commands.find? fun command => command.name = name := by
  apply commandListGetl_bytes
  intro command member
  have equal : KetamaRouter.strEqual command.name name = true ↔
      command.name = name := strEqual_iff (noNul command member)
  exact ⟨equal, fun same => congrArg KetamaRouter.strHash (equal.mp same)⟩

theorem find?_erase {commands : List Command} {old : Command}
    {wanted : Command → Bool} (unwanted : wanted old = false) :
    (commands.erase old).find? wanted = commands.find? wanted := by
  induction commands with
  | nil => rfl
  | cons first commands induction =>
      by_cases same : first = old
      · rw [same, List.erase_cons_head, List.find?_cons, unwanted]
      · rw [List.erase_cons_tail (by simpa using same), List.find?_cons,
          List.find?_cons, induction]

theorem insert_noNul {commands : List Command}
    (noNul : ∀ command ∈ commands, 0 ∉ command.name) (named : 0 ∉ name)
    (paramMin paramMax : UInt16) (func : CommandFunc) :
    ∀ command ∈ KetamaRouter.commandListInsert commands name paramMin paramMax
      func, 0 ∉ command.name := by
  intro command member
  unfold KetamaRouter.commandListInsert at member
  rcases List.mem_cons.mp member with new | old
  · rw [new]
    exact named
  · apply noNul
    revert old
    split
    · exact id
    · exact List.mem_of_mem_erase

/-- Inserting changes what is found under one name. -/
theorem commandListGetl_insert {commands : List Command}
    (noNul : ∀ command ∈ commands, 0 ∉ command.name) (named : 0 ∉ name)
    (paramMin paramMax : UInt16) (func : CommandFunc) (key : Bytes) :
    KetamaRouter.commandListGetl (KetamaRouter.commandListInsert commands name
        paramMin paramMax func) key =
      if name = key then some ⟨name, paramMin, paramMax, func⟩
      else KetamaRouter.commandListGetl commands key := by
  rw [commandListGetl_noNul (insert_noNul noNul named paramMin paramMax func),
    commandListGetl_noNul noNul]
  unfold KetamaRouter.commandListInsert
  rw [List.find?_cons]
  by_cases same : name = key
  · simp [same]
  · simp only [same, decide_false, if_false]
    split
    · rfl
    · rename_i old found
      rw [commandListGetl_noNul noNul] at found
      apply find?_erase
      have oldName : old.name = name := by
        simpa using List.find?_some found
      rw [oldName]
      exact decide_eq_false same

theorem commandsOf_noNul (calls : List TableCall) :
    ∀ command ∈ commandsOf calls, 0 ∉ command.name := by
  induction calls using List.reverseRecOn with
  | nil => exact fun command member => absurd member List.not_mem_nil
  | append_singleton calls call induction =>
      rw [commandsOf_snoc]
      cases call with
      | insert name paramMin paramMax func =>
          exact insert_noNul induction (cStr_noNul name) paramMin paramMax func
      | get name => exact induction

theorem lastInserted_snoc (calls : List TableCall) (call : TableCall)
    (name : Bytes) :
    lastInserted (calls ++ [call]) name =
      match call.inserted with
      | none => lastInserted calls name
      | some command =>
          if command.name = name then some command
          else lastInserted calls name := by
  unfold lastInserted
  rw [List.filterMap_append]
  cases known : call.inserted with
  | none => simp [known]
  | some command =>
      by_cases same : command.name = name
      · simp [known, same]
      · simp [known, same]

/-- The list of commands answers with what was inserted last. -/
theorem commandListGetl_commandsOf (calls : List TableCall) (name : Bytes) :
    KetamaRouter.commandListGetl (commandsOf calls) name =
      lastInserted calls name := by
  induction calls using List.reverseRecOn with
  | nil => rfl
  | append_singleton calls call induction =>
      rw [commandsOf_snoc, lastInserted_snoc, ← induction]
      cases call with
      | insert text paramMin paramMax func =>
          exact commandListGetl_insert (commandsOf_noNul calls)
            (cStr_noNul text) paramMin paramMax func name
      | get text => rfl

theorem mem_insertedNames (calls : List TableCall) (name : Bytes) :
    name ∈ insertedNames calls ↔
      name ∈ (commandsOf calls).map Command.name := by
  have last : (lastInserted calls name).isSome ↔
      name ∈ insertedNames calls := by
    unfold lastInserted insertedNames
    rw [List.find?_isSome]
    simp
  rw [← last, ← commandListGetl_commandsOf,
    commandListGetl_noNul (commandsOf_noNul calls), List.find?_isSome]
  simp

/-- With a hash table as documented, in every run the table answers with the
command inserted last under a name, and what is allocated are the record, the
`str_t` and the text of one command for each name. -/
theorem commandTable_runs
    (documented : HashTable.Documented glib KetamaRouter.strHash Holds)
    (run : Run (TableCall.Takes glib) (commandListInit glib) calls memory) :
    (∀ call : TableCall, ∀ left, Yields (call.run glib left) memory
      fun found _ => found = call.answer (commandsOf calls)) ∧
    (∀ name, KetamaRouter.commandListGetl (commandsOf calls) name =
      lastInserted calls name) ∧
    ∃ cmds strs texts,
      Live memory.command cmds ∧ cmds.card = (insertedNames calls).card ∧
      Live memory.str strs ∧ strs.card = (insertedNames calls).card ∧
      Live memory.text texts ∧ texts.card = (insertedNames calls).card := by
  obtain ⟨table, tableAt, same⟩ := tableAt_of_run documented run
  refine ⟨?_, commandListGetl_commandsOf calls, ?_⟩
  · intro call left
    apply (TableCall.run_spec documented tableAt call left).mono
    intro found after done
    rw [same] at done
    exact done.1
  · have count : table.length = (insertedNames calls).card := by
      have names : insertedNames calls =
          (table.map fun row => row.command.name).toFinset := by
        ext name
        rw [mem_insertedNames, ← same, List.mem_toFinset, List.map_map]
        rfl
      rw [names, List.toFinset_card_of_nodup tableAt.once, List.length_map]
    have cells := tableAt.cells
    refine ⟨_, _, _, cells.command, ?_, cells.str, ?_, cells.text, ?_⟩
    all_goals
      rw [add_zero, Multiset.card_map]
      exact count

/-- A command that replaces another one of its name, beside a third one, in a
table that keeps a list of nodes. -/
theorem commandTable_runs_replaced :
    ∃ memory, Run (TableCall.Takes HashTable.nodeTable)
        (commandListInit HashTable.nodeTable)
        [.insert (ascii "GET") 0 0 .commandPING,
          .insert (ascii "PING") 0 0 .commandPING,
          .insert (ascii "GET") 1 1 .commandGET] memory ∧
      (∀ left, Yields ((TableCall.get (ascii "GET")).run HashTable.nodeTable
        left) memory
          fun found _ => found = some ⟨ascii "GET", 1, 1, .commandGET⟩) ∧
      ∃ cmds, Live memory.command cmds ∧ cmds.card = 2 := by
  have documented : HashTable.Documented
      (HashTable.nodeTable : HashTable.Interface Fault Nat Nat)
      KetamaRouter.strHash (HashTable.NodesHold KetamaRouter.strHash) :=
    HashTable.nodeTable_documented KetamaRouter.strHash
  obtain ⟨_, first, ran, -, table, tableAt, -⟩ :=
    TableCall.run_spec documented (commandListInit_tableAt documented)
      (.insert (ascii "GET") 0 0 .commandPING) 0
  have run : Run (TableCall.Takes HashTable.nodeTable)
      (commandListInit HashTable.nodeTable)
      ([] ++ [.insert (ascii "GET") 0 0 .commandPING]) first :=
    Run.nil.snoc ⟨0, _, ran⟩
  obtain ⟨_, second, ran, -, table, tableAt, -⟩ :=
    TableCall.run_spec documented tableAt
      (.insert (ascii "PING") 0 0 .commandPING) 0
  have run := run.snoc ⟨0, _, ran⟩
  obtain ⟨_, third, ran, -⟩ :=
    TableCall.run_spec documented tableAt
      (.insert (ascii "GET") 1 1 .commandGET) 0
  have run := run.snoc ⟨0, _, ran⟩
  obtain ⟨answers, last, cmds, -, -, live, count, -⟩ :=
    commandTable_runs documented run
  refine ⟨third, run, ?_, cmds, live, count.trans (by decide)⟩
  intro left
  apply (answers (.get (ascii "GET")) left).mono
  intro found _ same
  rw [same]
  change KetamaRouter.commandListGetl _ _ = _
  rw [last]
  decide

end CommandTable

end KetamaRouter
