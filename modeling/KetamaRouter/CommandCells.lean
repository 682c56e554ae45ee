import KetamaRouter.CommandKeys
import KetamaRouter.Source.CommandTable

/-!
# The cells of a command

A command in the table has three cells: its record, the `str_t` of its name and
the text of the name, which is a copy.  What the functions of `command.c` and
`str.c` read is in these cells or in a buffer of the caller, and what they
allocate they free, but for the cells of the commands in the table.
-/

namespace KetamaRouter

namespace CommandTable

open FaultProgram CellHeap

/-- A command in the table, with the addresses of its cells. -/
structure Row where
  cmd : Nat
  name : Nat
  block : Nat
  left : UInt8
  command : Command

namespace Row

variable (row : Row)

/-- What the hash table has of a command. -/
def entry : HashTable.Entry Nat Bytes Nat :=
  { key := row.name, content := row.command.name, value := row.cmd }

def commandCell : Nat × CommandCell :=
  (row.cmd,
    { name := row.name
      paramMin := row.command.paramMin
      paramMax := row.command.paramMax
      func := row.command.func })

def strCell : Nat × Str :=
  (row.name,
    { type := .alloc
      data := some ⟨row.block, 0⟩
      len := row.command.name.length })

def textCell : Nat × Bytes :=
  (row.block, row.command.name ++ [row.left])

end Row

variable {Table : Type}

/-- What is allocated: the cells of these commands, and others. -/
structure Cells (memory : TableMemory Table) (rows : Multiset Row)
    (cmds : Multiset (Nat × CommandCell)) (strs : Multiset (Nat × Str))
    (texts : Multiset (Nat × Bytes)) : Prop where
  command : Live memory.command (rows.map Row.commandCell + cmds)
  str : Live memory.str (rows.map Row.strCell + strs)
  text : Live memory.text (rows.map Row.textCell + texts)

variable {memory after : TableMemory Table} {rows : Multiset Row}
  {cmds : Multiset (Nat × CommandCell)} {strs : Multiset (Nat × Str)}
  {texts : Multiset (Nat × Bytes)} {bytes name : Bytes} {row : Row}
  {pointer : CharPtr}

/-! ## Reading -/

theorem onText_load {cells : Multiset (Nat × Bytes)} {block : Nat}
    (live : Live memory.text cells) (member : (block, bytes) ∈ cells) :
    onText (load .freedMemory block) memory = .ok bytes memory := by
  unfold onText focus
  rw [live.load member]

theorem onStr_load {cells : Multiset (Nat × Str)} {str : Nat} {contents : Str}
    (live : Live memory.str cells) (member : (str, contents) ∈ cells) :
    onStr (load .freedMemory str) memory = .ok contents memory := by
  unfold onStr focus
  rw [live.load member]

theorem onCommand_load {cells : Multiset (Nat × CommandCell)} {cmd : Nat}
    {contents : CommandCell} (live : Live memory.command cells)
    (member : (cmd, contents) ∈ cells) :
    onCommand (load .freedMemory cmd) memory = .ok contents memory := by
  unfold onCommand focus
  rw [live.load member]

/-- There are these bytes from the pointer on. -/
def PointsTo (memory : TableMemory Table) (pointer : CharPtr) (bytes : Bytes) :
    Prop :=
  ∃ front rest, onText (load .freedMemory pointer.block) memory =
      .ok (front ++ bytes ++ rest) memory ∧ front.length = pointer.off

/-- The string is there, with these bytes. -/
def ReadsAs (memory : TableMemory Table) (str : Nat) (bytes : Bytes) : Prop :=
  ∃ type pointer, onStr (load .freedMemory str) memory =
      .ok { type := type, data := some pointer, len := bytes.length } memory ∧
    PointsTo memory pointer bytes

theorem readBytes_run
    (points : PointsTo memory pointer bytes) :
    readBytes (some pointer) bytes.length memory = .ok bytes memory := by
  obtain ⟨front, rest, known, start⟩ := points
  have within : pointer.off + bytes.length ≤
      (front ++ bytes ++ rest).length := by
    rw [List.length_append, List.length_append, start]
    exact Nat.le_add_right _ _
  unfold readBytes deref
  rw [bind_run_ok (pure_run _ _), bind_run_ok known, if_pos within, ← start,
    List.append_assoc, List.drop_left, List.take_left]
  rfl

theorem strHash_run {str : Nat} (reads : ReadsAs memory str bytes) :
    strHash str memory = .ok (KetamaRouter.strHash bytes) memory := by
  obtain ⟨type, pointer, known, points⟩ := reads
  unfold strHash
  rw [bind_run_ok known, bind_run_ok (readBytes_run points)]
  rfl

theorem strEqual_run {a b : Nat} {other : Bytes}
    (first : ReadsAs memory a bytes) (second : ReadsAs memory b other) :
    strEqual a b memory = .ok (KetamaRouter.strEqual bytes other) memory := by
  obtain ⟨typeA, pointerA, knownA, pointsA⟩ := first
  obtain ⟨typeB, pointerB, knownB, pointsB⟩ := second
  unfold strEqual KetamaRouter.strEqual
  rw [bind_run_ok knownA, bind_run_ok knownB]
  dsimp only
  by_cases same : bytes.length = other.length
  · have readB := readBytes_run pointsB
    rw [← same] at readB
    rw [if_neg (not_not_intro same), if_neg (not_not_intro same),
      bind_run_ok (readBytes_run pointsA), bind_run_ok readB]
    rfl
  · rw [if_pos same, if_pos same]
    rfl

/-- The row of a name, found as the list of commands finds it. -/
def rowOf (rows : List Row) (name : Bytes) : Option Row :=
  rows.find? fun row =>
    KetamaRouter.strHash row.command.name = KetamaRouter.strHash name &&
      KetamaRouter.strEqual row.command.name name

theorem rowOf_command (rows : List Row) (name : Bytes) :
    KetamaRouter.commandListGetl (rows.map Row.command) name =
      (rowOf rows name).map Row.command :=
  List.find?_map

theorem rowOf_eq_none {table : List Row} (none : rowOf table name = none) :
    ∀ row ∈ table, row.command.name ≠ name := by
  intro row member same
  have unequal := List.find?_eq_none.mp none row member
  apply unequal
  rw [same, Bool.and_eq_true, decide_eq_true_eq, strEqual_eq_true]
  exact ⟨rfl, rfl, rfl⟩

theorem rowOf_eq_some {table : List Row}
    (noNul : ∀ row ∈ table, 0 ∉ row.command.name)
    (found : rowOf table name = some row) :
    row ∈ table ∧ row.command.name = name := by
  have member : row ∈ table := List.mem_of_find?_eq_some found
  have equal := List.find?_some found
  rw [Bool.and_eq_true, strEqual_iff (noNul row member)] at equal
  exact ⟨member, equal.2⟩

/-- A key that a search for `name` may meet: no other key has a NUL. -/
def KeyReads (memory : TableMemory Table) (name : Bytes) (key : Nat)
    (bytes : Bytes) : Prop :=
  ReadsAs memory key bytes ∧ (0 ∈ bytes → bytes = name)

theorem strEqual_keys {a b : Bytes} (first : 0 ∈ a → a = name)
    (second : 0 ∈ b → b = name) :
    KetamaRouter.strEqual a b = decide (a = b) := by
  rw [Bool.eq_iff_iff, decide_eq_true_eq]
  by_cases nulA : 0 ∈ a
  · by_cases nulB : 0 ∈ b
    · rw [first nulA, second nulB, strEqual_eq_true]
      simp
    · rw [strEqual_comm, strEqual_iff nulB]
      exact eq_comm
  · exact strEqual_iff nulA

/-! ## Cells -/

/-- A caller's buffer has these bytes from the pointer on. -/
def Passes (texts : Multiset (Nat × Bytes)) (pointer : CharPtr)
    (bytes : Bytes) : Prop :=
  ∃ front rest, (pointer.block, front ++ bytes ++ rest) ∈ texts ∧
    front.length = pointer.off

theorem Cells.reads (cells : Cells memory rows cmds strs texts)
    (member : row ∈ rows) : ReadsAs memory row.name row.command.name := by
  have str := onStr_load cells.str
    (Multiset.mem_add.mpr (.inl (Multiset.mem_map_of_mem Row.strCell member)))
  have text := onText_load cells.text
    (Multiset.mem_add.mpr (.inl (Multiset.mem_map_of_mem Row.textCell member)))
  exact ⟨.alloc, ⟨row.block, 0⟩, str, [], [row.left], text, rfl⟩

/-- The callbacks of a table without a NUL in its keys read these. -/
theorem Cells.readable (cells : Cells memory rows cmds strs texts)
    (noNul : ∀ row ∈ rows, 0 ∉ row.command.name) (name : Bytes) :
    HashTable.Readable (callbacks memory) KetamaRouter.strHash
      (KeyReads memory name) (rows.map Row.entry) where
  hash read := outcome_ok (strHash_run read.1)
  equal first second := by
    rw [← strEqual_keys first.2 second.2]
    exact outcome_ok (strEqual_run first.1 second.1)
  kept entry member := by
    obtain ⟨row, inside, same⟩ := Multiset.mem_map.mp member
    subst same
    exact ⟨cells.reads inside, fun nul => absurd nul (noNul row inside)⟩

theorem Cells.pointsTo (cells : Cells memory rows cmds strs texts)
    (passes : Passes texts pointer bytes) : PointsTo memory pointer bytes := by
  obtain ⟨front, rest, member, start⟩ := passes
  exact ⟨front, rest, onText_load cells.text
    (Multiset.mem_add.mpr (.inr member)), start⟩

/-- The cells of a command are cells like others. -/
theorem cells_cons :
    Cells memory (row ::ₘ rows) cmds strs texts ↔
      Cells memory rows (row.commandCell ::ₘ cmds) (row.strCell ::ₘ strs)
        (row.textCell ::ₘ texts) := by
  constructor
  · rintro ⟨command, str, text⟩
    rw [Multiset.map_cons, Multiset.cons_add, ← Multiset.add_cons]
      at command str text
    exact ⟨command, str, text⟩
  · rintro ⟨command, str, text⟩
    rw [Multiset.add_cons, ← Multiset.cons_add, ← Multiset.map_cons]
      at command str text
    exact ⟨command, str, text⟩

/-- These cells are allocated, and the table is as before. -/
def Leaves (memory : TableMemory Table) (rows : Multiset Row)
    (cmds : Multiset (Nat × CommandCell)) (strs : Multiset (Nat × Str))
    (texts : Multiset (Nat × Bytes)) (after : TableMemory Table) : Prop :=
  Cells after rows cmds strs texts ∧ after.table = memory.table

theorem mallocText_spec (cells : Cells memory rows cmds strs texts)
    (contents : Bytes) :
    Yields (onText (malloc contents)) memory fun block after =>
      Leaves memory rows cmds strs ((block, contents) ::ₘ texts) after := by
  apply (Yields.focus (cells.text.malloc contents)).mono
  intro block after done
  obtain ⟨text, same, live⟩ := done
  subst same
  rw [← Multiset.add_cons] at live
  exact ⟨⟨cells.command, cells.str, live⟩, rfl⟩

theorem mallocStr_spec (cells : Cells memory rows cmds strs texts)
    (contents : Str) :
    Yields (onStr (malloc contents)) memory fun str after =>
      Leaves memory rows cmds ((str, contents) ::ₘ strs) texts after := by
  apply (Yields.focus (cells.str.malloc contents)).mono
  intro str after done
  obtain ⟨part, same, live⟩ := done
  subst same
  rw [← Multiset.add_cons] at live
  exact ⟨⟨cells.command, live, cells.text⟩, rfl⟩

theorem mallocCommand_spec (cells : Cells memory rows cmds strs texts)
    (contents : CommandCell) :
    Yields (onCommand (malloc contents)) memory fun cmd after =>
      Leaves memory rows ((cmd, contents) ::ₘ cmds) strs texts after := by
  apply (Yields.focus (cells.command.malloc contents)).mono
  intro cmd after done
  obtain ⟨part, same, live⟩ := done
  subst same
  rw [← Multiset.add_cons] at live
  exact ⟨⟨live, cells.str, cells.text⟩, rfl⟩

theorem freeText_spec {block : Nat}
    (cells : Cells memory rows cmds strs ((block, bytes) ::ₘ texts)) :
    Yields (freeText (some ⟨block, 0⟩)) memory fun _ after =>
      Leaves memory rows cmds strs texts after := by
  have live := cells.text
  rw [Multiset.add_cons] at live
  apply (Yields.focus (live.free Fault.freedMemory)).mono
  intro _ after done
  obtain ⟨part, same, live⟩ := done
  subst same
  exact ⟨⟨cells.command, cells.str, live⟩, rfl⟩

theorem freeStr_spec {str : Nat} {contents : Str}
    (cells : Cells memory rows cmds ((str, contents) ::ₘ strs) texts) :
    Yields (onStr (free .freedMemory str)) memory fun _ after =>
      Leaves memory rows cmds strs texts after := by
  have live := cells.str
  rw [Multiset.add_cons] at live
  apply (Yields.focus (live.free Fault.freedMemory)).mono
  intro _ after done
  obtain ⟨part, same, live⟩ := done
  subst same
  exact ⟨⟨cells.command, live, cells.text⟩, rfl⟩

theorem freeCommand_spec {cmd : Nat} {contents : CommandCell}
    (cells : Cells memory rows ((cmd, contents) ::ₘ cmds) strs texts) :
    Yields (onCommand (free .freedMemory cmd)) memory fun _ after =>
      Leaves memory rows cmds strs texts after := by
  have live := cells.command
  rw [Multiset.add_cons] at live
  apply (Yields.focus (live.free Fault.freedMemory)).mono
  intro _ after done
  obtain ⟨part, same, live⟩ := done
  subst same
  exact ⟨⟨live, cells.str, cells.text⟩, rfl⟩

/-- `str_free` frees a copied text with its `str_t`. -/
theorem strFree_alloc_spec {str block len : Nat}
    (cells : Cells memory rows cmds
      ((str, { type := .alloc, data := some ⟨block, 0⟩, len := len }) ::ₘ strs)
      ((block, bytes) ::ₘ texts)) :
    Yields (strFree str) memory fun _ after =>
      Leaves memory rows cmds strs texts after := by
  have known := onStr_load cells.str
    (Multiset.mem_add.mpr (.inr (Multiset.mem_cons_self _ _)))
  apply Yields.bind_run known
  apply Yields.bind (freeText_spec cells)
  intro _ middle done
  obtain ⟨cells, kept⟩ := done
  apply (freeStr_spec cells).mono
  intro _ after done
  exact ⟨done.1, done.2.trans kept⟩

/-- It leaves a text that is not its own. -/
theorem strFree_none_spec {str len : Nat} {data : Option CharPtr}
    (cells : Cells memory rows cmds
      ((str, { type := .none, data := data, len := len }) ::ₘ strs) texts) :
    Yields (strFree str) memory fun _ after =>
      Leaves memory rows cmds strs texts after := by
  have known := onStr_load cells.str
    (Multiset.mem_add.mpr (.inr (Multiset.mem_cons_self _ _)))
  apply Yields.bind_run known
  exact freeStr_spec cells

/-! ## The functions -/

theorem Passes.initial {more : Bytes}
    (passes : Passes texts pointer (bytes ++ more)) :
    Passes texts pointer bytes := by
  obtain ⟨front, rest, member, start⟩ := passes
  refine ⟨front, more ++ rest, ?_, start⟩
  rw [List.append_assoc, List.append_assoc] at member
  rw [List.append_assoc]
  exact member

theorem readStrlen_run (points : PointsTo memory pointer (name ++ [0]))
    (noNul : 0 ∉ name) :
    readStrlen pointer memory = .ok name.length memory := by
  obtain ⟨front, rest, known, start⟩ := points
  have behind : (front ++ (name ++ [0]) ++ rest).drop pointer.off =
      name ++ 0 :: rest := by
    rw [← start, List.append_assoc, List.drop_left, List.append_assoc]
    rfl
  have length : strlen (name ++ 0 :: rest) = name.length := by
    rw [strlen, cStr_append_nul, cStr_eq_self noNul]
  unfold readStrlen
  rw [bind_run_ok known, behind, if_pos (by simp), length]
  rfl

/-- `command_init` copies the name. -/
theorem commandInit_spec (cells : Cells memory rows cmds strs texts)
    (noNul : 0 ∉ name) (passes : Passes texts pointer (name ++ [0]))
    (left : UInt8) (paramMin paramMax : UInt16) (func : CommandFunc) :
    Yields (commandInit left pointer paramMin paramMax func) memory
      fun cmd after => ∃ row, row.cmd = cmd ∧
        row.command = ⟨name, paramMin, paramMax, func⟩ ∧
        Leaves memory (row ::ₘ rows) cmds strs texts after := by
  apply Yields.bind_run (readStrlen_run (cells.pointsTo passes) noNul)
  have copied : Yields (strInitAlloc left pointer name.length) memory
      fun str after => ∃ block, Leaves memory rows cmds
        ((str, ⟨.alloc, some ⟨block, 0⟩, name.length⟩) ::ₘ strs)
        ((block, name ++ [left]) ::ₘ texts) after := by
    apply Yields.bind_run
      (readBytes_run (cells.pointsTo passes.initial))
    apply Yields.bind (mallocText_spec cells _)
    intro block middle made
    obtain ⟨cells, kept⟩ := made
    apply (mallocStr_spec cells _).mono
    intro str after made
    exact ⟨block, made.1, made.2.trans kept⟩
  apply Yields.bind copied
  intro str middle made
  obtain ⟨block, cells, kept⟩ := made
  apply (mallocCommand_spec cells _).mono
  intro cmd after made
  let row : Row :=
    { cmd := cmd
      name := str
      block := block
      left := left
      command := ⟨name, paramMin, paramMax, func⟩ }
  have whole : Cells after (row ::ₘ rows) cmds strs texts :=
    cells_cons.mpr made.1
  exact ⟨row, rfl, rfl, whole, made.2.trans kept⟩

/-- `command_free` frees all three cells. -/
theorem commandFree_spec (cells : Cells memory (row ::ₘ rows) cmds strs texts) :
    Yields (commandFree row.cmd) memory fun _ after =>
      Leaves memory rows cmds strs texts after := by
  have apart := cells_cons.mp cells
  have known := onCommand_load apart.command
    (Multiset.mem_add.mpr (.inr (Multiset.mem_cons_self _ _)))
  apply Yields.bind_run known
  apply Yields.bind (strFree_alloc_spec apart)
  intro _ middle done
  obtain ⟨cells, kept⟩ := done
  apply (freeCommand_spec cells).mono
  intro _ after done
  exact ⟨done.1, done.2.trans kept⟩

/-! ## The table -/

variable {glib : HashTable.Interface Fault Nat Nat}
  {Holds : glib.Table → Multiset (HashTable.Entry Nat Bytes Nat) → Prop}

/-- The table has these commands, and buffers of callers are there. -/
structure TableAt
    (Holds : glib.Table → Multiset (HashTable.Entry Nat Bytes Nat) → Prop)
    (memory : TableMemory glib.Table) (table : List Row)
    (texts : Multiset (Nat × Bytes)) : Prop where
  cells : Cells memory table 0 0 texts
  entries : Holds memory.table (Multiset.map Row.entry table)
  noNul : ∀ row ∈ table, 0 ∉ row.command.name
  once : (table.map fun row => row.command.name).Nodup

variable {memory after : TableMemory glib.Table} {table : List Row}

/-- Other buffers may be there where the table is as before. -/
theorem TableAt.leaves {others : Multiset (Nat × Bytes)}
    (tableAt : TableAt Holds memory table texts)
    (leaves : Leaves memory table 0 0 others after) :
    TableAt Holds after table others where
  cells := leaves.1
  entries := by
    rw [leaves.2]
    exact tableAt.entries
  noNul := tableAt.noNul
  once := tableAt.once

variable (documented : HashTable.Documented glib KetamaRouter.strHash Holds)

include documented

theorem commandListInit_tableAt :
    TableAt Holds (commandListInit glib) [] 0 where
  cells := ⟨Heap.empty_live, Heap.empty_live, Heap.empty_live⟩
  entries := documented.new
  noNul _ member := absurd member List.not_mem_nil
  once := List.nodup_nil

/-- The value found is the command whose name has the bytes of the key. -/
theorem hashTableLookup_run {str : Nat}
    (cells : Cells memory table cmds strs texts)
    (entries : Holds memory.table (Multiset.map Row.entry table))
    (noNul : ∀ row ∈ table, 0 ∉ row.command.name)
    (reads : ReadsAs memory str name) :
    hashTableLookup glib str memory =
      .ok ((rowOf table name).map Row.cmd) memory := by
  have readable := cells.readable noNul name
  have read : KeyReads memory name str name := ⟨reads, fun _ => rfl⟩
  have looked : glib.lookup (callbacks memory) memory.table str =
      .ok ((rowOf table name).map Row.cmd) := by
    cases found : rowOf table name with
    | none =>
        apply documented.lookup_absent entries readable ?_ read
        intro entry member
        obtain ⟨row, inside, same⟩ := Multiset.mem_map.mp member
        subst same
        exact rowOf_eq_none found row inside
    | some row =>
        obtain ⟨member, named⟩ := rowOf_eq_some noNul found
        subst named
        exact documented.lookup_found entries readable
          (Multiset.mem_map_of_mem Row.entry member) read
  unfold hashTableLookup
  rw [bind_run_ok (get_run memory), looked]
  rfl

theorem hashTableRemove_spec
    (cells : Cells memory (row ::ₘ rows) cmds strs texts)
    (entries : Holds memory.table ((row ::ₘ rows).map Row.entry))
    (noNul : ∀ other ∈ row ::ₘ rows, 0 ∉ other.command.name) :
    Yields (hashTableRemove glib row.name) memory fun _ after =>
      Cells after (row ::ₘ rows) cmds strs texts ∧
        Holds after.table (rows.map Row.entry) := by
  have readable := cells.readable noNul row.command.name
  rw [Multiset.map_cons] at entries readable
  have read := readable.kept row.entry (Multiset.mem_cons_self _ _)
  obtain ⟨next, removed, holds⟩ := documented.remove entries readable read
  apply Yields.get_bind
  change Yields (ofExcept (glib.remove _ _ row.entry.key) >>= _) memory _
  rw [removed]
  apply Yields.bind_run (ofExcept_run next memory)
  apply Yields.set
  exact ⟨⟨cells.command, cells.str, cells.text⟩, holds⟩

/-- A command whose name is new becomes an entry. -/
theorem hashTableInsert_spec
    (cells : Cells memory (row ::ₘ rows) cmds strs texts)
    (entries : Holds memory.table (rows.map Row.entry))
    (noNul : ∀ other ∈ rows, 0 ∉ other.command.name)
    (new : ∀ other ∈ rows, other.command.name ≠ row.command.name) :
    Yields (hashTableInsert glib row.name row.cmd) memory fun _ after =>
      Cells after (row ::ₘ rows) cmds strs texts ∧
        Holds after.table ((row ::ₘ rows).map Row.entry) := by
  have readable :=
    (cells_cons.mp cells).readable noNul row.command.name
  have read : KeyReads memory row.command.name row.name row.command.name :=
    ⟨cells.reads (Multiset.mem_cons_self _ _), fun _ => rfl⟩
  have absent : ∀ entry ∈ rows.map Row.entry,
      entry.content ≠ row.command.name := by
    intro entry member
    obtain ⟨other, inside, same⟩ := Multiset.mem_map.mp member
    subst same
    exact new other inside
  obtain ⟨next, inserted, holds⟩ :=
    documented.insert row.cmd entries readable absent read
  apply Yields.get_bind
  rw [inserted]
  apply Yields.bind_run (ofExcept_run next memory)
  apply Yields.set
  rw [Multiset.map_cons]
  exact ⟨⟨cells.command, cells.str, cells.text⟩, holds⟩

/-- A lookup finds the command and leaves nothing behind. -/
theorem commandListGetl_spec (tableAt : TableAt Holds memory table texts)
    (passes : Passes texts pointer name) :
    Yields (commandListGetl glib pointer name.length) memory
      fun found after => found = (rowOf table name).map Row.cmd ∧
        TableAt Holds after table texts := by
  apply Yields.bind (mallocStr_spec tableAt.cells _)
  intro key middle made
  obtain ⟨cells, kept⟩ := made
  have entries := tableAt.entries
  rw [← kept] at entries
  have reads : ReadsAs middle key name :=
    ⟨.none, pointer, onStr_load cells.str
      (Multiset.mem_add.mpr (.inr (Multiset.mem_cons_self _ _))),
      cells.pointsTo passes⟩
  apply Yields.bind_run
    (hashTableLookup_run documented cells entries tableAt.noNul reads)
  apply Yields.bind (strFree_none_spec cells)
  intro _ after freed
  apply Yields.pure
  exact ⟨rfl, tableAt.leaves ⟨freed.1, freed.2.trans kept⟩⟩

theorem commandListGet_spec (tableAt : TableAt Holds memory table texts)
    (noNul : 0 ∉ name) (passes : Passes texts pointer (name ++ [0])) :
    Yields (commandListGet glib pointer) memory fun found after =>
      found = (rowOf table name).map Row.cmd ∧
        TableAt Holds after table texts := by
  apply Yields.bind_run
    (readStrlen_run (tableAt.cells.pointsTo passes) noNul)
  exact commandListGetl_spec documented tableAt passes.initial

end CommandTable

end KetamaRouter
