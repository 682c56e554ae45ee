import Mathlib.Data.Multiset.MapFold

/-!
# Hash tables of pointers

A hash table that calls its user to hash and to compare keys.  A key may be a
pointer: what it stands for is a content that the callbacks read, and the table
works as documented while they read every key it holds as the content the key
was inserted with.
-/

namespace HashTable

/-- The functions that a table calls on its keys. -/
structure KeyFunctions (ε Key : Type) where
  hash : Key → Except ε UInt32
  equal : Key → Key → Except ε Bool

/-- The operations on a table. -/
structure Interface (ε Key Value : Type) where
  Table : Type
  new : Table
  lookup : KeyFunctions ε Key → Table → Key → Except ε (Option Value)
  insert : KeyFunctions ε Key → Table → Key → Value → Except ε Table
  remove : KeyFunctions ε Key → Table → Key → Except ε Table

/-- A key in a table, with the content it had when it was inserted. -/
structure Entry (Key Content Value : Type) where
  key : Key
  content : Content
  value : Value

variable {ε Key Content Value : Type} [DecidableEq Content]

/-- The callbacks hash and compare keys by the contents these read as, and the
keys in the table read as they did. -/
structure Readable (functions : KeyFunctions ε Key)
    (digest : Content → UInt32) (reads : Key → Content → Prop)
    (entries : Multiset (Entry Key Content Value)) : Prop where
  hash : ∀ {key content}, reads key content →
    functions.hash key = .ok (digest content)
  equal : ∀ {key content other otherContent}, reads key content →
    reads other otherContent →
      functions.equal key other = .ok (decide (content = otherContent))
  kept : ∀ entry ∈ entries, reads entry.key entry.content

/-- What the documentation of a hash table promises to users that insert no key
twice.  `Holds` says which entries are in a table. -/
structure Documented (table : Interface ε Key Value)
    (digest : Content → UInt32)
    (Holds : table.Table → Multiset (Entry Key Content Value) → Prop) :
    Prop where
  new : Holds table.new 0
  lookup_found : ∀ {functions reads nodes entries entry key},
    Holds nodes entries → Readable functions digest reads entries →
      entry ∈ entries → reads key entry.content →
        table.lookup functions nodes key = .ok (some entry.value)
  lookup_absent : ∀ {functions reads nodes entries key content},
    Holds nodes entries → Readable functions digest reads entries →
      (∀ entry ∈ entries, entry.content ≠ content) → reads key content →
        table.lookup functions nodes key = .ok none
  insert : ∀ {functions reads nodes entries key content} (value : Value),
    Holds nodes entries → Readable functions digest reads entries →
      (∀ entry ∈ entries, entry.content ≠ content) → reads key content →
        ∃ after, table.insert functions nodes key value = .ok after ∧
          Holds after ({ key, content, value } ::ₘ entries)
  remove : ∀ {functions reads nodes entries entry key},
    Holds nodes (entry ::ₘ entries) →
      Readable functions digest reads (entry ::ₘ entries) →
        reads key entry.content →
          ∃ after, table.remove functions nodes key = .ok after ∧
            Holds after entries

/-! ## A table of nodes -/

/-- A node keeps the hash its key had when it was inserted. -/
structure Node (Key Value : Type) where
  hash : UInt32
  key : Key
  value : Value

/-- The place of the first node whose key has this hash and equals `key`. -/
def findNode (functions : KeyFunctions ε Key) (hash : UInt32) (key : Key) :
    List (Node Key Value) → Except ε (Option Nat)
  | [] => return none
  | node :: later => do
      let same ← if node.hash = hash then functions.equal node.key key
        else pure false
      if same then return some 0
      else return (← findNode functions hash key later).map (· + 1)

/-- The hash of a key, and the place of its node if there is one. -/
def lookupNode (functions : KeyFunctions ε Key)
    (nodes : List (Node Key Value)) (key : Key) :
    Except ε (UInt32 × Option Nat) := do
  let hash ← functions.hash key
  let place ← findNode functions hash key nodes
  return (hash, place)

/-- A table that keeps its nodes in a list. -/
def nodeTable : Interface ε Key Value where
  Table := List (Node Key Value)
  new := []
  lookup functions nodes key := do
    let (_, place) ← lookupNode functions nodes key
    return (place.bind (nodes[·]?)).map Node.value
  insert functions nodes key value := do
    let (hash, place) ← lookupNode functions nodes key
    match place with
    | none => return { hash, key, value } :: nodes
    | some place => return nodes.modify place ({ · with value := value })
  remove functions nodes key := do
    let (_, place) ← lookupNode functions nodes key
    match place with
    | none => return nodes
    | some place => return nodes.eraseIdx place

def Entry.node (digest : Content → UInt32) (entry : Entry Key Content Value) :
    Node Key Value :=
  { hash := digest entry.content, key := entry.key, value := entry.value }

/-- The nodes of these entries, each content once. -/
def NodesHold (digest : Content → UInt32)
    (nodes : List (Node Key Value))
    (entries : Multiset (Entry Key Content Value)) : Prop :=
  ∃ order : List (Entry Key Content Value), (↑order : Multiset _) = entries ∧
    nodes = order.map (Entry.node digest) ∧
    (order.map Entry.content).Nodup

variable {functions : KeyFunctions ε Key} {digest : Content → UInt32}
  {reads : Key → Content → Prop} {key : Key} {content : Content}
  {order before later : List (Entry Key Content Value)}
  {entry : Entry Key Content Value}

theorem findNode_run
    (readable : Readable functions digest reads
      (order : Multiset (Entry Key Content Value)))
    (read : reads key content) :
    findNode functions (digest content) key (order.map (Entry.node digest)) =
      .ok (order.findIdx? fun entry => entry.content = content) := by
  induction order with
  | nil => rfl
  | cons first order induction =>
      have later := induction
        ⟨readable.hash, readable.equal, fun entry member =>
          readable.kept entry (List.mem_cons_of_mem first member)⟩
      have equal := readable.equal
        (readable.kept first (List.mem_cons_self)) read
      rw [List.map_cons, findNode, later, List.findIdx?_cons]
      by_cases same : first.content = content
      · simp only [Entry.node, same, if_true, equal, decide_true]
        rfl
      · by_cases hash : digest first.content = digest content
        · simp only [Entry.node, hash, if_true, equal, same, decide_false]
          rfl
        · simp only [Entry.node, hash, same, if_false, decide_false]
          rfl

theorem lookupNode_run
    (readable : Readable functions digest reads
      (order : Multiset (Entry Key Content Value)))
    (read : reads key content) :
    lookupNode functions (order.map (Entry.node digest)) key =
      .ok (digest content,
        order.findIdx? fun entry => entry.content = content) := by
  have found := findNode_run readable read
  unfold lookupNode
  rw [readable.hash read]
  change (findNode functions (digest content) key _ >>= _) = _
  rw [found]
  rfl

/-- Each content is there once, so no entry before this one has its content. -/
theorem findIdx?_split
    (once : ((before ++ entry :: later).map Entry.content).Nodup) :
    (before ++ entry :: later).findIdx?
        (fun other => other.content = entry.content) = some before.length := by
  have apart : before.findIdx? (fun other => other.content = entry.content) =
      none := by
    rw [List.findIdx?_eq_none_iff]
    intro other member
    rw [List.map_append, List.nodup_append] at once
    exact decide_eq_false (once.2.2 _ (List.mem_map_of_mem member) _
      (List.mem_map_of_mem List.mem_cons_self))
  rw [List.findIdx?_append, apart, List.findIdx?_cons]
  simp

theorem findIdx?_absent (absent : ∀ entry ∈ order, entry.content ≠ content) :
    order.findIdx? (fun entry => entry.content = content) = none := by
  rw [List.findIdx?_eq_none_iff]
  intro entry member
  exact decide_eq_false (absent entry member)

theorem node_split (digest : Content → UInt32) :
    ((before ++ entry :: later).map (Entry.node digest))[before.length]? =
      some (entry.node digest) := by
  simp

theorem eraseIdx_split (digest : Content → UInt32) :
    ((before ++ entry :: later).map (Entry.node digest)).eraseIdx
        before.length = (before ++ later).map (Entry.node digest) := by
  rw [List.map_append, List.map_cons,
    List.eraseIdx_append_of_length_le (by simp)]
  simp

/-- The list of nodes is a hash table as documented. -/
theorem nodeTable_documented (digest : Content → UInt32) :
    Documented (nodeTable : Interface ε Key Value) digest
      (NodesHold digest) where
  new := ⟨[], rfl, rfl, List.nodup_nil⟩
  lookup_found {_ _ _ _ entry _} holds readable member read := by
    obtain ⟨order, rfl, rfl, once⟩ := holds
    obtain ⟨before, later, rfl⟩ := List.append_of_mem member
    have found := lookupNode_run readable read
    rw [findIdx?_split once] at found
    simp only [nodeTable, found]
    change Except.ok (Option.map _ (List.map _ _)[_]?) = _
    rw [node_split]
    rfl
  lookup_absent holds readable absent read := by
    obtain ⟨order, rfl, rfl, once⟩ := holds
    have found := lookupNode_run readable read
    rw [findIdx?_absent absent] at found
    simp only [nodeTable, found]
    rfl
  insert value holds readable absent read := by
    obtain ⟨order, rfl, rfl, once⟩ := holds
    have found := lookupNode_run readable read
    rw [findIdx?_absent absent] at found
    simp only [nodeTable, found]
    refine ⟨_, rfl, _ :: order, rfl, rfl, ?_⟩
    rw [List.map_cons, List.nodup_cons]
    refine ⟨?_, once⟩
    intro member
    obtain ⟨entry, inside, same⟩ := List.mem_map.mp member
    exact absent entry inside same
  remove {_ _ _ entries entry _} holds readable read := by
    obtain ⟨order, listed, rfl, once⟩ := holds
    have member : entry ∈ order := by
      rw [← Multiset.mem_coe, listed]
      exact Multiset.mem_cons_self _ _
    obtain ⟨before, later, rfl⟩ := List.append_of_mem member
    rw [← listed] at readable
    have found := lookupNode_run readable read
    rw [findIdx?_split once] at found
    simp only [nodeTable, found]
    refine ⟨_, rfl, before ++ later, ?_, ?_, ?_⟩
    · rw [Multiset.coe_eq_coe.mpr List.perm_middle] at listed
      exact (Multiset.cons_inj_right entry).mp listed
    · exact eraseIdx_split digest
    · rw [(List.perm_middle.map _).nodup_iff, List.map_cons] at once
      exact (List.nodup_cons.mp once).2

end HashTable
