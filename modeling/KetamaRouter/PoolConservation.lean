import KetamaRouter.LengthBlind
import KetamaRouter.Schedules

/-!
# Conservation of pooled objects

An observer walks the pointers of the messages of the connected clients and
finds every object that the pools of a worker have handed out, each of them
once.  Replies return what they took, and a disconnect returns the rest.
-/

namespace KetamaRouter

open PointerChain FaultProgram

variable {host : Host} {world : World} {memory : Memory} {c : Nat}
  {buf : BufId} {kind : PoolKind} {owned : Multiset Cell}

/-! ## Walking a message -/

/-- A pooled object with the pool it came from. -/
abbrev Object := PoolKind × Ptr

def cmdObjects (memory : Memory) (cmd : Ptr) : List Object :=
  (.cmd, cmd) :: (memory.cmd cmd).name.toList.map fun name => (.str, name)

def kvObjects (memory : Memory) (kv : Ptr) : List Object :=
  (.paramKv, kv) ::
    ((memory.paramKv kv).key.toList.map fun key => (.str, key)) ++
    ((memory.paramKv kv).value.toList.map fun value => (.str, value))

def paramObjects (memory : Memory) (param : Ptr) : List Object :=
  (.param, param) ::
    match (memory.param param).type with
    | .str => (memory.param param).str.toList.map fun str => (.str, str)
    | .kv => (memory.param param).kv.toList.flatMap (kvObjects memory)

/-- The objects of the parameters from one on. -/
def chainObjects (memory : Memory) : Nat → Option Ptr → List Object
  | _, none => []
  | 0, some _ => []
  | fuel + 1, some param =>
      paramObjects memory param ++
        chainObjects memory fuel (memory.param param).next

/-- Every object that is reached from a message. -/
def messageObjects (memory : Memory) (msg : Ptr) : List Object :=
  (.msg, msg) ::
    ((memory.msg msg).cmd.toList.flatMap (cmdObjects memory) ++
      chainObjects memory (paramFuel msg.buf memory)
        (memory.msg msg).paramFirst)

/-- The objects of one kind among some. -/
def ofKind (kind : PoolKind) (objects : List Object) : List Ptr :=
  objects.filterMap fun object =>
    if object.1 = kind then some object.2 else none

/-- The objects of a client of a worker. -/
def clientObjects (world : World) (w : Nat) (c : Nat) : List Object :=
  if (world.client c).worker = w then
    (world.client c).msg.toList.flatMap (messageObjects world.memory)
  else []

/-- The objects of one kind reached from the connected clients of a worker. -/
def reachedFrom (world : World) (w : Nat) (kind : PoolKind) : List Ptr :=
  ofKind kind (world.connected.flatMap (clientObjects world w))

/-! ## The objects of a shape -/

def CmdShape.objects (cmd : CmdShape) : List Object :=
  [(.cmd, cmd.obj), (.str, cmd.name)]

def ParamBody.objects : ParamBody → List Object
  | .str ptr _ => [(.str, ptr)]
  | .kv pair key value _ _ => [(.paramKv, pair), (.str, key), (.str, value)]

def ParamShape.objects (param : ParamShape) : List Object :=
  (.param, param.obj) :: param.body.objects

def MsgShape.objects (shape : MsgShape) : List Object :=
  (.msg, shape.obj) ::
    (shape.cmd.toList.flatMap CmdShape.objects ++
      shape.params.flatMap ParamShape.objects)

theorem paramObjects_eq {param : ParamShape}
    (paramAt : ParamAt memory buf param) :
    paramObjects memory param.obj = param.objects := by
  have body := paramAt.body
  unfold paramObjects ParamShape.objects
  cases shape : param.body with
  | str str text =>
      rw [shape] at body
      obtain ⟨-, fields, -⟩ := body
      simp [fields.type, fields.str, ParamBody.objects]
  | kv kv key value keyText valueText =>
      rw [shape] at body
      obtain ⟨-, fields, pair, -⟩ := body
      simp [fields.type, fields.kv, kvObjects, pair, ParamBody.objects]

/-- The walk follows the chain to its end. -/
theorem chainObjects_eq {params : List ParamShape} {fuel : Nat}
    (enough : params.length ≤ fuel)
    (linked : Linked memory.paramNext (params.map ParamShape.obj).head?
      (params.map ParamShape.obj))
    (paramsAt : ∀ param ∈ params, ParamAt memory buf param) :
    chainObjects memory fuel (params.map ParamShape.obj).head? =
      params.flatMap ParamShape.objects := by
  induction params generalizing fuel with
  | nil => cases fuel <;> rfl
  | cons param params induction =>
      obtain ⟨fuel, rfl⟩ : ∃ less, fuel = less + 1 :=
        ⟨fuel - 1, by simp at enough; omega⟩
      simp only [List.map_cons, List.head?_cons, linked_cons, true_and]
        at linked ⊢
      have start : (memory.param param.obj).next =
          (params.map ParamShape.obj).head? := linked.start_eq
      have rest := induction (Nat.le_of_succ_le_succ enough) (start ▸ linked)
        fun other found => paramsAt other (List.mem_cons_of_mem param found)
      rw [chainObjects, paramObjects_eq (paramsAt param List.mem_cons_self),
        start, rest, List.flatMap_cons]

theorem messageObjects_eq {shape : MsgShape} (msgAt : MsgAt memory shape)
    (holds : Holds memory (shape.cells + owned)) :
    messageObjects memory shape.obj = shape.objects := by
  have chain := chainObjects_eq (msgAt.enoughFuel holds) msgAt.linked
    msgAt.params
  unfold messageObjects MsgShape.objects
  rw [msgAt.header, chain]
  cases found : shape.cmd with
  | none => rfl
  | some cmd =>
      have cmdAt := msgAt.cmd cmd found
      simp [cmdObjects, cmdAt.obj, CmdShape.objects]

/-! ## What the pools see -/

@[simp] theorem ofKind_nil : ofKind kind [] = [] :=
  rfl

@[simp] theorem ofKind_append (left right : List Object) :
    ofKind kind (left ++ right) = ofKind kind left ++ ofKind kind right :=
  List.filterMap_append

/-- The objects that come from one pool. -/
def cellsOf (objects : List Object) : Multiset Cell :=
  ↑(objects.map fun object => Cell.obj object.1 object.2)

theorem cellsOf_append (left right : List Object) :
    cellsOf (left ++ right) = cellsOf left + cellsOf right := by
  simp [cellsOf]

/-- Objects of one home count by their kind. -/
theorem fromPool_cellsOf {objects : List Object}
    (home : ∀ object ∈ objects, object.2.buf = buf) :
    fromPool buf kind (cellsOf objects) = ↑(ofKind kind objects) := by
  induction objects with
  | nil => rfl
  | cons object objects induction =>
      have rest := induction fun other member =>
        home other (List.mem_cons_of_mem object member)
      have here := home object List.mem_cons_self
      change fromPool buf kind (.obj object.1 object.2 ::ₘ cellsOf objects) = _
      by_cases same : object.1 = kind
      · rw [same, fromPool_cons_same here, rest]
        simp [ofKind, same]
      · rw [fromPool_cons_other (fun both => same both.1), rest]
        simp [ofKind, same]

theorem fromPool_cmdCells (cmd : CmdShape) :
    fromPool buf kind cmd.cells = fromPool buf kind (cellsOf cmd.objects) := by
  have cells : cmd.cells = cellsOf cmd.objects + {.text cmd.block} := rfl
  rw [cells, fromPool_add]
  exact add_zero _

theorem fromPool_paramCells (param : ParamShape) :
    fromPool buf kind param.cells =
      fromPool buf kind (cellsOf param.objects) := by
  have cells : param.cells = .text param.block ::ₘ cellsOf param.objects := by
    unfold ParamShape.cells ParamShape.objects
    rw [Multiset.cons_swap]
    cases param.body <;> rfl
  rw [cells, fromPool_cons_text]

theorem fromPool_chainCells (params : List ParamShape) :
    fromPool buf kind (paramCells params) =
      fromPool buf kind (cellsOf (params.flatMap ParamShape.objects)) := by
  induction params with
  | nil => rfl
  | cons param params induction =>
      rw [paramCells_cons, fromPool_add, fromPool_paramCells, induction,
        List.flatMap_cons, cellsOf_append, fromPool_add]

/-- Of a message's cells the pools see its objects. -/
theorem fromPool_msgCells (shape : MsgShape) :
    fromPool buf kind shape.cells =
      fromPool buf kind (cellsOf shape.objects) := by
  have cells : shape.cells = {.obj .msg shape.obj} +
      (MsgShape.cmdCells shape.cmd + paramCells shape.params) := rfl
  have objects : cellsOf shape.objects = {.obj .msg shape.obj} +
      (cellsOf (shape.cmd.toList.flatMap CmdShape.objects) +
        cellsOf (shape.params.flatMap ParamShape.objects)) := by
    rw [← cellsOf_append]
    rfl
  have cmd : fromPool buf kind (MsgShape.cmdCells shape.cmd) =
      fromPool buf kind
        (cellsOf (shape.cmd.toList.flatMap CmdShape.objects)) := by
    cases shape.cmd with
    | none => rfl
    | some cmd =>
        rw [Option.toList_some, List.flatMap_singleton]
        exact fromPool_cmdCells cmd
  rw [cells, objects]
  simp only [fromPool_add]
  rw [cmd, fromPool_chainCells]

/-- A message and all its objects come from the same pools. -/
theorem MsgAt.objects_home {shape : MsgShape} (msgAt : MsgAt memory shape) :
    ∀ object ∈ shape.objects, object.2.buf = shape.obj.buf := by
  intro object member
  unfold MsgShape.objects at member
  rw [List.mem_cons, List.mem_append, List.mem_flatMap, List.mem_flatMap]
    at member
  rcases member with rfl | ⟨cmd, found, inCmd⟩ | ⟨param, found, inParam⟩
  · rfl
  · have home := (msgAt.cmd cmd (Option.mem_toList.mp found)).home
    simp only [CmdShape.objects, List.mem_cons, List.not_mem_nil, or_false]
      at inCmd
    rcases inCmd with rfl | rfl
    · exact home.1
    · exact home.2
  · have paramAt := msgAt.params param found
    have body := paramAt.body
    rcases List.mem_cons.mp inParam with rfl | inBody
    · exact paramAt.home
    · cases shape : param.body with
      | str str text =>
          rw [shape] at body inBody
          rw [List.mem_singleton.mp inBody]
          exact body.1
      | kv kv key value keyText valueText =>
          rw [shape] at body inBody
          obtain ⟨⟨kvHome, keyHome, valueHome⟩, -⟩ := body
          simp only [ParamBody.objects, List.mem_cons, List.not_mem_nil,
            or_false] at inBody
          rcases inBody with rfl | rfl | rfl
          · exact kvHome
          · exact keyHome
          · exact valueHome

/-- Objects of another home do not count. -/
theorem fromPool_cellsOf_other {objects : List Object}
    (home : ∀ object ∈ objects, object.2.buf ≠ buf) :
    fromPool buf kind (cellsOf objects) = 0 := by
  rw [Multiset.eq_zero_iff_forall_notMem]
  intro ptr found
  obtain ⟨member, here⟩ := mem_fromPool.mp found
  obtain ⟨object, inObjects, same⟩ := List.mem_map.mp (Multiset.mem_coe.mp member)
  cases same
  exact home object inObjects here

/-! ## Conservation -/

/-- What the pools of a worker have handed out to a client. -/
theorem fromPool_sessionCells {session : Option MsgShape}
    (attached : Attached world c session)
    (holds : Holds world.memory (sessionCells session + owned)) (w : Nat) :
    fromPool (.worker w) kind (sessionCells session) =
      ↑(ofKind kind (clientObjects world w c)) := by
  unfold clientObjects
  cases session with
  | none => simp [sessionCells, attached.1]
  | some shape =>
      obtain ⟨msg, home, msgAt, -⟩ := attached
      have homes := msgAt.objects_home
      rw [home] at homes
      change fromPool (.worker w) kind shape.cells = _
      rw [msg, Option.toList_some, List.flatMap_singleton,
        messageObjects_eq msgAt holds, fromPool_msgCells]
      split
      · rename_i same
        rw [same] at homes
        exact fromPool_cellsOf homes
      · rename_i different
        apply fromPool_cellsOf_other
        intro object member here
        rw [homes object member] at here
        exact different (BufId.worker.inj here)

theorem fromPool_heldBy {sessions : Nat → Option MsgShape}
    {clients : List Nat}
    (attached : ∀ c ∈ clients, Attached world c (sessions c))
    (holds : ∀ c ∈ clients, ∃ others,
      Holds world.memory (sessionCells (sessions c) + others)) (w : Nat) :
    fromPool (.worker w) kind (heldBy sessions clients) =
      ↑(ofKind kind (clients.flatMap (clientObjects world w))) := by
  induction clients with
  | nil => rfl
  | cons c clients induction =>
      obtain ⟨others, holdsOne⟩ := holds c List.mem_cons_self
      have first := @fromPool_sessionCells _ _ kind _ _
        (attached c List.mem_cons_self) holdsOne w
      have rest := induction
        (fun other member => attached other (List.mem_cons_of_mem c member))
        (fun other member => holds other (List.mem_cons_of_mem c member))
      change fromPool _ _ (sessionCells (sessions c) + heldBy sessions clients) =
        _
      rw [fromPool_add, first, rest, List.flatMap_cons, ofKind_append,
        Multiset.coe_add]

theorem Holds.outstanding (holds : Holds memory owned) (buf : BufId)
    (kind : PoolKind) :
    Ledger.outstanding (memory.pool buf kind).ledger =
      some (fromPool buf kind owned) := by
  obtain ⟨cached, -, ledger, -⟩ := holds.pools buf kind
  exact ledger

/-- The kinds of objects that a message in this state has. -/
def Reader.kinds : Reader → List PoolKind
  | .idle => [.msg]
  | .opened _ _ params =>
      .msg :: .cmd :: .str :: params.flatMap fun param => match param with
        | .str _ => [.param, .str]
        | .keyValue _ _ => [.param, .paramKv, .str, .str]

theorem ParamShape.objects_kinds (param : ParamShape) :
    param.objects.map Prod.fst = match param.body.parameter with
      | .str _ => [.param, .str]
      | .keyValue _ _ => [.param, .paramKv, .str, .str] := by
  unfold ParamShape.objects
  cases param.body <;> rfl

theorem MsgShape.objects_kinds (shape : MsgShape) :
    shape.objects.map Prod.fst = shape.reader.kinds := by
  unfold MsgShape.objects
  cases found : shape.cmd with
  | none =>
      have noParams : shape.params = [] := by
        have fits := shape.fits
        rw [found] at fits
        exact List.eq_nil_of_length_eq_zero (Nat.le_zero.mp fits)
      rw [MsgShape.reader, found, noParams]
      rfl
  | some cmd =>
      rw [MsgShape.reader_of_cmd found, MsgShape.parameters]
      simp only [Option.toList_some, List.flatMap_singleton, CmdShape.objects,
        List.cons_append, List.nil_append, List.map_cons, Reader.kinds,
        List.map_flatMap, List.flatMap_map, ParamShape.objects_kinds]

/-- The pools of every worker have handed out what is reached from the messages
of its connected clients, each object once. -/
structure Conserved (world : World) : Prop where
  outstanding : ∀ w kind,
    Ledger.outstanding (world.memory.pool (.worker w) kind).ledger =
      some ↑(reachedFrom world w kind)
  once : ∀ w kind, (reachedFrom world w kind).Nodup
  kinds : ∀ c ∈ world.connected, ∀ msg, (world.client c).msg = some msg →
    (messageObjects world.memory msg).map Prod.fst =
      (clientReader world c).kinds

theorem Coherent.conserved {sessions : Nat → Option MsgShape}
    (coherent : Coherent host world sessions) : Conserved world := by
  have outstanding : ∀ w kind,
      Ledger.outstanding (world.memory.pool (.worker w) kind).ledger =
        some ↑(reachedFrom world w kind) := by
    intro w kind
    rw [coherent.holds.outstanding, fromPool_heldBy coherent.attached]
    · rfl
    · exact fun c member => ⟨_, coherent.holdsOne member⟩
  constructor
  · exact outstanding
  · intro w kind
    exact Multiset.coe_nodup.mp (Ledger.outstanding_nodup (outstanding w kind))
  · intro c member msg found
    have attached := coherent.attached c member
    have holds := coherent.holdsOne member
    cases session : sessions c with
    | none =>
        rw [session] at attached
        rw [attached.1] at found
        cases found
    | some shape =>
        rw [session] at attached holds
        have same := attached.msg
        rw [found] at same
        cases same
        rw [messageObjects_eq attached.msgAt holds, shape.objects_kinds,
          clientReader, found]
        exact congrArg Reader.kinds (readerAt_eq attached.msgAt holds).symm

/-- A client with an open request has a message, of which every object is
reached. -/
theorem Conserved.opened {name : Bytes} {count : Nat} {params : List Parameter}
    (conserved : Conserved world) (connected : c ∈ world.connected)
    (opened : clientReader world c = .opened name count params) :
    ∃ msg, (world.client c).msg = some msg ∧
      (messageObjects world.memory msg).map Prod.fst =
        (Reader.opened name count params).kinds := by
  cases found : (world.client c).msg with
  | none =>
      rw [clientReader_fresh found] at opened
      cases opened
  | some msg =>
      rw [← opened]
      exact ⟨msg, rfl, conserved.kinds c connected msg found⟩

/-- What the pools have handed out is the same. -/
def SameOutstanding (memory after : Memory) : Prop :=
  ∀ buf kind, Ledger.outstanding (after.pool buf kind).ledger =
    Ledger.outstanding (memory.pool buf kind).ledger

theorem respSend_conserves {name : Bytes} {texts : List Bytes} {sock : Nat}
    {res : RespRes} {after : Memory} (holds : Holds memory owned)
    (count : texts.length < 65536) (nameNoNul : 0 ∉ name)
    (nameShort : name.length + 9 ≤ intMax)
    (noNul : ∀ text ∈ texts, 0 ∉ text)
    (ran : respSend buf sock ⟨name, texts.map .str⟩ memory = .ok res after) :
    SameOutstanding memory after := by
  have fits : ∀ text ∈ texts, (cutText text).length + 3 ≤ intMax := by
    obtain ⟨msg, middle, assembles, -⟩ := of_bind_ok ran
    intro text member
    have printed := (msgAssemble_fits assembles).2 _ (List.mem_map_of_mem member)
    rw [printed_length] at printed
    exact printed
  have alike := @simulates_respSend buf sock name texts noNul
    fun text member => Nat.le_of_add_right_le (fits text member)
  obtain ⟨twin, same, ranCut⟩ := alike.follow (Relen.refl memory) ran
  have printable : (Request.mk name (cutTexts texts)).Printable := by
    have cut : cutTexts texts = (texts.map cutText).map .str := by
      simp [cutTexts]
    rw [cut]
    apply printable_of_strs
    · simpa using count
    · exact nameNoNul
    · intro text member
      obtain ⟨whole, found, rfl⟩ := List.mem_map.mp member
      exact cutText_noNul (noNul whole found)
    · exact nameShort
    · intro text member
      obtain ⟨whole, found, rfl⟩ := List.mem_map.mp member
      exact fits whole found
  obtain ⟨-, holdsTwin, -⟩ :=
    (respSend_spec holds printable sock).result ranCut
  obtain ⟨len, rfl⟩ := same
  intro home kind
  rw [relen_pool, holdsTwin.outstanding, holds.outstanding]

/-- The replies of `response.c`, with any texts. -/
inductive Reply : (BufId → Nat → MemProgram RespRes) → List Bytes → Prop where
  | error (errno error : Bytes) :
      Reply (fun buf sock => respError buf sock errno error) [errno, error]
  | node (node : Bytes) : Reply (fun buf sock => respNode buf sock node) [node]
  | pong : Reply respPong []

/-- A reply is a command with its texts, as they are up to a zero byte. -/
theorem Reply.sends {reply : BufId → Nat → MemProgram RespRes}
    {texts : List Bytes} (known : Reply reply texts) :
    ∃ name, 0 ∉ name ∧ name.length + 9 ≤ intMax ∧ texts.length < 65536 ∧
      ∀ buf sock,
        reply buf sock = respSend buf sock ⟨name, (texts.map cStr).map .str⟩ := by
  cases known with
  | error errno error =>
      exact ⟨commandStrErr, by decide, by decide, by simp,
        fun buf sock => respError_eq buf sock errno error⟩
  | node node =>
      exact ⟨commandStrNode, by decide, by decide, by simp,
        fun buf sock => respNode_eq buf sock node⟩
  | pong =>
      exact ⟨commandStrPong, by decide, by decide, by decide, respPong_eq⟩

theorem cStr_texts_noNul (texts : List Bytes) :
    ∀ text ∈ texts.map cStr, 0 ∉ text := by
  intro text member
  obtain ⟨whole, -, same⟩ := List.mem_map.mp member
  rw [← same]
  exact cStr_noNul whole

/-- A reply that returns has given back what it took, whatever the socket did
with it. -/
theorem Reply.conserves {reply : BufId → Nat → MemProgram RespRes}
    {texts : List Bytes} (known : Reply reply texts) (holds : Holds memory owned)
    {sock : Nat} {res : RespRes} {after : Memory}
    (ran : reply buf sock memory = .ok res after) :
    SameOutstanding memory after := by
  obtain ⟨name, noNul, short, few, sends⟩ := known.sends
  rw [sends] at ran
  exact respSend_conserves holds (by simpa using few) noNul short
    (cStr_texts_noNul texts) ran

/-- A reply whose texts can be printed returns. -/
theorem Reply.returns {reply : BufId → Nat → MemProgram RespRes}
    {texts : List Bytes} (known : Reply reply texts) (holds : Holds memory owned)
    (printable : ∀ text ∈ texts, strlen text + 3 ≤ intMax) (sock : Nat) :
    Yields (reply buf sock) memory fun _ after =>
      SameOutstanding memory after := by
  obtain ⟨name, noNul, short, few, sends⟩ := known.sends
  have prints : (Request.mk name ((texts.map cStr).map .str)).Printable := by
    apply printable_of_strs _ (by simpa using few) noNul (cStr_texts_noNul texts)
      short
    intro text member
    obtain ⟨whole, found, same⟩ := List.mem_map.mp member
    rw [← same]
    exact printable whole found
  rw [sends]
  apply (respSend_spec holds prints sock).mono
  intro _ after sent buf kind
  obtain ⟨-, holdsAfter, -⟩ := sent
  rw [holdsAfter.outstanding, holds.outstanding]

/-- What the pools of a worker have handed out is what is reached from the
messages of its connected clients, in every state between two lines.  A
disconnect leaves what the other clients' messages had, and no reply changes
what is handed out; it returns if its texts can be printed. -/
theorem poolConservation (reachable : Reachable host world) :
    Conserved world ∧
      (∀ c ∈ world.connected, Yields (clientConnectionRelease c) world
        fun _ after => ∀ w kind,
          Ledger.outstanding (after.memory.pool (.worker w) kind).ledger =
            some ↑(ofKind kind ((world.connected.erase c).flatMap
              (clientObjects world w)))) ∧
      ∀ reply texts, Reply reply texts → ∀ memory owned, Holds memory owned →
        ∀ buf sock,
          (∀ res after, reply buf sock memory = .ok res after →
            SameOutstanding memory after) ∧
          ((∀ text ∈ texts, strlen text + 3 ≤ intMax) →
            Yields (reply buf sock) memory fun _ after =>
              SameOutstanding memory after) := by
  obtain ⟨sessions, coherent⟩ := reachable.coherent
  refine ⟨coherent.conserved, ?_, ?_⟩
  · intro c member
    apply (clientConnectionRelease_spec coherent member).mono
    intro _ after known
    obtain ⟨memory, rfl, holds, -⟩ := known
    intro w kind
    rw [World.setMemory_memory, holds.outstanding, fromPool_heldBy]
    · exact fun other found =>
        coherent.attached other (List.mem_of_mem_erase found)
    · exact fun other found =>
        ⟨_, coherent.holdsOne (List.mem_of_mem_erase found)⟩
  · intro reply texts known memory owned holds buf sock
    constructor
    · intro res after ran
      exact known.conserves holds ran
    · intro printable
      exact known.returns holds printable sock

/-- One worker, whose first client has sent two parameters, one of each kind, of
three, and whose second client has sent none yet. -/
theorem poolConservation_openRequests : ∃ world,
    Reachable Host.standard world ∧ world.connected = [0, 1] ∧
      Conserved world ∧
      (∃ msg, (world.client 0).msg = some msg ∧
        (messageObjects world.memory msg).map Prod.fst =
          [.msg, .cmd, .str, .param, .str, .param, .paramKv, .str, .str]) ∧
      (∃ msg, (world.client 1).msg = some msg ∧
        (messageObjects world.memory msg).map Prod.fst = [.msg, .cmd, .str]) ∧
      Yields (clientConnectionRelease 0) world fun _ after =>
        Ledger.outstanding (after.memory.pool (.worker 0) .str).ledger =
          some ↑(ofKind .str (clientObjects world 0 1)) := by
  obtain ⟨start, world, ran, workers, run, attends⟩ :=
    @Host.schedule [.accept 0 fun _ _ => .fails, .accept 1 fun _ _ => .fails,
      .receive 0 (ascii "+GET 3\n$k\n%a=b\n"), .receive 1 (ascii "+FOO 2\n"),
      .line 0 (ascii "+GET 3") (ascii "$k\n%a=b\n"),
      .line 1 (ascii "+FOO 2") [], .line 0 (ascii "$k") (ascii "%a=b\n"),
      .line 0 (ascii "%a=b") []] Host.standard 1 (by decide) 8 _
      fun handling => rfl
  have reachable := attends.reachable
  have connected : world.connected = [0, 1] := attends.shows.connected
  obtain ⟨conserved, releases, -⟩ := poolConservation reachable
  have first : clientReader world 0 = .opened (ascii "GET") 3
      [.str (ascii "k"), .keyValue (ascii "a") (ascii "b")] :=
    congrArg ClientView.reader (attends.shows.view 0 List.mem_cons_self)
  have second : clientReader world 1 = .opened (ascii "FOO") 2 [] :=
    congrArg ClientView.reader
      (attends.shows.view 1 (List.mem_cons_of_mem _ List.mem_cons_self))
  refine ⟨world, reachable, connected, conserved, ?_, ?_, ?_⟩
  · obtain ⟨msg, found, kinds⟩ := conserved.opened (by simp [connected]) first
    exact ⟨msg, found, kinds⟩
  · obtain ⟨msg, found, kinds⟩ := conserved.opened (by simp [connected]) second
    exact ⟨msg, found, kinds⟩
  · apply (releases 0 (by simp [connected])).mono
    intro _ after outstanding
    rw [outstanding 0 .str, connected]
    simp

end KetamaRouter
