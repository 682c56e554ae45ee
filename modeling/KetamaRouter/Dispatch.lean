import KetamaRouter.LineProcessing

/-!
# What a dispatch does

A `Handling` says what a dispatcher does with a request as seen from outside:
whether it takes the process down, what it adds to the trace and what it
replies.  `command_proc` obeys one such description.
-/

namespace KetamaRouter

open PointerChain FaultProgram

variable {world : World} {owned : Multiset Cell} {c : Nat}

structure Handling where
  crashes : Request → Bool
  fault : Fault
  events : Nat → Request → List Event
  reply : Request → Option Request

/-- A socket that was offered replies one after the other. -/
def Socket.offer (socket : Socket) (replies : List Request) : Socket :=
  replies.foldl
    (fun socket reply => (socket.writeAll (reply.pieces.map cStr)).2) socket

/-- The memory once replies were offered to the client's socket. -/
def World.offered (world : World) (c : Nat) (replies : List Request) : Memory :=
  world.memory.setSocket (world.client c).socket
    ((world.memory.socket (world.client c).socket).offer replies)

@[simp] theorem World.offered_nil : world.offered c [] = world.memory := by
  simp [World.offered, Socket.offer]

/-- The table of commands and the ring a server works with. -/
structure Serving (commands : List Command) (ketama : Ketama) (world : World) :
    Prop where
  commands : world.server.commandList = commands
  ketama : world.server.ketama = ketama

/-- On completed messages the dispatcher does what the description says, and
leaves everything that is owned alone. -/
def Obeys (commands : List Command) (ketama : Ketama)
    (proc : Nat → Ptr → WorldProgram CmdFuncRet) (handling : Handling) : Prop :=
  ∀ (world : World) (c : Nat) (full : MsgShape) (request : Request)
    (owned : Multiset Cell), Serving commands ketama world →
    full.stat = .done → full.request = some request →
    MsgAt world.memory full → Holds world.memory (full.cells + owned) →
    if handling.crashes request then
      ∃ after, proc c full.obj world = .error handling.fault after ∧
        after.trace = world.trace ++ handling.events c request
    else
      Yields (proc c full.obj) world fun _ after => ∃ memory,
        after = (world.logged (handling.events c request)).setMemory memory ∧
        Holds memory (full.cells + owned) ∧
        Frame (full.cells + owned)
          (world.offered c (handling.reply request).toList) memory

/-! ## Observing a dispatch -/

/-- A dispatcher that answers from the state it sees and does nothing else. -/
def observeDispatch (answer : World → Nat → Ptr → CmdFuncRet) (c : Nat)
    (msg : Ptr) : WorldProgram CmdFuncRet := do
  let world ← get
  return answer world c msg

/-- Nothing but the dispatch itself. -/
def observed : Handling :=
  { crashes := fun _ => false
    fault := .unspecified
    events := fun _ _ => []
    reply := fun _ => none }

theorem observeDispatch_obeys (commands : List Command) (ketama : Ketama)
    (answer : World → Nat → Ptr → CmdFuncRet) :
    Obeys commands ketama (observeDispatch answer) observed := by
  intro world c full request owned _ _ _ _ holds
  refine ⟨_, world, rfl, world.memory, ?_, holds, ?_⟩
  · simp [observed, World.logged, World.setMemory]
  · simp [observed, Frame.refl]

/-! ## The command table -/

theorem strEqual_iff {a b : Bytes} (noNul : 0 ∉ a) :
    strEqual a b = true ↔ a = b := by
  unfold strEqual strncmpEqual
  constructor
  · intro equal
    split at equal
    · cases equal
    · rename_i sameLength
      rw [ne_eq, not_not] at sameLength
      have same : cStr a = cStr b := of_decide_eq_true equal
      rw [cStr_eq_self noNul] at same
      have whole := (cStr_initial b).eq_of_length (by rw [← same, sameLength])
      exact same.trans whole
  · rintro rfl
    simp

def getCommand : Command :=
  { name := ascii "GET", paramMin := 1, paramMax := 1, func := .commandGET }

def pingCommand : Command :=
  { name := ascii "PING", paramMin := 0, paramMax := 0, func := .commandPING }

theorem commandListLoad_eq : commandListLoad = [pingCommand, getCommand] := by
  decide

/-- The table finds a command by its exact name. -/
theorem commandListGetl_load (name : Bytes) :
    commandListGetl commandListLoad name =
      if name = ascii "PING" then some pingCommand
      else if name = ascii "GET" then some getCommand
      else none := by
  have found : ∀ (command : Command), 0 ∉ command.name →
      ((strHash command.name = strHash name && strEqual command.name name) =
        true ↔ name = command.name) := by
    intro command noNul
    rw [Bool.and_eq_true, strEqual_iff noNul, decide_eq_true_eq]
    constructor
    · rintro ⟨-, same⟩
      exact same.symm
    · rintro rfl
      exact ⟨rfl, rfl⟩
  have ping := found pingCommand (by decide)
  have get := found getCommand (by decide)
  unfold commandListGetl
  rw [commandListLoad_eq, List.find?_cons, List.find?_cons, List.find?_nil]
  by_cases isPing : name = ascii "PING"
  · rw [if_pos isPing, ping.mpr isPing]
  · rw [if_neg isPing, Bool.eq_false_iff.mpr (ping.not.mpr isPing)]
    by_cases isGet : name = ascii "GET"
    · rw [if_pos isGet, get.mpr isGet]
    · rw [if_neg isGet, Bool.eq_false_iff.mpr (get.not.mpr isGet)]

/-! ## The handlers -/

/-- The address a key is routed to. -/
def nodeAddress (platform : Platform) (ketama : Ketama) (key : Bytes) :
    Bytes :=
  match ketamaGetServerOrdinal platform ketama key with
  | .ok ordinal => ketamaGetServerAddress ketama ordinal
  | .error _ => []

def unknownReply : Request :=
  errorReply errUnknownCommandNo errUnknownCommand

/-- What the router does with a request. -/
def routing (platform : Platform) (ketama : Ketama) : Handling where
  crashes request := request = ⟨ascii "GET", []⟩
  fault := .nullPointer
  events c request :=
    (commandListGetl commandListLoad request.name).toList.map fun command =>
      .invoke c command (UInt16.ofNat request.params.length)
  reply request :=
    if request.name = ascii "PING" then some pongReply
    else if request.name = ascii "GET" then
      match request.params with
      | .str key :: _ => some (nodeReply (nodeAddress platform ketama key))
      | _ => none
    else some unknownReply

theorem serverAddr_noNul (addr : Bytes) (port : ℤ) :
    0 ∉ serverAddr addr port := by
  intro member
  have inside := List.mem_of_mem_take member
  have digits : 0 ∉ formatDecimal port.natAbs :=
    not_mem_formatDecimal rfl port.natAbs
  unfold formatInt at inside
  split at inside <;> simp [cStr_noNul, digits] at inside

theorem serverAddr_length (addr : Bytes) (port : ℤ) :
    (serverAddr addr port).length ≤ 254 := by
  unfold serverAddr addrSize
  exact List.length_take_le _ _

variable {platform : Platform} {ketama : Ketama}

/-- Every key is routed to a registered server. -/
theorem Built.route {registrations : List Registration}
    (built : Built platform registrations ketama)
    (points : 0 < ketama.numpoints) (key : Bytes) :
    ∃ (index : Nat) (bound : index < registrations.length),
      ketamaGetServerOrdinal platform ketama key = .ok (Int32.ofNat index) ∧
      nodeAddress platform ketama key =
        serverAddr registrations[index].addr registrations[index].port := by
  obtain ⟨ring, entry, isRing, perm, found, lookup⟩ := built.lookup points key
  have member :=
    (CircularSuccessor.scan_isSuccessor (built.ascending isRing) found).member
  obtain ⟨index, bound, ordinal⟩ := mem_ringPoints (perm.mem_iff.mp member)
  rw [ordinal] at lookup
  refine ⟨index, bound, lookup, ?_⟩
  unfold nodeAddress
  rw [lookup]
  exact built.address bound

/-- Sending a reply from a handler. -/
theorem respond_yields {reply : Request} {buf : BufId} (ret : CmdFuncRet)
    (printable : reply.Printable) (holds : Holds world.memory owned) :
    Yields (do
        let _ ← onMemory (respSend buf (world.client c).socket reply)
        return ret) world fun result after => ∃ memory,
      result = ret ∧ after = world.setMemory memory ∧ Holds memory owned ∧
        Frame owned (world.offered c [reply]) memory := by
  refine Yields.bind (onMemory_yields
    (respSend_spec holds printable (world.client c).socket)) ?_
  intro _ _ outcome
  rcases outcome with ⟨memory, rfl, -, holdsAfter, frame⟩
  exact Yields.pure ⟨memory, rfl, rfl, holdsAfter, frame⟩

theorem commandPING_spec {msg : Ptr} (holds : Holds world.memory owned) :
    Yields (commandPING c msg) world fun ret after => ∃ memory,
      ret = .done ∧ after = world.setMemory memory ∧ Holds memory owned ∧
        Frame owned (world.offered c [pongReply]) memory := by
  unfold commandPING
  refine Yields.get_bind ?_
  rw [respPong_eq]
  exact respond_yields .done pongReply_printable holds

/-- `command_GET` dereferences the first parameter. -/
theorem commandGET_empty {full : MsgShape} (msgAt : MsgAt world.memory full)
    (empty : full.params = []) :
    commandGET platform c full.obj world = .error .nullPointer world := by
  unfold commandGET
  rw [bind_run_ok (get_run world)]
  simp only [msgAt.header, empty]
  rfl

theorem commandGET_keyValue {full : MsgShape} {param : ParamShape}
    {rest : List ParamShape} {kv key value : Ptr} {keyText valueText : Bytes}
    (msgAt : MsgAt world.memory full) (first : full.params = param :: rest)
    (body : param.body = .kv kv key value keyText valueText) :
    commandGET platform c full.obj world = .ok .errParamType world := by
  have paramAt := (msgAt.params param (by simp [first])).body
  rw [body] at paramAt
  unfold commandGET
  rw [bind_run_ok (get_run world)]
  simp only [msgAt.header, first, List.map_cons, List.head?_cons, deref,
    pure_bind, paramAt.2.1.type]
  rfl

/-- `command_GET` answers a string parameter with the address of its node. -/
theorem commandGET_str {full : MsgShape} {param : ParamShape}
    {rest : List ParamShape} {str : Ptr} {key : Bytes}
    {registrations : List Registration}
    (built : Built platform registrations world.server.ketama)
    (points : 0 < world.server.ketama.numpoints)
    (msgAt : MsgAt world.memory full) (first : full.params = param :: rest)
    (body : param.body = .str str key) (holds : Holds world.memory owned) :
    Yields (commandGET platform c full.obj) world fun ret after => ∃ memory,
      ret = .done ∧ after = world.setMemory memory ∧ Holds memory owned ∧
        Frame owned (world.offered c [nodeReply
          (nodeAddress platform world.server.ketama key)]) memory := by
  have paramAt := msgAt.params param (by simp [first])
  have bodyAt := paramAt.body
  rw [body] at bodyAt
  obtain ⟨-, fields, strAt⟩ := bodyAt
  obtain ⟨index, bound, lookup, address⟩ := built.route points key
  have stored : ketamaGetServerAddress world.server.ketama
      (Int32.ofNat index) =
        serverAddr registrations[index].addr registrations[index].port :=
    built.address bound
  have servers : ¬ ketamaGetServerNum world.server.ketama ≤ 0 := by
    have some : 0 < world.server.ketama.numservers.toNat := by
      rw [built.numservers]
      exact Nat.zero_lt_of_lt bound
    unfold ketamaGetServerNum
    exact UInt32.not_le.mpr (UInt32.lt_iff_toNat_lt.mpr some)
  have read : onMemory (readStr str) world = .ok key world :=
    onMemory_run (readStr_run strAt paramAt.text)
  have whole := cStr_eq_self (serverAddr_noNul registrations[index].addr
    registrations[index].port)
  have short := serverAddr_length registrations[index].addr
    registrations[index].port
  unfold commandGET
  refine Yields.get_bind ?_
  simp only [msgAt.header, first, List.map_cons, List.head?_cons, deref,
    pure_bind, fields.type, fields.str, ne_eq, not_true_eq_false, if_false,
    servers]
  refine Yields.bind_run read ?_
  rw [lookup]
  simp only [fromExcept, pure_bind]
  rw [stored, respNode_eq, whole, address]
  refine respond_yields .done ?_ holds
  rw [← whole]
  refine nodeReply_printable ?_
  unfold strlen
  rw [whole]
  exact Nat.le_trans (Nat.add_le_add_right short 3) (by decide)

/-! ## The dispatcher -/

theorem unknownReply_printable : unknownReply.Printable :=
  errorReply_printable errUnknownCommandNo errUnknownCommand (by decide)
    (by decide)

/-- The start of `command_proc`, up to the lookup in the table. -/
theorem commandProc_run {full : MsgShape} {request : Request}
    (commands : world.server.commandList = commandListLoad)
    (asks : full.request = some request) (msgAt : MsgAt world.memory full) :
    commandProc platform c full.obj world =
      (match commandListGetl commandListLoad request.name with
        | none => do
            let _ ← onMemory (respSend .server (world.client c).socket
              unknownReply)
            return CmdFuncRet.unknown
        | some command => do
            log (.invoke c command (UInt16.ofNat request.params.length))
            command.func.call platform c full.obj) world := by
  obtain ⟨cmd, found, rfl⟩ := Option.map_eq_some_iff.mp asks
  have cmdAt := msgAt.cmd cmd found
  have header := msgAt.header
  rw [found] at header
  have read : onMemory (readStr cmd.name) world = .ok cmd.nameText world :=
    onMemory_run (readStr_run cmdAt.name cmdAt.text)
  have unknown : ∀ sock, respErrorUnknownCommand .server sock =
      respSend .server sock unknownReply := fun sock => respError_eq _ sock _ _
  unfold commandProc
  rw [bind_run_ok (get_run world)]
  simp only [header, Option.map_some, deref, pure_bind, cmdAt.obj]
  rw [bind_run_ok read, commands, unknown]
  have count : full.params.length = full.parameters.length :=
    (List.length_map _).symm
  rewrite [count]
  rfl

@[simp] theorem World.offered_logged (events : List Event)
    (replies : List Request) :
    (world.logged events).offered c replies = world.offered c replies :=
  rfl

theorem routing_events_ping (params : List Parameter) :
    (routing platform ketama).events c ⟨ascii "PING", params⟩ =
      [.invoke c pingCommand (UInt16.ofNat params.length)] := by
  simp [routing, commandListGetl_load]

theorem routing_events_get (params : List Parameter) :
    (routing platform ketama).events c ⟨ascii "GET", params⟩ =
      [.invoke c getCommand (UInt16.ofNat params.length)] := by
  have notPing : ascii "GET" ≠ ascii "PING" := by decide
  simp [routing, commandListGetl_load, notPing]

theorem routing_events_unknown {request : Request}
    (isPing : request.name ≠ ascii "PING") (isGet : request.name ≠ ascii "GET") :
    (routing platform ketama).events c request = [] := by
  simp [routing, commandListGetl_load, isPing, isGet]

theorem routing_reply_ping (params : List Parameter) :
    (routing platform ketama).reply ⟨ascii "PING", params⟩ = some pongReply := by
  simp [routing]

theorem routing_reply_get (params : List Parameter) :
    (routing platform ketama).reply ⟨ascii "GET", params⟩ =
      match params with
      | .str key :: _ => some (nodeReply (nodeAddress platform ketama key))
      | _ => none := by
  have notPing : ascii "GET" ≠ ascii "PING" := by decide
  simp [routing, notPing]

theorem routing_reply_unknown {request : Request}
    (isPing : request.name ≠ ascii "PING") (isGet : request.name ≠ ascii "GET") :
    (routing platform ketama).reply request = some unknownReply := by
  simp [routing, isPing, isGet]

theorem routing_crashes {request : Request} :
    (routing platform ketama).crashes request = true ↔
      request = ⟨ascii "GET", []⟩ := by
  simp [routing]

/-- `command_GET` crashes without a parameter, is silent on a key/value
parameter and answers a string parameter. -/
theorem commandGET_obeys {full : MsgShape}
    {registrations : List Registration}
    (built : Built platform registrations world.server.ketama)
    (points : 0 < world.server.ketama.numpoints)
    (msgAt : MsgAt world.memory full) (holds : Holds world.memory owned) :
    if full.parameters = [] then
      commandGET platform c full.obj world = .error .nullPointer world
    else
      Yields (commandGET platform c full.obj) world fun _ after => ∃ memory,
        after = world.setMemory memory ∧ Holds memory owned ∧
        Frame owned (world.offered c ((routing platform
          world.server.ketama).reply
            ⟨ascii "GET", full.parameters⟩).toList) memory := by
  rw [routing_reply_get]
  cases chain : full.params with
  | nil =>
      rw [if_pos (by simp [MsgShape.parameters, chain])]
      exact commandGET_empty msgAt chain
  | cons param rest =>
      have first : full.parameters = param.body.parameter ::
          rest.map fun param => param.body.parameter := by
        simp [MsgShape.parameters, chain]
      rw [first, if_neg (List.cons_ne_nil _ _)]
      cases body : param.body with
      | str str key =>
          refine (commandGET_str built points msgAt chain body holds).mono ?_
          intro _ _ outcome
          rcases outcome with ⟨memory, -, rfl, holdsAfter, frame⟩
          exact ⟨memory, rfl, holdsAfter, frame⟩
      | kv kv key value keyText valueText =>
          refine ⟨_, world, commandGET_keyValue msgAt chain body, world.memory,
            rfl, holds, ?_⟩
          simp [ParamBody.parameter, Frame.refl]

/-- `command_proc` does what the routing says. -/
theorem commandProc_obeys {registrations : List Registration}
    (built : Built platform registrations ketama)
    (points : 0 < ketama.numpoints) :
    Obeys commandListLoad ketama (commandProc platform)
      (routing platform ketama) := by
  intro world c full request owned serving complete asks msgAt holds
  obtain ⟨commands, rfl⟩ := serving
  have run := @commandProc_run _ c platform _ _ commands asks msgAt
  obtain ⟨name, params⟩ := request
  obtain rfl : full.parameters = params := by
    obtain ⟨cmd, -, same⟩ := Option.map_eq_some_iff.mp asks
    exact (Request.mk.inj same).2
  rw [commandListGetl_load] at run
  by_cases isPing : name = ascii "PING"
  · subst isPing
    have notGet : ascii "PING" ≠ ascii "GET" := by decide
    rw [if_neg (by simp [routing_crashes, notGet]), routing_events_ping]
    refine Yields.congr run (Yields.bind_run (log_run _) ?_)
    refine (@commandPING_spec (world.logged _) _ _ full.obj holds).mono ?_
    intro _ _ outcome
    rcases outcome with ⟨memory, -, rfl, holdsAfter, frame⟩
    exact ⟨memory, rfl, holdsAfter, frame⟩
  · rw [if_neg isPing] at run
    by_cases isGet : name = ascii "GET"
    · subst isGet
      rw [if_pos rfl] at run
      have logged := run.trans (bind_run_ok (log_run _))
      have handled := @commandGET_obeys (world.logged
        [.invoke c getCommand (UInt16.ofNat full.parameters.length)])
        _ c _ _ _ built points msgAt holds
      rw [routing_events_get]
      by_cases empty : full.parameters = []
      · rw [if_pos empty] at handled
        rw [if_pos (by simp [routing_crashes, empty])]
        exact ⟨_, logged.trans handled, rfl⟩
      · rw [if_neg empty] at handled
        rw [if_neg (by simp [routing_crashes, empty])]
        obtain ⟨ret, _, ran, memory, rfl, holdsAfter, frame⟩ := handled
        exact ⟨ret, _, logged.trans ran, memory, rfl, holdsAfter, frame⟩
    · rw [if_neg isGet] at run
      rw [if_neg (by simp [routing_crashes, isGet]),
        routing_events_unknown isPing isGet, routing_reply_unknown isPing isGet]
      refine Yields.congr run ((respond_yields .unknown unknownReply_printable
        holds).mono ?_)
      intro _ _ outcome
      rcases outcome with ⟨memory, -, rfl, holdsAfter, frame⟩
      exact ⟨memory, by simp [World.logged, World.setMemory], holdsAfter, frame⟩

end KetamaRouter
