import KetamaRouter.ParameterLimits

/-!
# One reply for each request

On a socket that takes whatever it is offered, the bytes sent to a client are
the replies to its requests and rejected lines, in order.  Every action has
its reply except a `GET` that does not begin with a string parameter: with a
key/value parameter the handler returns without one, and with none it crashes.
-/

namespace KetamaRouter

open FaultProgram Delimited

variable {host : Host} {world : World} {c : Nat} {platform : Platform}
  {ketama : Ketama}

/-! ## Sockets that take everything -/

/-- Every write takes all bytes it is offered. -/
def Socket.Accepting (socket : Socket) : Prop :=
  ∀ call offered, ∃ limit, offered ≤ limit ∧
    socket.behaviour call offered = .accepts limit

theorem Socket.Accepting.write {socket : Socket}
    (accepting : socket.Accepting) (bytes : Bytes) :
    socket.write bytes = (Int64.ofNat bytes.length,
      { socket with
        calls := socket.calls + 1
        sent := socket.sent ++ bytes }) := by
  obtain ⟨limit, enough, accepts⟩ := accepting socket.calls bytes.length
  unfold Socket.write
  rw [accepts]
  simp only [List.take_of_length_le enough]

theorem Socket.Accepting.writeAll {socket : Socket}
    (accepting : socket.Accepting) {pieces : List Bytes}
    (short : ∀ piece ∈ pieces, piece.length ≤ intMax) :
    (socket.writeAll pieces).2.Accepting ∧
      (socket.writeAll pieces).2.sent = socket.sent ++ pieces.flatten := by
  induction pieces generalizing socket with
  | nil => exact ⟨accepting, (List.append_nil _).symm⟩
  | cons piece pieces induction =>
      have fits : piece.length < 2 ^ 31 :=
        Nat.lt_succ_of_le (short piece List.mem_cons_self)
      have notFailed : ¬ (Int64.ofNat piece.length).toInt32 < 0 := by
        rw [Int64.toInt32_ofNat']
        exact MachineIndex.ofNat_not_neg fits
      rw [Socket.writeAll, accepting.write piece, if_neg notFailed]
      have rest := @induction
        { socket with
          calls := socket.calls + 1
          sent := socket.sent ++ piece }
        accepting fun other member =>
          short other (List.mem_cons_of_mem piece member)
      refine ⟨rest.1, rest.2.trans ?_⟩
      simp

theorem Request.WellFormed.pieces_cStr {request : Request}
    (wellFormed : request.WellFormed) :
    request.pieces.map cStr = request.pieces := by
  unfold Request.pieces
  rw [List.map_map]
  refine List.map_congr_left fun text member => cStr_eq_self ?_
  simp [wellFormed.texts_noNul member, crlf]

theorem Socket.Accepting.offer {socket : Socket}
    (accepting : socket.Accepting) {replies : List Request}
    (wellFormed : ∀ reply ∈ replies, reply.WellFormed)
    (short : ∀ reply ∈ replies, ∀ piece ∈ reply.pieces,
      piece.length ≤ intMax) :
    (socket.offer replies).sent =
      socket.sent ++ replies.flatMap Request.wire := by
  induction replies generalizing socket with
  | nil => exact (List.append_nil _).symm
  | cons reply replies induction =>
      have pieces := (wellFormed reply List.mem_cons_self).pieces_cStr
      have first := accepting.writeAll (short reply List.mem_cons_self)
      have rest := induction first.1
        (fun other member => wellFormed other (List.mem_cons_of_mem reply member))
        (fun other member => short other (List.mem_cons_of_mem reply member))
      change ((socket.writeAll (reply.pieces.map cStr)).2.offer replies).sent = _
      rw [pieces, rest, first.2, List.flatMap_cons, List.append_assoc]
      rfl

/-! ## Reading replies -/

/-- The messages that bytes consist of, if they are whole messages and nothing
else. -/
def messagesIn (bytes : Bytes) : Option (List Request) :=
  let outcome := Reader.idle.readLines (linesOf bytes)
  if pendingOf bytes = [] ∧ outcome.1 = .idle ∧
      outcome.2 = (completed outcome.2).map .dispatch then
    some (completed outcome.2)
  else none

theorem split_wires {requests : List Request}
    (wellFormed : ∀ request ∈ requests, request.WellFormed) :
    split 10 (requests.flatMap Request.wire) =
      ((requests.flatMap Request.texts).map (· ++ [13]), []) := by
  have shape : requests.flatMap Request.wire =
      ((requests.flatMap Request.texts).map (· ++ [13])).flatMap (· ++ [10]) ++
        [] := by
    induction requests with
    | nil => rfl
    | cons request requests induction =>
        rw [List.flatMap_cons, induction fun other member =>
          wellFormed other (List.mem_cons_of_mem request member)]
        simp [Request.wire, Request.pieces, crlf, List.flatMap_def,
          Function.comp_def]
  rw [shape]
  refine split_pieces [] ?_ List.not_mem_nil
  intro piece member
  obtain ⟨text, found, rfl⟩ := List.mem_map.mp member
  obtain ⟨request, inRequests, inTexts⟩ := List.mem_flatMap.mp found
  simp [(wellFormed request inRequests).texts_noLf inTexts]

/-- What a peer reads of the bytes of messages: their lines. -/
theorem linesOf_wires {requests : List Request}
    (wellFormed : ∀ request ∈ requests, request.WellFormed) :
    linesOf (requests.flatMap Request.wire) =
      requests.flatMap Request.texts := by
  have chomp : ∀ text : Bytes, chompCr (text ++ [13]) = text := by
    intro text
    simp [chompCr]
  rw [linesOf, split_wires wellFormed, List.map_map]
  exact (List.map_congr_left fun text _ => chomp text).trans (List.map_id' _)

theorem completed_dispatch (requests : List Request) :
    completed (requests.map .dispatch) = requests := by
  induction requests with
  | nil => rfl
  | cons request requests induction =>
      rw [List.map_cons]
      exact congrArg (request :: ·) induction

/-- A peer reads the messages that were sent. -/
theorem messagesIn_wires {requests : List Request}
    (wellFormed : ∀ request ∈ requests, request.WellFormed) :
    messagesIn (requests.flatMap Request.wire) = some requests := by
  have noNul : ∀ line ∈ requests.flatMap Request.texts, 0 ∉ line := by
    intro line member
    obtain ⟨request, inRequests, inTexts⟩ := List.mem_flatMap.mp member
    exact (wellFormed request inRequests).texts_noNul inTexts
  have read : Reader.idle.readLines
      (linesOf (requests.flatMap Request.wire)) =
        (.idle, requests.map .dispatch) := by
    rw [linesOf_wires wellFormed, readLines_noNul _ noNul]
    exact Reader.readAll_requests wellFormed
  unfold messagesIn
  rw [read, pendingOf, split_wires wellFormed]
  simp [completed_dispatch]

/-! ## The replies of the router -/

theorem wellFormed_of_strs {name : Bytes} (texts : List Bytes)
    (nonempty : name ≠ []) (clean : 0 ∉ name ∧ 10 ∉ name ∧ 32 ∉ name)
    (few : texts.length ≤ 2)
    (noLf : ∀ text ∈ texts, 10 ∉ text) (noNul : ∀ text ∈ texts, 0 ∉ text) :
    (Request.mk name (texts.map .str)).WellFormed where
  nonempty := nonempty
  noSpace := clean.2.2
  noLf := by
    refine ⟨clean.2.1, ?_⟩
    intro param member
    obtain ⟨text, found, rfl⟩ := List.mem_map.mp member
    exact noLf text found
  noNul := by
    refine ⟨clean.1, ?_⟩
    intro param member
    obtain ⟨text, found, rfl⟩ := List.mem_map.mp member
    exact noNul text found
  readable := by
    intro param member
    obtain ⟨text, -, rfl⟩ := List.mem_map.mp member
    trivial
  count := by
    rw [List.length_map]
    omega

/-- The addresses of the router's own servers are one-line texts. -/
theorem nodeAddress_clean (ring : Routing host ketama) (key : Bytes) :
    10 ∉ nodeAddress host.toPlatform ketama key ∧
      0 ∉ nodeAddress host.toPlatform ketama key := by
  have clean : ∀ registration ∈ serverRegistrations,
      10 ∉ serverAddr registration.addr registration.port ∧
        0 ∉ serverAddr registration.addr registration.port := by
    decide
  obtain ⟨index, bound, -, address⟩ := ring.1.route ring.2 key
  rw [address]
  exact clean _ (List.getElem_mem bound)

/-- The texts of the errors the router reports. -/
def errorTexts : List (Bytes × Bytes) :=
  [(errWrongMsgFormatNo, errWrongMsgFormat),
    (errWrongParamFormatNo, errWrongParamFormat),
    (errUnknownCommandNo, errUnknownCommand)]

theorem routing_reply_cases {action : Action} {reply : Request}
    (replies : (routing platform ketama).actionReply action = some reply) :
    reply = pongReply ∨
      (∃ texts ∈ errorTexts, reply = errorReply texts.1 texts.2) ∨
      ∃ key, reply = nodeReply (nodeAddress platform ketama key) := by
  cases action with
  | wrongFormat =>
      cases replies
      exact .inr (.inl
        ⟨(errWrongMsgFormatNo, errWrongMsgFormat), by simp [errorTexts], rfl⟩)
  | wrongParam =>
      cases replies
      exact .inr (.inl
        ⟨(errWrongParamFormatNo, errWrongParamFormat), by simp [errorTexts], rfl⟩)
  | dispatch request =>
      obtain ⟨name, params⟩ := request
      change (routing platform ketama).reply ⟨name, params⟩ = some reply
        at replies
      by_cases isPing : name = ascii "PING"
      · subst isPing
        rw [routing_reply_ping] at replies
        exact .inl (Option.some.inj replies).symm
      · by_cases isGet : name = ascii "GET"
        · subst isGet
          rw [routing_reply_get] at replies
          split at replies
          · rename_i key rest
            exact .inr (.inr ⟨key, (Option.some.inj replies).symm⟩)
          · cases replies
        · rw [routing_reply_unknown isPing isGet] at replies
          exact .inr (.inl ⟨(errUnknownCommandNo, errUnknownCommand),
            by simp [errorTexts], (Option.some.inj replies).symm⟩)

theorem routing_reply_wellFormed (ring : Routing host ketama)
    {action : Action} {reply : Request}
    (replies : (routing host.toPlatform ketama).actionReply action =
      some reply) : reply.WellFormed := by
  rcases routing_reply_cases replies with rfl | ⟨texts, known, rfl⟩ | ⟨key, rfl⟩
  · exact wellFormed_of_strs [] (by decide) (by decide) (Nat.zero_le 2)
      (by simp) (by simp)
  · have clean : ∀ texts ∈ errorTexts, ∀ text ∈ [texts.1, texts.2],
        10 ∉ text ∧ 0 ∉ text := by
      decide
    exact wellFormed_of_strs [texts.1, texts.2] (by decide) (by decide)
      (Nat.le_refl 2) (fun text member => (clean texts known text member).1)
      (fun text member => (clean texts known text member).2)
  · have clean := nodeAddress_clean ring key
    refine wellFormed_of_strs [_] (by decide) (by decide) (Nat.le_succ 1) ?_ ?_
    · simp [clean]
    · simp [clean]

/-- The lines of a reply are far shorter than an `int` counts. -/
theorem routing_reply_short (ring : Routing host ketama)
    {action : Action} {reply : Request}
    (replies : (routing host.toPlatform ketama).actionReply action =
      some reply) : ∀ piece ∈ reply.pieces, piece.length ≤ intMax := by
  rcases routing_reply_cases replies with rfl | ⟨texts, known, rfl⟩ | ⟨key, rfl⟩
  · exact pongReply_printable.short
  · have fits : ∀ texts ∈ errorTexts,
        cStr texts.1 = texts.1 ∧ cStr texts.2 = texts.2 ∧
          strlen texts.1 + 3 ≤ intMax ∧ strlen texts.2 + 3 ≤ intMax := by
      decide
    obtain ⟨errno, error, errnoShort, errorShort⟩ := fits texts known
    have printable := errorReply_printable texts.1 texts.2 errnoShort errorShort
    rw [errno, error] at printable
    exact printable.short
  · obtain ⟨index, bound, -, address⟩ := ring.1.route ring.2 key
    have whole := cStr_eq_self (nodeAddress_clean ring key).2
    have length := serverAddr_length serverRegistrations[index].addr
      serverRegistrations[index].port
    have fits : strlen (nodeAddress host.toPlatform ketama key) + 3 ≤ intMax := by
      unfold strlen
      rw [whole, address]
      exact Nat.le_trans (Nat.add_le_add_right length 3) (by decide)
    have printable := nodeReply_printable fits
    rw [whole] at printable
    exact printable.short

/-! ## Which requests are answered -/

def beginsWithStr : List Parameter → Bool
  | .str _ :: _ => true
  | _ => false

/-- A request that is not a `GET`, or begins with a string parameter. -/
def Request.Answered (request : Request) : Prop :=
  request.name = ascii "GET" → beginsWithStr request.params = true

instance decidableAnswered (request : Request) :
    Decidable request.Answered :=
  inferInstanceAs (Decidable (_ → _))

theorem routing_reply_isSome (request : Request) :
    ((routing platform ketama).reply request).isSome ↔ request.Answered := by
  obtain ⟨name, params⟩ := request
  by_cases isPing : name = ascii "PING"
  · subst isPing
    have notGet : ascii "PING" ≠ ascii "GET" := by decide
    simp [routing_reply_ping, Request.Answered, notGet]
  · by_cases isGet : name = ascii "GET"
    · subst isGet
      rw [routing_reply_get]
      rcases params with _ | ⟨_ | _, _⟩ <;>
        simp [Request.Answered, beginsWithStr]
    · simp [routing_reply_unknown, Request.Answered, isPing, isGet]

theorem Request.Answered.not_fatal {request : Request}
    (answered : request.Answered) :
    (routing platform ketama).fatal (.dispatch request) = false := by
  cases fatal : (routing platform ketama).fatal (.dispatch request) with
  | false => rfl
  | true =>
      rw [routing_crashes.mp fatal] at answered
      cases answered rfl

theorem mem_completed {request : Request} {actions : List Action} :
    request ∈ completed actions ↔ .dispatch request ∈ actions := by
  rw [completed, List.mem_filterMap]
  constructor
  · rintro ⟨action, member, same⟩
    cases action <;> cases same
    exact member
  · intro member
    exact ⟨_, member, rfl⟩

/-- As many replies as actions exactly if every request is answered. -/
theorem replies_length_iff (actions : List Action) :
    (actions.filterMap (routing platform ketama).actionReply).length =
        actions.length ↔
      ∀ request ∈ completed actions, request.Answered := by
  rw [List.length_filterMap_eq_countP, List.countP_eq_length]
  constructor
  · intro all request member
    exact (routing_reply_isSome request).mp (all _ (mem_completed.mp member))
  · intro answered action member
    cases action with
    | dispatch request =>
        exact (routing_reply_isSome request).mpr
          (answered request (mem_completed.mpr member))
    | wrongFormat => rfl
    | wrongParam => rfl

theorem answered_not_fatal {actions : List Action}
    (answered : ∀ request ∈ completed actions, request.Answered) :
    actions.any (routing platform ketama).fatal = false := by
  rw [List.any_eq_false]
  intro action member
  cases action with
  | dispatch request =>
      rw [(answered request (mem_completed.mpr member)).not_fatal]
      exact Bool.false_ne_true
  | wrongFormat => exact Bool.false_ne_true
  | wrongParam => exact Bool.false_ne_true

/-! ## Sessions -/

theorem routing_events_quiet (request : Request) :
    ((routing platform ketama).events c request).filter Event.isAction = [] := by
  rw [List.filter_eq_nil_iff]
  intro event member
  obtain ⟨command, -, rfl⟩ := List.mem_map.mp member
  simp [Event.isAction]

/-- A client that respects the limits gets the replies to its actions and
nothing else. -/
theorem Reachable.replies (reachable : Reachable host world)
    (connected : c ∈ world.connected)
    (accepting : (world.memory.socket (world.client c).socket).Accepting)
    (input : Bytes) (later : List Bytes) :
    let actions := ((clientReader world c).readLines
      (linesOf ((world.client c).evbuf ++ (input :: later).flatten))).2
    let replies := actions.filterMap
      (routing host.toPlatform world.server.ketama).actionReply
    if actions.any (routing host.toPlatform world.server.ketama).fatal then
      ∃ fault after, clientEventReads (commandProc host.toPlatform) c
        (input :: later) world = .error fault after
    else
      Yields (clientEventReads (commandProc host.toPlatform) c
        (input :: later)) world fun _ after => ∃ events sent,
          after.trace = world.trace ++ events ∧
          events.filter Event.isAction = actions.map (Action.event c) ∧
          (after.memory.socket (world.client c).socket).sent =
            (world.memory.socket (world.client c).socket).sent ++ sent ∧
          messagesIn sent = some replies := by
  obtain ⟨ring, -⟩ := reachable.serving
  obtain ⟨owned, follows⟩ := reachable.follows connected
    (commandProc_obeys ring.1 ring.2) input later
  intro actions replies
  split
  · rename_i fatal
    obtain ⟨after, stopped, -⟩ := follows.crashes fatal
    exact ⟨_, after, stopped⟩
  · rename_i safe
    rw [Bool.not_eq_true] at safe
    refine (follows.returns safe).mono ?_
    intro _ after outcome
    rcases outcome with ⟨next, -, -, moved⟩
    have wellFormed : ∀ reply ∈ replies, reply.WellFormed := by
      intro reply member
      obtain ⟨action, -, same⟩ := List.mem_filterMap.mp member
      exact routing_reply_wellFormed ring same
    have short : ∀ reply ∈ replies, ∀ piece ∈ reply.pieces,
        piece.length ≤ intMax := by
      intro reply member
      obtain ⟨action, -, same⟩ := List.mem_filterMap.mp member
      exact routing_reply_short ring same
    refine ⟨_, replies.flatMap Request.wire, moved.trace, ?_, ?_,
      messagesIn_wires wellFormed⟩
    · exact linesEvents_actions _ _ routing_events_quiet safe
    · rw [moved.frame.socket, World.offered, Memory.setSocket_socket_self]
      exact accepting.offer wellFormed short

/-- Every action gets exactly one reply, on every prefix of a stream, exactly
if every request of the stream is answered. -/
theorem oneReplyEach_iff (reachable : Reachable host world)
    (connected : c ∈ world.connected)
    (accepting : (world.memory.socket (world.client c).socket).Accepting)
    (stream : Bytes) :
    (∀ input later, (input :: later).flatten <+: stream →
      Yields (clientEventReads (commandProc host.toPlatform) c
        (input :: later)) world fun _ after => ∃ events sent replies,
          after.trace = world.trace ++ events ∧
          (after.memory.socket (world.client c).socket).sent =
            (world.memory.socket (world.client c).socket).sent ++ sent ∧
          messagesIn sent = some replies ∧
          replies.length = (events.filter Event.isAction).length) ↔
      ∀ request ∈ completed ((clientReader world c).readLines
        (linesOf ((world.client c).evbuf ++ stream))).2, request.Answered := by
  constructor
  · intro each
    have whole := each stream [] (by simp)
    have session := reachable.replies connected accepting stream []
    simp only [List.flatten_cons, List.flatten_nil, List.append_nil] at session
    split at session
    · obtain ⟨fault, after, stopped⟩ := session
      obtain ⟨_, _, ran, -⟩ := whole
      rw [stopped] at ran
      cases ran
    · obtain ⟨_, after, ran, events, sent, trace, shown, bytes, read⟩ := session
      obtain ⟨events', sent', replies, trace', bytes', read', length⟩ :=
        whole.result ran
      rw [trace, List.append_cancel_left_eq] at trace'
      rw [bytes, List.append_cancel_left_eq] at bytes'
      rw [← bytes', read, Option.some.injEq] at read'
      rw [← trace', shown, List.length_map, ← read'] at length
      exact (replies_length_iff _).mp length
  · intro answered input later isPrefix
    obtain ⟨rest, rfl⟩ := isPrefix
    rw [← List.append_assoc, linesOf_append, Reader.readLines_append,
      completed_append] at answered
    have soFar := fun request member =>
      answered request (List.mem_append_left _ member)
    have session := reachable.replies connected accepting input later
    rw [if_neg (by rw [answered_not_fatal soFar]; exact Bool.false_ne_true)]
      at session
    refine session.mono ?_
    intro _ after outcome
    rcases outcome with ⟨events, sent, trace, shown, bytes, read⟩
    refine ⟨events, sent, _, trace, bytes, read, ?_⟩
    rw [shown, List.length_map]
    exact (replies_length_iff _).mpr soFar

theorem accepting_of_max {socket : Socket}
    (behaves : socket.behaviour = fun _ offered => .accepts offered) :
    socket.Accepting :=
  fun call offered => ⟨offered, Nat.le_refl _, by rw [behaves]⟩

theorem oneReplyEach_answered :
    ∃ world, Reachable Host.standard world ∧
      Yields (clientEventReads (commandProc Host.standard.toPlatform) 0
        [ascii "+PING\n+GET 1", ascii "\n$key\n+HELLO\nx\n"]) world
        fun _ after => ∃ events sent replies,
          after.trace = world.trace ++ events ∧
          (after.memory.socket (world.client 0).socket).sent =
            (world.memory.socket (world.client 0).socket).sent ++ sent ∧
          messagesIn sent = some replies ∧
          replies.length = (events.filter Event.isAction).length := by
  obtain ⟨world, reachable, member, client, socket⟩ :=
    Host.standard.firstClient fun _ offered => .accepts offered
  have accepting : (world.memory.socket (world.client 0).socket).Accepting := by
    rw [client, socket]
    exact accepting_of_max rfl
  have each := oneReplyEach_iff reachable member accepting
    (ascii "+PING\n+GET 1\n$key\n+HELLO\nx\n+GET")
  have start : clientReader world 0 = .idle :=
    clientReader_fresh (by rw [client])
  have evbuf : (world.client 0).evbuf = [] := by rw [client]
  rw [start, evbuf] at each
  exact ⟨world, reachable, each.mpr (by decide) _ _ ⟨ascii "+GET", rfl⟩⟩

/-- A `GET` of a key/value parameter is dispatched and never answered. -/
theorem oneReplyEach_silent :
    ∃ world, Reachable Host.standard world ∧ 0 ∈ world.connected ∧
      (world.memory.socket (world.client 0).socket).Accepting ∧
      Yields (clientEventReads (commandProc Host.standard.toPlatform) 0
        [ascii "+GET 1\n%a=b\n"]) world fun _ after => ∃ events,
          after.trace = world.trace ++ events ∧
          events.filter Event.isAction =
            [.dispatch 0 (some ⟨ascii "GET",
              [.keyValue (ascii "a") (ascii "b")]⟩)] ∧
          (after.memory.socket (world.client 0).socket).sent =
            (world.memory.socket (world.client 0).socket).sent := by
  obtain ⟨world, reachable, member, client, socket⟩ :=
    Host.standard.firstClient fun _ offered => .accepts offered
  have accepting : (world.memory.socket (world.client 0).socket).Accepting := by
    rw [client, socket]
    exact accepting_of_max rfl
  have start : clientReader world 0 = .idle :=
    clientReader_fresh (by rw [client])
  have evbuf : (world.client 0).evbuf = [] := by rw [client]
  obtain ⟨ring, -⟩ := reachable.serving
  obtain ⟨owned, follows⟩ := reachable.follows member
    (commandProc_obeys ring.1 ring.2) (ascii "+GET 1\n%a=b\n") []
  rw [start, evbuf] at follows
  refine ⟨world, reachable, member, accepting, (follows.returns rfl).mono ?_⟩
  intro _ after outcome
  rcases outcome with ⟨next, -, -, moved⟩
  refine ⟨_, moved.trace, rfl, ?_⟩
  rw [moved.frame.socket, World.offered, Memory.setSocket_socket_self]
  rfl

end KetamaRouter
