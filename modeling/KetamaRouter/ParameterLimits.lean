import KetamaRouter.ReaderRefinement

/-!
# Parameter limits of the handlers

`command_t` registers the least and the largest number of parameters of a
command, and nothing checks them.  A handler is entered within its limits
exactly as long as clients respect them.
-/

namespace KetamaRouter

open FaultProgram

variable {host : Host} {world : World} {c : Nat} {platform : Platform}
  {ketama : Ketama} {reader : Reader}

/-- A handler is entered with a number of parameters that its command
allows. -/
def Event.WithinLimits : Event → Prop
  | .invoke _ command paramCount =>
      command.paramMin ≤ paramCount ∧ paramCount ≤ command.paramMax
  | .line _ _ => True
  | .wrongFormat _ => True
  | .wrongParam _ => True
  | .dispatch _ _ => True

/-- A request named `GET` has one parameter, and one named `PING` none. -/
def Request.Conforms (request : Request) : Prop :=
  (request.name = ascii "GET" → request.params.length = 1) ∧
    (request.name = ascii "PING" → request.params.length = 0)

instance decidableConforms (request : Request) :
    Decidable request.Conforms :=
  inferInstanceAs (Decidable (_ ∧ _))

/-- The requests completed on the way. -/
def completed (actions : List Action) : List Request :=
  actions.filterMap fun
    | .dispatch request => some request
    | .wrongFormat => none
    | .wrongParam => none

/-! ## Counts fit sixteen bits -/

def Reader.Bounded : Reader → Prop
  | .idle => True
  | .opened _ count _ => count < 65536

theorem clientReader_bounded (world : World) (c : Nat) :
    (clientReader world c).Bounded := by
  unfold clientReader
  cases (world.client c).msg with
  | none => trivial
  | some msg =>
      rw [Option.elim_some, readerAt]
      split
      · exact UInt16.toNat_lt _
      · trivial

theorem commandLine_bounded {line name : Bytes} {count : Nat}
    (accepted : commandLine line = some (name, count)) : count < 65536 := by
  unfold commandLine at accepted
  split at accepted
  · cases accepted
  · split at accepted
    · cases accepted
    · split at accepted
      · cases accepted
        decide
      · dsimp only at accepted
        split at accepted
        · cases accepted
        · cases accepted
          exact UInt16.toNat_lt _

/-- One line keeps the declared count, and a completed request has as many
parameters. -/
theorem Reader.Bounded.read (bounded : reader.Bounded) (line : Bytes) :
    (reader.read line).1.Bounded ∧
      ∀ request, (reader.read line).2 = some (.dispatch request) →
        request.params.length < 65536 := by
  cases verdict : reader.accept line with
  | none =>
      rw [Reader.read_rejected verdict]
      refine ⟨trivial, ?_⟩
      intro request same
      cases reader <;> cases same
  | some accepted =>
      obtain ⟨name, count, params⟩ := accepted
      have small : count < 65536 := by
        cases reader with
        | idle =>
            obtain ⟨⟨name', count'⟩, found, same⟩ :=
              Option.map_eq_some_iff.mp verdict
            cases same
            exact commandLine_bounded found
        | opened name' count' params' =>
            obtain ⟨param, -, same⟩ := Option.map_eq_some_iff.mp verdict
            cases same
            exact bounded
      rw [Reader.read_accepted verdict]
      split
      · rename_i full
        refine ⟨trivial, ?_⟩
        rintro _ ⟨⟩
        rw [full]
        exact small
      · exact ⟨small, by rintro _ ⟨⟩⟩

/-! ## Events and requests -/

theorem ofNat_eq_iff {count : Nat} (small : count < 65536) {limit : UInt16} :
    UInt16.ofNat count = limit ↔ count = limit.toNat := by
  rw [← UInt16.toNat_inj, UInt16.toNat_ofNat', Nat.mod_eq_of_lt small]

/-- A command registered with one count is entered within its limits exactly
with that count. -/
theorem withinLimits_invoke {command : Command} {count : Nat}
    (exact : command.paramMin = command.paramMax) (small : count < 65536) :
    (Event.invoke c command (UInt16.ofNat count)).WithinLimits ↔
      count = command.paramMax.toNat := by
  rw [← ofNat_eq_iff small, Event.WithinLimits, exact]
  constructor
  · rintro ⟨least, most⟩
    exact UInt16.le_antisymm most least
  · intro same
    rw [same]
    exact ⟨UInt16.le_refl _, UInt16.le_refl _⟩

/-- The events of a request are within limits exactly if it conforms. -/
theorem routing_events_within {request : Request}
    (small : request.params.length < 65536) :
    (∀ event ∈ (routing platform ketama).events c request,
        event.WithinLimits) ↔ request.Conforms := by
  obtain ⟨name, params⟩ := request
  by_cases isPing : name = ascii "PING"
  · subst isPing
    have notGet : ascii "PING" ≠ ascii "GET" := by decide
    rw [routing_events_ping, List.forall_mem_singleton,
      withinLimits_invoke rfl small]
    simp [Request.Conforms, notGet, pingCommand]
  · by_cases isGet : name = ascii "GET"
    · subst isGet
      have notPing : ascii "GET" ≠ ascii "PING" := by decide
      rw [routing_events_get, List.forall_mem_singleton,
        withinLimits_invoke rfl small]
      simp [Request.Conforms, notPing, getCommand]
    · rw [routing_events_unknown isPing isGet]
      simp [Request.Conforms, isPing, isGet]

theorem actionEvents_within {action : Action}
    (small : ∀ request, action = .dispatch request →
      request.params.length < 65536) :
    (∀ event ∈ (routing platform ketama).actionEvents c action,
        event.WithinLimits) ↔
      ∀ request ∈ completed [action], request.Conforms := by
  cases action with
  | dispatch request =>
      rw [Handling.actionEvents, List.forall_mem_cons,
        routing_events_within (small request rfl)]
      simp [completed, Event.WithinLimits]
  | wrongFormat => simp [Handling.actionEvents, completed, Event.WithinLimits]
  | wrongParam => simp [Handling.actionEvents, completed, Event.WithinLimits]

theorem routing_fatal_not_conforms {action : Action}
    (fatal : (routing platform ketama).fatal action = true) :
    ¬ ∀ request ∈ completed [action], request.Conforms := by
  cases action with
  | dispatch request =>
      have empty := routing_crashes.mp fatal
      intro conforms
      have one := (conforms request (by simp [completed])).1
      rw [empty] at one
      exact absurd (one rfl) (by simp)
  | wrongFormat => cases fatal
  | wrongParam => cases fatal

theorem completed_append (first later : List Action) :
    completed (first ++ later) = completed first ++ completed later :=
  List.filterMap_append

theorem lineEvents_within (bounded : reader.Bounded) (line : Bytes) :
    (∀ event ∈ (routing platform ketama).lineEvents c reader line,
        event.WithinLimits) ↔
      ∀ request ∈ completed (reader.read (cStr line)).2.toList,
        request.Conforms := by
  have small := (bounded.read (cStr line)).2
  rw [Handling.lineEvents, List.forall_mem_cons]
  cases action : (reader.read (cStr line)).2 with
  | none => simp [Event.WithinLimits, completed]
  | some action' =>
      rw [action] at small
      simp only [Option.toList_some, List.flatMap_singleton,
        Event.WithinLimits, true_and]
      exact actionEvents_within fun request same => small request (by rw [same])

/-- All events of lines are within limits exactly if the completed requests
conform; a crash is no way out, as the request that causes it does not. -/
theorem linesEvents_within (bounded : reader.Bounded) (lines : List Bytes) :
    (∀ event ∈ (routing platform ketama).linesEvents c reader lines,
        event.WithinLimits) ↔
      ∀ request ∈ completed (reader.readLines lines).2, request.Conforms := by
  induction lines generalizing reader with
  | nil => simp [Handling.linesEvents, Reader.readLines, Reader.readAll,
      completed]
  | cons line lines induction =>
      rw [Handling.linesEvents, Reader.readLines_cons, completed_append,
        List.forall_mem_append, List.forall_mem_append,
        lineEvents_within bounded line]
      refine and_congr_right fun conforms => ?_
      cases fatal : (reader.read (cStr line)).2.toList.any
          (routing platform ketama).fatal with
      | true =>
          obtain ⟨action, member, fatal⟩ := List.any_eq_true.mp fatal
          refine absurd ?_ (routing_fatal_not_conforms fatal)
          rw [Option.mem_toList] at member
          rw [member] at conforms
          exact conforms
      | false =>
          rw [if_neg Bool.false_ne_true]
          exact induction (bounded.read (cStr line)).1

theorem conforms_not_fatal {actions : List Action}
    (conforms : ∀ request ∈ completed actions, request.Conforms) :
    actions.any (routing platform ketama).fatal = false := by
  rw [List.any_eq_false]
  intro action member fatal
  refine routing_fatal_not_conforms fatal fun request found =>
    conforms request ?_
  rw [completed, List.mem_filterMap] at found ⊢
  obtain ⟨only, inSingleton, same⟩ := found
  rw [List.mem_singleton.mp inSingleton] at same
  exact ⟨action, member, same⟩

/-- Every handler is entered within the limits of its command, and the router
survives, exactly if the client's requests conform. -/
theorem handlers_withinLimits_iff (reachable : Reachable host world)
    (connected : c ∈ world.connected) (input : Bytes) (later : List Bytes) :
    let run := clientEventReads (commandProc host.toPlatform) c
      (input :: later) world
    ((∀ events, (final run).trace = world.trace ++ events →
        ∀ event ∈ events, event.WithinLimits) ∧
      ∀ fault after, run ≠ .error fault after) ↔
      ∀ request ∈ completed ((clientReader world c).readLines
        (linesOf ((world.client c).evbuf ++ (input :: later).flatten))).2,
        request.Conforms := by
  obtain ⟨ring, -⟩ := reachable.serving
  obtain ⟨owned, follows⟩ := reachable.follows connected
    (commandProc_obeys ring.1 ring.2) input later
  have within := @linesEvents_within c host.toPlatform world.server.ketama _
    (clientReader_bounded world c)
    (linesOf ((world.client c).evbuf ++ (input :: later).flatten))
  rw [← within]
  constructor
  · rintro ⟨limits, -⟩
    exact limits _ follows.trace
  · intro limits
    refine ⟨?_, ?_⟩
    · intro events trace
      rw [follows.trace, List.append_cancel_left_eq] at trace
      rw [← trace]
      exact limits
    · intro fault after stopped
      obtain ⟨_, _, ran, -⟩ :=
        follows.returns (conforms_not_fatal (within.mp limits))
      rw [stopped] at ran
      cases ran

theorem handlers_withinLimits_conforming :
    ∃ world, Reachable Host.standard world ∧
      ∀ fault after, clientEventReads (commandProc Host.standard.toPlatform) 0
        [ascii "+PING\n+GET", ascii " 1\n$key\n+GET\r"] world ≠
          .error fault after := by
  obtain ⟨world, reachable, member, client, -⟩ :=
    Host.standard.firstClient fun _ _ => .fails
  have limits := handlers_withinLimits_iff reachable member
    (ascii "+PING\n+GET") [ascii " 1\n$key\n+GET\r"]
  have start : clientReader world 0 = .idle :=
    clientReader_fresh (by rw [client])
  rw [client, start] at limits
  exact ⟨world, reachable, (limits.mpr (by decide)).2⟩

/-- `+GET` without a parameter count enters `command_GET` without a parameter,
and the router is gone. -/
theorem handlers_beyondLimits :
    ∃ world after, Reachable Host.standard world ∧ 0 ∈ world.connected ∧
      clientEventReads (commandProc Host.standard.toPlatform) 0
        [ascii "+GET\n"] world = .error .nullPointer after ∧
      .invoke 0 getCommand 0 ∈ after.trace ∧
      ¬ (Event.invoke 0 getCommand 0).WithinLimits := by
  obtain ⟨world, reachable, member, client, -⟩ :=
    Host.standard.firstClient fun _ _ => .fails
  obtain ⟨ring, -⟩ := reachable.serving
  obtain ⟨owned, follows⟩ := reachable.follows member
    (commandProc_obeys ring.1 ring.2) (ascii "+GET\n") []
  have start : clientReader world 0 = .idle :=
    clientReader_fresh (by rw [client])
  rw [client, start] at follows
  obtain ⟨after, stopped, trace⟩ := follows.crashes rfl
  have events : (routing Host.standard.toPlatform
      world.server.ketama).linesEvents 0 .idle [ascii "+GET"] =
        [.line 0 (ascii "+GET"), .dispatch 0 (some ⟨ascii "GET", []⟩),
          .invoke 0 getCommand 0] := rfl
  refine ⟨world, after, reachable, member, stopped, ?_, ?_⟩
  · rw [trace]
    refine List.mem_append_right _ ?_
    change _ ∈ (routing Host.standard.toPlatform
      world.server.ketama).linesEvents 0 .idle [ascii "+GET"]
    rw [events]
    simp
  · simp [Event.WithinLimits, getCommand]

end KetamaRouter
