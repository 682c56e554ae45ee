import KetamaRouter.ReplyPerRequest

/-!
# What a line leaves behind

The world after a line of a client is, but for the heap, the world before it
with the counters that the line's action moves and the events it causes.  A
request that no handler finishes is counted a second time.
-/

namespace KetamaRouter

open FaultProgram

variable {host : Host} {platform : Platform} {world after : World}
  {owned : Multiset Cell} {c : Nat} {shape : MsgShape} {ketama : Ketama}

/-- Requests whose handler returns `CMD_FUNC_DONE`. -/
def Request.Handled (request : Request) : Prop :=
  request.name = ascii "PING" ∨
    request.name = ascii "GET" ∧ beginsWithStr request.params = true

instance decidableHandled (request : Request) : Decidable request.Handled :=
  inferInstanceAs (Decidable (_ ∨ _))

/-- What `command_proc` returns. -/
theorem commandProc_ret {full : MsgShape} {request : Request}
    {ret : CmdFuncRet} {registrations : List Registration}
    (built : Built platform registrations world.server.ketama)
    (points : 0 < world.server.ketama.numpoints)
    (commands : world.server.commandList = commandListLoad)
    (asks : full.request = some request) (msgAt : MsgAt world.memory full)
    (holds : Holds world.memory owned)
    (ran : commandProc platform c full.obj world = .ok ret after) :
    ret = .done ↔ request.Handled := by
  rw [@commandProc_run _ c platform _ _ commands asks msgAt] at ran
  obtain ⟨name, params⟩ := request
  obtain rfl : full.parameters = params := by
    obtain ⟨cmd, -, same⟩ := Option.map_eq_some_iff.mp asks
    exact (Request.mk.inj same).2
  rw [commandListGetl_load] at ran
  by_cases isPing : name = ascii "PING"
  · rw [if_pos isPing] at ran
    dsimp only at ran
    rw [bind_run_ok (log_run _)] at ran
    have pong := (@commandPING_spec (world.logged _) _ _ full.obj holds).result
      ran
    obtain ⟨memory, done, -⟩ := pong
    exact iff_of_true done (.inl isPing)
  · rw [if_neg isPing] at ran
    by_cases isGet : name = ascii "GET"
    · rw [if_pos isGet] at ran
      dsimp only at ran
      rw [bind_run_ok (log_run _)] at ran
      change commandGET platform c full.obj (world.logged _) = _ at ran
      have asked : (Request.mk name full.parameters).Handled ↔
          beginsWithStr full.parameters = true := by
        constructor
        · intro handled
          exact handled.elim (fun same => absurd same isPing) And.right
        · exact fun begins => .inr ⟨isGet, begins⟩
      rw [asked]
      cases chain : full.params with
      | nil =>
          rw [@commandGET_empty (world.logged _) _ _ _ msgAt chain] at ran
          cases ran
      | cons param rest =>
          have first : full.parameters = param.body.parameter ::
              rest.map fun param => param.body.parameter := by
            simp [MsgShape.parameters, chain]
          rw [first]
          cases body : param.body with
          | str str key =>
              have node := (@commandGET_str (world.logged _) _ _ _ _ _ _ _ _ _
                built points msgAt chain body holds).result ran
              obtain ⟨memory, done, -⟩ := node
              exact iff_of_true done rfl
          | kv kv key value keyText valueText =>
              rw [@commandGET_keyValue (world.logged _) _ _ _ _ _ _ _ _ _ _
                msgAt chain body] at ran
              cases ran
              exact iff_of_false (by simp)
                (by simp [ParamBody.parameter, beginsWithStr])
    · rw [if_neg isGet] at ran
      have refused := (respond_yields .unknown unknownReply_printable
        holds).result ran
      obtain ⟨memory, unknown, -⟩ := refused
      rw [unknown]
      refine iff_of_false (by simp) ?_
      intro handled
      cases handled with
      | inl same => exact isPing same
      | inr both => exact isGet both.1

/-! ## Counters -/

/-- The counters after the test on the result of `command_proc`. -/
def World.countAgain (world : World) (c : Nat) : World :=
  (world.setClient c fun client =>
    { client with reqOk := client.reqOk + 1 }).setServer fun server =>
      { server with reqOk := server.reqOk + 1 }

/-- The counters after what a line caused. -/
def World.counting (world : World) (c : Nat) : Option Action → World
  | none => world
  | some (.dispatch request) =>
      if request.Handled then world.countOk c
      else (world.countOk c).countAgain c
  | some .wrongFormat => world.countErr c
  | some .wrongParam => world.countErr c

theorem World.counting_complaint (reader : Reader) :
    world.counting c (some reader.complaint) = world.countErr c := by
  cases reader <;> rfl

theorem World.counting_trace (action : Option Action) :
    (world.counting c action).trace = world.trace := by
  unfold World.counting
  split
  · rfl
  · split <;> rfl
  · rfl
  · rfl

/-- Counting takes nobody in and moves nobody to another socket. -/
theorem World.counting_clients (action : Option Action) :
    (world.counting c action).connected = world.connected ∧
      (world.counting c action).clientBrk = world.clientBrk := by
  unfold World.counting
  split
  · exact ⟨rfl, rfl⟩
  · split <;> exact ⟨rfl, rfl⟩
  · exact ⟨rfl, rfl⟩
  · exact ⟨rfl, rfl⟩

theorem World.counting_socket (action : Option Action) (other : Nat) :
    ((world.counting c action).client other).socket =
      (world.client other).socket := by
  unfold World.counting World.countAgain World.countOk World.countErr
  by_cases same : other = c
  · subst same
    split
    · rfl
    · split <;> simp [World.setClient, World.setServer, World.setWorker]
    · simp [World.setClient, World.setWorker]
    · simp [World.setClient, World.setWorker]
  · split
    · rfl
    · split <;> simp [World.setClient, World.setServer, World.setWorker, same]
    · simp [World.setClient, World.setWorker, same]
    · simp [World.setClient, World.setWorker, same]

theorem countUndone_run (ret : CmdFuncRet) :
    countUndone c ret world =
      .ok () (if ret = .done then world else world.countAgain c) := by
  unfold countUndone
  by_cases done : ret = .done
  · rw [if_neg (not_not.mpr done), if_pos done]
    rfl
  · rw [if_pos done, if_neg done]
    rfl

/-- A completed request is counted, dispatched and counted again unless its
handler is done with it. -/
theorem clientEventLine_handled (ring : Routing host ketama)
    (serving : Serving commandListLoad ketama world)
    (session : Session world c shape owned) {line name : Bytes}
    {params : List Parameter}
    (accepted : shape.reader.accept (cStr line) =
      some (name, params.length, params))
    (ran : clientEventLine (commandProc host.toPlatform) c line world =
      .ok () after) :
    ∃ memory, after = ((world.counting c
      (some (.dispatch ⟨name, params⟩))).logged
        ((routing host.toPlatform ketama).lineEvents c shape.reader
          line)).setMemory memory := by
  obtain ⟨full, memory, -, -, complete, asks, msgAt, holds, -, run⟩ :=
    clientEventLine_completes session accepted
  rw [run (commandProc host.toPlatform)] at ran
  obtain ⟨ret, handled, ranProc, ran⟩ := of_bind_ok ran
  obtain ⟨_, counted, ranCount, ranClean⟩ := of_bind_ok ran
  rw [countUndone_run] at ranCount
  cases ranCount
  have dispatching := (@Keeps.dispatching world c memory line
    ⟨name, params⟩).serving serving
  have same : (world.dispatching c memory line ⟨name, params⟩).server.ketama =
      ketama := dispatching.ketama
  have returned := commandProc_ret (same.symm ▸ ring.1) (same.symm ▸ ring.2)
    dispatching.commands asks msgAt holds ranProc
  have obeys := commandProc_obeys ring.1 ring.2 _ c full ⟨name, params⟩ owned
    dispatching complete asks msgAt holds
  split at obeys
  · obtain ⟨stopped, crashed, -⟩ := obeys
    rw [ranProc] at crashed
    cases crashed
  · obtain ⟨replied, same, -⟩ := obeys.result ranProc
    obtain ⟨cleaned, -, ended⟩ := of_focus_ok ranClean
    rw [Handling.lineEvents_completes accepted]
    refine ⟨cleaned, ?_⟩
    rw [ended, same]
    by_cases done : ret = .done
    · rw [if_pos done, World.counting, if_pos (returned.mp done)]
      simp [World.dispatching, World.logged, World.setMemory]
    · rw [if_neg done, World.counting, if_neg (returned.not.mp done)]
      simp [World.dispatching, World.logged, World.setMemory, World.countAgain,
        World.setClient, World.setServer]

/-- But for the heap, a line does to the world what its action says. -/
theorem clientEventLine_outcome (ring : Routing host ketama)
    (serving : Serving commandListLoad ketama world)
    (session : Session world c shape owned) {line : Bytes}
    (ran : clientEventLine (commandProc host.toPlatform) c line world =
      .ok () after) :
    ∃ memory, after = ((world.counting c
      (shape.reader.read (cStr line)).2).logged
        ((routing host.toPlatform ketama).lineEvents c shape.reader
          line)).setMemory memory := by
  cases verdict : shape.reader.accept (cStr line) with
  | none =>
      obtain ⟨memory, ended, -⟩ :=
        (clientEventLine_rejected _ session verdict).result ran
      rw [Reader.read_rejected verdict, World.counting_complaint,
        Handling.lineEvents_rejected verdict]
      exact ⟨memory, ended⟩
  | some accepted =>
      obtain ⟨name, count, params⟩ := accepted
      have read := Reader.read_accepted verdict
      by_cases full : params.length = count
      · subst full
        rw [if_pos rfl] at read
        rw [read]
        exact clientEventLine_handled ring serving session verdict ran
      · rw [if_neg full] at read
        rw [read, Handling.lineEvents_opens verdict full]
        obtain ⟨next, memory, ended, -⟩ :=
          (clientEventLine_opens _ session verdict full).result ran
        exact ⟨memory, ended⟩

end KetamaRouter
