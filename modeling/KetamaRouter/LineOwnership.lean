import KetamaRouter.Happenings
import KetamaRouter.LineBuffers
import KetamaRouter.WorldInvariant

/-!
# The owners of lines

`evbuffer_readln` returns a line in a buffer of its own.  A line that the message
of its client accepts belongs to the message, and `msg_clean` frees it; freeing it
twice would be a fault.  A line that the message rejects belongs to nobody, and
is never freed.
-/

namespace KetamaRouter

open FaultProgram LabelledRun

variable {host : Host} {world after : World} {c : Nat} {happening : Happening}

/-! ## Steps let buffers fade -/

/-- What a release does to the memory. -/
theorem clientConnectionRelease_frees
    (ran : clientConnectionRelease c world = .ok () after) :
    msgFree (world.client c).msg world.memory = .ok () after.memory := by
  unfold clientConnectionRelease at ran
  rw [bind_run_ok (get_run world)] at ran
  obtain ⟨_, fewer, decreased, ran⟩ := of_bind_ok ran
  cases decreased
  obtain ⟨_, counted, decreased, ran⟩ := of_bind_ok ran
  cases decreased
  obtain ⟨_, freed, frees, ran⟩ := of_bind_ok ran
  cases ran
  obtain ⟨memory, ranFree, ended⟩ := of_focus_ok frees
  rw [ended]
  exact ranFree

theorem Happens.fades (happens : Happens host world happening after) :
    Fades world.memory after.memory := by
  have stable := fades_stable world.memory
  cases happens with
  | @accept sock behaviour after unused ran =>
      have opened : Fades world.memory (world.openSocket sock behaviour).memory :=
        ⟨Nat.le_refl _, fun _ _ live => live⟩
      cases serverEventAccept_cases ran with
      | inl refused =>
          obtain ⟨-, res, refused⟩ := refused
          obtain ⟨memory, refusal, ended⟩ := of_focus_ok refused
          rw [ended]
          exact (@maintains_respError _ _ [] _ stable trivial sock _ _).kept
            opened refusal
      | inr admitted =>
          rw [admitted.2.2]
          exact opened
  | @receive c input after connected ran =>
      cases found : (world.client c).msg with
      | none =>
          unfold clientEventReceive at ran
          rw [bind_run_ok (get_run world)] at ran
          simp only [found] at ran
          obtain ⟨msg, middle, begun, ran⟩ := of_bind_ok ran
          obtain ⟨memory, ranInit, ended⟩ := of_focus_ok begun
          cases ran
          rw [ended]
          exact (@maintains_msgInit _ _ [] _ stable trivial).kept
            (Fades.refl world.memory) ranInit
      | some msg =>
          rw [clientEventReceive_attached found] at ran
          cases ran
          exact Fades.refl world.memory
  | @line c line rest after connected found ran =>
      have inside : Inside (fun _ => Fades world.memory) world
          (world.client c).worker c (world.client c).msg.toList
          (world.setEvbuf c rest) := by
        refine ⟨Fades.refl world.memory, ?_, ?_, fun _ _ => rfl⟩
        · simp [World.setEvbuf, World.setClient]
        · intro msg held
          simpa [World.setEvbuf, World.setClient] using held
      exact ((inside_clientEventLine stable trivial
        (fun msg _ => inside_commandProc stable trivial trivial msg)
        line).kept inside ran).memory
  | @release c after connected ran =>
      have frees := clientConnectionRelease_frees ran
      cases held : (world.client c).msg with
      | none =>
          rw [held] at frees
          rw [← (EStateM.Result.ok.inj frees).2]
          exact Fades.refl world.memory
      | some msg =>
          rw [held] at frees
          exact (@maintains_msgFree _ _ [msg] msg stable
            List.mem_cons_self).kept (Fades.refl world.memory) frees

/-! ## What the connections hold -/

/-- The `data` fields of a client's message. -/
def clientData (world : World) (c : Nat) : List Nat :=
  (world.client c).msg.toList.flatMap (msgData world.memory)

/-- The `data` fields of the connections' messages. -/
def World.heldData (world : World) : List Nat :=
  world.connected.flatMap (clientData world)

/-- Of the buffers that lines came in, exactly those are live that a message
holds, and it alone holds them. -/
structure LinesOwned (world : World) (tokens : List Nat) : Prop where
  once : world.heldData.Nodup
  owned : ∀ token, token ∈ world.heldData ↔
    token ∈ tokens ∧ world.memory.text token ≠ none

/-- When nobody is connected no line is live. -/
theorem LinesOwned.nobody {tokens : List Nat} (lines : LinesOwned world tokens)
    (empty : world.connected = []) :
    ∀ token ∈ tokens, world.memory.text token = none := by
  intro token member
  by_contra live
  have held := (lines.owned token).mpr ⟨member, live⟩
  rw [World.heldData, empty] at held
  cases held

variable {sessions next : Nat → Option MsgShape} {tokens : List Nat}

theorem clientData_eq {session : Option MsgShape} {owned : Multiset Cell}
    (attached : Attached world c session)
    (holds : Holds world.memory (sessionCells session + owned)) :
    (↑(clientData world c) : Multiset Nat) =
      textBlocks (sessionCells session) := by
  cases session with
  | none =>
      rw [clientData, attached.1]
      rfl
  | some shape =>
      have data := msgData_eq attached.msgAt holds
      rw [clientData, attached.msg]
      rw [Option.toList_some, List.flatMap_singleton, data]
      exact shape.cells_blocks.symm

theorem Coherent.heldData_eq (coherent : Coherent host world sessions) :
    (↑world.heldData : Multiset Nat) =
      textBlocks (heldBy sessions world.connected) := by
  have each : ∀ clients : List Nat, (∀ c ∈ clients, c ∈ world.connected) →
      (↑(clients.flatMap (clientData world)) : Multiset Nat) =
        textBlocks (heldBy sessions clients) := by
    intro clients
    induction clients with
    | nil => exact fun _ => rfl
    | cons c clients induction =>
        intro connected
        have first := connected c List.mem_cons_self
        have data := clientData_eq (coherent.attached c first)
          (coherent.holdsOne first)
        have rest := induction fun other member =>
          connected other (List.mem_cons_of_mem c member)
        rw [List.flatMap_cons, ← Multiset.coe_add, data, rest]
        unfold heldBy
        rw [List.map_cons, List.sum_cons, textBlocks_add]
  exact each world.connected fun _ member => member

/-- The invariant behind `LinesOwned`: in addition, the buffers of lines are
older than what the next line will get. -/
structure Owning (host : Host) (sessions : Nat → Option MsgShape)
    (world : World) (tokens : List Nat) : Prop where
  coherent : Coherent host world sessions
  old : ∀ token ∈ tokens, token < world.memory.textBrk
  owned : ∀ token, .text token ∈ heldBy sessions world.connected ↔
    token ∈ tokens ∧ world.memory.text token ≠ none

theorem Owning.linesOwned (owning : Owning host sessions world tokens) :
    LinesOwned world tokens := by
  have data := owning.coherent.heldData_eq
  constructor
  · rw [← Multiset.coe_nodup, data]
    exact textBlocks_nodup owning.coherent.holds.distinct
  · intro token
    rw [← Multiset.mem_coe, data, mem_textBlocks]
    exact owning.owned token

/-- A step keeps the invariant if what the messages hold after it is what they
held before it and the buffers it read, less what it freed. -/
theorem Owning.move {rows : List Nat}
    (owning : Owning host sessions world tokens)
    (coherent : Coherent host after next)
    (fades : Fades world.memory after.memory)
    (fresh : ∀ token ∈ rows, token < after.memory.textBrk)
    (fewer : ∀ token, .text token ∈ heldBy next after.connected →
      .text token ∈ heldBy sessions world.connected ∨ token ∈ rows)
    (kept : ∀ token, .text token ∈ heldBy sessions world.connected ∨
      token ∈ rows → after.memory.text token ≠ none →
        .text token ∈ heldBy next after.connected) :
    Owning host next after (rows ++ tokens) where
  coherent := coherent
  old token member := by
    cases List.mem_append.mp member with
    | inl new => exact fresh token new
    | inr old =>
        exact Nat.lt_of_lt_of_le (owning.old token old) fades.textBrk
  owned token := by
    constructor
    · intro held
      refine ⟨List.mem_append.mpr ?_, (coherent.holds.texts token held).2⟩
      cases fewer token held with
      | inl before => exact .inr ((owning.owned token).mp before).1
      | inr new => exact .inl new
    · intro alive
      obtain ⟨member, live⟩ := alive
      apply kept token _ live
      cases List.mem_append.mp member with
      | inl new => exact .inr new
      | inr old =>
          have before := fades.live token (owning.old token old) live
          exact .inl ((owning.owned token).mpr ⟨old, before⟩)

/-! ## Steps of one client -/

variable {shape : MsgShape} {owned : Multiset Cell}

theorem mem_heldBy_update (connected : c ∈ world.connected)
    (distinct : world.connected.Nodup) {token : Nat} :
    .text token ∈ heldBy (Function.update sessions c (some shape))
        world.connected ↔
      token ∈ shape.blocks ∨
        .text token ∈ heldBy sessions (world.connected.erase c) := by
  rw [heldBy_update connected distinct, Multiset.mem_add]
  change .text token ∈ shape.cells ∨ _ ↔ _
  rw [MsgShape.text_mem_cells]

/-- Two accounts of a client's message name the same buffers. -/
theorem Session.blocks_eq {other : MsgShape}
    (session : Session world c shape owned)
    (again : Session world c other owned) : shape.blocks = other.blocks := by
  have same : shape.obj = other.obj :=
    Option.some.inj (session.msg.symm.trans again.msg)
  rw [← msgData_eq session.msgAt session.holds,
    ← msgData_eq again.msgAt again.holds, same]

theorem MsgShape.blocks_of_idle (idle : shape.reader = .idle) :
    shape.blocks = [] := by
  cases found : shape.cmd with
  | none =>
      rw [MsgShape.idle_of_cmd found]
      rfl
  | some cmd =>
      rw [MsgShape.reader_of_cmd found] at idle
      cases idle

theorem Owning.moved {events : List Event} {replies : List Request}
    (owning : Owning host sessions world tokens) (rows : List Nat)
    (connected : c ∈ world.connected)
    (moved : Moved c world after shape
      (heldBy sessions (world.connected.erase c)) events replies)
    (fades : Fades world.memory after.memory)
    (fresh : ∀ token ∈ rows, token < after.memory.textBrk)
    (fewer : ∀ token ∈ shape.blocks,
      .text token ∈ sessionCells (sessions c) ∨ token ∈ rows)
    (kept : ∀ token, .text token ∈ sessionCells (sessions c) ∨ token ∈ rows →
      after.memory.text token ≠ none → token ∈ shape.blocks) :
    Owning host (Function.update sessions c (some shape)) after
      (rows ++ tokens) := by
  have same := moved.keeps.connected
  have distinct := owning.coherent.distinct
  apply owning.move (owning.coherent.moved connected moved) fades fresh
  · intro token held
    rw [same, mem_heldBy_update connected distinct] at held
    rw [heldBy_erase connected, Multiset.mem_add, or_right_comm]
    cases held with
    | inl mine => exact .inl (fewer token mine)
    | inr others => exact .inr others
  · intro token held live
    rw [same, mem_heldBy_update connected distinct]
    rw [heldBy_erase connected, Multiset.mem_add, or_right_comm] at held
    cases held with
    | inl mine => exact .inl (kept token mine live)
    | inr others => exact .inr others

theorem mem_sessionCells {token : Nat} (found : sessions c = some shape) :
    .text token ∈ sessionCells (sessions c) ↔ token ∈ shape.blocks := by
  rw [found]
  exact MsgShape.text_mem_cells

/-- Hearing a client changes nothing about the lines. -/
theorem Owning.received {input : Bytes}
    (owning : Owning host sessions world tokens)
    (connected : c ∈ world.connected)
    (happens : Happens host world (.receive c input) after) :
    ∃ next, Owning host next after tokens := by
  have attached := owning.coherent.attached c connected
  have holds := owning.coherent.holdsOne connected
  have fades := happens.fades
  cases happens with
  | receive _ ran =>
      obtain ⟨-, shape, reader, -, moved⟩ :=
        (@clientEventReceive_spec world _ c observed _ attached holds
          input).result ran
      have data : ∀ token, token ∈ shape.blocks ↔
          .text token ∈ sessionCells (sessions c) := by
        intro token
        cases session : sessions c with
        | none =>
            rw [session] at reader
            rw [MsgShape.blocks_of_idle reader]
            simp [sessionCells]
        | some before =>
            rw [session] at attached holds
            rw [clientEventReceive_attached attached.msg] at ran
            cases ran
            have again := (Moved.setEvbuf ⟨attached, holds⟩
              ((world.client c).evbuf ++ input)).session
            rw [← session, mem_sessionCells session,
              moved.session.blocks_eq again]
      refine ⟨_, owning.moved [] connected moved fades ?_ ?_ ?_⟩
      · intro token member
        cases member
      · intro token member
        exact .inl ((data token).mp member)
      · intro token held _
        apply (data token).mpr
        simpa using held

/-! ## Lines -/

variable {line rest : Bytes} {ketama : Ketama}

/-- When a completed message is cleaned it still owns the line that completed
it, and the memory is left as cleaning leaves it. -/
theorem clientEventLine_cleans (ring : Routing host ketama)
    (serving : Serving commandListLoad ketama world)
    (session : Session world c shape owned) {name : Bytes}
    {params : List Parameter}
    (accepted : shape.reader.accept (cStr line) =
      some (name, params.length, params))
    (ran : clientEventLine (commandProc host.toPlatform) c line world =
      .ok () after) :
    ∃ full before, full.blocks = shape.blocks ++ [world.memory.textBrk] ∧
      MsgAt before full ∧ Holds before (full.cells + owned) ∧
      msgClean full.obj before = .ok () after.memory := by
  obtain ⟨full, memory, -, blocks, complete, asks, msgAt, holds, -, run⟩ :=
    clientEventLine_completes session accepted
  rw [run (commandProc host.toPlatform)] at ran
  obtain ⟨ret, handled, ranProc, ran⟩ := of_bind_ok ran
  obtain ⟨_, counted, ranCount, ranClean⟩ := of_bind_ok ran
  have dispatching := (@Keeps.dispatching world c memory line
    ⟨name, params⟩).serving serving
  have obeys := commandProc_obeys ring.1 ring.2 _ c full ⟨name, params⟩ owned
    dispatching complete asks msgAt holds
  split at obeys
  · obtain ⟨stopped, crashed, -⟩ := obeys
    rw [ranProc] at crashed
    cases crashed
  · obtain ⟨replied, same, holdsReplied, frame⟩ := obeys.result ranProc
    have msgReplied : MsgAt replied full :=
      (msgAt.setSocket _ _).frame frame
        fun _ member => Multiset.mem_add.mpr (.inl member)
    obtain ⟨-, unchanged, -⟩ := (countUndone_yields ret).result ranCount
    obtain ⟨cleaned, ranClean, ended⟩ := of_focus_ok ranClean
    refine ⟨full, replied, blocks, msgReplied, holdsReplied, ?_⟩
    rw [unchanged, same] at ranClean
    rw [ended]
    exact ranClean

/-- A line that the message accepts gets the message for its owner, or is freed
with it. -/
theorem Owning.taken (owning : Owning host sessions world tokens)
    (connected : c ∈ world.connected)
    (happens : Happens host world (.line c line rest) after)
    (takes : (clientReader world c).accept (cStr line) ≠ none) :
    ∃ next, Owning host next after ([world.memory.textBrk] ++ tokens) := by
  obtain ⟨ketama, ring, serving⟩ := owning.coherent.serving
  have fades := happens.fades
  cases happens with
  | line _ found ran =>
      obtain ⟨shape, session, begun, follows⟩ :=
        owning.coherent.line ring serving connected found
      obtain ⟨-, next, reader, -, moved⟩ := follows.result ran
      have whole := begun.trans moved
      have held : ∀ token, .text token ∈ sessionCells (sessions c) ∨
          token ∈ [world.memory.textBrk] ↔
            token ∈ shape.blocks ++ [world.memory.textBrk] := by
        intro token
        rw [mem_sessionCells session, List.mem_append]
      have current := owning.coherent.clientReader_eq connected
      rw [session] at current
      change clientReader world c = shape.reader at current
      rw [current] at takes
      cases verdict : shape.reader.accept (cStr line) with
      | none => exact absurd verdict takes
      | some accepted =>
          obtain ⟨name, count, params⟩ := accepted
          have read := Reader.read_accepted verdict
          by_cases full : params.length = count
          · subst full
            rw [read, if_pos rfl] at reader
            have blocks := MsgShape.blocks_of_idle reader
            obtain ⟨full, before, owns, msgAt, holds, cleans⟩ :=
              clientEventLine_cleans ring (begun.keeps.serving serving)
                begun.session verdict ran
            have gone := msgClean_ends msgAt holds.blocks_old cleans
            have later := (@maintains_msgClean _ _ [full.obj] full.obj
              (fades_stable before) List.mem_cons_self).kept
                (Fades.refl before) cleans
            refine ⟨_, owning.moved _ connected whole fades ?_ ?_ ?_⟩
            · intro token isRow
              apply Nat.lt_of_lt_of_le _ later.textBrk
              apply holds.blocks_old
              rw [owns]
              exact List.mem_append_right _ isRow
            · intro token member
              rw [blocks] at member
              cases member
            · intro token mine live
              refine absurd (gone token ?_) live
              rw [owns]
              exact (held token).mp mine
          · obtain ⟨opened, memory, -, -, -, owns, again, -⟩ :=
              (clientEventLine_opens _ begun.session verdict full).result ran
            have blocks := (moved.session.blocks_eq again).trans owns
            refine ⟨_, owning.moved _ connected whole fades ?_ ?_ ?_⟩
            · intro token isRow
              apply moved.session.holds.blocks_old
              rw [blocks]
              exact List.mem_append_right _ isRow
            · intro token member
              rw [blocks] at member
              exact (held token).mpr member
            · intro token mine _
              rw [blocks]
              exact (held token).mp mine

/-! ## The end of a connection, and new ones -/

theorem Owning.released (owning : Owning host sessions world tokens)
    (connected : c ∈ world.connected)
    (happens : Happens host world (.release c) after) :
    ∃ next, Owning host next after tokens := by
  have attached := owning.coherent.attached c connected
  have holds := owning.coherent.holdsOne connected
  have fades := happens.fades
  cases happens with
  | release _ ran =>
      have frees := clientConnectionRelease_frees ran
      obtain ⟨memory, ended, -⟩ :=
        (clientConnectionRelease_spec owning.coherent connected).result ran
      have left : after.connected = world.connected.erase c := by
        rw [ended]
        rfl
      have gone : ∀ token, .text token ∈ sessionCells (sessions c) →
          after.memory.text token = none := by
        intro token mine
        cases session : sessions c with
        | none =>
            rw [session] at mine
            cases Multiset.notMem_zero _ mine
        | some shape =>
            rw [mem_sessionCells session] at mine
            rw [session] at attached holds
            rw [attached.msg] at frees
            exact msgFree_ends attached.msgAt
              (Holds.blocks_old holds) frees token mine
      have coherent := owning.coherent.released connected ran
      refine ⟨sessions, @Owning.move _ _ _ _ _ _ [] owning coherent fades
        ?_ ?_ ?_⟩
      · intro token member
        cases member
      · intro token kept
        rw [left] at kept
        rw [heldBy_erase connected, Multiset.mem_add]
        exact .inl (.inr kept)
      · intro token before live
        rw [left]
        rw [heldBy_erase connected, Multiset.mem_add] at before
        cases before with
        | inl held =>
            cases held with
            | inl mine => exact absurd (gone token mine) live
            | inr others => exact others
        | inr row => cases row

theorem Owning.accepted {sock : Nat} {behaviour : Nat → Nat → WriteResult}
    (owning : Owning host sessions world tokens)
    (happens : Happens host world (.accept sock behaviour) after) :
    ∃ next, Owning host next after tokens := by
  have fades := happens.fades
  have same : ∃ next, Coherent host after next ∧
      heldBy next after.connected = heldBy sessions world.connected := by
    cases happens with
    | accept unused ran =>
        cases serverEventAccept_cases ran with
        | inl refused =>
            obtain ⟨-, res, refused⟩ := refused
            obtain ⟨memory, -, ended⟩ := of_focus_ok refused
            refine ⟨sessions, owning.coherent.refused refused, ?_⟩
            rw [ended]
            rfl
        | inr admitted =>
            have opened := owning.coherent.opened sock behaviour
            rw [admitted.2.2]
            exact ⟨_, opened.admitted unused, opened.heldBy_admitted sock⟩
  obtain ⟨next, coherent, held⟩ := same
  refine ⟨next, @Owning.move _ _ _ _ _ _ [] owning coherent fades ?_ ?_ ?_⟩
  · intro token member
    cases member
  · intro token after
    rw [held] at after
    exact .inl after
  · intro token before _
    rw [held]
    simpa using before

/-! ## Runs -/

/-- The buffer that `evbuffer_readln` returns in a step, if there is a line. -/
def Happening.rows (world : World) : Happening → List Nat
  | .line _ line _ =>
      match mallocText line world.memory with
      | .ok row _ => [row]
      | .error _ _ => []
  | _ => []

/-- A step of the router, with the buffers of all lines read so far. -/
def Tracks (host : Host) (state : World × List Nat) (happening : Happening)
    (next : World × List Nat) : Prop :=
  Happens host state.1 happening next.1 ∧
    next.2 = happening.rows state.1 ++ state.2

/-- A line is one that the message of its client accepts. -/
def TakesLines (state : World × List Nat) : Happening → Prop
  | .line c line _ => (clientReader state.1 c).accept (cStr line) ≠ none
  | _ => True

theorem Owning.step {happening : Happening}
    (owning : Owning host sessions world tokens)
    (takes : TakesLines (world, tokens) happening)
    (happens : Happens host world happening after) :
    ∃ next, Owning host next after (happening.rows world ++ tokens) := by
  cases happening with
  | accept sock behaviour => exact owning.accepted happens
  | receive c input =>
      cases happens with
      | receive connected ran =>
          exact owning.received connected (.receive connected ran)
  | line c line rest =>
      cases happens with
      | line connected found ran =>
          exact owning.taken connected (.line connected found ran) takes
  | release c =>
      cases happens with
      | release connected ran =>
          exact owning.released connected (.release connected ran)

variable {start : World} {happenings : List Happening}
  {last : World × List Nat} {workers : Nat} {maxConnections : UInt64}

theorem Owning.initial
    (ran : serverInit host.toPlatform workers maxConnections = .ok start) :
    Owning host (fun _ => none) start [] where
  coherent := Coherent.start ran
  old token member := by cases member
  owned token := by
    unfold serverInit at ran
    obtain ⟨ketama, built, -⟩ := ketamaBuild_serverRegistrations host
    rw [built] at ran
    cases ran
    simp [heldBy]

theorem Run.owning
    (ran : serverInit host.toPlatform workers maxConnections = .ok start)
    (run : Run (Restricted TakesLines (Tracks host)) (start, []) happenings
      last) : ∃ sessions, Owning host sessions last.1 last.2 := by
  apply run.keeps ⟨_, Owning.initial ran⟩
  intro state happening next owned step
  obtain ⟨sessions, owning⟩ := owned
  obtain ⟨takes, happens, grown⟩ := step
  rw [grown]
  exact owning.step takes happens

theorem Tracks.unique {state next other : World × List Nat}
    (tracks : Tracks host state happening next)
    (again : Tracks host state happening other) : next = other := by
  apply Prod.ext
  · exact tracks.1.unique again.1
  · rw [tracks.2, again.2]

/-- The buffer of a rejected line is live, and nobody holds it. -/
theorem Owning.leaks (owning : Owning host sessions world tokens)
    (happens : Happens host world (.line c line rest) after)
    (rejected : (clientReader world c).accept (cStr line) = none) :
    ¬ LinesOwned after ([world.memory.textBrk] ++ tokens) := by
  obtain ⟨ketama, ring, serving⟩ := owning.coherent.serving
  cases happens with
  | line connected found ran =>
      obtain ⟨shape, session, begun, follows⟩ :=
        owning.coherent.line ring serving connected found
      obtain ⟨-, next, reader, -, moved⟩ := follows.result ran
      have current := owning.coherent.clientReader_eq connected
      rw [session] at current
      change clientReader world c = shape.reader at current
      rw [current] at rejected
      have coherent := owning.coherent.moved connected (begun.trans moved)
      have data := coherent.heldData_eq
      intro lines
      have live : after.memory.text world.memory.textBrk ≠ none := by
        obtain ⟨memory, ended, -, text, -⟩ :=
          (clientEventLine_rejected _ begun.session rejected).result ran
        change memory.text world.memory.textBrk = some line at text
        rw [ended]
        change memory.text world.memory.textBrk ≠ none
        rw [text]
        exact Option.some_ne_none line
      have held := (lines.owned world.memory.textBrk).mpr
        ⟨List.mem_cons_self, live⟩
      rw [← Multiset.mem_coe, data, mem_textBlocks,
        (begun.trans moved).keeps.connected,
        mem_heldBy_update connected owning.coherent.distinct] at held
      rw [Reader.read_rejected rejected] at reader
      rw [MsgShape.blocks_of_idle reader] at held
      cases held with
      | inl mine => cases mine
      | inr others =>
          have inside : .text world.memory.textBrk ∈
              heldBy sessions world.connected := by
            rw [heldBy_erase connected, Multiset.mem_add]
            exact .inr others
          have older := owning.coherent.holds.texts _ inside
          exact Nat.lt_irrefl _ older.1

/-- All along a run exactly the lines that a message holds are live if and only
if the messages accept all lines of the run. -/
theorem lines_owned_iff
    (ran : serverInit host.toPlatform workers maxConnections = .ok start)
    (run : Run (Tracks host) (start, []) happenings last) :
    (∀ soFar state, soFar <+: happenings →
        Run (Tracks host) (start, []) soFar state →
          LinesOwned state.1 state.2) ↔
      Run (Restricted TakesLines (Tracks host)) (start, []) happenings last := by
  apply run.all_along_iff Tracks.unique
  · intro happenings state taken
    obtain ⟨sessions, owning⟩ := Run.owning ran taken
    exact owning.linesOwned
  · intro happenings state happening next taken step bad owned
    obtain ⟨sessions, owning⟩ := Run.owning ran taken
    cases happening with
    | accept sock behaviour => exact bad trivial
    | receive c input => exact bad trivial
    | release c => exact bad trivial
    | line c line rest =>
        rw [step.2] at owned
        exact owning.leaks step.1 (not_not.mp bad) owned

/-- Every run has its buffers of lines. -/
theorem Run.tracked (run : Run (Happens host) start happenings world) :
    ∃ tokens, Run (Tracks host) (start, []) happenings (world, tokens) := by
  induction run with
  | nil => exact ⟨[], .nil⟩
  | @snoc _ state _ happening _ step induction =>
      obtain ⟨tokens, tracked⟩ := induction
      exact ⟨happening.rows state ++ tokens, tracked.snoc ⟨step, rfl⟩⟩

/-- The first client of a router has sent its first line, and no line was read
before. -/
theorem Host.firstTracked (host : Host) (line : Bytes) (noLf : 10 ∉ line) :
    ∃ start world tokens, serverInit host.toPlatform 1 8 = .ok start ∧
      Run (Restricted TakesLines (Tracks host)) (start, [])
        [.accept 0 fun _ _ => .fails, .receive 0 (line ++ [10])]
        (world, tokens) ∧
      Reachable host world ∧ 0 ∈ world.connected ∧
      clientReader world 0 = .idle ∧
      evbufferReadln (world.client 0).evbuf = some (chompCr line, []) := by
  obtain ⟨start, world, ran, run, connected, idle, found, -⟩ :=
    host.firstLine line noLf
  obtain ⟨tokens, tracked⟩ := Run.tracked run
  refine ⟨start, world, tokens, ran, ?_, (Reachable.start ran).run run,
    connected, idle, found⟩
  apply tracked.restrict
  intro label member state
  cases List.mem_cons.mp member with
  | inl accept =>
      rw [accept]
      trivial
  | inr later =>
      rw [List.mem_singleton.mp later]
      trivial

theorem lines_owned_ping :
    ∃ start world tokens, serverInit Host.standard.toPlatform 1 8 = .ok start ∧
      Run (Tracks Host.standard) (start, [])
        [.accept 0 fun _ _ => .fails, .receive 0 (ascii "+PING\n"),
          .line 0 (ascii "+PING") []] (world, tokens) ∧
      LinesOwned world tokens := by
  obtain ⟨start, before, tokens, ran, run, reachable, connected, idle, found⟩ :=
    Host.standard.firstTracked (ascii "+PING") (by decide)
  have action : lineAction before 0 (ascii "+PING") =
      some (.dispatch ⟨ascii "PING", []⟩) := by
    rw [lineAction, idle]
    decide
  have line : evbufferReadln (before.client 0).evbuf =
      some (ascii "+PING", []) := found
  obtain ⟨world, happens⟩ := reachable.processes connected line
    (by rw [action]; decide)
  have step : Tracks Host.standard (before, tokens) (.line 0 (ascii "+PING") [])
      (world, [before.memory.textBrk] ++ tokens) := ⟨happens, rfl⟩
  have takes : TakesLines (before, tokens) (.line 0 (ascii "+PING") []) := by
    change (clientReader before 0).accept _ ≠ none
    rw [idle]
    decide
  have whole := (run.mono fun step => step.2).snoc step
  refine ⟨start, world, _, ran, whole, ?_⟩
  exact (lines_owned_iff ran whole).mpr (run.snoc ⟨takes, step⟩) _ _
    (List.prefix_refl _) whole

/-- A line without a header is never freed. -/
theorem lines_not_owned :
    ∃ start world tokens, serverInit Host.standard.toPlatform 1 8 = .ok start ∧
      Run (Tracks Host.standard) (start, [])
        [.accept 0 fun _ _ => .fails, .receive 0 (ascii "x\n"),
          .line 0 (ascii "x") []] (world, tokens) ∧
      ¬ LinesOwned world tokens := by
  obtain ⟨start, before, tokens, ran, run, reachable, connected, idle, found⟩ :=
    Host.standard.firstTracked (ascii "x") (by decide)
  have action : lineAction before 0 (ascii "x") = some .wrongFormat := by
    rw [lineAction, idle]
    decide
  have line : evbufferReadln (before.client 0).evbuf = some (ascii "x", []) :=
    found
  obtain ⟨world, happens⟩ := reachable.processes connected line
    (by rw [action]; decide)
  obtain ⟨sessions, owning⟩ := Run.owning ran run
  refine ⟨start, world, _, ran,
    (run.mono fun step => step.2).snoc ⟨happens, rfl⟩, ?_⟩
  apply owning.leaks happens
  change (clientReader before 0).accept _ = none
  rw [idle]
  decide

end KetamaRouter
