import KetamaRouter.Transcript

/-!
# The router comes to rest

When nobody sends anything more, the router takes the lines that wait, from any
clients in any order.  It takes exactly those lines, is never stuck before the
last one, and then every client has the answers to all it has sent.
-/

namespace KetamaRouter

open LabelledRun Delimited

variable {host : Host} {world start after : World} {c : Nat}
  {happenings steps : List Happening}

/-- No line that waits completes a `GET` without a parameter. -/
def World.Harmless (world : World) : Prop :=
  ∀ c ∈ world.connected, .dispatch ⟨ascii "GET", []⟩ ∉ world.waiting c

/-- How many lines wait, of all clients. -/
def World.waitingLines (world : World) : Nat :=
  (world.connected.map fun c => (linesOf (world.client c).evbuf).length).sum

theorem Happens.line_connected {line rest : Bytes}
    (reachable : Reachable host world)
    (happens : Happens host world (.line c line rest) after) :
    c ∈ world.connected ∧ after.connected = world.connected := by
  cases happens.effect reachable with
  | processed connected => exact ⟨connected, (World.counting_clients _).1⟩

/-- A client whose view stays has the same lines waiting. -/
theorem World.waiting_congr (same : after.view c = world.view c) :
    (after.client c).evbuf = (world.client c).evbuf ∧
      after.waiting c = world.waiting c := by
  have evbuf : (after.client c).evbuf = (world.client c).evbuf :=
    congrArg ClientView.evbuf same
  have reader : clientReader after c = clientReader world c :=
    congrArg ClientView.reader same
  exact ⟨evbuf, by rw [World.waiting, World.waiting, evbuf, reader]⟩

/-- Taking a line leaves one line less. -/
theorem Happens.line_lowers {line rest : Bytes}
    (reachable : Reachable host world) (harmless : world.Harmless)
    (happens : Happens host world (.line c line rest) after) :
    after.Harmless ∧ world.waitingLines = after.waitingLines + 1 := by
  obtain ⟨connected, same⟩ := happens.line_connected reachable
  obtain ⟨cut, waiting⟩ := happens.line_waits reachable connected
  have others : ∀ other ∈ world.connected, other ≠ c →
      (after.client other).evbuf = (world.client other).evbuf ∧
        after.waiting other = world.waiting other :=
    fun other member apart =>
      World.waiting_congr (happens.line_others reachable member apart).2
  constructor
  · intro other member fatal
    rw [same] at member
    by_cases own : other = c
    · subst own
      exact harmless other member (waiting ▸ List.mem_append_right _ fatal)
    · rw [(others other member own).2] at fatal
      exact harmless other member fatal
  · obtain ⟨sessions, coherent⟩ := reachable.coherent
    have split := List.perm_cons_erase connected
    have rest : (world.connected.erase c).map
          (fun c => (linesOf (after.client c).evbuf).length) =
        (world.connected.erase c).map
          (fun c => (linesOf (world.client c).evbuf).length) := by
      apply List.map_congr_left
      intro other member
      obtain ⟨apart, inside⟩ := coherent.distinct.mem_erase_iff.mp member
      rw [(others other inside apart).1]
    unfold World.waitingLines
    rw [same, (split.map _).sum_eq, (split.map _).sum_eq, List.map_cons,
      List.map_cons, List.sum_cons, List.sum_cons, rest, cut, List.length_cons]
    omega

/-- While a line waits, a line can be taken. -/
theorem Reachable.takes_some (reachable : Reachable host world)
    (harmless : world.Harmless) (some : world.waitingLines ≠ 0) :
    ∃ step after, step.IsLine ∧ Happens host world step after := by
  by_contra stuck
  apply some
  apply List.sum_eq_zero
  intro count member
  obtain ⟨c, connected, same⟩ := List.mem_map.mp member
  by_contra waits
  rw [← same, List.length_eq_zero_iff] at waits
  obtain ⟨line, rest, after, happens⟩ :=
    reachable.takes connected waits (harmless c connected)
  exact stuck ⟨_, after, ⟨c, line, rest, rfl⟩, happens⟩

/-- What stays true while lines are taken. -/
structure Resting (host : Host) (world after : World) : Prop where
  reachable : Reachable host after
  harmless : after.Harmless
  connected : after.connected = world.connected

theorem Resting.run (reachable : Reachable host world)
    (harmless : world.Harmless) (run : Run (Happens host) world steps after)
    (lines : ∀ step ∈ steps, step.IsLine) :
    Resting host world after ∧
      world.waitingLines = steps.length + after.waitingLines := by
  have restricted : Run (Restricted (fun _ step => step.IsLine) (Happens host))
      world steps after := run.restrict fun step member _ => lines step member
  apply restricted.counts_down ⟨reachable, harmless, rfl⟩
  intro state step after resting takes
  obtain ⟨⟨c, line, rest, isLine⟩, happens⟩ := takes
  subst isLine
  obtain ⟨next, lower⟩ := happens.line_lowers resting.reachable resting.harmless
  exact ⟨⟨resting.reachable.step happens.step, next,
    (happens.line_connected resting.reachable).2.trans resting.connected⟩, lower⟩

/-- From any state the router comes to rest in as many steps as lines wait,
whichever it takes first, and then whoever takes what it is offered has read the
answers to all lines it has sent. -/
theorem comes_to_rest (host : Host) :
    ∃ node : Bytes → Bytes,
      ∀ {workers maxConnections start happenings world},
        serverInit host.toPlatform workers maxConnections = .ok start →
        Run (Happens host) start happenings world → world.Harmless →
        ∀ {steps after}, Run (Happens host) world steps after →
          (∀ step ∈ steps, step.IsLine) →
          after.connected = world.connected ∧
          world.waitingLines = steps.length + after.waitingLines ∧
          (after.waitingLines ≠ 0 → ∃ step last, step.IsLine ∧
            Happens host after step last) ∧
          (after.waitingLines = 0 → ∀ c ∈ world.connected,
            (after.memory.socket (after.client c).socket).Accepting →
            messagesIn (after.memory.socket (after.client c).socket).sent =
              some ((Reader.idle.readLines (linesOf (heard
                (happenings.filterMap (Happening.ofClient c))))).2.filterMap
                  (answer node))) := by
  obtain ⟨ketama, built, ring⟩ := ketamaBuild_serverRegistrations host
  refine ⟨nodeAddress host.toPlatform ketama, ?_⟩
  intro workers maxConnections start happenings world ran run harmless
    steps after later lines
  have same := serverInit_ketama ran
  rw [built] at same
  cases same
  obtain ⟨resting, counted⟩ :=
    Resting.run ((Reachable.start ran).run run) harmless later lines
  refine ⟨resting.connected, counted, ?_, ?_⟩
  · exact resting.reachable.takes_some resting.harmless
  · intro rest c connected accepting
    rw [← resting.connected] at connected
    obtain ⟨behaviour, told⟩ :=
      serverInit_told ran (run.append later) connected
    have none : (linesOf (after.client c).evbuf).length = 0 :=
      List.sum_eq_zero_iff.mp rest _ (List.mem_map_of_mem connected)
    exact told.answered ring lines (List.eq_nil_of_length_eq_zero none)
      accepting

/-- Six lines of two clients are taken in turns. -/
theorem comes_to_rest_turns :
    ∃ node : Bytes → Bytes, ∃ start world after,
      serverInit Host.standard.toPlatform 1 8 = .ok start ∧
      Run (Happens Host.standard) start twoSenders world ∧
      world.waitingLines = 6 ∧ Run (Happens Host.standard) world twoTurns after ∧
      after.waitingLines = 0 ∧
      messagesIn (after.memory.socket (after.client 0).socket).sent =
        some [nodeReply (node (ascii "k"))] ∧
      messagesIn (after.memory.socket (after.client 1).socket).sent =
        some [unknownReply, errorReply errWrongMsgFormatNo errWrongMsgFormat,
          pongReply] := by
  obtain ⟨start, world, after, ran, -, run, attends, later, attendsAfter⟩ :=
    @Host.schedules Host.standard twoSenders twoTurns 1 (by decide) 8 _ _
      (fun handling => rfl) fun handling => rfl
  have connected : world.connected = [0, 1] := attends.shows.connected
  have first := attends.shows.view 0 List.mem_cons_self
  have second := attends.shows.view 1
    (List.mem_cons_of_mem _ List.mem_cons_self)
  have firstIdle : clientReader world 0 = .idle :=
    congrArg ClientView.reader first
  have secondIdle : clientReader world 1 = .idle :=
    congrArg ClientView.reader second
  have firstEvbuf : (world.client 0).evbuf = ascii "+GET 1\n$k\n" :=
    congrArg ClientView.evbuf first
  have secondEvbuf : (world.client 1).evbuf =
      ascii "+FOO 1\n$x\nbad\n+PING\n" :=
    congrArg ClientView.evbuf second
  have harmless : world.Harmless := by
    intro c member
    rw [connected] at member
    cases List.mem_pair.mp member with
    | inl isFirst =>
        rw [isFirst, World.waiting, firstIdle, firstEvbuf]
        decide
    | inr isSecond =>
        rw [isSecond, World.waiting, secondIdle, secondEvbuf]
        decide
  have six : world.waitingLines = 6 := by
    rw [World.waitingLines, connected, List.map_cons, List.map_singleton,
      firstEvbuf, secondEvbuf]
    decide
  have lines : ∀ step ∈ twoTurns, step.IsLine := by
    simp [twoTurns, Happening.IsLine]
  obtain ⟨node, rests⟩ := comes_to_rest Host.standard
  obtain ⟨-, counted, -, answered⟩ := rests ran run harmless later lines
  have none : after.waitingLines = 0 := by
    rw [six] at counted
    exact Nat.left_eq_add.mp counted
  refine ⟨node, start, world, after, ran, run, six, later, none, ?_, ?_⟩
  · exact answered none 0 (by simp [connected])
      (attendsAfter.accepting List.mem_cons_self rfl)
  · exact answered none 1 (by simp [connected])
      (attendsAfter.accepting (List.mem_cons_of_mem _ List.mem_cons_self) rfl)

end KetamaRouter
