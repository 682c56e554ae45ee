import Mathlib.Algebra.BigOperators.Intervals
import Mathlib.Algebra.Order.BigOperators.Group.LocallyFinite
import Mathlib.Data.List.Count
import Mathlib.Logic.Relation
import KetamaRouter.ConnectionStatistics
import KetamaRouter.Threads

/-!
# The connection limit

The limit is checked against counts that were read one after the other while
other threads release connections.  Those threads only ever take from the
counts, so what was read bounds what is there when the listener adds its
connection.
-/

namespace KetamaRouter

open FaultProgram Totals Relation

variable {host : Host} {world start after : World} {c sock w : Nat}
  {census : Census} {listener : Listener} {closed : List Nat}
  {maxConnections : UInt64}

/-! ## The invariant -/

/-- No open connection has the descriptor. -/
structure Census.Free (census : Census) (closed : List Nat) (sock : Nat) :
    Prop where
  int : sock < 2 ^ 31
  unused : ∀ c ∈ census.connected, c ∉ closed → census.socket c ≠ sock

/-- What the listener knows of the counts. -/
def Listener.Knows (census : Census) (closed : List Nat) : Listener → Prop
  | .idle => census.connected.length ≤ census.maxConnections.toNat
  | .counting sock i cons =>
      census.Free closed sock ∧ i ≤ census.workerCount ∧
        ∑ w ∈ Finset.Ico 0 i, (census.numClient w).toNat ≤ cons.toNat ∧
        cons.toNat + ∑ w ∈ Finset.Ico i census.workerCount,
          (census.numClient w).toNat ≤ census.maxConnections.toNat
  | .choosing sock _ least =>
      census.Free closed sock ∧ least < census.workerCount ∧
        census.connected.length < census.maxConnections.toNat
  | .enabling _ => census.connected.length ≤ census.maxConnections.toNat

/-- Every connected client is counted once, by its worker; the descriptors of
open connections differ, and a worker releases one client at a time. -/
structure Limited (census : Census) (listener : Listener)
    (closed : List Nat) : Prop where
  distinct : census.connected.Nodup
  known : ∀ c ∈ census.connected, c < census.clientBrk
  releasing : ∀ c ∈ closed, c ∈ census.connected
  once : closed.Nodup
  alone : ∀ c ∈ closed, ∀ other ∈ closed,
    census.home c = census.home other → c = other
  homes : ∀ c ∈ census.connected, census.home c < census.workerCount
  descriptors : ∀ c ∈ census.connected, census.socket c < 2 ^ 31
  apart : ∀ c ∈ census.connected, c ∉ closed →
    ∀ other ∈ census.connected, other ∉ closed →
      census.socket c = census.socket other → c = other
  counted : ∀ w, (census.numClient w).toNat =
    census.connected.countP fun c => census.home c = w
  knows : listener.Knows census closed

namespace Census

variable {least : Nat}

theorem mem_attached (census : Census)
    (member : c ∈ (census.attached sock least).connected) :
    c ∈ census.connected ∨ c = census.clientBrk := by
  simpa [attached] using member

theorem attached_home_old (census : Census) (apart : c ≠ census.clientBrk) :
    (census.attached sock least).home c = census.home c :=
  Function.update_of_ne apart _ _

theorem attached_home_new (census : Census) :
    (census.attached sock least).home census.clientBrk = least :=
  Function.update_self _ _ _

theorem attached_socket_old (census : Census) (apart : c ≠ census.clientBrk) :
    (census.attached sock least).socket c = census.socket c :=
  Function.update_of_ne apart _ _

theorem attached_socket_new (census : Census) :
    (census.attached sock least).socket census.clientBrk = sock :=
  Function.update_self _ _ _

end Census

namespace Limited

theorem total (limited : Limited census listener closed) :
    ∑ w ∈ Finset.range census.workerCount, (census.numClient w).toNat =
      census.connected.length := by
  rw [← @sum_countP _ _ (Finset.range census.workerCount) _ _ census.home
    fun c member => Finset.mem_range.mpr (limited.homes c member)]
  apply Finset.sum_congr rfl
  intro w _
  exact limited.counted w

/-- A worker cannot have more clients than there are descriptors, but for the
one it is releasing. -/
theorem space (limited : Limited census listener closed) (w : Nat) :
    (census.numClient w).toNat + 1 < 2 ^ 32 := by
  have mine := (limited.distinct.filter fun c => census.home c = w)
  have size : (census.numClient w).toNat =
      (census.connected.filter fun c => census.home c = w).toFinset.card := by
    rw [limited.counted w, List.countP_eq_length_filter,
      List.toFinset_card_of_nodup mine]
  have inside : ∀ c ∈ (census.connected.filter
      fun c => census.home c = w).toFinset,
      c ∈ census.connected ∧ census.home c = w := by
    intro c member
    simpa using member
  have opened : ((census.connected.filter
      fun c => census.home c = w).toFinset.filter
      fun c => ¬ c ∈ closed).card ≤ 2 ^ 31 := by
    rw [← Finset.card_range (2 ^ 31)]
    apply Finset.card_le_card_of_injOn census.socket
    · intro c member
      have member := Finset.mem_filter.mp member
      have connected := (inside c member.1).1
      exact Finset.mem_coe.mpr
        (Finset.mem_range.mpr (limited.descriptors c connected))
    · intro c member other memberOther same
      have member := Finset.mem_filter.mp member
      have memberOther := Finset.mem_filter.mp memberOther
      exact limited.apart c (inside c member.1).1 member.2 other
        (inside other memberOther.1).1 memberOther.2 same
  have leaving : ((census.connected.filter
      fun c => census.home c = w).toFinset.filter
      fun c => c ∈ closed).card ≤ 1 := by
    apply Finset.card_le_one.mpr
    intro c member other memberOther
    have member := Finset.mem_filter.mp member
    have memberOther := Finset.mem_filter.mp memberOther
    exact limited.alone c member.2 other memberOther.2
      ((inside c member.1).2.trans (inside other memberOther.1).2.symm)
  rw [size, ← Finset.card_filter_add_card_filter_not fun c => c ∈ closed]
  omega

/-- A client still counted leaves its worker's count above zero. -/
theorem positive (limited : Limited census listener closed)
    (member : c ∈ census.connected) :
    0 < (census.numClient (census.home c)).toNat := by
  rw [limited.counted, List.countP_pos_iff]
  exact ⟨c, member, by simp⟩

/-! ## Steps -/

theorem moves {next : Listener} (limited : Limited census listener closed)
    (knows : next.Knows census closed) : Limited census next closed :=
  { limited with knows := knows }

/-- A connection begins to be released. -/
theorem closing (limited : Limited census listener closed)
    (connected : c ∈ census.connected) (opened : c ∉ closed)
    (alone : ∀ other ∈ closed, census.home other ≠ census.home c) :
    Limited census listener (c :: closed) where
  distinct := limited.distinct
  known := limited.known
  releasing other member := by
    cases List.mem_cons.mp member with
    | inl same => exact same ▸ connected
    | inr before => exact limited.releasing other before
  once := List.nodup_cons.mpr ⟨opened, limited.once⟩
  alone first inFirst second inSecond same := by
    cases List.mem_cons.mp inFirst with
    | inl new =>
        cases List.mem_cons.mp inSecond with
        | inl new' => exact new.trans new'.symm
        | inr before =>
            rw [new] at same
            exact absurd same.symm (alone second before)
    | inr before =>
        cases List.mem_cons.mp inSecond with
        | inl new =>
            rw [new] at same
            exact absurd same (alone first before)
        | inr before' => exact limited.alone first before second before' same
  homes := limited.homes
  descriptors := limited.descriptors
  apart first inFirst open₁ second inSecond open₂ same :=
    limited.apart first inFirst (fun before =>
      open₁ (List.mem_cons_of_mem c before)) second inSecond (fun before =>
        open₂ (List.mem_cons_of_mem c before)) same
  counted := limited.counted
  knows := by
    have free : ∀ sock, census.Free closed sock →
        census.Free (c :: closed) sock := by
      intro sock free
      refine ⟨free.int, fun other member opened => ?_⟩
      exact free.unused other member fun before =>
        opened (List.mem_cons_of_mem c before)
    have knows := limited.knows
    cases listener with
    | idle => exact knows
    | counting sock i cons => exact ⟨free sock knows.1, knows.2⟩
    | choosing sock i least => exact ⟨free sock knows.1, knows.2⟩
    | enabling c => exact knows

theorem erase_ne (limited : Limited census listener closed) {other : Nat}
    (member : other ∈ census.connected.erase c) : other ≠ c :=
  ((List.Nodup.mem_erase_iff limited.distinct).mp member).1

/-- A client that is open once another one is released was open before. -/
theorem erase_opened (limited : Limited census listener closed) {other : Nat}
    (member : other ∈ census.connected.erase c)
    (opened : other ∉ closed.erase c) : other ∉ closed := by
  intro before
  exact opened ((List.mem_erase_of_ne (limited.erase_ne member)).mpr before)

theorem released_numClient (limited : Limited census listener closed)
    (connected : c ∈ census.connected) (w : Nat) :
    ((census.released c).numClient w).toNat =
      (census.numClient w).toNat - if census.home c = w then 1 else 0 := by
  change (Function.update census.numClient (census.home c)
    (census.numClient (census.home c) - 1) w).toNat = _
  by_cases home : census.home c = w
  · have one : (1 : UInt32) ≤ census.numClient w := by
      rw [UInt32.le_iff_toNat_le, ← home]
      exact limited.positive connected
    rw [if_pos home, home, Function.update_self, UInt32.toNat_sub_of_le _ _ one]
    rfl
  · rw [if_neg home, Function.update_of_ne (Ne.symm home), Nat.sub_zero]

theorem released_numClient_le (limited : Limited census listener closed)
    (connected : c ∈ census.connected) (w : Nat) :
    ((census.released c).numClient w).toNat ≤ (census.numClient w).toNat := by
  rw [limited.released_numClient connected]
  exact Nat.sub_le _ _

/-- A worker thread has released a connection. -/
theorem released (limited : Limited census listener closed)
    (leaving : c ∈ closed) :
    Limited (census.released c) listener (closed.erase c) where
  distinct := limited.distinct.erase c
  known other member := limited.known other (List.mem_of_mem_erase member)
  releasing other member := by
    have apart := ((List.Nodup.mem_erase_iff limited.once).mp member).1
    exact (List.mem_erase_of_ne apart).mpr
      (limited.releasing other (List.mem_of_mem_erase member))
  once := limited.once.erase c
  alone first inFirst second inSecond same :=
    limited.alone first (List.mem_of_mem_erase inFirst) second
      (List.mem_of_mem_erase inSecond) same
  homes other member := limited.homes other (List.mem_of_mem_erase member)
  descriptors other member :=
    limited.descriptors other (List.mem_of_mem_erase member)
  apart first inFirst open₁ second inSecond open₂ same :=
    limited.apart first (List.mem_of_mem_erase inFirst)
      (limited.erase_opened inFirst open₁) second
      (List.mem_of_mem_erase inSecond) (limited.erase_opened inSecond open₂)
      same
  counted w := by
    have connected := limited.releasing c leaving
    rw [limited.released_numClient connected, limited.counted w]
    change _ = (census.connected.erase c).countP fun other =>
      census.home other = w
    rw [List.countP_erase]
    simp [connected]
  knows := by
    have connected := limited.releasing c leaving
    have fewer : (census.connected.erase c).length ≤
        census.connected.length :=
      List.length_erase_le
    have counts : ∀ ws : Finset Nat,
        ∑ w ∈ ws, ((census.released c).numClient w).toNat ≤
          ∑ w ∈ ws, (census.numClient w).toNat := fun ws =>
      Finset.sum_le_sum fun w _ => limited.released_numClient_le connected w
    have free : ∀ sock, census.Free closed sock →
        (census.released c).Free (closed.erase c) sock := by
      intro sock free
      refine ⟨free.int, fun other member opened => ?_⟩
      exact free.unused other (List.mem_of_mem_erase member)
        (limited.erase_opened member opened)
    have knows := limited.knows
    cases listener with
    | idle => exact fewer.trans knows
    | counting sock i cons =>
        obtain ⟨unused, inside, read, unread⟩ := knows
        refine ⟨free sock unused, inside, (counts _).trans read, ?_⟩
        exact (Nat.add_le_add_left (counts _) _).trans unread
    | choosing sock i least =>
        obtain ⟨unused, chosen, room⟩ := knows
        exact ⟨free sock unused, chosen, Nat.lt_of_le_of_lt fewer room⟩
    | enabling c => exact fewer.trans knows

/-- A connected client is older than the one that the listener adds. -/
theorem older (limited : Limited census listener closed)
    (member : c ∈ census.connected) : c ≠ census.clientBrk :=
  Nat.ne_of_lt (limited.known c member)

theorem attached_apart {i least : Nat}
    (limited : Limited census (.choosing sock i least) closed) :
    ∀ first ∈ (census.attached sock least).connected, first ∉ closed →
      ∀ second ∈ (census.attached sock least).connected, second ∉ closed →
        (census.attached sock least).socket first =
          (census.attached sock least).socket second → first = second := by
  have free := limited.knows.1
  intro first inFirst open₁ second inSecond open₂ same
  cases census.mem_attached inFirst with
  | inl old =>
      rw [census.attached_socket_old (limited.older old)] at same
      cases census.mem_attached inSecond with
      | inl old' =>
          rw [census.attached_socket_old (limited.older old')] at same
          exact limited.apart first old open₁ second old' open₂ same
      | inr new =>
          rw [new, census.attached_socket_new] at same
          exact absurd same (free.unused first old open₁)
  | inr new =>
      rw [new, census.attached_socket_new] at same
      cases census.mem_attached inSecond with
      | inl old =>
          rw [census.attached_socket_old (limited.older old)] at same
          exact absurd same.symm (free.unused second old open₂)
      | inr new' => exact new.trans new'.symm

theorem attached_counted {i least : Nat}
    (limited : Limited census (.choosing sock i least) closed) (w : Nat) :
    ((census.attached sock least).numClient w).toNat =
      (census.attached sock least).connected.countP fun c =>
        (census.attached sock least).home c = w := by
  have same : (census.connected.countP fun c =>
      (census.attached sock least).home c = w) =
        census.connected.countP fun c => census.home c = w := by
    apply List.countP_congr
    intro c member
    rw [census.attached_home_old (limited.older member)]
  change (Function.update census.numClient least
    (census.numClient least + 1) w).toNat =
      (census.connected ++ [census.clientBrk]).countP _
  rw [List.countP_append, List.countP_singleton, same, ← limited.counted w,
    census.attached_home_new]
  by_cases here : least = w
  · have space := limited.space w
    rw [here, Function.update_self, UInt32.toNat_add, UInt32.toNat_one,
      Nat.mod_eq_of_lt space]
    simp
  · rw [Function.update_of_ne (Ne.symm here)]
    simp [here]

/-- The listener adds the connection to the worker it has chosen. -/
theorem attached {i least : Nat}
    (limited : Limited census (.choosing sock i least) closed) :
    Limited (census.attached sock least) (.enabling census.clientBrk)
      closed := by
  obtain ⟨free, chosen, room⟩ := limited.knows
  constructor
  · change (census.connected ++ [census.clientBrk]).Nodup
    rw [List.nodup_append_comm, List.singleton_append, List.nodup_cons]
    exact ⟨fun member => limited.older member rfl, limited.distinct⟩
  · intro c member
    change c < census.clientBrk + 1
    cases census.mem_attached member with
    | inl old => exact Nat.lt_succ_of_lt (limited.known c old)
    | inr new => exact new ▸ Nat.lt_succ_self _
  · intro c member
    exact List.mem_append_left _ (limited.releasing c member)
  · exact limited.once
  · intro first inFirst second inSecond same
    rw [census.attached_home_old
        (limited.older (limited.releasing first inFirst)),
      census.attached_home_old
        (limited.older (limited.releasing second inSecond))] at same
    exact limited.alone first inFirst second inSecond same
  · intro c member
    change _ < census.workerCount
    cases census.mem_attached member with
    | inl old =>
        rw [census.attached_home_old (limited.older old)]
        exact limited.homes c old
    | inr new =>
        rw [new, census.attached_home_new]
        exact chosen
  · intro c member
    cases census.mem_attached member with
    | inl old =>
        rw [census.attached_socket_old (limited.older old)]
        exact limited.descriptors c old
    | inr new =>
        rw [new, census.attached_socket_new]
        exact free.int
  · exact limited.attached_apart
  · exact limited.attached_counted
  · change (census.connected ++ [census.clientBrk]).length ≤ _
    rw [List.length_append, List.length_singleton]
    exact room

/-- The limit holds wherever the listener is. -/
theorem within (limited : Limited census listener closed) :
    census.connected.length ≤ census.maxConnections.toNat := by
  have knows := limited.knows
  cases listener with
  | idle => exact knows
  | counting sock i cons =>
      obtain ⟨-, inside, read, unread⟩ := knows
      rw [← limited.total, Finset.range_eq_Ico,
        ← Finset.sum_Ico_consecutive _ (Nat.zero_le i) inside]
      exact (Nat.add_le_add_right read _).trans unread
  | choosing sock i least => exact Nat.le_of_lt knows.2.2
  | enabling c => exact knows

theorem starts (limited : Limited census listener closed)
    (free : census.Free closed sock) :
    Listener.Knows census closed (.counting sock 0 0) := by
  refine ⟨free, Nat.zero_le _, ?_, ?_⟩
  · rw [Finset.Ico_self]
    exact Nat.le_refl 0
  · rw [← Finset.range_eq_Ico, limited.total, UInt64.toNat_zero, Nat.zero_add]
    exact limited.within

/-- One more count is read; the sum stays below the limit, so it does not
wrap. -/
theorem counts {i : Nat} {cons : UInt64}
    (limited : Limited census (.counting sock i cons) closed)
    (more : i < census.workerCount) :
    Listener.Knows census closed
      (.counting sock (i + 1) (cons + (census.numClient i).toUInt64)) := by
  obtain ⟨free, inside, read, unread⟩ := limited.knows
  rw [Finset.sum_eq_sum_Ico_succ_bot more, ← Nat.add_assoc] at unread
  have sum : (cons + (census.numClient i).toUInt64).toNat =
      cons.toNat + (census.numClient i).toNat := by
    rw [UInt64.toNat_add, UInt32.toNat_toUInt64]
    apply Nat.mod_eq_of_lt
    have limit := census.maxConnections.toNat_lt
    omega
  refine ⟨free, more, ?_, ?_⟩
  · rw [Finset.sum_Ico_succ_top (Nat.zero_le i), sum]
    exact Nat.add_le_add_right read _
  · rw [sum]
    exact unread

/-- The limit check passes on what was read, hence on what is there. -/
theorem passes {i : Nat} {cons : UInt64}
    (limited : Limited census (.counting sock i cons) closed)
    (done : ¬ i < census.workerCount)
    (room : ¬ census.maxConnections ≤ cons)
    (first : census.workerCount ≠ 0) :
    Listener.Knows census closed (.choosing sock 1 0) := by
  obtain ⟨free, inside, read, -⟩ := limited.knows
  obtain rfl : i = census.workerCount :=
    Nat.le_antisymm inside (Nat.not_lt.mp done)
  rw [← Finset.range_eq_Ico, limited.total] at read
  have below : cons.toNat < census.maxConnections.toNat := by
    rw [UInt64.le_iff_toNat_le] at room
    omega
  exact ⟨free, Nat.pos_of_ne_zero first, Nat.lt_of_le_of_lt read below⟩

end Limited

/-! ## Every interleaving -/

/-- Every step of every thread keeps the limit. -/
theorem ThreadStep.limited {threads next : Threads}
    (step : ThreadStep host threads next)
    (limited : Limited threads.world.census threads.listener threads.closed) :
    Limited next.world.census next.listener next.closed ∧
      next.world.census.maxConnections =
        threads.world.census.maxConnections := by
  cases step with
  | connect pc int unused =>
      exact ⟨limited.moves (limited.starts ⟨int, unused⟩), rfl⟩
  | count pc more =>
      rw [pc] at limited
      exact ⟨limited.moves (limited.counts more), rfl⟩
  | refuse pc counted full ran =>
      have same := (keepsCensus_onMemory _).kept rfl ran
      change Limited (World.census _) _ _ ∧ (World.census _).maxConnections = _
      rw [same]
      exact ⟨limited.moves limited.within, rfl⟩
  | pass pc counted room first =>
      rw [pc] at limited
      have same : threads.world.measured.census = threads.world.census := by
        unfold World.census World.measured World.setServer
        dsimp only
        split <;> rfl
      change Limited (World.census _) _ _ ∧ (World.census _).maxConnections = _
      rw [same]
      exact ⟨limited.moves (limited.passes counted room first), rfl⟩
  | @choose sock i least pc more =>
      rw [pc] at limited
      obtain ⟨free, chosen, room⟩ := limited.knows
      refine ⟨limited.moves ⟨free, ?_, room⟩, rfl⟩
      split
      · exact more
      · exact chosen
  | attach pc chosen =>
      rw [pc] at limited
      rw [census_attach]
      exact ⟨limited.attached, rfl⟩
  | enable pc => exact ⟨limited.moves limited.within, rfl⟩
  | receive serves ran =>
      have same := (keepsCensus_clientEventReceive _).kept rfl ran
      change Limited (World.census _) _ _ ∧ (World.census _).maxConnections = _
      rw [same]
      exact ⟨limited, rfl⟩
  | @line c line rest after serves found ran =>
      have taken : (threads.world.setEvbuf c rest).census =
          threads.world.census :=
        census_setClient (fun _ => rfl) fun _ => rfl
      have keeps : KeepsCensus threads.world.census
          (clientEventLine (commandProc host.toPlatform) c line) :=
        keepsCensus_clientEventLine (keepsCensus_commandProc _) line
      have same := keeps.kept taken ran
      change Limited (World.census _) _ _ ∧ (World.census _).maxConnections = _
      rw [same]
      exact ⟨limited, rfl⟩
  | close serves alone =>
      exact ⟨limited.closing serves.connected serves.opened alone, rfl⟩
  | release leaving ran =>
      rw [census_release ran]
      exact ⟨limited.released leaving, rfl⟩

/-- Any number of steps keeps the limit. -/
theorem Limited.steps {threads next : Threads}
    (limited : Limited threads.world.census threads.listener threads.closed)
    (steps : ReflTransGen (ThreadStep host) threads next) :
    Limited next.world.census next.listener next.closed ∧
      next.world.census.maxConnections =
        threads.world.census.maxConnections := by
  induction steps with
  | refl => exact ⟨limited, rfl⟩
  | tail _ step induction =>
      obtain ⟨before, same⟩ := induction
      obtain ⟨after, sameAfter⟩ := step.limited before
      exact ⟨after, sameAfter.trans same⟩

theorem serverInit_limited {workers : Nat}
    (ran : serverInit host.toPlatform workers maxConnections = .ok start) :
    Limited start.census .idle [] ∧
      start.census.maxConnections = maxConnections := by
  obtain ⟨ketama, built, -⟩ := ketamaBuild_serverRegistrations host
  unfold serverInit at ran
  rw [built] at ran
  cases ran
  refine ⟨?_, rfl⟩
  constructor
  · exact List.nodup_nil
  · simp [World.census]
  · simp
  · exact List.nodup_nil
  · simp
  · simp [World.census]
  · simp [World.census]
  · simp [World.census]
  · intro w
    rfl
  · exact Nat.zero_le _

/-- Whatever the threads do in whatever order, every accepted connection that
is not yet released is counted once, there are never more than the limit, and
releasing one takes exactly one from its worker's count. -/
theorem connections_limited {workers : Nat} {threads : Threads}
    (ran : serverInit host.toPlatform workers maxConnections = .ok start)
    (reaches : ReflTransGen (ThreadStep host) (.start start) threads) :
    totalClients threads.world = threads.world.connected.length ∧
      totalClients threads.world ≤ maxConnections.toNat ∧
      (∀ w, (threads.world.worker w).numClient.toNat =
        threads.world.connected.countP fun c =>
          (threads.world.client c).worker = w) ∧
      ∀ c ∈ threads.closed, ∀ after,
        clientConnectionRelease c threads.world = .ok () after →
          (after.worker (threads.world.client c).worker).numClient.toNat + 1 =
            (threads.world.worker
              (threads.world.client c).worker).numClient.toNat := by
  obtain ⟨starts, most⟩ := serverInit_limited ran
  obtain ⟨limited, same⟩ := starts.steps reaches
  have limit := same.trans most
  have total : totalClients threads.world = threads.world.connected.length :=
    limited.total
  refine ⟨total, ?_, limited.counted, ?_⟩
  · rw [total, ← limit]
    exact limited.within
  · intro c leaving after released
    have connected := limited.releasing c leaving
    have fewer := limited.released_numClient connected
      (threads.world.client c).worker
    rw [← census_release released] at fewer
    have some := limited.positive connected
    change (after.worker (threads.world.client c).worker).numClient.toNat =
      (threads.world.worker (threads.world.client c).worker).numClient.toNat -
        if (threads.world.client c).worker = (threads.world.client c).worker
          then 1 else 0 at fewer
    change 0 < (threads.world.worker
      (threads.world.client c).worker).numClient.toNat at some
    rw [if_pos rfl] at fewer
    omega

/-! ## The callbacks as steps of threads -/

/-- Uninterrupted, the listener sums the counts. -/
theorem counting_run (world : World) (sock : Nat) {i : Nat}
    (inside : i ≤ world.server.workerCount) :
    ReflTransGen (ThreadStep host) ⟨world, .counting sock 0 0, []⟩
      ⟨world, .counting sock i ((List.range i).foldl
        (fun cons w => cons + (world.worker w).numClient.toUInt64) 0), []⟩ := by
  induction i with
  | zero => exact .refl
  | succ i induction =>
      have soFar := induction (Nat.le_of_succ_le inside)
      rw [List.range_succ, List.foldl_append]
      exact soFar.tail (.count rfl inside)

/-- Uninterrupted, the listener finds the worker with the fewest clients. -/
theorem choosing_run (world : World) (sock : Nat) {i : Nat}
    (inside : i + 1 ≤ world.server.workerCount) :
    ReflTransGen (ThreadStep host) ⟨world, .choosing sock 1 0, []⟩
      ⟨world, .choosing sock (i + 1) ((List.range (i + 1)).foldl
        (fun least w =>
          if (world.worker least).numClient > (world.worker w).numClient then w
          else least) 0), []⟩ := by
  induction i with
  | zero =>
      have first : (List.range 1).foldl (fun least w =>
          if (world.worker least).numClient > (world.worker w).numClient then w
          else least) 0 = 0 := by
        simp [List.range_succ]
      rw [first]
  | succ i induction =>
      have soFar := induction (Nat.le_of_succ_le inside)
      rw [List.range_succ, List.foldl_append]
      exact soFar.tail (.choose rfl inside)

theorem World.measured_worker (world : World) :
    world.measured.worker = world.worker ∧
      world.measured.server.workerCount = world.server.workerCount := by
  refine ⟨rfl, ?_⟩
  change (if _ then _ else _ : Server).workerCount = _
  split <;> rfl

theorem measured_least (world : World) :
    serverGetLeastConnectionWorker world.measured =
      serverGetLeastConnectionWorker world := by
  unfold serverGetLeastConnectionWorker
  rw [world.measured_worker.1, world.measured_worker.2]

/-- Uninterrupted, the steps of the listener are `server_event_accept`. -/
theorem serverEventAccept_threads {behaviour : Nat → Nat → WriteResult}
    (int : sock < 2 ^ 31)
    (unused : ∀ c ∈ world.connected, (world.client c).socket ≠ sock)
    (ran : serverEventAccept sock (world.openSocket sock behaviour) =
      .ok () after) :
    ReflTransGen (ThreadStep host) (.start world) (.start after) := by
  have connects : ThreadStep host (.start world)
      ⟨world.openSocket sock behaviour, .counting sock 0 0, []⟩ :=
    .connect rfl int fun c member _ => unused c member
  have counts := (ReflTransGen.single connects).trans
    (counting_run (world.openSocket sock behaviour) sock (Nat.le_refl _))
  cases serverEventAccept_cases ran with
  | inl refused =>
      obtain ⟨full, res, refused⟩ := refused
      exact counts.tail (.refuse rfl (Nat.lt_irrefl _) full refused)
  | inr admitted =>
      obtain ⟨room, some, ended⟩ := admitted
      have passes := counts.tail (.pass rfl (Nat.lt_irrefl _) room some)
      obtain ⟨last, count⟩ := Nat.exists_eq_add_one_of_ne_zero some
      have measured := (world.openSocket sock behaviour).measured_worker.2
      have chooses := passes.trans (@choosing_run host
        (world.openSocket sock behaviour).measured sock last
        (by rw [measured, count]))
      have attaches := (chooses.tail (.attach rfl (by
        rw [measured, count]
        exact Nat.lt_irrefl _))).tail (.enable rfl)
      have least := measured_least (world.openSocket sock behaviour)
      unfold serverGetLeastConnectionWorker at least
      rw [measured, count] at least
      dsimp only at attaches
      rw [least] at attaches
      have same : (world.openSocket sock behaviour).admitted sock =
          (world.openSocket sock behaviour).measured.attach sock
            ((List.range (last + 1)).foldl (fun least w =>
              if ((world.openSocket sock behaviour).worker least).numClient >
                  ((world.openSocket sock behaviour).worker w).numClient then w
              else least) 0) := by
        rw [← count]
        rfl
      rw [ended, same]
      exact attaches

/-- The callbacks, each run to its end, are steps of the threads. -/
theorem Happens.threads {happening : Happening}
    (happens : Happens host world happening after)
    (int : ∀ sock behaviour, happening = .accept sock behaviour →
      sock < 2 ^ 31) :
    ReflTransGen (ThreadStep host) (.start world) (.start after) := by
  cases happens with
  | @accept sock behaviour _ unused ran =>
      exact serverEventAccept_threads (int sock behaviour rfl) unused ran
  | receive connected ran =>
      have serves : (Threads.start world).Serves _ :=
        ⟨connected, List.not_mem_nil, by simp [Threads.start]⟩
      exact .single (.receive serves ran)
  | line connected found ran =>
      have serves : (Threads.start world).Serves _ :=
        ⟨connected, List.not_mem_nil, by simp [Threads.start]⟩
      exact .single (.line serves found ran)
  | @release c _ connected ran =>
      have serves : (Threads.start world).Serves c :=
        ⟨connected, List.not_mem_nil, by simp [Threads.start]⟩
      have closes : ThreadStep host (.start world) ⟨world, .idle, [c]⟩ :=
        .close serves (by simp [Threads.start])
      have releases : ThreadStep host ⟨world, .idle, [c]⟩
          ⟨after, .idle, [c].erase c⟩ :=
        .release List.mem_cons_self ran
      rw [List.erase_cons_head] at releases
      exact (ReflTransGen.single closes).tail releases

/-- Between callbacks the limit check sees how many clients are connected. -/
theorem Limited.room (limited : Limited world.census .idle []) :
    world.server.maxConnections ≤ serverGetCurrentConnections world ↔
      world.server.maxConnections.toNat ≤ world.connected.length := by
  have total : totalClients world = world.connected.length := limited.total
  have within : world.connected.length ≤ world.server.maxConnections.toNat :=
    limited.within
  have small := world.server.maxConnections.toNat_lt
  rw [UInt64.le_iff_toNat_le, serverGetCurrentConnections_toNat, total,
    Nat.mod_eq_of_lt (Nat.lt_of_le_of_lt within small)]

/-- A first client comes and begins to be released. -/
theorem connections_limited_first :
    ∃ start threads, serverInit Host.standard.toPlatform 1 8 = .ok start ∧
      ReflTransGen (ThreadStep Host.standard) (.start start) threads ∧
      0 ∈ threads.closed ∧
      totalClients threads.world = threads.world.connected.length ∧
      totalClients threads.world ≤ 8 := by
  obtain ⟨start, world, ran, nobody, admits, connected, -⟩ :=
    Host.standard.firstAccept fun _ _ => .fails
  have accepted : Happens Host.standard start (.accept 0 fun _ _ => .fails)
      world := .accept (by simp [nobody]) admits
  have comes := accepted.threads (by
    intro sock behaviour same
    cases same
    decide)
  have serves : (Threads.start world).Serves 0 :=
    ⟨connected, List.not_mem_nil, by simp [Threads.start]⟩
  have closes : ThreadStep Host.standard (.start world)
      { Threads.start world with closed := [0] } :=
    .close serves (by simp [Threads.start])
  have limited := connections_limited ran (comes.tail closes)
  exact ⟨start, _, ran, comes.tail closes, List.mem_cons_self, limited.1,
    limited.2.1⟩

end KetamaRouter
