import KetamaRouter.Dispatch
import KetamaRouter.Library.LabelledRun

/-!
# The ring over its lifetime

`Ketama_add_server` and `Ketama_create_continuum` may be called in any order and
as often as one likes.  The first creation that finds a server fixes where every
key goes; a server that is registered later is counted, but gets no key.
-/

namespace KetamaRouter

open LabelledRun

inductive KetamaCall where
  | addServer (server : Registration)
  | createContinuum
  deriving DecidableEq, Repr

namespace KetamaCall

def run (platform : Platform) (ketama : Ketama) :
    KetamaCall → Except Fault Ketama
  | addServer server =>
      ketamaAddServer ketama server.addr server.port server.weight
  | createContinuum => ketamaCreateContinuum platform ketama

def Takes (platform : Platform) (ketama : Ketama) (call : KetamaCall)
    (after : Ketama) : Prop :=
  call.run platform ketama = .ok after

def server : KetamaCall → Option Registration
  | addServer server => some server
  | createContinuum => none

end KetamaCall

/-- The servers that the calls register. -/
def registeredBy (calls : List KetamaCall) : List Registration :=
  calls.filterMap KetamaCall.server

/-- The servers that are there when a continuum is first created, after the ones
registered already. -/
def foundersAfter (soFar : List Registration) :
    List KetamaCall → List Registration
  | [] => []
  | .addServer server :: later => foundersAfter (soFar ++ [server]) later
  | .createContinuum :: later =>
      if soFar = [] then foundersAfter [] later else soFar

def founders (calls : List KetamaCall) : List Registration :=
  foundersAfter [] calls

variable {platform : Platform} {ketama bare after : Ketama}
  {calls : List KetamaCall}

@[simp] theorem registeredBy_add (calls : List KetamaCall)
    (server : Registration) :
    registeredBy (calls ++ [.addServer server]) =
      registeredBy calls ++ [server] := by
  simp [registeredBy, KetamaCall.server]

@[simp] theorem registeredBy_create (calls : List KetamaCall) :
    registeredBy (calls ++ [.createContinuum]) = registeredBy calls := by
  simp [registeredBy, KetamaCall.server]

theorem foundersAfter_snoc (soFar : List Registration)
    (calls : List KetamaCall) (call : KetamaCall) :
    foundersAfter soFar (calls ++ [call]) =
      if foundersAfter soFar calls = [] ∧ call = .createContinuum then
        soFar ++ registeredBy calls
      else foundersAfter soFar calls := by
  induction calls generalizing soFar with
  | nil =>
      cases call with
      | addServer server => simp [foundersAfter]
      | createContinuum =>
          by_cases none : soFar = []
          · simp [foundersAfter, registeredBy, none]
          · simp [foundersAfter, registeredBy, none]
  | cons first later induction =>
      cases first with
      | addServer server =>
          change foundersAfter (soFar ++ [server]) (later ++ [call]) = _
          rw [induction]
          simp [foundersAfter, registeredBy, KetamaCall.server]
      | createContinuum =>
          by_cases none : soFar = []
          · subst none
            change foundersAfter [] (later ++ [call]) = _
            rw [induction]
            rfl
          · simp [foundersAfter, none]

theorem founders_add (calls : List KetamaCall) (server : Registration) :
    founders (calls ++ [.addServer server]) = founders calls := by
  simp [founders, foundersAfter_snoc]

theorem founders_create (calls : List KetamaCall) :
    founders (calls ++ [.createContinuum]) =
      if founders calls = [] then registeredBy calls else founders calls := by
  unfold founders
  rw [foundersAfter_snoc, List.nil_append]
  simp

theorem founders_prefix (calls : List KetamaCall) :
    founders calls <+: registeredBy calls := by
  induction calls using List.reverseRecOn with
  | nil => exact List.prefix_rfl
  | append_singleton calls call induction =>
      cases call with
      | addServer server =>
          rw [founders_add, registeredBy_add]
          exact induction.trans (List.prefix_append _ _)
      | createContinuum =>
          rw [founders_create, registeredBy_create]
          split
          · exact List.prefix_rfl
          · exact induction

/-! ## One call -/

theorem ketamaAddServers_append (ketama : Ketama)
    (first second : List Registration) :
    ketamaAddServers ketama (first ++ second) =
      ketamaAddServers ketama first >>= fun ketama =>
        ketamaAddServers ketama second := by
  induction first generalizing ketama with
  | nil => rfl
  | cons next first induction =>
      simp only [List.cons_append, ketamaAddServers, bind_assoc, induction]

/-- The list of servers beside a continuum made from another one. -/
def Ketama.withRing (ketama ring : Ketama) : Ketama :=
  { ketama with numpoints := ring.numpoints, continuum := ring.continuum }

theorem ketamaAddServer_withRing (bare ring : Ketama) (next : Registration) :
    ketamaAddServer (bare.withRing ring) next.addr next.port next.weight =
      (ketamaAddServer bare next.addr next.port next.weight).map
        fun after => after.withRing ring := by
  obtain ⟨numpoints, numservers, maxservers, memory, continuum, servers⟩ := bare
  unfold ketamaAddServer Ketama.grown Ketama.allocated Ketama.withRing
  dsimp only
  split
  · cases servers with
    | none =>
        dsimp only
        split <;> split <;> rfl
    | some infos =>
        dsimp only
        split <;> split <;> rfl
  · rfl

/-- Creating a continuum leaves the list of servers as it is. -/
theorem ketamaCreateContinuum_withRing
    (ran : ketamaCreateContinuum platform bare = .ok after) :
    bare.withRing after = after := by
  unfold ketamaCreateContinuum at ran
  split at ran
  · cases ran
    rfl
  · split at ran
    · cases ran
    · cases wrote : List.foldlM (writePoint (bare.numservers.toNat * 160))
          { continuum := [], cont := 0 }
          (fillPoints platform bare.memory bare.numservers 0 _) with
      | error fault =>
          rw [wrote] at ran
          cases ran
      | ok filling =>
          rw [wrote] at ran
          cases ran
          rfl

/-- A `Ketama` after these calls: the servers of all of them, and the ring that
its founders have alone. -/
structure LivesOn (platform : Platform) (calls : List KetamaCall)
    (ketama bare ring : Ketama) : Prop where
  servers : ketamaAddServers ketamaNew (registeredBy calls) = .ok bare
  built : ketamaBuild platform (founders calls) = .ok ring
  both : ketama = bare.withRing ring

namespace LivesOn

variable {ring : Ketama}

theorem new : LivesOn platform [] ketamaNew ketamaNew ketamaNew where
  servers := rfl
  built := ketamaBuild_nil platform
  both := rfl

theorem registered (lives : LivesOn platform calls ketama bare ring) :
    Registered bare (registeredBy calls) := by
  have registered :=
    registered_of_ketamaAddServers ketamaNew_registered lives.servers
  rwa [List.nil_append] at registered

theorem founded (lives : LivesOn platform calls ketama bare ring)
    (some : founders calls ≠ []) : Created platform (founders calls) ring :=
  created_of_ketamaBuild some lives.built

/-- Before the first creation there is no ring. -/
theorem unfounded (lives : LivesOn platform calls ketama bare ring)
    (none : founders calls = []) : ring = ketamaNew := by
  have built := lives.built
  rw [none, ketamaBuild_nil] at built
  exact (Except.ok.inj built).symm

theorem addServer (lives : LivesOn platform calls ketama bare ring)
    (server : Registration) (count : (registeredBy calls).length < 2 ^ 31) :
    ∃ after next, KetamaCall.Takes platform ketama (.addServer server) after ∧
      LivesOn platform (calls ++ [.addServer server]) after next ring := by
  obtain ⟨next, ran, -⟩ :=
    ketamaAddServer_registers lives.registered server count
  refine ⟨next.withRing ring, next, ?_, ?_, ?_, rfl⟩
  · change ketamaAddServer ketama _ _ _ = _
    rw [lives.both, ketamaAddServer_withRing, ran]
    rfl
  · rw [registeredBy_add, ketamaAddServers_append, lives.servers]
    change (ketamaAddServers bare [server]) = _
    simp only [ketamaAddServers]
    rw [ran]
    rfl
  · rw [founders_add]
    exact lives.built

/-- Behind `2 ^ 31` servers there is no room for another one. -/
theorem adds_iff (lives : LivesOn platform calls ketama bare ring)
    (server : Registration) :
    (∃ after, KetamaCall.Takes platform ketama (.addServer server) after) ↔
      (registeredBy calls).length < 2 ^ 31 := by
  constructor
  · intro added
    obtain ⟨after, added⟩ := added
    apply (ketamaAddServer_ok_iff lives.registered server).mp
    change ketamaAddServer ketama _ _ _ = _ at added
    rw [lives.both, ketamaAddServer_withRing] at added
    cases alone : ketamaAddServer bare server.addr server.port
        server.weight with
    | error fault =>
        rw [alone] at added
        cases added
    | ok next => exact ⟨next, rfl⟩
  · intro count
    obtain ⟨after, -, takes, -⟩ := lives.addServer server count
    exact ⟨after, takes⟩

/-- A later creation does nothing. -/
theorem create_again (lives : LivesOn platform calls ketama bare ring)
    (some : founders calls ≠ []) :
    ketamaCreateContinuum platform ketama = .ok ketama := by
  have continuum : ketama.continuum ≠ none := by
    rw [lives.both]
    change ring.continuum ≠ none
    obtain ⟨written, isWritten, -⟩ := (lives.founded some).ring
    rw [isWritten]
    exact Option.some_ne_none _
  unfold ketamaCreateContinuum
  rw [if_pos (.inr continuum)]
  rfl

/-- The first creation builds the ring of what is registered. -/
theorem create_first (lives : LivesOn platform calls ketama bare ring)
    (none : founders calls = []) :
    ketama = bare ∧ ketamaCreateContinuum platform ketama =
      ketamaBuild platform (registeredBy calls) := by
  have registered := lives.registered
  have same : ketama = bare := by
    rw [lives.both, lives.unfounded none]
    unfold Ketama.withRing
    rw [ketamaNew, ← registered.noContinuum, ← registered.noPoints]
  refine ⟨same, ?_⟩
  unfold ketamaBuild
  rw [lives.servers, same]
  rfl

theorem createContinuum (lives : LivesOn platform calls ketama bare ring)
    (takes : KetamaCall.Takes platform ketama .createContinuum after) :
    ∃ next, LivesOn platform (calls ++ [.createContinuum]) after bare next := by
  change ketamaCreateContinuum platform ketama = .ok after at takes
  by_cases none : founders calls = []
  · obtain ⟨same, built⟩ := lives.create_first none
    refine ⟨after, ?_, ?_, ?_⟩
    · rw [registeredBy_create]
      exact lives.servers
    · rw [founders_create, if_pos none, ← built]
      exact takes
    · rw [same] at takes
      exact (ketamaCreateContinuum_withRing takes).symm
  · rw [lives.create_again none] at takes
    cases takes
    refine ⟨ring, ?_, ?_, lives.both⟩
    · rw [registeredBy_create]
      exact lives.servers
    · rw [founders_create, if_neg none]
      exact lives.built

/-- A creation fails only if it is the first, and its points do not fit. -/
theorem creates_iff (lives : LivesOn platform calls ketama bare ring) :
    (∃ after, KetamaCall.Takes platform ketama .createContinuum after) ↔
      founders calls ≠ [] ∨
        (ringPoints platform (registeredBy calls)).length ≤
          (registeredBy calls).length * 160 ∨
        2 ^ 32 ≤ (registeredBy calls).length * 160 := by
  change (∃ after, ketamaCreateContinuum platform ketama = .ok after) ↔ _
  by_cases none : founders calls = []
  · rw [(lives.create_first none).2, or_iff_right (not_not_intro none)]
    by_cases empty : registeredBy calls = []
    · rw [empty]
      exact ⟨fun _ => .inl (Nat.le_refl 0),
        fun _ => ⟨_, ketamaBuild_nil platform⟩⟩
    · rcases ketamaBuild_cases platform empty lives.registered.length_le with
        ⟨⟨tooMany, narrow⟩, failed⟩ | ⟨fits, after, ran, -⟩
      · rw [failed]
        constructor
        · rintro ⟨after, takes⟩
          cases takes
        · rintro (room | wide)
          · exact absurd tooMany (Nat.not_lt.mpr room)
          · exact absurd narrow (Nat.not_lt.mpr wide)
      · exact ⟨fun _ => fits, fun _ => ⟨after, ran⟩⟩
  · exact ⟨fun _ => .inl none, fun _ => ⟨ketama, lives.create_again none⟩⟩

end LivesOn

theorem livesOn_of_run
    (run : Run (KetamaCall.Takes platform) ketamaNew calls ketama) :
    ∃ bare ring, LivesOn platform calls ketama bare ring := by
  induction run with
  | nil => exact ⟨ketamaNew, ketamaNew, LivesOn.new⟩
  | @snoc calls ketama after call run takes induction =>
      obtain ⟨bare, ring, lives⟩ := induction
      cases call with
      | addServer server =>
          have count := (lives.adds_iff server).mp ⟨after, takes⟩
          obtain ⟨other, next, ran, livesAfter⟩ :=
            lives.addServer server count
          cases takes.symm.trans ran
          exact ⟨next, ring, livesAfter⟩
      | createContinuum =>
          obtain ⟨next, livesAfter⟩ := lives.createContinuum takes
          exact ⟨bare, next, livesAfter⟩

/-! ## Where keys go -/

theorem searchLoop_withRing (bare ring : Ketama) (mcsarr : List Mcs)
    (h : UInt32) (fuel : Nat) (lowp highp : Int32) :
    searchLoop (bare.withRing ring) mcsarr h fuel lowp highp =
      searchLoop ring mcsarr h fuel lowp highp := by
  induction fuel generalizing lowp highp with
  | zero => rfl
  | succ fuel induction =>
      unfold searchLoop
      simp only [induction]
      rfl

theorem ordinal_withRing (bare ring : Ketama) (key : Bytes) :
    ketamaGetServerOrdinal platform (bare.withRing ring) key =
      ketamaGetServerOrdinal platform ring key := by
  have continuum : (bare.withRing ring).continuum = ring.continuum := rfl
  unfold ketamaGetServerOrdinal
  rw [continuum]
  cases ring.continuum with
  | none => rfl
  | some mcsarr => exact searchLoop_withRing bare ring mcsarr _ _ _ _

/-- The ordinal of a ring that is not there has no address. -/
theorem noAddress (ketama : Ketama) :
    ketamaGetServerAddress ketama (-1) = [] := by
  unfold ketamaGetServerAddress
  cases ketama.servers with
  | none => rfl
  | some infos => rfl

theorem mcsAt_mem {mcsarr : List Mcs} {index : Int32} {entry : Mcs}
    (read : mcsAt mcsarr index = .ok entry) : entry ∈ mcsarr := by
  unfold mcsAt at read
  split at read
  · cases read
  · cases found : mcsarr[index.toNatClampNeg]? with
    | none =>
        rw [found] at read
        cases read
    | some other =>
        rw [found] at read
        cases read
        exact List.mem_of_getElem? found

/-- Whatever the search answers is the ordinal of an entry. -/
theorem searchLoop_mem {mcsarr : List Mcs} {h : UInt32} {fuel : Nat}
    {lowp highp ordinal : Int32}
    (found : searchLoop ketama mcsarr h fuel lowp highp = .ok ordinal) :
    ∃ entry ∈ mcsarr, entry.ordinal = ordinal := by
  have answer (index : Int32)
      (read : Mcs.ordinal <$> mcsAt mcsarr index = .ok ordinal) :
      ∃ entry ∈ mcsarr, entry.ordinal = ordinal := by
    cases known : mcsAt mcsarr index with
    | error fault =>
        rw [known] at read
        cases read
    | ok entry =>
        rw [known] at read
        cases read
        exact ⟨entry, mcsAt_mem known, rfl⟩
  induction fuel generalizing lowp highp with
  | zero => cases found
  | succ fuel induction =>
      unfold searchLoop at found
      dsimp only at found
      split at found
      · exact answer 0 found
      · cases midval : mcsAt mcsarr ((lowp + highp) / 2) with
        | error fault =>
            rw [midval] at found
            cases found
        | ok entry =>
            rw [midval] at found
            cases before : pointBefore mcsarr ((lowp + highp) / 2) with
            | error fault =>
                simp only [before] at found
                cases found
            | ok midval1 =>
                simp only [before] at found
                change (if _ then _ else if _ then _ else _) = _ at found
                split at found
                · cases found
                  exact ⟨entry, mcsAt_mem midval, rfl⟩
                · split at found
                  · split at found
                    · exact answer 0 found
                    · exact induction found
                  · split at found
                    · exact answer 0 found
                    · exact induction found

namespace LivesOn

variable {ring : Ketama}

theorem ordinal (lives : LivesOn platform calls ketama bare ring)
    (key : Bytes) :
    ketamaGetServerOrdinal platform ketama key =
      ketamaGetServerOrdinal platform ring key := by
  rw [lives.both]
  exact ordinal_withRing bare ring key

/-- The address of a founder stays in its place. -/
theorem address (lives : LivesOn platform calls ketama bare ring) {index : Nat}
    (bound : index < (founders calls).length) :
    ketamaGetServerAddress ketama (Int32.ofNat index) =
      (founders calls)[index].info.addr := by
  have registered := lives.registered
  have isPrefix := founders_prefix calls
  have within : index < (registeredBy calls).length :=
    Nat.lt_of_lt_of_le bound isPrefix.length_le
  rw [lives.both, isPrefix.getElem bound]
  apply ketamaGetServerAddress_entry
  · exact registered.entry within
  · change index < bare.numservers.toNat
    rw [registered.numservers]
    exact within
  · exact Nat.lt_of_lt_of_le within registered.length_le

theorem nodeAddress (lives : LivesOn platform calls ketama bare ring)
    (key : Bytes) :
    nodeAddress platform ketama key =
      KetamaRouter.nodeAddress platform ring key := by
  by_cases none : founders calls = []
  · have ringNew := lives.unfounded none
    have lost : ketamaGetServerOrdinal platform ring key = .ok (-1) := by
      rw [ringNew]
      rfl
    unfold KetamaRouter.nodeAddress
    rw [lives.ordinal, lost]
    dsimp only
    rw [noAddress, noAddress]
  · have created := lives.founded none
    obtain ⟨written, isWritten, fromServers⟩ := created.ring
    unfold KetamaRouter.nodeAddress
    rw [lives.ordinal]
    cases found : ketamaGetServerOrdinal platform ring key with
    | error fault => rfl
    | ok ordinal =>
        unfold ketamaGetServerOrdinal at found
        rw [isWritten] at found
        obtain ⟨entry, member, rfl⟩ := searchLoop_mem found
        obtain ⟨index, bound, ordinal⟩ :=
          mem_ringPoints (fromServers entry member)
        dsimp only
        rw [ordinal, lives.address bound, created.address bound]

end LivesOn

/-- Any calls, in any order: every key goes where the ring of the founders alone
sends it, however many servers come later.  Registering fails behind `2 ^ 31`
servers; a creation fails only if it is the first, and its points do not fit
before their index wraps around. -/
theorem ring_lifetime
    (run : Run (KetamaCall.Takes platform) ketamaNew calls ketama) :
    (∃ ring, ketamaBuild platform (founders calls) = .ok ring ∧
      ∀ key, ketamaGetServerOrdinal platform ketama key =
          ketamaGetServerOrdinal platform ring key ∧
        nodeAddress platform ketama key = nodeAddress platform ring key) ∧
      (ketamaGetServerNum ketama).toNat = (registeredBy calls).length ∧
      (∀ server, (∃ after,
          KetamaCall.Takes platform ketama (.addServer server) after) ↔
        (registeredBy calls).length < 2 ^ 31) ∧
      ((∃ after, KetamaCall.Takes platform ketama .createContinuum after) ↔
        founders calls ≠ [] ∨
          (ringPoints platform (registeredBy calls)).length ≤
            (registeredBy calls).length * 160 ∨
          2 ^ 32 ≤ (registeredBy calls).length * 160) := by
  obtain ⟨bare, ring, lives⟩ := livesOn_of_run run
  refine ⟨⟨ring, lives.built, fun key => ⟨lives.ordinal key,
    lives.nodeAddress key⟩⟩, ?_, ?_, ?_⟩
  · rw [lives.both]
    exact lives.registered.numservers
  · exact lives.adds_iff
  · exact lives.creates_iff

/-- A server that is registered after the creation. -/
theorem ring_lifetime_late :
    ∃ ketama ring, Run (KetamaCall.Takes Platform.standard) ketamaNew
        [.addServer ⟨ascii "node1", 1, 1⟩, .createContinuum,
          .addServer ⟨ascii "node2", 2, 1⟩] ketama ∧
      ketamaBuild Platform.standard [⟨ascii "node1", 1, 1⟩] = .ok ring ∧
      (ketamaGetServerNum ketama).toNat = 2 ∧
      ∀ key, nodeAddress Platform.standard ketama key =
        nodeAddress Platform.standard ring key := by
  let first : Registration := ⟨ascii "node1", 1, 1⟩
  have new : LivesOn Platform.standard [] ketamaNew ketamaNew ketamaNew := .new
  obtain ⟨alone, -, adds, -⟩ := new.addServer first (by decide)
  have run := Run.nil.snoc adds
  have fits : (ringPoints Platform.standard [first]).length ≤ 160 :=
    Nat.le_of_eq (@fillPoints_length _ _ _ 40 _ (by decide) 0)
  obtain ⟨created, creates⟩ :=
    (ring_lifetime run).2.2.2.mpr (.inr (.inl fits))
  have run := run.snoc creates
  obtain ⟨ketama, late⟩ :=
    ((ring_lifetime run).2.2.1 ⟨ascii "node2", 2, 1⟩).mpr (by decide)
  have run := run.snoc late
  obtain ⟨⟨ring, built, routed⟩, number, -, -⟩ := ring_lifetime run
  exact ⟨ketama, ring, run, built, number, fun key => (routed key).2⟩

end KetamaRouter
