import KetamaRouter.RingLimits
import KetamaRouter.System

/-!
# Where a key is routed

The bisection of `Ketama_get_server_ordinal` agrees with a linear scan of the
ascending ring, so a key goes to a registered server and the reply to a `GET`
carries that server's address.
-/

namespace KetamaRouter

open CircularSuccessor FaultProgram

variable {platform : Platform} {ketama : Ketama}
  {registrations : List Registration} {world : World} {c : Nat}
  {owned : Multiset Cell}

/-- `command_GET` of one string parameter sends the address of the server the
ring gives for it. -/
theorem commandGET_node {full : MsgShape} {key : Bytes}
    (built : Built platform registrations world.server.ketama)
    (points : 0 < world.server.ketama.numpoints)
    (msgAt : MsgAt world.memory full)
    (holds : Holds world.memory (full.cells + owned))
    (asks : full.request = some ⟨ascii "GET", [.str key]⟩) :
    Yields (commandGET platform c full.obj) world fun _ after =>
      after.memory.socket = (world.offered c [nodeReply
        (nodeAddress platform world.server.ketama key)]).socket := by
  obtain ⟨cmd, -, same⟩ := Option.map_eq_some_iff.mp asks
  have parameters : full.parameters = [.str key] := (Request.mk.inj same).2
  have handled := commandGET_obeys (c := c) built points msgAt holds
  rw [if_neg (by simp [parameters]), parameters, routing_reply_get] at handled
  refine handled.mono ?_
  intro _ _ outcome
  rcases outcome with ⟨memory, rfl, -, frame⟩
  exact frame.socket

/-- The lookup of a key is a linear scan of the ring, as long as the sum of two
indices is an `int`. -/
theorem ketamaGetServerOrdinal_scans (nonempty : registrations ≠ [])
    (few : (ringPoints platform registrations).length < 2 ^ 30)
    (built : ketamaBuild platform registrations = .ok ketama)
    (points : 0 < ketama.numpoints) (key : Bytes) :
    ∃ (ring : List Mcs) (entry : Mcs) (index : Nat)
      (bound : index < registrations.length),
      ketama.continuum = some ring ∧
      (ring.length : ℤ) = ketama.numpoints.toInt ∧
      (ring.Pairwise fun left right => left.point ≤ right.point) ∧
      scan Mcs.point ring (ketamaHashi platform key) = some entry ∧
      ketamaGetServerOrdinal platform ketama key = .ok entry.ordinal ∧
      entry.ordinal = Int32.ofNat index ∧
      ∀ (world : World) (c : Nat) (full : MsgShape) (owned : Multiset Cell),
        world.server.ketama = ketama → MsgAt world.memory full →
        Holds world.memory (full.cells + owned) →
        full.request = some ⟨ascii "GET", [.str key]⟩ →
        Yields (commandGET platform c full.obj) world fun _ after =>
          after.memory.socket = (world.offered c [nodeReply
            (serverAddr registrations[index].addr
              registrations[index].port)]).socket := by
  have isBuilt := built_of_ketamaBuild nonempty few built
  obtain ⟨ring, entry, isRing, perm, found, lookup⟩ := isBuilt.lookup points key
  obtain ⟨index, bound, routed, address⟩ := isBuilt.route points key
  have ordinal : entry.ordinal = Int32.ofNat index :=
    Except.ok.inj (lookup.symm.trans routed)
  refine ⟨ring, entry, index, bound, isRing, ?_, isBuilt.ascending isRing, found,
    lookup, ordinal, ?_⟩
  · rw [perm.length_eq, isBuilt.numpoints,
      Int32.toInt_ofNat_of_lt (Nat.lt_trans few (by decide))]
  · rintro world c full owned rfl msgAt holds asks
    rw [← address]
    exact commandGET_node isBuilt points msgAt holds asks

theorem ketamaGetServerOrdinal_scans_key :
    ∃ (ketama : Ketama) (world : World) (full : MsgShape) (node : Bytes),
      ketamaBuild Platform.standard serverRegistrations = .ok ketama ∧
      world.server.ketama = ketama ∧
      full.request = some ⟨ascii "GET", [.str (ascii "key")]⟩ ∧
      Yields (commandGET Platform.standard 0 full.obj) world fun _ after =>
        after.memory.socket = (world.offered 0 [nodeReply node]).socket := by
  obtain ⟨ketama, built, isBuilt, points⟩ :=
    ketamaBuild_serverRegistrations Host.standard
  obtain ⟨ring, entry, index, bound, -, -, -, -, -, -, node⟩ :=
    ketamaGetServerOrdinal_scans (by decide) isBuilt.few built points
      (ascii "key")
  have printable : (Request.mk (ascii "GET") [.str (ascii "key")]).Printable :=
    printable_of_strs [ascii "key"] (by decide) (by decide)
      (by decide) (by decide) (by decide)
  obtain ⟨_, memory, -, full, -, -, -, asks, -, msgAt, holds, -⟩ :=
    @msgAssemble_spec _ _ (.worker 0) _ initialMemory_holds printable
  have start : ∃ world, serverInit Platform.standard 1 8 = .ok world ∧
      world.server.ketama = ketama := by
    have built' : ketamaBuild Platform.standard serverRegistrations =
      .ok ketama := built
    unfold serverInit
    rw [built']
    exact ⟨_, rfl, rfl⟩
  obtain ⟨world, -, current⟩ := start
  exact ⟨ketama, world.setMemory memory, full, _, built, current, asks,
    node (world.setMemory memory) 0 full 0 current msgAt holds asks⟩

/-- In the ring of 6710887 servers a lookup leaves the continuum. -/
theorem ketamaGetServerOrdinal_scans_crowded :
    crowded 6710887 ≠ [] ∧ ∃ ketama,
      ketamaBuild crowdedPlatform (crowded 6710887) = .ok ketama ∧
      0 < ketama.numpoints ∧
      ketamaGetServerOrdinal crowdedPlatform ketama [] =
        .error .outOfBounds := by
  obtain ⟨ketama, ran, -, points, lost⟩ :=
    @crowded_lookup 6710887 (by decide) (by decide)
  refine ⟨?_, ketama, ran, points, lost⟩
  apply List.ne_nil_of_length_pos
  rw [crowded_length]
  decide

end KetamaRouter
