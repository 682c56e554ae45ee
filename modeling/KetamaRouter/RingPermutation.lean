import KetamaRouter.RingShares

/-!
# Permutation invariance

The points of a server depend on its address and its share only, so a ring has
the same points with the same addresses in whatever order its servers were
registered.  Where no point is shared, a key finds the same address in both.
-/

namespace KetamaRouter

open CircularSuccessor

variable {platform : Platform} {first second : List Registration}
  {ketama other : Ketama}

theorem totalWeight_perm (permutation : first.Perm second) :
    totalWeight first = totalWeight second := by
  unfold totalWeight
  apply permutation.foldl_eq'
  intro left _ right _ total
  rw [UInt64.add_assoc, UInt64.add_comm left.weight, ← UInt64.add_assoc]

/-! ## Points and addresses -/

theorem serverPoints_moved {addr : Bytes} {ordinal : Int32} {ks : UInt32}
    {entry : Mcs} (member : entry ∈ serverPoints platform addr ordinal ks)
    (moved : Int32) :
    { entry with ordinal := moved } ∈ serverPoints platform addr moved ks := by
  obtain ⟨k, inRange, inGroup⟩ := List.mem_flatMap.mp member
  obtain ⟨place, inFour, same⟩ := List.mem_map.mp inGroup
  rw [← same]
  apply List.mem_flatMap.mpr
  exact ⟨k, inRange, List.mem_map.mpr ⟨place, inFour, rfl⟩⟩

/-- An entry of one ring has a twin in the other, at the same point and with the
same address. -/
theorem Created.twin (permutation : first.Perm second)
    (created : Created platform first ketama)
    (createdOther : Created platform second other) {entry : Mcs}
    (member : entry ∈ ringPoints platform first) :
    ∃ twin ∈ ringPoints platform second, twin.point = entry.point ∧
      ketamaGetServerAddress other twin.ordinal =
        ketamaGetServerAddress ketama entry.ordinal := by
  obtain ⟨index, bound, inServer⟩ := mem_ringPoints_iff.mp member
  obtain ⟨place, inside, same⟩ := List.mem_iff_getElem.mp
    (permutation.mem_iff.mp (List.getElem_mem bound))
  refine ⟨{ entry with ordinal := Int32.ofNat place }, ?_, rfl, ?_⟩
  · apply mem_ringPoints_iff.mpr
    refine ⟨place, inside, ?_⟩
    rw [same, ← totalWeight_perm permutation, ← permutation.length_eq]
    exact serverPoints_moved inServer (Int32.ofNat place)
  · rw [serverPoints_ordinal inServer, created.address bound,
      createdOther.address inside, same]

theorem ringPoints_length_perm (permutation : first.Perm second) :
    (ringPoints platform first).length =
      (ringPoints platform second).length := by
  unfold ringPoints
  rw [fillPoints_length_sum, fillPoints_length_sum,
    totalWeight_perm permutation, permutation.length_eq]
  have infos := permutation.map Registration.info
  exact congrArg (4 * ·) (infos.map _).sum_eq

/-- The order of the servers does not decide whether their points fit. -/
theorem ketamaBuild_perm (permutation : first.Perm second)
    (nonempty : first ≠ []) (ran : ketamaBuild platform first = .ok ketama) :
    ∃ other, ketamaBuild platform second = .ok other ∧
      Created platform second other := by
  have nonemptySecond : second ≠ [] := by
    intro empty
    rw [empty] at permutation
    exact nonempty permutation.eq_nil
  have count := (created_of_ketamaBuild nonempty ran).length_le
  cases ketamaBuild_cases platform nonemptySecond
      (permutation.length_eq ▸ count) with
  | inl overflow =>
      obtain ⟨tooMany, -⟩ := overflow
      rw [← permutation.length_eq, ← ringPoints_length_perm permutation]
        at tooMany
      cases ketamaBuild_cases platform nonempty count with
      | inl failed =>
          rw [ran] at failed
          cases failed.2
      | inr fits =>
          obtain ⟨few | wide, -⟩ := fits
          · exact absurd tooMany.1 (Nat.not_lt.mpr few)
          · exact absurd tooMany.2 (Nat.not_lt.mpr wide)
  | inr fits => exact fits.2

/-! ## Routing -/

/-- A key is routed to the same address in whatever order the servers were
registered, as long as their ring can be searched. -/
theorem routing_perm (permutation : first.Perm second)
    (few : (ringPoints platform first).length < 2 ^ 30)
    (ran : ketamaBuild platform first = .ok ketama)
    (points : 0 < ketama.numpoints) (separate : NoSharedPoint ketama) :
    ∃ other, ketamaBuild platform second = .ok other ∧
      ∀ key, ∃ ordinal ordinal',
        ketamaGetServerOrdinal platform ketama key = .ok ordinal ∧
        ketamaGetServerOrdinal platform other key = .ok ordinal' ∧
        ketamaGetServerAddress ketama ordinal =
          ketamaGetServerAddress other ordinal' := by
  have nonempty : first ≠ [] := by
    intro empty
    rw [empty, ketamaBuild_nil] at ran
    cases ran
    exact absurd points (by decide)
  have built := built_of_ketamaBuild nonempty few ran
  have length := @ringPoints_length_perm platform _ _ permutation
  obtain ⟨other, ranOther, createdOther⟩ :=
    ketamaBuild_perm permutation nonempty ran
  have builtOther : Built platform second other :=
    { createdOther with few := length ▸ few }
  have pointsOther : 0 < other.numpoints := by
    rw [builtOther.numpoints, ← length, ← built.numpoints]
    exact points
  refine ⟨other, ranOther, ?_⟩
  intro key
  obtain ⟨ring, entry, isRing, sorted, found, lookup⟩ := built.lookup points key
  obtain ⟨ring', entry', isRing', sorted', found', lookup'⟩ :=
    builtOther.lookup pointsOther key
  have old := scan_isSuccessor (built.ascending isRing) found
  have new := scan_isSuccessor (builtOther.ascending isRing') found'
  have samePoints : ∀ value,
      value ∈ ring.map Mcs.point ↔ value ∈ ring'.map Mcs.point := by
    intro value
    simp only [List.mem_map]
    constructor
    · intro known
      obtain ⟨one, member, rfl⟩ := known
      obtain ⟨twin, twinIn, samePoint, -⟩ :=
        built.twin permutation createdOther (sorted.mem_iff.mp member)
      exact ⟨twin, sorted'.mem_iff.mpr twinIn, samePoint⟩
    · intro known
      obtain ⟨one, member, rfl⟩ := known
      obtain ⟨twin, twinIn, samePoint, -⟩ :=
        createdOther.twin permutation.symm built.toCreated
          (sorted'.mem_iff.mp member)
      exact ⟨twin, sorted.mem_iff.mpr twinIn, samePoint⟩
  refine ⟨entry.ordinal, entry'.ordinal, lookup, lookup', ?_⟩
  obtain ⟨twin, twinIn, samePoint, sameAddress⟩ :=
    createdOther.twin permutation.symm built.toCreated
      (sorted'.mem_iff.mp new.member)
  rw [← sameAddress]
  apply separate ring isRing entry old.member twin (sorted.mem_iff.mpr twinIn)
  rw [samePoint]
  exact old.point_eq_of_samePoints new samePoints

/-- Two servers registered the other way round. -/
theorem routing_perm_two_servers : ∃ ketama other,
    ketamaBuild lastDigitPlatform
      [⟨ascii "127.0.0.1", 6379, 100⟩, ⟨ascii "127.0.0.2", 6379, 100⟩] =
        .ok ketama ∧
    ketamaBuild lastDigitPlatform
      [⟨ascii "127.0.0.2", 6379, 100⟩, ⟨ascii "127.0.0.1", 6379, 100⟩] =
        .ok other ∧
    ∀ key, ∃ ordinal ordinal',
      ketamaGetServerOrdinal lastDigitPlatform ketama key = .ok ordinal ∧
      ketamaGetServerOrdinal lastDigitPlatform other key = .ok ordinal' ∧
      ketamaGetServerAddress ketama ordinal =
        ketamaGetServerAddress other ordinal' := by
  obtain ⟨ketama, ran, built, points⟩ :=
    @ketamaBuild_equal_few lastDigitPlatform
      [⟨ascii "127.0.0.1", 6379, 100⟩, ⟨ascii "127.0.0.2", 6379, 100⟩] 100 rfl
      (by decide) (by decide) (by decide) (by decide) (by decide)
  obtain ⟨other, ranOther, same⟩ := routing_perm (List.Perm.swap _ _ [])
    built.few ran points (lastDigit_noSharedPoint ran)
  exact ⟨ketama, other, ran, ranOther, same⟩

/-- Too many servers lose a key in one order and in the other. -/
theorem crowded_reversed {count : Nat} (many : 2 ^ 30 ≤ count * 160)
    (few : count * 160 < 2 ^ 31) :
    ∃ ketama other,
      ketamaBuild crowdedPlatform (crowded count) = .ok ketama ∧
      ketamaBuild crowdedPlatform (crowded count).reverse = .ok other ∧
      0 < ketama.numpoints ∧ NoSharedPoint ketama ∧
      ketamaGetServerOrdinal crowdedPlatform ketama [] =
        .error .outOfBounds ∧
      ketamaGetServerOrdinal crowdedPlatform other [] =
        .error .outOfBounds := by
  have permutation := (List.reverse_perm (crowded count)).symm
  obtain ⟨ketama, ran, created, points, lost⟩ := crowded_lookup many few
  have nonempty : crowded count ≠ [] := by
    apply List.ne_nil_of_length_pos
    rw [crowded_length]
    omega
  obtain ⟨other, ranOther, createdOther⟩ :=
    ketamaBuild_perm permutation nonempty ran
  have length := @crowded_points crowdedPlatform count rfl (by omega)
  refine ⟨ketama, other, ran, ranOther, points,
    crowded_noSharedPoint created, lost, ?_⟩
  apply createdOther.overflows
  · rw [← ringPoints_length_perm permutation, length]
    exact many
  · rw [← ringPoints_length_perm permutation, length]
    exact few
  · intro entry member
    obtain ⟨twin, twinIn, samePoint, -⟩ :=
      createdOther.twin permutation.symm created member
    rw [← samePoint]
    exact crowded_below twinIn

/-- The ring of 6710887 servers. -/
theorem routing_perm_crowded : ∃ ketama other,
    ketamaBuild crowdedPlatform (crowded 6710887) = .ok ketama ∧
    ketamaBuild crowdedPlatform (crowded 6710887).reverse = .ok other ∧
    0 < ketama.numpoints ∧ NoSharedPoint ketama ∧
    ketamaGetServerOrdinal crowdedPlatform ketama [] = .error .outOfBounds ∧
    ketamaGetServerOrdinal crowdedPlatform other [] = .error .outOfBounds :=
  crowded_reversed (by decide) (by decide)

end KetamaRouter
