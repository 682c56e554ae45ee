import KetamaRouter.RingLimits

/-!
# Consistent hashing

Adding a server of the common weight to the ring leaves the points of the other
servers where they were, so a key stays with its server or moves to the new
one.
-/

namespace KetamaRouter

open CircularSuccessor

variable {platform : Platform} {registrations : List Registration}
  {weight : UInt64}

/-! ## Points of a ring -/

theorem fillPoints_append (total : UInt64) (numservers : UInt32) (start : Nat)
    (left right : List ServerInfo) :
    fillPoints platform total numservers (Int32.ofNat start) (left ++ right) =
      fillPoints platform total numservers (Int32.ofNat start) left ++
        fillPoints platform total numservers
          (Int32.ofNat (start + left.length)) right := by
  induction left generalizing start with
  | nil => rfl
  | cons sinfo left induction =>
      have next : Int32.ofNat start + 1 = Int32.ofNat (start + 1) :=
        (Int32.ofNat_add start 1).symm
      have place : start + (left.length + 1) = start + 1 + left.length := by
        omega
      rw [List.cons_append, fillPoints, fillPoints, next, induction,
        List.append_assoc, List.length_cons, place]

/-- Only the shares make the points of a server depend on the other ones. -/
theorem fillPoints_congr {total other : UInt64} {count count' : UInt32}
    {servers : List ServerInfo}
    (shares : ∀ sinfo ∈ servers, platform.share sinfo.memory total count =
      platform.share sinfo.memory other count') (start : Int32) :
    fillPoints platform total count start servers =
      fillPoints platform other count' start servers := by
  induction servers generalizing start with
  | nil => rfl
  | cons sinfo rest induction =>
      unfold fillPoints
      rw [shares sinfo List.mem_cons_self, induction fun later member =>
        shares later (List.mem_cons_of_mem sinfo member)]

/-- Appending a server of the common weight appends its points. -/
theorem ringPoints_append (exact : platform.share = exactShare)
    (positive : 0 < weight) (nonempty : registrations ≠ [])
    {new : Registration}
    (equal : ∀ registration ∈ registrations ++ [new],
      registration.weight = weight)
    (small : (registrations.length + 1) * weight.toNat < 2 ^ 64)
    (count : registrations.length + 1 < 2 ^ 32) :
    ringPoints platform (registrations ++ [new]) =
      ringPoints platform registrations ++
        fillPoints platform (totalWeight (registrations ++ [new]))
          (UInt32.ofNat (registrations.length + 1))
          (Int32.ofNat registrations.length) [new.info] := by
  have smaller : registrations.length * weight.toNat < 2 ^ 64 :=
    Nat.lt_of_le_of_lt (Nat.mul_le_mul_right _ (Nat.le_succ _)) small
  have length : (registrations ++ [new]).length = registrations.length + 1 :=
    List.length_append
  have sameShares : ∀ sinfo ∈ registrations.map Registration.info,
      platform.share sinfo.memory (totalWeight (registrations ++ [new]))
          (UInt32.ofNat (registrations ++ [new]).length) =
        platform.share sinfo.memory (totalWeight registrations)
          (UInt32.ofNat registrations.length) := by
    intro sinfo member
    obtain ⟨registration, found, rfl⟩ := List.mem_map.mp member
    have same := equal registration (List.mem_append_left _ found)
    rw [share_equal exact positive (by simp) equal (length ▸ small)
        (length ▸ count) same,
      share_equal exact positive nonempty (fun other member =>
        equal other (List.mem_append_left _ member)) smaller
        (Nat.lt_of_succ_lt count) same]
  have split := @fillPoints_append platform
    (totalWeight (registrations ++ [new]))
    (UInt32.ofNat (registrations ++ [new]).length) 0
    (registrations.map Registration.info) [new.info]
  unfold ringPoints
  rw [List.map_append, ← length, ← fillPoints_congr sameShares]
  rw [List.length_map, Nat.zero_add] at split
  exact split

/-- No point of the ring belongs to two servers of different addresses. -/
def NoSharedPoint (ketama : Ketama) : Prop :=
  ∀ ring, ketama.continuum = some ring → ∀ left ∈ ring, ∀ right ∈ ring,
    left.point = right.point →
      ketamaGetServerAddress ketama left.ordinal =
        ketamaGetServerAddress ketama right.ordinal

/-- A server registered in both rings has the same address in both. -/
theorem Built.address_append {before after : Ketama}
    {new : Registration} (builtBefore : Built platform registrations before)
    (builtAfter : Built platform (registrations ++ [new]) after)
    {index : Nat} (bound : index < registrations.length) :
    ketamaGetServerAddress after (Int32.ofNat index) =
      ketamaGetServerAddress before (Int32.ofNat index) := by
  have longer : index < (registrations ++ [new]).length := by
    rw [List.length_append]
    omega
  rw [builtBefore.address bound, builtAfter.address longer,
    List.getElem_append_left bound]

/-- A key moves only to the appended server. -/
theorem Built.moves_to_appended {before after : Ketama} {new : Registration}
    (exact : platform.share = exactShare) (positive : 0 < weight)
    (nonempty : registrations ≠ [])
    (equal : ∀ registration ∈ registrations ++ [new],
      registration.weight = weight)
    (small : (registrations.length + 1) * weight.toNat < 2 ^ 64)
    (count : registrations.length + 1 < 2 ^ 32)
    (builtBefore : Built platform registrations before)
    (pointsBefore : 0 < before.numpoints)
    (builtAfter : Built platform (registrations ++ [new]) after)
    (pointsAfter : 0 < after.numpoints) (separate : NoSharedPoint after)
    (key : Bytes) :
    ∃ oldOrdinal newOrdinal,
      ketamaGetServerOrdinal platform before key = .ok oldOrdinal ∧
      ketamaGetServerOrdinal platform after key = .ok newOrdinal ∧
      (ketamaGetServerAddress after newOrdinal =
          ketamaGetServerAddress before oldOrdinal ∨
        newOrdinal = Int32.ofNat registrations.length) := by
  obtain ⟨ring, entry, isRing, perm, found, lookup⟩ :=
    builtBefore.lookup pointsBefore key
  obtain ⟨ring', entry', isRing', perm', found', lookup'⟩ :=
    builtAfter.lookup pointsAfter key
  have split := ringPoints_append exact positive nonempty equal small count
  have members : ∀ other, other ∈ ring' ↔ other ∈ ring ∨
      other ∈ fillPoints platform (totalWeight (registrations ++ [new]))
        (UInt32.ofNat (registrations.length + 1))
        (Int32.ofNat registrations.length) [new.info] := by
    intro other
    rw [perm'.mem_iff, perm.mem_iff, split, List.mem_append]
  have old := scan_isSuccessor (builtBefore.ascending isRing) found
  have new := scan_isSuccessor (builtAfter.ascending isRing') found'
  refine ⟨entry.ordinal, entry'.ordinal, lookup, lookup', ?_⟩
  rcases IsSuccessor.of_added members old new with added | ⟨kept, samePoint⟩
  · obtain ⟨index, bound, inServer⟩ := mem_fillPoints_iff.mp added
    rw [List.length_singleton, Nat.lt_one_iff] at bound
    right
    rw [serverPoints_ordinal inServer, bound, Nat.add_zero]
  · left
    have entryIn := (members entry).mpr (.inl old.member)
    rw [separate ring' isRing' entry' new.member entry entryIn samePoint]
    obtain ⟨index, bound, ordinal⟩ := mem_ringPoints (perm.mem_iff.mp old.member)
    rw [ordinal]
    exact builtBefore.address_append builtAfter bound

/-- Appending a server to a list of servers of the same weight moves keys to
the appended server only, as long as the larger ring can be searched. -/
theorem consistentHashing (exact : platform.share = exactShare)
    (positive : 0 < weight) (servers : List Registration) (new : Registration)
    (equal : ∀ registration ∈ servers ++ [new], registration.weight = weight)
    (small : (servers.length + 1) * weight.toNat < 2 ^ 64)
    (few : (servers.length + 1) * 160 < 2 ^ 30) :
    ∃ before after,
      ketamaBuild platform servers = .ok before ∧
      ketamaBuild platform (servers ++ [new]) = .ok after ∧
      (NoSharedPoint after → ∀ key, ∃ oldOrdinal newOrdinal,
        ketamaGetServerOrdinal platform before key = .ok oldOrdinal ∧
        ketamaGetServerOrdinal platform after key = .ok newOrdinal ∧
        (ketamaGetServerAddress after newOrdinal =
            ketamaGetServerAddress before oldOrdinal ∨
          ketamaGetServerAddress after newOrdinal =
            serverAddr new.addr new.port)) := by
  have length : (servers ++ [new]).length = servers.length + 1 :=
    List.length_append
  have smaller : servers.length * weight.toNat < 2 ^ 64 :=
    Nat.lt_of_le_of_lt (Nat.mul_le_mul_right _ (Nat.le_succ _)) small
  obtain ⟨after, ranAfter, builtAfter, pointsAfter⟩ :=
    ketamaBuild_equal_few exact positive (by simp) equal (length ▸ small)
      (length ▸ few)
  have newAddress :
      ketamaGetServerAddress after (Int32.ofNat servers.length) =
        serverAddr new.addr new.port := by
    rw [builtAfter.address (by simp), List.getElem_concat_length rfl]
    rfl
  by_cases empty : servers = []
  · subst empty
    refine ⟨ketamaNew, after, rfl, ranAfter, fun _ key => ?_⟩
    obtain ⟨ring, entry, isRing, perm, found, lookup⟩ :=
      builtAfter.lookup pointsAfter key
    have member :=
      (scan_isSuccessor (builtAfter.ascending isRing) found).member
    obtain ⟨index, bound, ordinal⟩ := mem_ringPoints (perm.mem_iff.mp member)
    obtain rfl : index = 0 := by simpa using bound
    refine ⟨-1, entry.ordinal, rfl, lookup, .inr ?_⟩
    rw [ordinal]
    exact newAddress
  · obtain ⟨before, ranBefore, builtBefore, pointsBefore⟩ :=
      ketamaBuild_equal_few exact positive empty
        (fun other member => equal other (List.mem_append_left _ member))
        smaller (by omega)
    refine ⟨before, after, ranBefore, ranAfter, fun separate key => ?_⟩
    obtain ⟨oldOrdinal, newOrdinal, oldLookup, newLookup, stays | moves⟩ :=
      Built.moves_to_appended exact positive empty equal small (by omega)
        builtBefore pointsBefore builtAfter pointsAfter separate key
    · exact ⟨oldOrdinal, newOrdinal, oldLookup, newLookup, .inl stays⟩
    · refine ⟨oldOrdinal, newOrdinal, oldLookup, newLookup, .inr ?_⟩
      rw [moves]
      exact newAddress

/-- A digest that repeats the last digit of an address like `127.0.0.1`. -/
def lastDigitPlatform : Platform :=
  { Platform.standard with md5 := fun text _ => text.getD 8 0 }

/-- Its two servers have a point each. -/
theorem lastDigit_noSharedPoint {ketama : Ketama}
    (ran : ketamaBuild lastDigitPlatform
      [⟨ascii "127.0.0.1", 6379, 100⟩, ⟨ascii "127.0.0.2", 6379, 100⟩] =
        .ok ketama) : NoSharedPoint ketama := by
  have points : ∀ entry ∈ ringPoints lastDigitPlatform
      [⟨ascii "127.0.0.1", 6379, 100⟩, ⟨ascii "127.0.0.2", 6379, 100⟩],
      entry = ⟨0x31313131, 0⟩ ∨ entry = ⟨0x32323232, 1⟩ := by
    decide +kernel
  have created := created_of_ketamaBuild (by simp) ran
  obtain ⟨written, isWritten, fromServers⟩ := created.ring
  intro ring isRing left leftIn right rightIn samePoint
  cases isWritten.symm.trans isRing
  rcases points left (fromServers left leftIn) with rfl | rfl <;>
    rcases points right (fromServers right rightIn) with rfl | rfl
  · rfl
  · cases samePoint
  · cases samePoint
  · rfl

theorem consistentHashing_two_servers :
    ∃ before after,
      ketamaBuild lastDigitPlatform
        [⟨ascii "127.0.0.1", 6379, 100⟩] = .ok before ∧
      ketamaBuild lastDigitPlatform
        [⟨ascii "127.0.0.1", 6379, 100⟩, ⟨ascii "127.0.0.2", 6379, 100⟩] =
          .ok after ∧
      ∀ key, ∃ oldOrdinal newOrdinal,
        ketamaGetServerOrdinal lastDigitPlatform before key =
          .ok oldOrdinal ∧
        ketamaGetServerOrdinal lastDigitPlatform after key =
          .ok newOrdinal ∧
        (ketamaGetServerAddress after newOrdinal =
            ketamaGetServerAddress before oldOrdinal ∨
          ketamaGetServerAddress after newOrdinal =
            serverAddr (ascii "127.0.0.2") 6379) := by
  obtain ⟨before, after, ranBefore, ranAfter, moves⟩ :=
    @consistentHashing lastDigitPlatform 100 rfl
      (by decide) [⟨ascii "127.0.0.1", 6379, 100⟩]
      ⟨ascii "127.0.0.2", 6379, 100⟩ (by decide) (by decide) (by decide)
  exact ⟨before, after, ranBefore, ranAfter,
    moves (lastDigit_noSharedPoint ranAfter)⟩

theorem crowded_noSharedPoint {count : Nat} {ketama : Ketama}
    (created : Created crowdedPlatform (crowded count) ketama) :
    NoSharedPoint ketama := by
  obtain ⟨written, isWritten, fromServers⟩ := created.ring
  intro ring isRing left leftIn right rightIn samePoint
  cases isWritten.symm.trans isRing
  exact crowded_separate created (fromServers left leftIn)
    (fromServers right rightIn) samePoint

/-- The server that makes a ring too large makes a key lead out of it. -/
theorem crowded_appended {count : Nat} (some : 0 < count)
    (few : count * 160 < 2 ^ 30) (many : 2 ^ 30 ≤ (count + 1) * 160) :
    ∃ before after,
      ketamaBuild crowdedPlatform (crowded count) = .ok before ∧
      ketamaBuild crowdedPlatform (crowded count ++ [crowdedServer count]) =
        .ok after ∧
      NoSharedPoint after ∧
      ketamaGetServerOrdinal crowdedPlatform after [] =
        .error .outOfBounds := by
  have nonempty : crowded count ≠ [] := by
    apply List.ne_nil_of_length_pos
    rw [crowded_length]
    exact some
  obtain ⟨before, ranBefore, -, -⟩ :=
    @ketamaBuild_equal_few crowdedPlatform _ _ rfl (by decide) nonempty
      (crowded_weight count) (crowded_small (by omega))
      (by rw [crowded_length]; exact few)
  obtain ⟨after, ranAfter, created, -, lost⟩ :=
    crowded_lookup many (by omega)
  rw [crowded_succ] at ranAfter
  exact ⟨before, after, ranBefore, ranAfter, crowded_noSharedPoint created,
    lost⟩

/-- One server more than 6710886. -/
theorem consistentHashing_crowded :
    ∃ before after,
      ketamaBuild crowdedPlatform (crowded 6710886) = .ok before ∧
      ketamaBuild crowdedPlatform
        (crowded 6710886 ++ [crowdedServer 6710886]) = .ok after ∧
      NoSharedPoint after ∧
      ketamaGetServerOrdinal crowdedPlatform after [] =
        .error .outOfBounds :=
  crowded_appended (by decide) (by decide) (by decide)

end KetamaRouter
