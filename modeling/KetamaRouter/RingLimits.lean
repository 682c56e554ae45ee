import Mathlib.Data.List.Induction
import KetamaRouter.RingConstruction

/-!
# How large a ring may get

Servers of one weight have 160 points each.  From `2 ^ 30` points on a lookup can
leave the continuum: the sum of two of its indices is no `int` any more.
-/

namespace KetamaRouter

open MachineIndex

variable {platform : Platform} {registrations : List Registration}
  {weight : UInt64} {ketama : Ketama}

/-! ## Servers of one weight -/

theorem totalWeight_append (left right : List Registration) :
    totalWeight (left ++ right) =
      right.foldl (fun total next => total + next.weight) (totalWeight left) := by
  simp [totalWeight]

theorem totalWeight_equal
    (equal : ∀ registration ∈ registrations, registration.weight = weight)
    (small : registrations.length * weight.toNat < 2 ^ 64) :
    (totalWeight registrations).toNat =
      registrations.length * weight.toNat := by
  induction registrations using List.reverseRecOn with
  | nil => simp [totalWeight]
  | append_singleton registrations last induction =>
      rw [List.length_append, List.length_singleton, Nat.add_mul,
        Nat.one_mul] at small ⊢
      have earlier := induction
        (fun other member => equal other (List.mem_append_left _ member))
        (by omega)
      rw [totalWeight_append, List.foldl_cons, List.foldl_nil,
        UInt64.toNat_add, earlier, equal last (by simp)]
      exact Nat.mod_eq_of_lt small

/-- Every server of the common weight gets forty groups of points. -/
theorem exactShare_equal (positive : 0 < weight)
    (nonempty : registrations ≠ [])
    (equal : ∀ registration ∈ registrations, registration.weight = weight)
    (small : registrations.length * weight.toNat < 2 ^ 64)
    (count : registrations.length < 2 ^ 32) :
    exactShare weight (totalWeight registrations)
      (UInt32.ofNat registrations.length) = 40 := by
  have length : 0 < registrations.length := List.length_pos_of_ne_nil nonempty
  have some : 0 < weight.toNat := by
    simpa using UInt64.lt_iff_toNat_lt.mp positive
  unfold exactShare
  rw [totalWeight_equal equal small, UInt32.toNat_ofNat_of_lt' count,
    Nat.mul_assoc, Nat.mul_div_cancel _ (Nat.mul_pos length some)]
  rfl

theorem share_equal (exact : platform.share = exactShare)
    (positive : 0 < weight) (nonempty : registrations ≠ [])
    (equal : ∀ registration ∈ registrations, registration.weight = weight)
    (small : registrations.length * weight.toNat < 2 ^ 64)
    (count : registrations.length < 2 ^ 32) {sinfo : ServerInfo}
    (sinfoWeight : sinfo.memory = weight) :
    platform.share sinfo.memory (totalWeight registrations)
      (UInt32.ofNat registrations.length) = 40 := by
  rw [exact, sinfoWeight]
  exact exactShare_equal positive nonempty equal small count

theorem ringPoints_equal (exact : platform.share = exactShare)
    (positive : 0 < weight)
    (equal : ∀ registration ∈ registrations, registration.weight = weight)
    (small : registrations.length * weight.toNat < 2 ^ 64)
    (count : registrations.length < 2 ^ 32) :
    (ringPoints platform registrations).length =
      registrations.length * 160 := by
  by_cases empty : registrations = []
  · rw [empty]
    rfl
  · have shares : ∀ sinfo ∈ registrations.map Registration.info,
        platform.share sinfo.memory (totalWeight registrations)
          (UInt32.ofNat registrations.length) = 40 := by
      intro sinfo member
      obtain ⟨registration, found, rfl⟩ := List.mem_map.mp member
      exact share_equal exact positive empty equal small count
        (equal registration found)
    unfold ringPoints
    rw [fillPoints_length shares, List.length_map]
    rfl

/-- A ring of servers of one weight is always created. -/
theorem ketamaBuild_equal (exact : platform.share = exactShare)
    (positive : 0 < weight) (nonempty : registrations ≠ [])
    (equal : ∀ registration ∈ registrations, registration.weight = weight)
    (small : registrations.length * weight.toNat < 2 ^ 64)
    (count : registrations.length ≤ 2 ^ 31) :
    ∃ ketama, ketamaBuild platform registrations = .ok ketama ∧
      Created platform registrations ketama := by
  apply ketamaBuild_fits nonempty count
  have length := @ringPoints_equal platform _ _ exact positive equal small
    (Nat.lt_of_le_of_lt count (by decide))
  exact Nat.le_of_eq length

/-- It can be searched as long as it has fewer than `2 ^ 30` points. -/
theorem ketamaBuild_equal_few (exact : platform.share = exactShare)
    (positive : 0 < weight) (nonempty : registrations ≠ [])
    (equal : ∀ registration ∈ registrations, registration.weight = weight)
    (small : registrations.length * weight.toNat < 2 ^ 64)
    (few : registrations.length * 160 < 2 ^ 30) :
    ∃ ketama, ketamaBuild platform registrations = .ok ketama ∧
      Built platform registrations ketama ∧ 0 < ketama.numpoints := by
  have some : 0 < registrations.length := List.length_pos_of_ne_nil nonempty
  have length := @ringPoints_equal platform _ _ exact positive equal small
    (by omega)
  obtain ⟨ketama, ran, created⟩ := @ketamaBuild_equal platform _ _ exact
    positive nonempty equal small (by omega)
  have built : Built platform registrations ketama :=
    { created with few := length ▸ few }
  refine ⟨ketama, ran, built, built.points_iff.mpr ?_⟩
  rw [length]
  omega

/-! ## A ring that is too large -/

/-- A hash above every point of a ring with `2 ^ 30` points or more leads out of
the continuum. -/
theorem Created.overflows (created : Created platform registrations ketama)
    (many : 2 ^ 30 ≤ (ringPoints platform registrations).length)
    (few : (ringPoints platform registrations).length < 2 ^ 31) (key : Bytes)
    (below : ∀ entry ∈ ringPoints platform registrations,
      entry.point < ketamaHashi platform key) :
    ketamaGetServerOrdinal platform ketama key = .error .outOfBounds := by
  have perm := platform.qsort_perm (ringPoints platform registrations)
  obtain ⟨continuum, numpoints⟩ := created.whole (by omega)
  unfold ketamaGetServerOrdinal
  rw [continuum]
  dsimp only
  rw [← perm.length_eq] at numpoints many few
  rw [numpoints, Int32.toNatClampNeg_ofNat_of_lt few]
  apply searchLoop_overflows numpoints many few
  · intro entry member
    exact below entry (perm.mem_iff.mp member)
  · exact Nat.zero_le _
  · omega

/-- Bits that do not overlap add up. -/
theorem shifted_or_eq_add (high : Nat) {low places : Nat}
    (small : low < 2 ^ places) :
    high <<< places ||| low = high * 2 ^ places + low := by
  rw [Nat.shiftLeft_eq, Nat.mul_comm, Nat.two_pow_add_eq_or_of_lt small]

theorem digestPoint_toNat (digest : Fin 16 → UInt8) :
    (digestPoint digest 0).toNat =
      (digest 3).toNat * 2 ^ 24 + ((digest 2).toNat * 2 ^ 16 +
        ((digest 1).toNat * 2 ^ 8 + (digest 0).toNat)) := by
  have bound (place : Fin 16) : (digest place).toNat < 2 ^ 8 :=
    (digest place).toNat_lt
  have zero := bound 0
  have one := bound 1
  have two := bound 2
  have three := bound 3
  have inside (byte places : Nat) (small : byte < 2 ^ 8)
      (fits : places ≤ 24) : byte <<< places % 2 ^ 32 = byte <<< places := by
    apply Nat.mod_eq_of_lt
    rw [Nat.shiftLeft_eq]
    calc byte * 2 ^ places < 2 ^ 8 * 2 ^ places :=
          Nat.mul_lt_mul_of_pos_right small (Nat.two_pow_pos places)
      _ ≤ 2 ^ 8 * 2 ^ 24 :=
          Nat.mul_le_mul_left _ (Nat.pow_le_pow_right (by decide) fits)
  unfold digestPoint
  rw [UInt32.or_assoc, UInt32.or_assoc]
  simp only [UInt32.toNat_or, UInt32.toNat_shiftLeft, UInt8.toNat_toUInt32]
  change (digest 3).toNat <<< 24 % 2 ^ 32 |||
    ((digest 2).toNat <<< 16 % 2 ^ 32 |||
      ((digest 1).toNat <<< 8 % 2 ^ 32 ||| (digest 0).toNat)) = _
  rw [inside _ 24 three (by decide), inside _ 16 two (by decide),
    inside _ 8 one (by decide), shifted_or_eq_add (digest 1).toNat zero,
    shifted_or_eq_add (digest 2).toNat (by omega),
    shifted_or_eq_add (digest 3).toNat (by omega)]
/-- Four bytes of the address of a server, none of them 0. -/
def crowdedByte (server place : Nat) : UInt8 :=
  UInt8.ofNat (server / 128 ^ place % 128 + 1)

def crowdedServer (server : Nat) : Registration :=
  { addr := [crowdedByte server 0, crowdedByte server 1, crowdedByte server 2,
      crowdedByte server 3]
    port := 6379
    weight := 1 }

def crowded (count : Nat) : List Registration :=
  (List.range count).map crowdedServer

/-- A digest that repeats the first four bytes, all of them ones for the empty
text. -/
def crowdedPlatform : Platform :=
  { Platform.standard with md5 := fun text place => text.getD (place % 4) 255 }

@[simp] theorem crowded_length (count : Nat) :
    (crowded count).length = count := by
  simp [crowded]

theorem crowded_succ (count : Nat) :
    crowded (count + 1) = crowded count ++ [crowdedServer count] := by
  simp [crowded, List.range_succ]

theorem crowded_weight (count : Nat) :
    ∀ registration ∈ crowded count, registration.weight = 1 := by
  intro registration member
  obtain ⟨server, -, rfl⟩ := List.mem_map.mp member
  rfl

theorem crowded_small {count : Nat} (few : count < 2 ^ 32) :
    (crowded count).length * (1 : UInt64).toNat < 2 ^ 64 := by
  change _ * 1 < _
  rw [crowded_length]
  omega

theorem crowded_points {count : Nat} (exact : platform.share = exactShare)
    (few : count < 2 ^ 32) :
    (ringPoints platform (crowded count)).length = count * 160 := by
  have length := @ringPoints_equal platform _ _ exact (by decide)
    (crowded_weight count) (crowded_small few) (by rwa [crowded_length])
  rwa [crowded_length] at length

theorem crowdedByte_toNat (server place : Nat) :
    (crowdedByte server place).toNat = server / 128 ^ place % 128 + 1 := by
  apply UInt8.toNat_ofNat_of_lt'
  change _ < 256
  omega

theorem crowdedByte_ne_zero (server place : Nat) :
    crowdedByte server place ≠ 0 := by
  intro zero
  have value := crowdedByte_toNat server place
  rw [zero] at value
  exact absurd value (Nat.succ_ne_zero _).symm

/-- Every point of a server is made from its four bytes. -/
theorem crowded_point {count : Nat} {entry : Mcs}
    (member : entry ∈ ringPoints crowdedPlatform (crowded count)) :
    ∃ server < count, entry.ordinal = Int32.ofNat server ∧
      entry.point.toNat = (crowdedByte server 3).toNat * 2 ^ 24 +
        ((crowdedByte server 2).toNat * 2 ^ 16 +
          ((crowdedByte server 1).toNat * 2 ^ 8 +
            (crowdedByte server 0).toNat)) := by
  obtain ⟨server, bound, inServer⟩ := mem_ringPoints_iff.mp member
  have ordinal := serverPoints_ordinal inServer
  obtain ⟨k, -, inGroup⟩ := List.mem_flatMap.mp inServer
  obtain ⟨place, -, rfl⟩ := List.mem_map.mp inGroup
  rw [crowded_length] at bound
  refine ⟨server, bound, ordinal, ?_⟩
  have known : (crowded count)[server] = crowdedServer server := by
    simp [crowded]
  have text : cStr (crowdedServer server).addr =
      (crowdedServer server).addr := by
    simp [cStr, crowdedServer, crowdedByte_ne_zero]
  have same : digestPoint (crowdedPlatform.md5
      (pointText (crowded count)[server].info.addr k)) place =
    digestPoint (crowdedPlatform.md5
      (pointText (crowded count)[server].info.addr k)) 0 := by
    unfold digestPoint crowdedPlatform
    simp
  dsimp only
  rw [same, digestPoint_toNat, known]
  unfold Registration.info serverAddr pointText
  rw [text]
  rfl

/-- A digest of ones is above all of them. -/
theorem crowded_below {count : Nat} {entry : Mcs}
    (member : entry ∈ ringPoints crowdedPlatform (crowded count)) :
    entry.point < ketamaHashi crowdedPlatform [] := by
  obtain ⟨server, -, -, point⟩ := crowded_point member
  have top : (ketamaHashi crowdedPlatform []).toNat = 2 ^ 32 - 1 := by
    decide
  rw [UInt32.lt_iff_toNat_lt, point, top]
  simp only [crowdedByte_toNat]
  omega

/-- Servers at one point have the same address. -/
theorem crowded_separate {count : Nat}
    (created : Created crowdedPlatform (crowded count) ketama) {left right : Mcs}
    (leftIn : left ∈ ringPoints crowdedPlatform (crowded count))
    (rightIn : right ∈ ringPoints crowdedPlatform (crowded count))
    (samePoint : left.point = right.point) :
    ketamaGetServerAddress ketama left.ordinal =
      ketamaGetServerAddress ketama right.ordinal := by
  obtain ⟨first, firstBound, firstOrdinal, firstPoint⟩ := crowded_point leftIn
  obtain ⟨second, secondBound, secondOrdinal, secondPoint⟩ :=
    crowded_point rightIn
  rw [samePoint, secondPoint] at firstPoint
  have small (server place : Nat) := (crowdedByte server place).toNat_lt
  have bytes : ∀ place < 4,
      crowdedByte first place = crowdedByte second place := by
    intro place inside
    apply UInt8.toNat_inj.mp
    have zero := small first 0
    have one := small first 1
    have two := small first 2
    have zero' := small second 0
    have one' := small second 1
    have two' := small second 2
    match place with
    | 0 => omega
    | 1 => omega
    | 2 => omega
    | 3 => omega
  have servers : crowdedServer first = crowdedServer second := by
    unfold crowdedServer
    rw [bytes 0 (by decide), bytes 1 (by decide), bytes 2 (by decide),
      bytes 3 (by decide)]
  have known (server : Nat) (bound : server < (crowded count).length) :
      (crowded count)[server] = crowdedServer server := by
    simp [crowded]
  rw [← crowded_length count] at firstBound secondBound
  rw [firstOrdinal, secondOrdinal, created.address firstBound,
    created.address secondBound, known first firstBound,
    known second secondBound, servers]

/-- So many servers that an index goes astray, and not so many that `numpoints`
does. -/
theorem crowded_lookup {count : Nat} (many : 2 ^ 30 ≤ count * 160)
    (few : count * 160 < 2 ^ 31) :
    ∃ ketama, ketamaBuild crowdedPlatform (crowded count) = .ok ketama ∧
      Created crowdedPlatform (crowded count) ketama ∧
      0 < ketama.numpoints ∧
      ketamaGetServerOrdinal crowdedPlatform ketama [] =
        .error .outOfBounds := by
  have nonempty : crowded count ≠ [] := by
    apply List.ne_nil_of_length_pos
    rw [crowded_length]
    omega
  have length := @crowded_points crowdedPlatform count rfl (by omega)
  obtain ⟨ketama, ran, created⟩ := @ketamaBuild_equal crowdedPlatform _ _ rfl
    (by decide) nonempty (crowded_weight count) (crowded_small (by omega))
    (by rw [crowded_length]; omega)
  have numpoints := (created.whole (by omega)).2
  refine ⟨ketama, ran, created, ?_, ?_⟩
  · rw [numpoints, length]
    exact (Int32.ofNat_lt_iff_lt (by decide) few).mpr
      (Nat.lt_of_lt_of_le (by decide) many)
  · exact created.overflows (by omega) (by omega) [] fun entry =>
      crowded_below

end KetamaRouter
