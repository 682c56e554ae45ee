import Mathlib.Algebra.Order.BigOperators.Group.List
import Mathlib.Algebra.Order.Group.Nat
import KetamaRouter.ConsistentHashing
import KetamaRouter.Library.Apportionment

/-!
# The shares of the servers in the ring

Forty groups of four points are set aside for each server and shared out by
weight.  Rounding the shares down keeps the ring within the array allocated for
it, and loses less than one group for each server.
-/

namespace KetamaRouter

open Apportionment MachineIndex

variable {platform : Platform} {registrations : List Registration}
  {ketama : Ketama}

def weights (registrations : List Registration) : List Nat :=
  registrations.map fun registration => registration.weight.toNat

/-- How many points of the ring belong to the server of an ordinal. -/
def pointCount (ketama : Ketama) (ordinal : Nat) : Nat :=
  (ketama.continuum.getD []).countP fun entry =>
    entry.ordinal = Int32.ofNat ordinal

/-- The numbers of groups of points that the servers get. -/
def groupCounts (registrations : List Registration) : List Nat :=
  shares (40 * registrations.length) (weights registrations).sum
    (weights registrations)

/-- Without overflow the total of `Ketama_add_server` is the sum. -/
theorem totalWeight_toNat (small : (weights registrations).sum < 2 ^ 64) :
    (totalWeight registrations).toNat = (weights registrations).sum := by
  induction registrations using List.reverseRecOn with
  | nil => rfl
  | append_singleton registrations last induction =>
      simp only [weights, List.map_append, List.map_cons, List.map_nil,
        List.sum_append, List.sum_singleton] at small induction ⊢
      have earlier := induction (Nat.lt_of_le_of_lt (Nat.le_add_right _ _) small)
      rw [totalWeight_append, List.foldl_cons, List.foldl_nil,
        UInt64.toNat_add, earlier]
      exact Nat.mod_eq_of_lt small

/-- The ring's points, when all of them can be counted in an `int`. -/
structure Countable (registrations : List Registration) : Prop where
  positive : 0 < (weights registrations).sum
  small : (weights registrations).sum < 2 ^ 64
  few : 4 * (groupCounts registrations).sum < 2 ^ 31

namespace Countable

theorem nonempty (countable : Countable registrations) :
    registrations ≠ [] := by
  intro empty
  have positive := countable.positive
  rw [empty] at positive
  exact Nat.lt_irrefl 0 positive

theorem bounds (countable : Countable registrations) :
    39 * registrations.length < (groupCounts registrations).sum ∧
      (groupCounts registrations).sum ≤ 40 * registrations.length := by
  have count : (weights registrations).length = registrations.length :=
    List.length_map _
  have most := @sum_shares_le (40 * registrations.length) _ _ rfl
    countable.positive
  have least := @lt_sum_shares (40 * registrations.length) _ _ rfl
    countable.positive
  rw [count] at least
  unfold groupCounts
  omega

theorem length_lt (countable : Countable registrations) :
    registrations.length < 2 ^ 31 := by
  have few := countable.few
  have bounds := countable.bounds
  omega

/-- The share of a server, which no conversion changes. -/
theorem exactShare_toNat (countable : Countable registrations)
    {registration : Registration} (member : registration ∈ registrations) :
    (exactShare registration.weight (totalWeight registrations)
        (UInt32.ofNat registrations.length)).toNat =
      share (40 * registrations.length) (weights registrations).sum
        registration.weight.toNat := by
  have count : (UInt32.ofNat registrations.length).toNat =
      registrations.length :=
    UInt32.toNat_ofNat_of_lt' (Nat.lt_trans countable.length_lt (by decide))
  have isShare : share (40 * registrations.length) (weights registrations).sum
      registration.weight.toNat ∈ groupCounts registrations :=
    List.mem_map_of_mem (List.mem_map_of_mem member)
  have small := List.le_sum_of_mem isShare
  have few : (groupCounts registrations).sum < 2 ^ 32 := by
    have counted := countable.few
    omega
  unfold exactShare
  rw [totalWeight_toNat countable.small, count]
  exact UInt32.toNat_ofNat_of_lt' (Nat.lt_of_le_of_lt small few)

end Countable

/-- Up to 13421772 servers the points can be counted. -/
theorem countable_of_length (positive : 0 < (weights registrations).sum)
    (small : (weights registrations).sum < 2 ^ 64)
    (count : registrations.length ≤ 13421772) : Countable registrations where
  positive := positive
  small := small
  few := by
    have most := @sum_shares_le (40 * registrations.length) _ _ rfl positive
    unfold groupCounts
    omega

/-! ## Counting points -/

theorem fillPoints_length_sum (total : UInt64) (numservers : UInt32)
    (start : Int32) (servers : List ServerInfo) :
    (fillPoints platform total numservers start servers).length =
      4 * (servers.map fun sinfo =>
        (platform.share sinfo.memory total numservers).toNat).sum := by
  induction servers generalizing start with
  | nil => rfl
  | cons sinfo rest induction =>
      rw [fillPoints, List.length_append, serverPoints_length, induction,
        List.map_cons, List.sum_cons, Nat.mul_add]

/-- A server has no point in the passes of the others. -/
theorem serverPoints_countP_other {addr : Bytes} {ks : UInt32}
    {ordinal other : Nat} (small : ordinal < 2 ^ 31) (smallOther : other < 2 ^ 31)
    (differ : ordinal ≠ other) :
    (serverPoints platform addr (Int32.ofNat ordinal) ks).countP
        (fun entry => entry.ordinal = Int32.ofNat other) = 0 := by
  rw [List.countP_eq_zero]
  intro entry member same
  rw [decide_eq_true_eq, serverPoints_ordinal member,
    ofNat_inj small smallOther] at same
  exact differ same

/-- A server's points are the ones its own pass of the loop wrote. -/
theorem fillPoints_countP {total : UInt64} {numservers : UInt32}
    {start index : Nat} {servers : List ServerInfo}
    (bound : index < servers.length)
    (small : start + servers.length ≤ 2 ^ 31) :
    (fillPoints platform total numservers (Int32.ofNat start) servers).countP
        (fun entry => entry.ordinal = Int32.ofNat (start + index)) =
      4 * (platform.share servers[index].memory total numservers).toNat := by
  induction servers generalizing start index with
  | nil => cases bound
  | cons sinfo rest induction =>
      have next : Int32.ofNat start + 1 = Int32.ofNat (start + 1) :=
        (Int32.ofNat_add start 1).symm
      rw [List.length_cons] at bound small
      rw [fillPoints, List.countP_append, next]
      cases index with
      | zero =>
          have own : (serverPoints platform sinfo.addr (Int32.ofNat start)
              (platform.share sinfo.memory total numservers)).countP
                (fun entry => entry.ordinal = Int32.ofNat (start + 0)) =
              4 * (platform.share sinfo.memory total numservers).toNat := by
            rw [← serverPoints_length sinfo.addr (Int32.ofNat start),
              List.countP_eq_length]
            intro entry member
            exact decide_eq_true (serverPoints_ordinal member)
          have others : (fillPoints platform total numservers
              (Int32.ofNat (start + 1)) rest).countP
                (fun entry => entry.ordinal = Int32.ofNat (start + 0)) = 0 := by
            rw [List.countP_eq_zero]
            intro entry member same
            obtain ⟨place, inside, inServer⟩ := mem_fillPoints_iff.mp member
            rw [decide_eq_true_eq, serverPoints_ordinal inServer,
              ofNat_inj (by omega) (by omega)] at same
            omega
          rw [own, others]
          rfl
      | succ index =>
          have later := @induction (start + 1) index (by omega) (by omega)
          rw [Nat.add_assoc, Nat.add_comm 1 index] at later
          rw [serverPoints_countP_other (by omega) (by omega) (by omega), later,
            Nat.zero_add]
          rfl

/-! ## The whole ring -/

theorem Countable.ringPoints_length (countable : Countable registrations)
    (exact : platform.share = exactShare) :
    (ringPoints platform registrations).length =
      4 * (groupCounts registrations).sum := by
  rw [ringPoints, fillPoints_length_sum, exact]
  congr 2
  unfold groupCounts shares
  conv_rhs => rw [weights]
  rw [List.map_map, List.map_map]
  apply List.map_congr_left
  intro registration member
  exact countable.exactShare_toNat member

theorem Created.pointCount {index : Nat}
    (created : Created platform registrations ketama)
    (exact : platform.share = exactShare)
    (countable : Countable registrations)
    (bound : index < registrations.length) :
    pointCount ketama index =
      4 * share (40 * registrations.length) (weights registrations).sum
        registrations[index].weight.toNat := by
  have few := countable.few
  have continuum := (created.whole (by
    rw [countable.ringPoints_length exact]
    omega)).1
  have counted := @fillPoints_countP platform (totalWeight registrations)
    (UInt32.ofNat registrations.length) 0 index
    (registrations.map Registration.info) (by simpa using bound)
    (by simpa using created.length_le)
  have sorted := platform.qsort_perm (ringPoints platform registrations)
  rw [Nat.zero_add, exact, List.getElem_map] at counted
  unfold KetamaRouter.pointCount
  rw [continuum, Option.getD_some, sorted.countP_eq]
  exact counted.trans (congrArg (4 * ·)
    (countable.exactShare_toNat (List.getElem_mem bound)))

theorem groupCounts_eq (registrations : List Registration) :
    groupCounts registrations = registrations.map fun registration =>
      40 * registrations.length * registration.weight.toNat /
        (weights registrations).sum := by
  unfold groupCounts shares
  conv_lhs => rw [weights]
  rw [List.map_map]
  rfl

/-- With exact arithmetic and points that can be counted the ring is built within
its array.  Every server has the points of its rounded share, and all together
they lose less than one group of four points for each server. -/
theorem ringShares (exact : platform.share = exactShare)
    (positive : 0 < (weights registrations).sum)
    (small : (weights registrations).sum < 2 ^ 64)
    (few : 4 * (registrations.map fun registration =>
      40 * registrations.length * registration.weight.toNat /
        (weights registrations).sum).sum < 2 ^ 31) :
    ∃ ketama ring, ketamaBuild platform registrations = .ok ketama ∧
      ketama.continuum = some ring ∧
      (ring.length : ℤ) = ketama.numpoints.toInt ∧
      (∀ (index : Nat) (bound : index < registrations.length),
        pointCount ketama index =
          4 * (40 * registrations.length * registrations[index].weight.toNat /
            (weights registrations).sum)) ∧
      (∀ (lighter heavier : Nat) (boundLighter : lighter < registrations.length)
        (boundHeavier : heavier < registrations.length),
        registrations[lighter].weight ≤ registrations[heavier].weight →
          pointCount ketama lighter ≤ pointCount ketama heavier) ∧
      156 * (registrations.length : ℤ) < ketama.numpoints.toInt ∧
      ketama.numpoints.toInt ≤ 160 * registrations.length ∧
      ring ≠ [] ∧
      ∀ entry ∈ ring, 0 ≤ entry.ordinal ∧
        entry.ordinal.toUInt32 < ketama.numservers := by
  have countable : Countable registrations :=
    ⟨positive, small, groupCounts_eq registrations ▸ few⟩
  have length := countable.ringPoints_length exact
  have bounds := countable.bounds
  have smallLength : (ringPoints platform registrations).length < 2 ^ 31 :=
    length ▸ countable.few
  obtain ⟨ketama, ran, created⟩ := @ketamaBuild_fits platform _
    countable.nonempty (Nat.le_of_lt countable.length_lt) (by omega)
  obtain ⟨continuum, numpoints⟩ := created.whole (by omega)
  have sorted := platform.qsort_perm (ringPoints platform registrations)
  have points : ketama.numpoints.toInt =
      (ringPoints platform registrations).length := by
    rw [numpoints]
    exact Int32.toInt_ofNat_of_lt smallLength
  refine ⟨ketama, _, ran, continuum, ?_, ?_, ?_, ?_, ?_, ?_, ?_⟩
  · rw [sorted.length_eq, points]
  · intro index bound
    exact created.pointCount exact countable bound
  · intro lighter heavier boundLighter boundHeavier ordered
    rw [created.pointCount exact countable boundLighter,
      created.pointCount exact countable boundHeavier]
    apply Nat.mul_le_mul_left
    apply share_mono
    exact UInt64.le_iff_toNat_le.mp ordered
  · omega
  · omega
  · apply List.ne_nil_of_length_pos
    rw [sorted.length_eq]
    omega
  · intro entry member
    obtain ⟨index, bound, ordinal⟩ :=
      mem_ringPoints (sorted.mem_iff.mp member)
    have inside : index < 2 ^ 31 := Nat.lt_trans bound countable.length_lt
    have unsigned : (UInt32.ofNat index).toNat = index :=
      UInt32.toNat_ofNat_of_lt' (Nat.lt_trans inside (by decide))
    constructor
    · rw [ordinal]
      exact Int32.not_lt.mp (ofNat_not_neg inside)
    · rw [ordinal, Int32.toUInt32_ofNat', UInt32.lt_iff_toNat_lt, unsigned,
        created.numservers]
      exact bound

/-- Three servers of different weights. -/
theorem ringShares_three : ∃ ketama,
    ketamaBuild Platform.standard
        [⟨ascii "127.0.0.1", 6379, 1⟩, ⟨ascii "127.0.0.2", 6379, 2⟩,
          ⟨ascii "127.0.0.3", 6379, 4⟩] = .ok ketama ∧
      pointCount ketama 0 = 68 ∧ pointCount ketama 1 = 136 ∧
      pointCount ketama 2 = 272 ∧ 468 < ketama.numpoints.toInt ∧
      ketama.numpoints.toInt ≤ 480 := by
  obtain ⟨ketama, ring, ran, -, -, points, -, least, most, -, -⟩ :=
    @ringShares Platform.standard
      [⟨ascii "127.0.0.1", 6379, 1⟩, ⟨ascii "127.0.0.2", 6379, 2⟩,
        ⟨ascii "127.0.0.3", 6379, 4⟩] rfl (by decide) (by decide) (by decide)
  have small := (points 0 (by decide)).trans (by decide : _ = 68)
  have middle := (points 1 (by decide)).trans (by decide : _ = 136)
  have large := (points 2 (by decide)).trans (by decide : _ = 272)
  exact ⟨ketama, ran, small, middle, large, least, most⟩

/-- Servers of one weight whose points no `int` counts. -/
theorem crowded_numpoints {count : Nat} (many : 2 ^ 31 ≤ count * 160)
    (room : count * 160 < 2 ^ 32) :
    ∃ ketama, ketamaBuild Platform.standard (crowded count) = .ok ketama ∧
      ketama.numpoints < 0 := by
  have nonempty : crowded count ≠ [] := by
    apply List.ne_nil_of_length_pos
    rw [crowded_length]
    omega
  have length := @crowded_points Platform.standard count rfl (by omega)
  obtain ⟨ketama, ran, created⟩ := @ketamaBuild_equal Platform.standard _ _ rfl
    (by decide) nonempty (crowded_weight count) (crowded_small (by omega))
    (by rw [crowded_length]; omega)
  have numpoints := (created.whole (by omega)).2
  refine ⟨ketama, ran, ?_⟩
  rw [numpoints, length]
  exact ofNat_neg many room

/-- The ring of 13421773 servers of one weight. -/
theorem ringShares_crowded : ∃ ketama,
    ketamaBuild Platform.standard (crowded 13421773) = .ok ketama ∧
      ¬ 156 * (13421773 : ℤ) < ketama.numpoints.toInt := by
  obtain ⟨ketama, ran, negative⟩ :=
    @crowded_numpoints 13421773 (by decide) (by decide)
  refine ⟨ketama, ran, ?_⟩
  rw [Int32.lt_iff_toInt_lt, Int32.toInt_zero] at negative
  omega

end KetamaRouter
