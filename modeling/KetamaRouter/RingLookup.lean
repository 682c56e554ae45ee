import KetamaRouter.Library.CircularSuccessor
import KetamaRouter.Library.MachineIndex
import KetamaRouter.Source.Ketama

/-!
# Looking a key up in the ring

The bisection of `Ketama_get_server_ordinal` against a scan of the ascending
continuum.  The interval `lowp .. highp` always contains the place where the
points below the hash end, both ends included.
-/

namespace KetamaRouter

open CircularSuccessor MachineIndex

variable {ketama : Ketama} {ring : List Mcs} {h : UInt32} {cut : Nat}

instance linearOrderUInt32 : LinearOrder UInt32 where
  le_refl := UInt32.le_refl
  le_trans _ _ _ := UInt32.le_trans
  le_antisymm _ _ := UInt32.le_antisymm
  le_total := UInt32.le_total
  lt_iff_le_not_ge left right := by
    rw [UInt32.lt_iff_toNat_lt, UInt32.le_iff_toNat_le, UInt32.le_iff_toNat_le]
    omega
  toDecidableLE := inferInstance

/-- The entries before `cut` are those whose point is below `h`. -/
structure CutsAt (ring : List Mcs) (h : UInt32) (cut : Nat) : Prop where
  inside : cut ≤ ring.length
  below : ∀ index (bound : index < ring.length),
    ring[index].point < h ↔ index < cut

theorem exists_cutsAt
    (ascending : ring.Pairwise fun left right => left.point ≤ right.point)
    (h : UInt32) : ∃ cut, CutsAt ring h cut := by
  induction ring with
  | nil => exact ⟨0, Nat.le_refl 0, fun index bound => absurd bound (by simp)⟩
  | cons entry ring induction =>
      obtain ⟨headLeast, tailAscending⟩ := List.pairwise_cons.mp ascending
      by_cases short : entry.point < h
      · obtain ⟨cut, inside, below⟩ := induction tailAscending
        refine ⟨cut + 1, Nat.succ_le_succ inside, fun index bound => ?_⟩
        cases index with
        | zero => simp [short]
        | succ index =>
            simpa using below index (Nat.lt_of_succ_lt_succ bound)
      · refine ⟨0, Nat.zero_le _, fun index bound => ?_⟩
        have reached : h ≤ (entry :: ring)[index].point := by
          cases index with
          | zero => exact UInt32.not_lt.mp short
          | succ index =>
              exact le_trans (UInt32.not_lt.mp short)
                (headLeast _ (List.getElem_mem _))
        simpa using reached

/-- The scan stops at the cut. -/
theorem CutsAt.scan_inside (cuts : CutsAt ring h cut)
    (bound : cut < ring.length) :
    scan Mcs.point ring h = some ring[cut] := by
  have reached : h ≤ ring[cut].point :=
    UInt32.not_lt.mp fun short =>
      Nat.lt_irrefl cut ((cuts.below cut bound).mp short)
  have split : ring = ring.take cut ++ ring[cut] :: ring.drop (cut + 1) := by
    rw [List.getElem_cons_drop, List.take_append_drop]
  have below : ∀ other ∈ ring.take cut, other.point < h := by
    intro other member
    obtain ⟨index, early, rfl⟩ := List.mem_take_iff_getElem.mp member
    exact (cuts.below index (by omega)).mpr (by omega)
  conv_lhs => rw [split]
  exact scan_of_split below reached

theorem CutsAt.scan_outside (cuts : CutsAt ring h ring.length) :
    scan Mcs.point ring h = ring.head? := by
  refine scan_of_below fun other member => ?_
  obtain ⟨index, bound, rfl⟩ := List.mem_iff_getElem.mp member
  exact (cuts.below index bound).mpr bound

/-! ## Reading the continuum -/

theorem mcsAt_run {index : Nat} (bound : index < ring.length)
    (small : index < 2 ^ 31) : mcsAt ring (Int32.ofNat index) =
      pure ring[index] := by
  unfold mcsAt
  rw [if_neg (ofNat_not_neg small), Int32.toNatClampNeg_ofNat_of_lt small,
    List.getElem?_eq_getElem bound]

theorem mcsAt_negative {index : Int32} (negative : index < 0) :
    mcsAt ring index = .error .outOfBounds := by
  unfold mcsAt
  rw [if_pos negative]
  rfl

theorem pointBefore_zero : pointBefore ring (Int32.ofNat 0) = pure 0 :=
  rfl

theorem pointBefore_succ {index : Nat} (bound : index < ring.length)
    (small : index + 1 < 2 ^ 31) :
    pointBefore ring (Int32.ofNat (index + 1)) = pure ring[index].point := by
  have positive : ¬ Int32.ofNat (index + 1) = 0 := by
    intro zero
    have same := (ofNat_inj small (by decide)).mp zero
    exact Nat.succ_ne_zero index same
  unfold pointBefore
  rw [if_neg positive, ofNat_succ_sub_one,
    mcsAt_run bound (Nat.lt_of_succ_lt small)]
  rfl

theorem exists_pointBefore {index : Nat} (bound : index < ring.length)
    (small : index < 2 ^ 31) :
    ∃ previous, pointBefore ring (Int32.ofNat index) = pure previous := by
  cases index with
  | zero => exact ⟨0, pointBefore_zero⟩
  | succ index =>
      exact ⟨_, pointBefore_succ (Nat.lt_of_succ_lt bound) small⟩

/-! ## The bisection -/

section Steps

variable {fuel lowp highp mid : Nat}

/-- Above every point the first entry answers. -/
theorem searchLoop_last (size : ketama.numpoints = Int32.ofNat ring.length)
    (fits : lowp + highp < 2 ^ 31) (middle : (lowp + highp) / 2 = ring.length)
    (nonempty : 0 < ring.length) :
    searchLoop ketama ring h (fuel + 1) (Int32.ofNat lowp)
      (Int32.ofNat highp) = .ok ring[0].ordinal := by
  have first : mcsAt ring 0 = pure ring[0] := mcsAt_run nonempty (by decide)
  unfold searchLoop
  rw [middle_run fits, size, middle]
  simp only [if_true, first]
  rfl

/-- A point below the hash moves the lower end behind it. -/
theorem searchLoop_up (size : ketama.numpoints = Int32.ofNat ring.length)
    (few : ring.length < 2 ^ 31) (fits : lowp + highp < 2 ^ 31)
    (middle : (lowp + highp) / 2 = mid) (bound : mid < ring.length)
    (short : ring[mid].point < h) (ordered : mid < highp) :
    searchLoop ketama ring h (fuel + 1) (Int32.ofNat lowp)
        (Int32.ofNat highp) =
      searchLoop ketama ring h fuel (Int32.ofNat (mid + 1))
        (Int32.ofNat highp) := by
  have small : mid < 2 ^ 31 := Nat.lt_trans bound few
  have notLast : ¬ Int32.ofNat mid = Int32.ofNat ring.length := by
    rw [ofNat_inj small few]
    exact Nat.ne_of_lt bound
  have notReached : ¬ h ≤ ring[mid].point := UInt32.not_le.mpr short
  have next : Int32.ofNat mid + 1 = Int32.ofNat (mid + 1) :=
    (Int32.ofNat_add mid 1).symm
  have notCrossed : ¬ Int32.ofNat (mid + 1) > Int32.ofNat highp := by
    rw [gt_iff_lt, Int32.ofNat_lt_iff_lt (by omega) (by omega)]
    omega
  obtain ⟨previous, known⟩ := exists_pointBefore bound small
  rw [searchLoop, middle_run fits, size, middle]
  simp only [notLast, if_false, mcsAt_run bound small, pure_bind, known,
    notReached, false_and, short, if_true, next, notCrossed]

/-- If the point before is not below the hash either, the upper end moves to
it. -/
theorem searchLoop_down (size : ketama.numpoints = Int32.ofNat ring.length)
    (few : ring.length < 2 ^ 31) (fits : lowp + highp < 2 ^ 31)
    (middle : (lowp + highp) / 2 = mid + 1) (bound : mid + 1 < ring.length)
    (reached : h ≤ ring[mid + 1].point) (early : h ≤ ring[mid].point)
    (ordered : lowp ≤ mid) :
    searchLoop ketama ring h (fuel + 1) (Int32.ofNat lowp)
        (Int32.ofNat highp) =
      searchLoop ketama ring h fuel (Int32.ofNat lowp) (Int32.ofNat mid) := by
  have small : mid + 1 < 2 ^ 31 := Nat.lt_trans bound few
  have notLast : ¬ Int32.ofNat (mid + 1) = Int32.ofNat ring.length := by
    rw [ofNat_inj small few]
    exact Nat.ne_of_lt bound
  have notShort : ¬ ring[mid + 1].point < h := UInt32.not_lt.mpr reached
  have notAlone : ¬ h > ring[mid].point := UInt32.not_lt.mpr early
  have notCrossed : ¬ Int32.ofNat lowp > Int32.ofNat mid := by
    rw [gt_iff_lt, Int32.ofNat_lt_iff_lt (by omega) (by omega)]
    omega
  rw [searchLoop, middle_run fits, size, middle]
  simp only [notLast, if_false, mcsAt_run bound small, pure_bind,
    pointBefore_succ (Nat.lt_of_succ_lt bound) small, notAlone, and_false,
    notShort, ofNat_succ_sub_one, notCrossed]

/-- The first point that is not below the hash answers. -/
theorem searchLoop_hit (size : ketama.numpoints = Int32.ofNat ring.length)
    (few : ring.length < 2 ^ 31) (fits : lowp + highp < 2 ^ 31)
    (middle : (lowp + highp) / 2 = mid) (bound : mid < ring.length)
    (reached : h ≤ ring[mid].point)
    (alone : ∀ index (earlier : index < mid), ring[index].point < h)
    (low : lowp ≤ mid) :
    searchLoop ketama ring h (fuel + 1) (Int32.ofNat lowp)
      (Int32.ofNat highp) = .ok ring[mid].ordinal := by
  have small : mid < 2 ^ 31 := Nat.lt_trans bound few
  have notLast : ¬ Int32.ofNat mid = Int32.ofNat ring.length := by
    rw [ofNat_inj small few]
    exact Nat.ne_of_lt bound
  have notShort : ¬ ring[mid].point < h := UInt32.not_lt.mpr reached
  rw [searchLoop, middle_run fits, size, middle]
  simp only [notLast, if_false, mcsAt_run bound small, pure_bind]
  cases mid with
  | zero =>
      have crossed : Int32.ofNat lowp > Int32.ofNat 0 - 1 := by
        rw [Nat.le_zero.mp low]
        decide
      have first : mcsAt ring 0 = pure ring[0] := mcsAt_run bound (by decide)
      simp only [pointBefore_zero, pure_bind, reached, true_and, notShort,
        if_false, crossed, if_true, first]
      split
      · rfl
      · rfl
  | succ index =>
      have last := alone index (Nat.lt_succ_self index)
      simp only [pointBefore_succ (Nat.lt_of_succ_lt bound) small, pure_bind,
        reached, true_and, gt_iff_lt, last, if_true]
      rfl

end Steps

/-- The loop answers what the scan answers, as long as the sum of two indices is
an `int`.  The induction is on the fuel, which the interval never outgrows; the
interval keeps the cut. -/
theorem searchLoop_spec {entry : Mcs} {fuel lowp highp : Nat}
    (size : ketama.numpoints = Int32.ofNat ring.length)
    (few : ring.length < 2 ^ 30) (cuts : CutsAt ring h cut)
    (found : scan Mcs.point ring h = some entry) (low : lowp ≤ cut)
    (high : cut ≤ highp) (inside : highp ≤ ring.length)
    (enough : highp - lowp < fuel) :
    searchLoop ketama ring h fuel (Int32.ofNat lowp) (Int32.ofNat highp) =
      .ok entry.ordinal := by
  have nonempty : 0 < ring.length := by
    rcases ring with _ | ⟨first, rest⟩
    · cases found
    · exact Nat.succ_pos _
  have small : ring.length < 2 ^ 31 := by omega
  induction fuel generalizing lowp highp with
  | zero => omega
  | succ fuel induction =>
      have fits : lowp + highp < 2 ^ 31 := by omega
      generalize middle : (lowp + highp) / 2 = mid
      by_cases last : mid = ring.length
      · have outside : cut = ring.length := by omega
        subst outside
        rw [cuts.scan_outside, List.head?_eq_getElem?,
          List.getElem?_eq_getElem nonempty] at found
        obtain rfl := Option.some.inj found
        exact searchLoop_last size fits (middle.trans last) nonempty
      · have bound : mid < ring.length := by omega
        by_cases short : ring[mid].point < h
        · have before := (cuts.below mid bound).mp short
          rw [searchLoop_up size small fits middle bound short (by omega)]
          exact induction (by omega) high inside (by omega)
        · have reached : h ≤ ring[mid].point := UInt32.not_lt.mp short
          have after : cut ≤ mid :=
            Nat.not_lt.mp fun early => short ((cuts.below mid bound).mpr early)
          by_cases atCut : cut = mid
          · subst atCut
            rw [cuts.scan_inside bound] at found
            obtain rfl := Option.some.inj found
            exact searchLoop_hit size small fits middle bound reached
              (fun index early => (cuts.below index _).mpr early) low
          · obtain ⟨index, rfl⟩ : ∃ index, mid = index + 1 :=
              Nat.exists_eq_succ_of_ne_zero (by omega)
            have early : h ≤ ring[index].point := by
              apply UInt32.not_lt.mp
              intro alone
              have before :=
                (cuts.below index (Nat.lt_of_succ_lt bound)).mp alone
              omega
            rw [searchLoop_down size small fits middle bound reached early
              (by omega)]
            exact induction low (by omega) (by omega) (by omega)

/-- With more points the sum of two indices wraps around, and a hash above every
point leads out of the continuum. -/
theorem searchLoop_overflows {fuel lowp : Nat}
    (size : ketama.numpoints = Int32.ofNat ring.length)
    (many : 2 ^ 30 ≤ ring.length) (few : ring.length < 2 ^ 31)
    (below : ∀ entry ∈ ring, entry.point < h) (low : lowp ≤ ring.length)
    (enough : ring.length - lowp < fuel) :
    searchLoop ketama ring h fuel (Int32.ofNat lowp)
      (Int32.ofNat ring.length) = .error .outOfBounds := by
  induction fuel generalizing lowp with
  | zero => omega
  | succ fuel induction =>
      by_cases wide : 2 ^ 31 ≤ lowp + ring.length
      · have negative := middle_wraps wide (by omega) few
        have notLast : ¬ (Int32.ofNat lowp + Int32.ofNat ring.length) / 2 =
            ketama.numpoints := by
          intro same
          rw [same, size] at negative
          exact ofNat_not_neg few negative
        unfold searchLoop
        simp only [notLast, if_false, mcsAt_negative negative]
        rfl
      · have bound : (lowp + ring.length) / 2 < ring.length := by omega
        have short := below _ (List.getElem_mem bound)
        rw [searchLoop_up size few (by omega) rfl bound short bound]
        exact induction (by omega) (by omega)

end KetamaRouter
