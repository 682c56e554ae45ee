import Mathlib.Order.Lattice
import Mathlib.Data.List.Basic

/-!
# Successors on a circle of points

Entries carry a point of a linear order, and the order is read as a circle: the
successor of `h` is an entry whose point is the least one at or above `h`, or
the least one of all when nothing reaches `h`.  On an ascending list a scan
from the left finds it.
-/

namespace CircularSuccessor

variable {Entry Point : Type} [LinearOrder Point] {point : Entry → Point}
  {ring : List Entry} {h : Point} {entry : Entry}

/-- The first entry at or above `h`, or else the first entry. -/
def scan (point : Entry → Point) (ring : List Entry) (h : Point) :
    Option Entry :=
  match ring.find? fun entry => h ≤ point entry with
  | some entry => some entry
  | none => ring.head?

structure IsSuccessor (point : Entry → Point) (ring : List Entry) (h : Point)
    (entry : Entry) : Prop where
  member : entry ∈ ring
  least :
    (h ≤ point entry ∧
      ∀ other ∈ ring, h ≤ point other → point entry ≤ point other) ∨
    (∀ other ∈ ring, point other < h) ∧
      ∀ other ∈ ring, point entry ≤ point other

/-- Some point is reached from every `h` once the ring has an entry. -/
theorem scan_of_ne_nil (nonempty : ring ≠ []) :
    ∃ entry, scan point ring h = some entry := by
  unfold scan
  cases ring.find? fun entry => decide (h ≤ point entry) with
  | some entry => exact ⟨entry, rfl⟩
  | none => exact ⟨_, List.head?_eq_some_head nonempty⟩

/-- A prefix that stays below `h` does not stop the scan. -/
theorem scan_of_split {before after : List Entry}
    (below : ∀ other ∈ before, point other < h)
    (reached : h ≤ point entry) :
    scan point (before ++ entry :: after) h = some entry := by
  have skipped : (before.find? fun entry => h ≤ point entry) = none := by
    refine List.find?_eq_none.mpr fun other member => ?_
    simpa using below other member
  simp [scan, List.find?_append, skipped, reached]

/-- The scan wraps around when every point is below `h`. -/
theorem scan_of_below (below : ∀ other ∈ ring, point other < h) :
    scan point ring h = ring.head? := by
  have none : (ring.find? fun entry => h ≤ point entry) = none := by
    refine List.find?_eq_none.mpr fun other member => ?_
    simpa using below other member
  simp [scan, none]

theorem scan_isSuccessor
    (ascending : ring.Pairwise fun left right => point left ≤ point right)
    (found : scan point ring h = some entry) :
    IsSuccessor point ring h entry := by
  unfold scan at found
  cases search : ring.find? fun entry => decide (h ≤ point entry) with
  | some first =>
      rw [search] at found
      obtain rfl := Option.some.inj found
      obtain ⟨reached, before, after, rfl, below⟩ :=
        List.find?_eq_some_iff_append.mp search
      refine ⟨by simp, .inl ⟨by simpa using reached, ?_⟩⟩
      intro other member atOrAbove
      rcases List.mem_append.mp member with early | late
      · have short := below other early
        simp only [Bool.not_eq_true', decide_eq_false_iff_not] at short
        exact absurd atOrAbove short
      · rcases List.mem_cons.mp late with rfl | later
        · exact le_rfl
        · have tail := (List.pairwise_append.mp ascending).2.1
          exact (List.pairwise_cons.mp tail).1 other later
  | none =>
      rw [search] at found
      have below : ∀ other ∈ ring, point other < h := by
        intro other member
        simpa using List.find?_eq_none.mp search other member
      refine ⟨List.mem_of_mem_head? (Option.mem_def.mpr found),
        .inr ⟨below, ?_⟩⟩
      intro other member
      obtain ⟨rest, rfl⟩ := List.head?_eq_some_iff.mp found
      rcases List.mem_cons.mp member with rfl | later
      · exact le_rfl
      · exact (List.pairwise_cons.mp ascending).1 other later

namespace IsSuccessor

/-- The point of a successor is at most that of a successor on a circle whose
points are all on this one. -/
theorem point_le {others : List Entry} {other : Entry}
    (left : IsSuccessor point ring h entry)
    (right : IsSuccessor point others h other)
    (samePoints : ∀ value, value ∈ ring.map point ↔ value ∈ others.map point) :
    point entry ≤ point other := by
  obtain ⟨twin, twinIn, twinPoint⟩ := List.mem_map.mp
    ((samePoints _).mpr (List.mem_map_of_mem right.member))
  rcases left.least with ⟨reached, least⟩ | ⟨-, least⟩
  · rcases right.least with ⟨otherReached, -⟩ | ⟨otherBelow, -⟩
    · rw [← twinPoint] at otherReached ⊢
      exact least twin twinIn otherReached
    · obtain ⟨copy, copyIn, copyPoint⟩ := List.mem_map.mp
        ((samePoints _).mp (List.mem_map_of_mem left.member))
      have below := otherBelow copy copyIn
      rw [copyPoint] at below
      exact absurd reached below.not_ge
  · rw [← twinPoint]
    exact least twin twinIn

/-- Two circles with the same points have their successors at the same point. -/
theorem point_eq_of_samePoints {others : List Entry} {other : Entry}
    (left : IsSuccessor point ring h entry)
    (right : IsSuccessor point others h other)
    (samePoints : ∀ value, value ∈ ring.map point ↔ value ∈ others.map point) :
    point entry = point other := by
  apply le_antisymm
  · exact left.point_le right samePoints
  · exact right.point_le left fun value => (samePoints value).symm

/-- Two successors sit at the same point. -/
theorem point_eq {other : Entry} (left : IsSuccessor point ring h entry)
    (right : IsSuccessor point ring h other) : point entry = point other :=
  left.point_eq_of_samePoints right fun _ => Iff.rfl

/-- Dropping entries keeps a successor that is not dropped. -/
theorem restrict {smaller : List Entry}
    (successor : IsSuccessor point ring h entry)
    (sub : ∀ other ∈ smaller, other ∈ ring) (kept : entry ∈ smaller) :
    IsSuccessor point smaller h entry where
  member := kept
  least := by
    rcases successor.least with ⟨reached, least⟩ | ⟨below, least⟩
    · exact .inl ⟨reached, fun other member => least other (sub other member)⟩
    · exact .inr ⟨fun other member => below other (sub other member),
        fun other member => least other (sub other member)⟩

/-- New entries on the circle attract an `h` or leave it where it was. -/
theorem of_added {added : List Entry} {before : Entry} {larger : List Entry}
    (members : ∀ other, other ∈ larger ↔ other ∈ ring ∨ other ∈ added)
    (old : IsSuccessor point ring h before)
    (new : IsSuccessor point larger h entry) :
    entry ∈ added ∨ entry ∈ ring ∧ point entry = point before := by
  rcases (members entry).mp new.member with kept | isNew
  · refine .inr ⟨kept, point_eq (new.restrict ?_ kept) old⟩
    exact fun other member => (members other).mpr (.inl member)
  · exact .inl isNew

end IsSuccessor

end CircularSuccessor
