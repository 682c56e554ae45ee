import KetamaRouter.RingLookup
import KetamaRouter.ServerArray

/-!
# Building the ring

What `Ketama_create_continuum` makes of a list of registered servers, and what
`Ketama_get_server_ordinal` finds in it.
-/

namespace KetamaRouter

open CircularSuccessor MachineIndex

/-- A fresh `Ketama` with these servers and its continuum. -/
def ketamaBuild (platform : Platform) (registrations : List Registration) :
    Except Fault Ketama := do
  let ketama ← ketamaAddServers ketamaNew registrations
  ketamaCreateContinuum platform ketama

/-- The points of the ring of these servers, in the order they are written. -/
def ringPoints (platform : Platform) (registrations : List Registration) :
    List Mcs :=
  fillPoints platform (totalWeight registrations)
    (UInt32.ofNat registrations.length) 0 (registrations.map Registration.info)

/-- What `Ketama_create_continuum` leaves of a nonempty list of servers: a ring
of their points.  It has all of them in ascending order if the index of the
next point has not wrapped around. -/
structure Created (platform : Platform) (registrations : List Registration)
    (ketama : Ketama) : Prop where
  servers : ketama.servers = some (registrations.map Registration.info)
  numservers : ketama.numservers.toNat = registrations.length
  length_le : registrations.length ≤ 2 ^ 31
  ring : ∃ ring, ketama.continuum = some ring ∧
    ∀ entry ∈ ring, entry ∈ ringPoints platform registrations
  whole : (ringPoints platform registrations).length < 2 ^ 32 →
    ketama.continuum = some
      (platform.qsort ketamaCompare (ringPoints platform registrations)) ∧
    ketama.numpoints = Int32.ofNat (ringPoints platform registrations).length

/-- A ring with so few points that the sum of two indices is an `int`. -/
structure Built (platform : Platform) (registrations : List Registration)
    (ketama : Ketama) : Prop extends Created platform registrations ketama where
  few : (ringPoints platform registrations).length < 2 ^ 30

variable {platform : Platform} {registrations : List Registration}
  {ketama : Ketama}

theorem ketamaBuild_nil (platform : Platform) :
    ketamaBuild platform [] = .ok ketamaNew :=
  rfl

theorem serverPoints_length (addr : Bytes) (ordinal : Int32) (ks : UInt32) :
    (serverPoints platform addr ordinal ks).length = 4 * ks.toNat := by
  simp [serverPoints, groupPoints, List.length_flatMap, Nat.mul_comm]

theorem fillPoints_length {total : UInt64} {count ks : UInt32}
    {servers : List ServerInfo}
    (shares : ∀ sinfo ∈ servers, platform.share sinfo.memory total count = ks)
    (start : Int32) :
    (fillPoints platform total count start servers).length =
      servers.length * (4 * ks.toNat) := by
  induction servers generalizing start with
  | nil => simp [fillPoints]
  | cons sinfo rest induction =>
      unfold fillPoints
      rw [List.length_append, serverPoints_length,
        shares sinfo List.mem_cons_self, induction fun later member =>
          shares later (List.mem_cons_of_mem sinfo member), List.length_cons,
        Nat.add_mul rest.length 1, Nat.one_mul, Nat.add_comm]

/-! ## Writing the points -/

section Writing

variable {room : Nat} {filling filled : Filling} {points : List Mcs}

theorem writePoint_mem {entry : Mcs}
    (wrote : writePoint room filling entry = .ok filled) :
    ∀ point ∈ filled.continuum, point ∈ filling.continuum ∨ point = entry := by
  unfold writePoint at wrote
  dsimp only at wrote
  split at wrote
  · cases wrote
    intro point member
    rcases List.mem_append.mp member with early | late
    · exact .inl (List.mem_of_mem_take early)
    · rcases List.mem_cons.mp late with same | later
      · exact .inr same
      · exact .inl (List.mem_of_mem_drop later)
  · cases wrote

/-- What is in the continuum has been written. -/
theorem writePoints_mem
    (wrote : points.foldlM (writePoint room) filling = .ok filled) :
    ∀ point ∈ filled.continuum, point ∈ filling.continuum ∨ point ∈ points := by
  induction points generalizing filling with
  | nil =>
      cases wrote
      exact fun point member => .inl member
  | cons entry points induction =>
      rw [List.foldlM_cons] at wrote
      cases step : writePoint room filling entry with
      | error fault =>
          rw [step] at wrote
          cases wrote
      | ok next =>
          rw [step] at wrote
          intro point member
          rcases induction wrote point member with known | later
          · rcases writePoint_mem step point known with old | rfl
            · exact .inl old
            · exact .inr List.mem_cons_self
          · exact .inr (List.mem_cons_of_mem entry later)

/-- The points written so far, with the index of the next one. -/
def Filling.of (points : List Mcs) : Filling :=
  { continuum := points, cont := UInt32.ofNat points.length }

theorem writePoint_next {written : List Mcs} {entry : Mcs}
    (fits : written.length < room) (small : written.length < 2 ^ 32) :
    writePoint room (.of written) entry = .ok (.of (written ++ [entry])) := by
  have cont : (UInt32.ofNat written.length).toNat = written.length :=
    UInt32.toNat_ofNat_of_lt' small
  unfold writePoint Filling.of
  dsimp only
  rw [cont, if_pos fits, List.take_length, List.length_append,
    List.length_singleton, UInt32.ofNat_add,
    List.drop_eq_nil_of_le (Nat.le_succ _)]
  rfl

theorem writePoints_next {written : List Mcs}
    (fits : (written ++ points).length ≤ room)
    (small : (written ++ points).length < 2 ^ 32) :
    points.foldlM (writePoint room) (.of written) =
      .ok (.of (written ++ points)) := by
  induction points generalizing written with
  | nil =>
      rw [List.append_nil]
      rfl
  | cons entry points induction =>
      have regroup : written ++ entry :: points =
          written ++ [entry] ++ points := by
        simp
      have longer : written.length < (written ++ entry :: points).length := by
        simp
      rw [List.foldlM_cons, writePoint_next (Nat.lt_of_lt_of_le longer fits)
        (Nat.lt_trans longer small)]
      exact regroup ▸ induction (regroup ▸ fits) (regroup ▸ small)

/-- Points that do not fit are written behind the continuum, unless the index
wraps around before. -/
theorem writePoints_overflow {written : List Mcs}
    (narrow : room < 2 ^ 32) (within : written.length ≤ room)
    (tooMany : room < (written ++ points).length) :
    points.foldlM (writePoint room) (.of written) = .error .outOfBounds := by
  induction points generalizing written with
  | nil =>
      rw [List.append_nil] at tooMany
      omega
  | cons entry points induction =>
      have regroup : written ++ entry :: points =
          written ++ [entry] ++ points := by
        simp
      rw [List.foldlM_cons]
      by_cases fits : written.length < room
      · rw [writePoint_next fits (Nat.lt_trans fits narrow)]
        apply induction
        · rw [List.length_append, List.length_singleton]
          exact fits
        · exact regroup ▸ tooMany
      · have full : written.length < 2 ^ 32 := Nat.lt_of_le_of_lt within narrow
        unfold writePoint Filling.of
        dsimp only
        rw [UInt32.toNat_ofNat_of_lt' full, if_neg fits]
        rfl

/-- Where the index wraps around before the room ends, every write succeeds. -/
theorem writePoints_wide (wide : 2 ^ 32 ≤ room) (points : List Mcs)
    (filling : Filling) :
    ∃ filled, points.foldlM (writePoint room) filling = .ok filled := by
  induction points generalizing filling with
  | nil => exact ⟨filling, rfl⟩
  | cons entry points induction =>
      have fits : filling.cont.toNat < room :=
        Nat.lt_of_lt_of_le filling.cont.toNat_lt wide
      rw [List.foldlM_cons]
      unfold writePoint
      dsimp only
      rw [if_pos fits]
      exact induction _

/-- Points that fit, or whose index wraps around before the room ends, are
written, and all of them are there unless the index wrapped around. -/
theorem writePoints_returns (fits : ¬ (room < points.length ∧ room < 2 ^ 32)) :
    ∃ filled, points.foldlM (writePoint room) (.of []) = .ok filled ∧
      (points.length < 2 ^ 32 → filled = .of points) := by
  by_cases all : points.length ≤ room ∧ points.length < 2 ^ 32
  · have wrote := @writePoints_next room points [] (by simpa using all.1)
      (by simpa using all.2)
    exact ⟨_, wrote, fun _ => by rw [List.nil_append]⟩
  · have wide : 2 ^ 32 ≤ room := by omega
    obtain ⟨filled, wrote⟩ := writePoints_wide wide points (.of [])
    exact ⟨filled, wrote, fun few => by omega⟩

end Writing

/-! ## The ring -/

/-- The array a continuum is created from. -/
theorem ketamaCreateContinuum_registered
    (registered : Registered ketama registrations)
    (nonempty : registrations ≠ []) :
    ketamaCreateContinuum platform ketama =
      ((ringPoints platform registrations).foldlM
        (writePoint (registrations.length * 160)) (.of [])).map fun filling =>
          { ketama with
            numpoints := filling.cont.toInt32
            continuum := some
              (platform.qsort ketamaCompare
                  (filling.continuum.take filling.cont.toNat) ++
                filling.continuum.drop filling.cont.toNat) } := by
  have count : ketama.numservers = UInt32.ofNat registrations.length := by
    rw [← registered.numservers, UInt32.ofNat_toNat]
  have some : ¬ (ketama.numservers = 0 ∨ ketama.continuum ≠ none) := by
    intro either
    rcases either with none | created
    · have zero := registered.numservers
      rw [none] at zero
      exact nonempty (List.length_eq_zero_iff.mp zero.symm)
    · exact created registered.noContinuum
  unfold ketamaCreateContinuum
  rw [if_neg some, registered.array nonempty]
  dsimp only
  rw [registered.numservers, registered.memory, count]
  rfl

/-- A continuum is created unless its points do not fit. -/
theorem ketamaCreateContinuum_cases
    (registered : Registered ketama registrations)
    (nonempty : registrations ≠ []) :
    ((registrations.length * 160 < (ringPoints platform registrations).length ∧
        registrations.length * 160 < 2 ^ 32) ∧
      ketamaCreateContinuum platform ketama = .error .outOfBounds) ∨
    ((ringPoints platform registrations).length ≤ registrations.length * 160 ∨
        2 ^ 32 ≤ registrations.length * 160) ∧
      ∃ after, ketamaCreateContinuum platform ketama = .ok after ∧
        Created platform registrations after := by
  rw [ketamaCreateContinuum_registered registered nonempty]
  by_cases overflow : registrations.length * 160 <
      (ringPoints platform registrations).length ∧
    registrations.length * 160 < 2 ^ 32
  · left
    refine ⟨overflow, ?_⟩
    rw [writePoints_overflow overflow.2 (Nat.zero_le _)
      (by simpa using overflow.1)]
    rfl
  · right
    refine ⟨by omega, ?_⟩
    obtain ⟨filled, wrote, whole⟩ := writePoints_returns overflow
    refine ⟨_, by rw [wrote]; rfl, ?_⟩
    constructor
    · exact registered.array nonempty
    · exact registered.numservers
    · exact registered.length_le
    · refine ⟨_, rfl, ?_⟩
      intro entry member
      have inFilled : entry ∈ filled.continuum := by
        rcases List.mem_append.mp member with sorted | rest
        · exact List.mem_of_mem_take
            ((platform.qsort_perm _).mem_iff.mp sorted)
        · exact List.mem_of_mem_drop rest
      rcases writePoints_mem wrote entry inFilled with none | point
      · cases none
      · exact point
    · intro few
      rw [whole few]
      have cont : (UInt32.ofNat (ringPoints platform
          registrations).length).toNat =
            (ringPoints platform registrations).length :=
        UInt32.toNat_ofNat_of_lt' few
      constructor
      · unfold Filling.of
        dsimp only
        rw [cont, List.take_length, List.drop_length, List.append_nil]
      · rfl

/-- The ring of registered servers is created unless its points do not fit. -/
theorem ketamaBuild_cases (platform : Platform)
    (nonempty : registrations ≠ [])
    (count : registrations.length ≤ 2 ^ 31) :
    ((registrations.length * 160 < (ringPoints platform registrations).length ∧
        registrations.length * 160 < 2 ^ 32) ∧
      ketamaBuild platform registrations = .error .outOfBounds) ∨
    ((ringPoints platform registrations).length ≤ registrations.length * 160 ∨
        2 ^ 32 ≤ registrations.length * 160) ∧
      ∃ ketama, ketamaBuild platform registrations = .ok ketama ∧
        Created platform registrations ketama := by
  obtain ⟨after, ran, registered⟩ :=
    ketamaAddServers_registers ketamaNew_registered registrations
      (by rwa [List.nil_append])
  rw [List.nil_append] at registered
  have build : ketamaBuild platform registrations =
      ketamaCreateContinuum platform after := by
    unfold ketamaBuild
    rw [ran]
    rfl
  rw [build]
  exact ketamaCreateContinuum_cases registered nonempty

theorem ketamaBuild_fits (nonempty : registrations ≠ [])
    (count : registrations.length ≤ 2 ^ 31)
    (fits : (ringPoints platform registrations).length ≤
      registrations.length * 160) :
    ∃ ketama, ketamaBuild platform registrations = .ok ketama ∧
      Created platform registrations ketama := by
  rcases ketamaBuild_cases platform nonempty count with
    ⟨overflow, -⟩ | ⟨-, created⟩
  · exact absurd overflow.1 (Nat.not_lt.mpr fits)
  · exact created

theorem created_of_ketamaBuild (nonempty : registrations ≠ [])
    (built : ketamaBuild platform registrations = .ok ketama) :
    Created platform registrations ketama := by
  unfold ketamaBuild at built
  cases ran : ketamaAddServers ketamaNew registrations with
  | error fault =>
      rw [ran] at built
      cases built
  | ok after =>
      rw [ran] at built
      have registered := registered_of_ketamaAddServers ketamaNew_registered ran
      rw [List.nil_append] at registered
      rcases ketamaCreateContinuum_cases registered nonempty with
        ⟨-, failed⟩ | ⟨-, other, created, isCreated⟩
      · cases failed.symm.trans built
      · cases created.symm.trans built
        exact isCreated

theorem built_of_ketamaBuild (nonempty : registrations ≠ [])
    (few : (ringPoints platform registrations).length < 2 ^ 30)
    (built : ketamaBuild platform registrations = .ok ketama) :
    Built platform registrations ketama :=
  { created_of_ketamaBuild nonempty built with few := few }

/-! ## Ordinals and addresses -/

theorem serverPoints_ordinal {addr : Bytes} {ordinal : Int32} {ks : UInt32}
    {entry : Mcs} (member : entry ∈ serverPoints platform addr ordinal ks) :
    entry.ordinal = ordinal := by
  obtain ⟨k, -, inGroup⟩ := List.mem_flatMap.mp member
  obtain ⟨place, -, same⟩ := List.mem_map.mp inGroup
  rw [← same]

/-- The points of a ring are those of its servers. -/
theorem mem_fillPoints_iff {total : UInt64} {numservers : UInt32} {start : Nat}
    {servers : List ServerInfo} {entry : Mcs} :
    entry ∈ fillPoints platform total numservers (Int32.ofNat start) servers ↔
      ∃ (index : Nat) (bound : index < servers.length),
        entry ∈ serverPoints platform servers[index].addr
          (Int32.ofNat (start + index))
          (platform.share servers[index].memory total numservers) := by
  induction servers generalizing start with
  | nil => simp [fillPoints]
  | cons sinfo rest induction =>
      have next : Int32.ofNat start + 1 = Int32.ofNat (start + 1) :=
        (Int32.ofNat_add start 1).symm
      rw [fillPoints, List.mem_append, next, induction]
      constructor
      · intro either
        cases either with
        | inl here => exact ⟨0, Nat.succ_pos _, here⟩
        | inr later =>
            obtain ⟨index, bound, found⟩ := later
            rw [Nat.add_assoc, Nat.add_comm 1 index] at found
            exact ⟨index + 1, Nat.succ_lt_succ bound, found⟩
      · intro found
        obtain ⟨index, bound, found⟩ := found
        cases index with
        | zero => exact .inl found
        | succ index =>
            have inside : index < rest.length := Nat.lt_of_succ_lt_succ bound
            have place : start + (index + 1) = start + 1 + index := by omega
            rw [place] at found
            exact .inr ⟨index, inside, found⟩

theorem mem_ringPoints_iff {entry : Mcs} :
    entry ∈ ringPoints platform registrations ↔
      ∃ (index : Nat) (bound : index < registrations.length),
        entry ∈ serverPoints platform registrations[index].info.addr
          (Int32.ofNat index)
          (platform.share registrations[index].weight
            (totalWeight registrations)
            (UInt32.ofNat registrations.length)) := by
  have points := @mem_fillPoints_iff platform (totalWeight registrations)
    (UInt32.ofNat registrations.length) 0
    (registrations.map Registration.info) entry
  simp only [List.length_map, List.getElem_map, Nat.zero_add] at points
  exact points

/-- Every point of a ring belongs to a registered server. -/
theorem mem_ringPoints {entry : Mcs}
    (member : entry ∈ ringPoints platform registrations) :
    ∃ index < registrations.length, entry.ordinal = Int32.ofNat index := by
  obtain ⟨index, bound, inServer⟩ := mem_ringPoints_iff.mp member
  exact ⟨index, bound, serverPoints_ordinal inServer⟩

theorem Created.address {index : Nat}
    (created : Created platform registrations ketama)
    (bound : index < registrations.length) :
    ketamaGetServerAddress ketama (Int32.ofNat index) =
      registrations[index].info.addr := by
  apply ketamaGetServerAddress_entry
  · rw [created.servers, Option.getD_some, List.getElem?_map,
      List.getElem?_eq_getElem bound]
    rfl
  · rw [created.numservers]
    exact bound
  · exact Nat.lt_of_lt_of_le bound created.length_le

namespace Built

theorem continuum (built : Built platform registrations ketama) :
    ketama.continuum =
      some (platform.qsort ketamaCompare (ringPoints platform registrations)) :=
  (built.whole (Nat.lt_trans built.few (by decide))).1

theorem numpoints (built : Built platform registrations ketama) :
    ketama.numpoints =
      Int32.ofNat (ringPoints platform registrations).length :=
  (built.whole (Nat.lt_trans built.few (by decide))).2

/-- A ring has points if its counter says so. -/
theorem points_iff (built : Built platform registrations ketama) :
    0 < ketama.numpoints ↔ 0 < (ringPoints platform registrations).length := by
  rw [built.numpoints]
  exact Int32.ofNat_lt_iff_lt (by decide)
    (Nat.lt_trans built.few (by decide))

theorem ascending (built : Built platform registrations ketama)
    {ring : List Mcs} (isRing : ketama.continuum = some ring) :
    ring.Pairwise fun left right => left.point ≤ right.point := by
  rw [built.continuum] at isRing
  obtain rfl := Option.some.inj isRing
  refine (platform.qsort_ascending _).imp fun {left right} ordered => ?_
  refine UInt32.not_lt.mp fun above => ?_
  have notBelow : ¬ left.point < right.point :=
    fun below => absurd (lt_trans above below) (lt_irrefl _)
  simp [ketamaCompare, notBelow, above] at ordered

/-- On a ring with points the bisection finds what the scan finds. -/
theorem lookup (built : Built platform registrations ketama)
    (points : 0 < ketama.numpoints) (key : Bytes) :
    ∃ ring entry, ketama.continuum = some ring ∧
      ring.Perm (ringPoints platform registrations) ∧
      scan Mcs.point ring (ketamaHashi platform key) = some entry ∧
      ketamaGetServerOrdinal platform ketama key = .ok entry.ordinal := by
  have perm := platform.qsort_perm (ringPoints platform registrations)
  have few := perm.length_eq ▸ built.few
  have size : ketama.numpoints = Int32.ofNat (platform.qsort ketamaCompare
      (ringPoints platform registrations)).length := by
    rw [perm.length_eq, built.numpoints]
  have nonempty : platform.qsort ketamaCompare
      (ringPoints platform registrations) ≠ [] := by
    apply List.ne_nil_of_length_pos
    rw [perm.length_eq]
    exact built.points_iff.mp points
  obtain ⟨entry, found⟩ :=
    scan_of_ne_nil (h := ketamaHashi platform key) nonempty
  obtain ⟨cut, cuts⟩ := exists_cutsAt (built.ascending built.continuum)
    (ketamaHashi platform key)
  have small : (platform.qsort ketamaCompare
      (ringPoints platform registrations)).length < 2 ^ 31 :=
    Nat.lt_trans few (by decide)
  refine ⟨_, entry, built.continuum, perm, found, ?_⟩
  unfold ketamaGetServerOrdinal
  rw [built.continuum]
  dsimp only
  rw [size, Int32.toNatClampNeg_ofNat_of_lt small]
  exact searchLoop_spec size few cuts found (Nat.zero_le cut) cuts.inside
    (Nat.le_refl _) (by omega)

end Built

end KetamaRouter
