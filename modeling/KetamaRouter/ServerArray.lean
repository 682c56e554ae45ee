import Mathlib.Data.List.Basic
import KetamaRouter.Library.MachineIndex
import KetamaRouter.Source.Ketama

/-!
# The array of servers

`Ketama_add_server` doubles its array when that is full, so the size is a power
of two.  Behind `2 ^ 31` servers the doubled size wraps around to 0.
-/

namespace KetamaRouter

open MachineIndex

/-- The arguments of one call of `Ketama_add_server`. -/
structure Registration where
  addr : Bytes
  port : ℤ
  weight : UInt64
  deriving DecidableEq, Repr

def Registration.info (registration : Registration) : ServerInfo :=
  { addr := serverAddr registration.addr registration.port
    memory := registration.weight }

/-- Register servers one after the other. -/
def ketamaAddServers (ketama : Ketama) :
    List Registration → Except Fault Ketama
  | [] => return ketama
  | first :: rest => do
      let ketama ← ketamaAddServer ketama first.addr first.port first.weight
      ketamaAddServers ketama rest

def totalWeight (registrations : List Registration) : UInt64 :=
  registrations.foldl (fun total next => total + next.weight) 0

/-- The state between registrations: the array holds what was registered, in
order, and has room for it. -/
structure Registered (ketama : Ketama) (registrations : List Registration) :
    Prop where
  servers : ketama.servers.getD [] = registrations.map Registration.info
  allocated : ketama.servers = none →
    registrations = [] ∧ ketama.maxservers = 0
  numservers : ketama.numservers.toNat = registrations.length
  room : ketama.numservers ≤ ketama.maxservers
  power : ketama.servers ≠ none → ∃ k ≤ 31, ketama.maxservers.toNat = 2 ^ k
  memory : ketama.memory = totalWeight registrations
  noContinuum : ketama.continuum = none
  noPoints : ketama.numpoints = 0

variable {ketama after : Ketama} {registrations : List Registration}

theorem ketamaNew_registered : Registered ketamaNew [] where
  servers := rfl
  allocated _ := ⟨rfl, rfl⟩
  numservers := rfl
  room := UInt32.le_refl 0
  power missing := absurd rfl missing
  memory := rfl
  noContinuum := rfl
  noPoints := rfl

namespace Registered

theorem room_toNat (registered : Registered ketama registrations) :
    registrations.length ≤ ketama.maxservers.toNat := by
  rw [← registered.numservers]
  exact UInt32.le_iff_toNat_le.mp registered.room

/-- No array has more than half the range of its counters. -/
theorem maxservers_le (registered : Registered ketama registrations) :
    ketama.maxservers.toNat ≤ 2 ^ 31 := by
  cases known : ketama.servers with
  | none =>
      rw [(registered.allocated known).2]
      exact Nat.zero_le _
  | some infos =>
      obtain ⟨k, small, size⟩ := registered.power (by simp [known])
      rw [size]
      exact Nat.pow_le_pow_right (by decide) small

theorem length_le (registered : Registered ketama registrations) :
    registrations.length ≤ 2 ^ 31 :=
  Nat.le_trans registered.room_toNat registered.maxservers_le

theorem array (registered : Registered ketama registrations)
    (nonempty : registrations ≠ []) :
    ketama.servers = some (registrations.map Registration.info) := by
  cases known : ketama.servers with
  | none => exact absurd (registered.allocated known).1 nonempty
  | some infos =>
      have same := registered.servers
      rw [known] at same
      exact congrArg some same

theorem entry (registered : Registered ketama registrations) {index : Nat}
    (bound : index < registrations.length) :
    (ketama.servers.getD [])[index]? = some registrations[index].info := by
  rw [registered.servers, List.getElem?_map,
    List.getElem?_eq_getElem bound]
  rfl

end Registered

@[simp] theorem Ketama.grown_numservers (ketama : Ketama) :
    ketama.grown.numservers = ketama.numservers := by
  unfold grown
  split <;> rfl

@[simp] theorem Ketama.grown_servers (ketama : Ketama) :
    ketama.grown.servers = ketama.servers := by
  unfold grown
  split <;> rfl

/-! ## One call -/

theorem Registered.allocate (registered : Registered ketama registrations) :
    Registered ketama.allocated registrations ∧
      ketama.allocated.servers ≠ none := by
  unfold Ketama.allocated
  cases known : ketama.servers with
  | some infos => exact ⟨registered, by simp [known]⟩
  | none =>
      obtain ⟨rfl, size⟩ := registered.allocated known
      obtain ⟨-, -, count, -, -, memory, noContinuum, noPoints⟩ := registered
      refine ⟨⟨rfl, by simp, count, ?_, fun _ => ⟨0, by decide, rfl⟩, memory,
        noContinuum, noPoints⟩, by simp⟩
      rw [UInt32.le_iff_toNat_le, count]
      exact Nat.zero_le _

/-- An array with fewer than `2 ^ 31` entries can be doubled. -/
theorem Registered.grow (registered : Registered ketama registrations)
    (array : ketama.servers ≠ none) (count : registrations.length < 2 ^ 31) :
    Registered ketama.grown registrations ∧
      ketama.numservers < ketama.grown.maxservers := by
  unfold Ketama.grown
  by_cases full : ketama.numservers ≥ ketama.maxservers
  · rw [if_pos full]
    obtain ⟨k, small, size⟩ := registered.power array
    have fullNat := UInt32.le_iff_toNat_le.mp full
    rw [registered.numservers] at fullNat
    have below : 2 ^ k < 2 ^ 31 := by omega
    have doubled : (ketama.maxservers * 2).toNat = 2 ^ (k + 1) := by
      rw [doubled_toNat (size ▸ below), size, Nat.pow_succ]
    have free : ketama.numservers < ketama.maxservers * 2 := by
      have room := registered.room_toNat
      rw [UInt32.lt_iff_toNat_lt, doubled, registered.numservers, Nat.pow_succ]
      have positive := Nat.two_pow_pos k
      omega
    refine ⟨{ registered with
      allocated := fun missing => absurd missing array
      room := UInt32.le_of_lt free
      power := fun _ => ⟨k + 1, ?_, doubled⟩ }, free⟩
    exact (Nat.pow_lt_pow_iff_right (by decide)).mp below
  · rw [if_neg full]
    exact ⟨registered, UInt32.not_le.mp full⟩

/-- A call registers its server while the array can be doubled. -/
theorem ketamaAddServer_registers
    (registered : Registered ketama registrations) (next : Registration)
    (count : registrations.length < 2 ^ 31) :
    ∃ after, ketamaAddServer ketama next.addr next.port next.weight =
        .ok after ∧ Registered after (registrations ++ [next]) := by
  obtain ⟨isAllocated, array⟩ := registered.allocate
  obtain ⟨isGrown, free⟩ := isAllocated.grow array count
  rw [← Ketama.grown_numservers] at free
  rw [← Ketama.grown_servers] at array
  unfold ketamaAddServer
  rw [if_pos registered.room]
  dsimp only
  rw [if_pos free]
  generalize ketama.allocated.grown = ketama at isGrown free array
  have increased := succ_toNat (isGrown.numservers ▸ count)
  refine ⟨_, rfl, ?_, ?_, ?_, ?_, fun _ => isGrown.power array, ?_,
    isGrown.noContinuum, isGrown.noPoints⟩
  · have infos := isGrown.servers
    cases known : ketama.servers with
    | none => exact absurd known array
    | some servers =>
        rw [known, Option.getD_some] at infos
        simp [infos, Registration.info]
  · intro missing
    rw [Option.map_eq_none_iff] at missing
    exact absurd missing array
  · rw [increased, isGrown.numservers, List.length_append,
      List.length_singleton]
  · rw [UInt32.le_iff_toNat_le, increased]
    exact UInt32.lt_iff_toNat_lt.mp free
  · simp [isGrown.memory, totalWeight]

/-- The call after that writes behind the array. -/
theorem ketamaAddServer_full (registered : Registered ketama registrations)
    (next : Registration) (full : registrations.length = 2 ^ 31) :
    ketamaAddServer ketama next.addr next.port next.weight =
      .error .outOfBounds := by
  have count := registered.numservers.trans full
  have size : ketama.maxservers.toNat = 2 ^ 31 :=
    Nat.le_antisymm registered.maxservers_le (full ▸ registered.room_toNat)
  have numservers : ketama.numservers = 2147483648 := UInt32.toNat_inj.mp count
  have maxservers : ketama.maxservers = 2147483648 := UInt32.toNat_inj.mp size
  have whole : ketama.allocated = ketama := by
    unfold Ketama.allocated
    split
    · rename_i none
      rw [(registered.allocated none).1] at full
      cases full
    · rfl
  have wrapped : ketama.grown.maxservers = 0 := by
    unfold Ketama.grown
    rw [numservers, maxservers]
    rfl
  unfold ketamaAddServer
  rw [if_pos registered.room, whole]
  dsimp only
  rw [wrapped, Ketama.grown_numservers, numservers]
  rfl

theorem ketamaAddServer_ok_iff (registered : Registered ketama registrations)
    (next : Registration) :
    (∃ after, ketamaAddServer ketama next.addr next.port next.weight =
      .ok after) ↔ registrations.length < 2 ^ 31 := by
  constructor
  · intro added
    apply Nat.lt_of_le_of_ne registered.length_le
    intro full
    rw [ketamaAddServer_full registered next full] at added
    cases added.choose_spec
  · intro count
    obtain ⟨after, added, -⟩ := ketamaAddServer_registers registered next count
    exact ⟨after, added⟩

/-- The address of an entry of the array. -/
theorem ketamaGetServerAddress_entry {index : Nat} {info : ServerInfo}
    (entry : (ketama.servers.getD [])[index]? = some info)
    (inside : index < ketama.numservers.toNat) (small : index < 2 ^ 31) :
    ketamaGetServerAddress ketama (Int32.ofNat index) = info.addr := by
  have within : ¬ (Int32.ofNat index < 0 ∨
      (Int32.ofNat index).toUInt32 ≥ ketama.numservers) := by
    rintro (negative | behind)
    · exact ofNat_not_neg small negative
    · have same : (UInt32.ofNat index).toNat = index :=
        UInt32.toNat_ofNat_of_lt' (Nat.lt_trans small (by decide))
      rw [Int32.toUInt32_ofNat', ge_iff_le, UInt32.le_iff_toNat_le, same]
        at behind
      exact Nat.not_lt.mpr behind inside
  unfold ketamaGetServerAddress
  cases known : ketama.servers with
  | none =>
      rw [known] at entry
      cases entry
  | some infos =>
      rw [known, Option.getD_some] at entry
      dsimp only
      rw [if_neg within, Int32.toNatClampNeg_ofNat_of_lt small, entry]

/-! ## Sequences of calls -/

theorem ketamaAddServers_registers {before : List Registration}
    (registered : Registered ketama before) (registrations : List Registration)
    (count : (before ++ registrations).length ≤ 2 ^ 31) :
    ∃ after, ketamaAddServers ketama registrations = .ok after ∧
      Registered after (before ++ registrations) := by
  induction registrations generalizing ketama before with
  | nil => exact ⟨ketama, rfl, by simpa using registered⟩
  | cons first rest induction =>
      have regroup : before ++ first :: rest = before ++ [first] ++ rest := by
        simp
      have room : before.length < 2 ^ 31 := by
        rw [List.length_append, List.length_cons] at count
        omega
      obtain ⟨middle, added, registeredMiddle⟩ :=
        ketamaAddServer_registers registered first room
      obtain ⟨after, ran, registeredAfter⟩ :=
        induction registeredMiddle (regroup ▸ count)
      refine ⟨after, ?_, regroup ▸ registeredAfter⟩
      unfold ketamaAddServers
      rw [added]
      exact ran

/-- No sequence of calls registers more than half the range of the counters. -/
theorem registered_of_ketamaAddServers {before : List Registration}
    (registered : Registered ketama before)
    (ran : ketamaAddServers ketama registrations = .ok after) :
    Registered after (before ++ registrations) := by
  induction registrations generalizing ketama before with
  | nil =>
      cases ran
      rwa [List.append_nil]
  | cons first rest induction =>
      unfold ketamaAddServers at ran
      cases Nat.lt_or_eq_of_le registered.length_le with
      | inl room =>
          obtain ⟨middle, added, registeredMiddle⟩ :=
            ketamaAddServer_registers registered first room
          rw [added] at ran
          simpa using induction registeredMiddle ran
      | inr full =>
          rw [ketamaAddServer_full registered first full] at ran
          cases ran

end KetamaRouter
