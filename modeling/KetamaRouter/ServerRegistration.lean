import Mathlib.Data.List.TakeDrop
import KetamaRouter.Library.Delimited
import KetamaRouter.Protocol.Decimal
import KetamaRouter.ServerArray

/-!
# Registration of servers

What `Ketama_add_server` stores: the servers of all calls, in order, as long as
the array can be doubled.  Addresses are cut to the field they are printed into.
-/

namespace KetamaRouter

open Delimited

/-! ## Addresses -/

/-- The text `addr ':' port` that a registration asks for. -/
def Registration.text (registration : Registration) : Bytes :=
  cStr registration.addr ++ 58 :: formatInt registration.port

theorem writtenNumber_formatInt (number : ℤ) :
    writtenNumber (formatInt number) = number := by
  unfold formatInt
  split
  · rename_i negative
    have digits : (formatDecimal number.natAbs).takeWhile isDigit =
        formatDecimal number.natAbs :=
      List.takeWhile_eq_self_iff.mpr fun _ => isDigit_of_mem_formatDecimal
    have sign : isSpace 45 = false := by decide
    unfold writtenNumber
    rw [List.dropWhile_cons_of_neg (by simp [sign])]
    dsimp only
    rw [if_pos rfl, digits, digitsValue_formatDecimal]
    omega
  · rw [writtenNumber_formatDecimal]
    omega

theorem colon_not_mem_formatInt (number : ℤ) : 58 ∉ formatInt number := by
  have digits : 58 ∉ formatDecimal number.natAbs := by
    intro member
    cases isDigit_of_mem_formatDecimal member
  unfold formatInt
  split
  · simp [digits]
  · exact digits

/-- The port stands behind the last colon. -/
theorem Registration.text_cut (registration : Registration) :
    cutAt 58 registration.text.reverse =
      some ((formatInt registration.port).reverse,
        (cStr registration.addr).reverse) := by
  have last : registration.text.reverse =
      (formatInt registration.port).reverse ++
        58 :: (cStr registration.addr).reverse := by
    simp [Registration.text]
  rw [last]
  apply cutAt_append
  rw [List.mem_reverse]
  exact colon_not_mem_formatInt registration.port

/-- Different servers ask for different texts. -/
theorem Registration.text_inj {first second : Registration}
    (same : first.text = second.text) :
    cStr first.addr = cStr second.addr ∧ first.port = second.port := by
  have cuts := first.text_cut
  rw [same, second.text_cut, Option.some.injEq, Prod.mk.injEq,
    List.reverse_inj, List.reverse_inj] at cuts
  constructor
  · exact cuts.2.symm
  · rw [← writtenNumber_formatInt first.port, ← cuts.1,
      writtenNumber_formatInt]

/-- An address keeps its text if that fits the field. -/
theorem Registration.info_addr (registration : Registration) :
    registration.info.addr = registration.text ↔
      registration.text.length ≤ 254 :=
  List.take_eq_self_iff _

/-! ## The list of servers -/

variable {ketama : Ketama} {calls : List Registration}

/-- The list holds the servers of these calls, each with its text and weight, and
different servers under different texts. -/
structure Faithful (ketama : Ketama) (calls : List Registration) : Prop where
  count : ketama.numservers.toNat = calls.length
  room : ketama.numservers ≤ ketama.maxservers
  address : ∀ i (inside : i < calls.length),
    ketamaGetServerAddress ketama (Int32.ofNat i) = calls[i].text
  weight : ∀ i (inside : i < calls.length),
    ((ketama.servers.getD [])[i]?).map ServerInfo.memory = some calls[i].weight
  apart : ∀ i j (first : i < calls.length) (second : j < calls.length),
    (cStr calls[i].addr, calls[i].port) ≠ (cStr calls[j].addr, calls[j].port) →
      ketamaGetServerAddress ketama (Int32.ofNat i) ≠
        ketamaGetServerAddress ketama (Int32.ofNat j)

/-- After each of the calls the list of servers is right. -/
def RegistersFaithfully (calls : List Registration) : Prop :=
  ∀ soFar, soFar <+: calls →
    ∃ ketama, ketamaAddServers ketamaNew soFar = .ok ketama ∧
      Faithful ketama soFar

theorem Registered.address (registered : Registered ketama calls) {i : Nat}
    (inside : i < calls.length) :
    ketamaGetServerAddress ketama (Int32.ofNat i) = calls[i].info.addr := by
  apply ketamaGetServerAddress_entry (registered.entry inside)
  · rw [registered.numservers]
    exact inside
  · exact Nat.lt_of_lt_of_le inside registered.length_le

theorem Registered.faithful (registered : Registered ketama calls)
    (fits : ∀ call ∈ calls, call.text.length ≤ 254) :
    Faithful ketama calls := by
  have address : ∀ i (inside : i < calls.length),
      ketamaGetServerAddress ketama (Int32.ofNat i) = calls[i].text := by
    intro i inside
    rw [registered.address inside]
    exact (Registration.info_addr _).mpr (fits _ (List.getElem_mem inside))
  constructor
  · exact registered.numservers
  · exact registered.room
  · exact address
  · intro i inside
    rw [registered.entry inside]
    rfl
  · intro i j first second differ same
    rw [address i first, address j second] at same
    obtain ⟨addr, port⟩ := Registration.text_inj same
    exact differ (by rw [addr, port])

/-- Servers are registered as they are given exactly if every text fits its field
and the array can be doubled often enough. -/
theorem registersFaithfully_iff (calls : List Registration) :
    RegistersFaithfully calls ↔
      calls.length ≤ 2 ^ 31 ∧ ∀ call ∈ calls, call.text.length ≤ 254 := by
  constructor
  · intro registers
    obtain ⟨ketama, run, faithful⟩ := registers calls List.prefix_rfl
    have registered := registered_of_ketamaAddServers ketamaNew_registered run
    rw [List.nil_append] at registered
    refine ⟨registered.length_le, ?_⟩
    intro call member
    obtain ⟨i, inside, found⟩ := List.getElem_of_mem member
    have stored := faithful.address i inside
    rw [registered.address inside, found] at stored
    exact call.info_addr.mp stored
  · intro condition soFar isPrefix
    have bound : soFar.length ≤ 2 ^ 31 :=
      Nat.le_trans isPrefix.length_le condition.1
    obtain ⟨ketama, run, registered⟩ :=
      ketamaAddServers_registers ketamaNew_registered soFar
        (by rwa [List.nil_append])
    rw [List.nil_append] at registered
    refine ⟨ketama, run, registered.faithful ?_⟩
    intro call member
    exact condition.2 call (isPrefix.subset member)

/-- Two servers with addresses of 250 bytes and different ports. -/
def longAddresses : List Registration :=
  [{ addr := List.replicate 250 97, port := 11211, weight := 1 },
    { addr := List.replicate 250 97, port := 11212, weight := 1 }]

/-- They are stored under the same address. -/
theorem registersFaithfully_fails :
    ¬ RegistersFaithfully longAddresses ∧
      longAddresses[0].info.addr = longAddresses[1].info.addr ∧
      longAddresses[0].text ≠ longAddresses[1].text := by
  have differ : longAddresses[0].text ≠ longAddresses[1].text := by
    intro same
    exact absurd (Registration.text_inj same).2 (by decide)
  have cut : longAddresses[0].info.addr = longAddresses[1].info.addr := by
    decide +kernel
  refine ⟨?_, cut, differ⟩
  intro registers
  obtain ⟨ketama, run, faithful⟩ := registers longAddresses List.prefix_rfl
  have registered := registered_of_ketamaAddServers ketamaNew_registered run
  rw [List.nil_append] at registered
  apply differ
  have first := faithful.address 0 (by decide)
  have second := faithful.address 1 (by decide)
  rw [registered.address] at first
  rw [registered.address] at second
  rw [← first, ← second]
  exact cut

end KetamaRouter
