import KetamaRouter.DecoderRefinement
import KetamaRouter.System

/-!
# The parameter count of a command line

`decoder_command` sends the number after the name through `long`, `int`,
`uint32_t` and `uint16_t`, and checks it between the last two.  What survives
is the number only while it fits the narrowest of them.
-/

namespace KetamaRouter

open FaultProgram Delimited

/-! ## The conversions -/

theorem strtol_of_inside {text : Bytes}
    (low : -(2 ^ 63) < writtenNumber text) (high : writtenNumber text < 2 ^ 63) :
    strtol text = writtenNumber text := by
  unfold strtol longMin longMax
  omega

theorem strtol_of_low {text : Bytes} (low : writtenNumber text ≤ -(2 ^ 63)) :
    strtol text = -(2 ^ 63) := by
  unfold strtol longMin longMax
  omega

theorem strtol_of_high {text : Bytes} (high : 2 ^ 63 ≤ writtenNumber text) :
    strtol text = 2 ^ 63 - 1 := by
  unfold strtol longMin longMax
  omega

/-- The detour over `int` does not show in the `uint32_t`. -/
theorem toNat_ofInt_atoi (text : Bytes) :
    ((UInt32.ofInt (atoi text)).toNat : ℤ) = strtol text % 2 ^ 32 := by
  rw [toNat_ofInt, atoi]
  exact Int.bmod_emod

/-- The numbers that the check takes for zero. -/
def Vanishes (number : ℤ) : Prop :=
  (number < 2 ^ 63 ∧ number % 2 ^ 32 = 0) ∨ number ≤ -(2 ^ 63)

theorem ofInt_atoi_eq_zero_iff {text : Bytes} :
    UInt32.ofInt (atoi text) = 0 ↔ Vanishes (writtenNumber text) := by
  have converted := toNat_ofInt_atoi text
  have zero : UInt32.ofInt (atoi text) = 0 ↔ strtol text % 2 ^ 32 = 0 := by
    rw [← UInt32.toNat_inj, UInt32.toNat_zero]
    omega
  rw [zero, Vanishes]
  rcases lt_or_ge (-(2 ^ 63)) (writtenNumber text) with aboveLow | low
  · rcases lt_or_ge (writtenNumber text) (2 ^ 63) with belowHigh | high
    · rw [strtol_of_inside aboveLow belowHigh]
      omega
    · rw [strtol_of_high high]
      omega
  · rw [strtol_of_low low]
    omega

/-- The numbers that the count can store. -/
def Storable (number : ℤ) : Prop :=
  1 ≤ number ∧ number ≤ 65535

theorem Storable.toNat_count {text : Bytes}
    (storable : Storable (writtenNumber text)) :
    ((UInt32.ofInt (atoi text)).toUInt16.toNat : ℤ) = writtenNumber text := by
  obtain ⟨low, high⟩ := storable
  have converted := toNat_ofInt_atoi text
  rw [strtol_of_inside (by omega) (by omega)] at converted
  rw [UInt32.toNat_toUInt16]
  omega

/-! ## The command line -/

variable {memory : Memory} {owned : Multiset Cell} {msg : Ptr} {row : Nat}
  {line name rest : Bytes}

/-- What is accepted of a command line with a number. -/
theorem commandLine_counted (noSpace : 32 ∉ name) :
    commandLine (43 :: (name ++ 32 :: rest)) =
      if rest = [] ∨ UInt32.ofInt (atoi rest) = 0 then none
      else some (name, (UInt32.ofInt (atoi rest)).toUInt16.toNat) := by
  simp [commandLine, cutAt_append rest noSpace]

theorem writtenNumber_nil : writtenNumber [] = 0 :=
  rfl

theorem commandLine_rejects_iff (noSpace : 32 ∉ name) :
    commandLine (43 :: (name ++ 32 :: rest)) = none ↔
      Vanishes (writtenNumber rest) := by
  rw [commandLine_counted noSpace, ← ofInt_atoi_eq_zero_iff]
  simp only [ite_eq_left_iff, reduceCtorEq, imp_false, not_not,
    or_iff_right_iff_imp]
  rintro rfl
  rw [ofInt_atoi_eq_zero_iff, writtenNumber_nil]
  exact .inl ⟨by decide, by decide⟩

/-- The count of a command line means the number written there. -/
structure CountKept (number : ℤ) (msg : Ptr) (before : Memory)
    (res : DecodeResult) (after : Memory) : Prop where
  accepted : res = .ok → Storable number ∧
    (after.msg msg).stat = .dataMore ∧
    ∃ cmd, (after.msg msg).cmd = some cmd ∧
      ((after.cmd cmd).paramCount.toNat : ℤ) = number
  rejected : ¬ Storable number →
    res = .errFormat ∧ after.msg msg = before.msg msg

/-- A message that has just got its command shows its count. -/
theorem MsgAt.opened_count {cmd : CmdShape}
    (msgAt : MsgAt memory (.opened msg cmd)) :
    (memory.msg msg).cmd = some cmd.obj ∧
      (memory.cmd cmd.obj).paramCount = cmd.count := by
  have header := msgAt.header
  have obj := (msgAt.cmd cmd rfl).obj
  rw [MsgShape.opened] at header
  exact ⟨by rw [header]; rfl, by rw [obj]⟩

theorem MsgAt.opened_stat {cmd : CmdShape}
    (msgAt : MsgAt memory (.opened msg cmd)) (positive : 0 < cmd.count.toNat) :
    (memory.msg msg).stat = .dataMore := by
  have header := msgAt.header
  rw [MsgShape.opened] at header
  rw [header]
  exact if_pos positive

theorem decoderCommand_vanishing (text : memory.text row = some line)
    (idle : MsgAt memory (.idle msg))
    (command : cStr line = 43 :: (name ++ 32 :: rest)) (noSpace : 32 ∉ name)
    (vanishes : Vanishes (writtenNumber rest)) :
    decoderCommand msg row memory = .ok .errFormat memory := by
  have home : (memory.msg msg).buf = some msg.buf := by
    have header := idle.header
    rw [MsgShape.idle] at header
    rw [header]
  have unread := (commandLine_rejects_iff noSpace).mpr vanishes
  rcases decoderCommand_cases text home with ⟨-, run⟩ | ⟨len, count, view, -⟩
  · exact run
  · rw [command, unread] at view
    cases view

theorem decoderCommand_stores (text : memory.text row = some line)
    (idle : MsgAt memory (.idle msg))
    (holds : Holds memory
      (.text row ::ₘ ((MsgShape.idle msg).cells + owned)))
    (command : cStr line = 43 :: (name ++ 32 :: rest)) (noSpace : 32 ∉ name)
    (visible : ¬ Vanishes (writtenNumber rest)) :
    Yields (decoderCommand msg row) memory fun res after =>
      ∃ cmd : CmdShape, res = .ok ∧ MsgAt after (.opened msg cmd) ∧
        cmd.count.toNat = (UInt32.ofInt (atoi rest)).toUInt16.toNat := by
  have accepted : commandLine (cStr line) =
      some (name, (UInt32.ofInt (atoi rest)).toUInt16.toNat) := by
    rw [← commandLine_rejects_iff noSpace, commandLine_counted noSpace]
      at visible
    rw [command, commandLine_counted noSpace]
    split
    · rename_i refused
      exact absurd (if_pos refused) visible
    · rfl
  refine (decoderCommand_spec text idle holds accepted).mono ?_
  intro res after outcome
  rcases outcome with ⟨cmd, rfl, -, count, -, msgAfter, -, -⟩
  exact ⟨cmd, rfl, msgAfter, count⟩

/-- `decoder_command` keeps the count exactly where the number fits sixteen
bits or the check takes it for zero. -/
theorem decoderCommand_countKept_iff (text : memory.text row = some line)
    (idle : MsgAt memory (.idle msg))
    (holds : Holds memory
      (.text row ::ₘ ((MsgShape.idle msg).cells + owned)))
    (command : cStr line = 43 :: (name ++ 32 :: rest))
    (noSpace : 32 ∉ name) :
    (∃ res after, decoderCommand msg row memory = .ok res after ∧
        CountKept (writtenNumber rest) msg memory res after) ↔
      Storable (writtenNumber rest) ∨ Vanishes (writtenNumber rest) := by
  by_cases vanishes : Vanishes (writtenNumber rest)
  · refine iff_of_true ?_ (.inr vanishes)
    refine ⟨_, _, decoderCommand_vanishing text idle command noSpace vanishes,
      ?_, fun _ => ⟨rfl, rfl⟩⟩
    rintro ⟨⟩
  · obtain ⟨res, after, ran, cmd, rfl, msgAfter, count⟩ :=
      decoderCommand_stores text idle holds command noSpace vanishes
    obtain ⟨stored, sameCount⟩ := msgAfter.opened_count
    rw [or_iff_left vanishes]
    constructor
    · rintro ⟨res', after', ran', kept⟩
      rw [ran] at ran'
      cases ran'
      exact (kept.accepted rfl).1
    · intro storable
      have number := storable.toNat_count
      rw [← count] at number
      refine ⟨.ok, after, ran, fun _ => ⟨storable, ?_, cmd.obj, stored, ?_⟩,
        fun unstorable => absurd storable unstorable⟩
      · refine msgAfter.opened_stat ?_
        have low := storable.1
        omega
      · rw [sameCount]
        exact number

/-- A fresh message, and a line for it. -/
theorem exists_idle_message (line : Bytes) : ∃ memory msg row,
    memory.text row = some line ∧ MsgAt memory (.idle msg) ∧
      Holds memory (.text row ::ₘ ((MsgShape.idle msg).cells + 0)) := by
  obtain ⟨msg, first, -, -, idle, holds, -⟩ :=
    msgInit_spec initialMemory_holds (.worker 0)
  obtain ⟨row, second, -, -, holdsSecond, frame, text⟩ :=
    mallocText_spec holds line
  exact ⟨second, msg, row, text,
    idle.frame frame fun cell member => Multiset.mem_add.mpr (.inl member),
    holdsSecond⟩

theorem decoderCommand_countKept_two : ∃ memory msg row res after,
    memory.text row = some (ascii "+GET 2") ∧
      decoderCommand msg row memory = .ok res after ∧
      CountKept 2 msg memory res after := by
  obtain ⟨memory, msg, row, text, idle, holds⟩ :=
    exists_idle_message (ascii "+GET 2")
  obtain ⟨res, after, ran, kept⟩ :=
    (@decoderCommand_countKept_iff _ _ _ _ _ (ascii "GET") (ascii "2")
      text idle holds (by decide) (by decide)).mpr
        (.inl ⟨by decide, by decide⟩)
  exact ⟨memory, msg, row, res, after, text, ran, kept⟩

/-- `+GET 65536` completes a request at once, as if it had no parameters. -/
theorem decoderCommand_count_lost : ∃ memory msg row,
    memory.text row = some (ascii "+GET 65536") ∧
      MsgAt memory (.idle msg) ∧
      Holds memory (.text row ::ₘ ((MsgShape.idle msg).cells + 0)) ∧
      ∃ after, decoderCommand msg row memory = .ok .ok after ∧
        (after.msg msg).stat = .done ∧
        ¬ CountKept 65536 msg memory .ok after := by
  obtain ⟨memory, msg, row, text, idle, holds⟩ :=
    exists_idle_message (ascii "+GET 65536")
  have visible : ¬ Vanishes (writtenNumber (ascii "65536")) := by
    rw [← ofInt_atoi_eq_zero_iff]
    decide
  obtain ⟨res, after, ran, cmd, rfl, msgAfter, count⟩ :=
    @decoderCommand_stores _ _ _ _ _ (ascii "GET") _ text idle holds
      (by decide) (by decide) visible
  refine ⟨memory, msg, row, text, idle, holds, after, ran, ?_, ?_⟩
  · have none : cmd.count.toNat = 0 := count.trans (by decide)
    have header := msgAfter.header
    rw [MsgShape.opened] at header
    rw [header]
    simp [MsgShape.stat, none]
  · intro kept
    exact absurd (kept.accepted rfl).1.2 (by decide)

end KetamaRouter
