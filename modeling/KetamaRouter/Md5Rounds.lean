import KetamaRouter.Library.RegisterRenaming
import KetamaRouter.Source.Md5Process

/-!
# The 64 operations are a loop

`md5_process` writes its operations out and names the registers in turn, so that
none has to be moved.  It takes the words of a block the way that suits the
machine.  Both give what the loop gives, on every machine it is compiled for.
-/

namespace KetamaRouter

open RegisterRenaming

/-- Where each register of the loop comes from when they change places. -/
def md5Turn : Equiv.Perm Md5Register where
  toFun
    | .a => .d
    | .b => .a
    | .c => .b
    | .d => .c
  invFun
    | .a => .b
    | .b => .c
    | .c => .d
    | .d => .a
  left_inv register := by cases register <;> rfl
  right_inv register := by cases register <;> rfl

theorem md5Turn_full : md5Turn ^ 64 = 1 := by
  have four : md5Turn ^ 4 = 1 := by
    ext register
    cases register <;> rfl
  calc md5Turn ^ 64 = (md5Turn ^ 4) ^ 16 := (pow_mul md5Turn 4 16)
    _ = 1 := by rw [four, one_pow]

namespace Md5State

theorem register_injective : Function.Injective register := by
  intro left right equal
  obtain ⟨a, b, c, d⟩ := left
  obtain ⟨a', b', c', d'⟩ := right
  have atA : a = a' := congrFun equal .a
  have atB : b = b' := congrFun equal .b
  have atC : c = c' := congrFun equal .c
  have atD : d = d' := congrFun equal .d
  subst atA atB atC atD
  rfl

theorem assign_register (locals : Md5State) (target : Md5Register)
    (word : UInt32) :
    (locals.assign target word).register =
      Function.update locals.register target word := by
  funext register
  cases target <;> cases register <;> rfl

end Md5State

/-- What operation number `operation` assigns to `a` before the registers change
places. -/
def md5Assignment (X : List UInt32) (operation : Nat) :
    Assignment Md5Register UInt32 :=
  let round := operation / 16
  let step := operation % 16
  { target := .a
    value := fun registers =>
      md5RotateLeft
        (registers .a + md5Round round (registers .b) (registers .c)
            (registers .d) +
          X.getD (md5Word round step) 0 + md5Table.getD operation 0)
        (md5Shift round step) + registers .b }

theorem md5Set_register (X : List UInt32) (state : Md5State) (operation : Nat) :
    (md5Set X state operation).register =
      movingPass md5Turn (md5Assignment X) state.register operation := by
  funext register
  cases register <;> rfl

theorem md5Set_loop (X : List UInt32) (state : Md5State)
    (operations : List Nat) :
    (operations.foldl (md5Set X) state).register =
      operations.foldl (movingPass md5Turn (md5Assignment X))
        state.register := by
  induction operations generalizing state with
  | nil => rfl
  | cons operation operations induction =>
      rw [List.foldl_cons, induction, md5Set_register, List.foldl_cons]

/-- The use of `SET` that stands in place `operation`. -/
def md5OperationAt (operation : Nat) : Md5Operation :=
  let names := md5Turn ^ operation
  { a := names .a
    b := names .b
    c := names .c
    d := names .d
    k := md5Word (operation / 16) (operation % 16)
    s := md5Shift (operation / 16) (operation % 16)
    i := operation + 1 }

theorem md5T_eq : md5T = md5Table := by decide

theorem md5OperationAt_set (X : List UInt32) (locals : Md5State)
    (operation : Nat) :
    ((md5OperationAt operation).set (md5Round (operation / 16)) X
        locals).register =
      stayingPass md5Turn (md5Assignment X) locals.register operation := by
  simp only [Md5Operation.set, Md5State.assign_register, md5T_eq]
  rfl

theorem md5OperationAt_round (X : List UInt32) (round : Nat)
    (operations : List Nat) (within : ∀ place ∈ operations, place / 16 = round)
    (locals : Md5State) :
    ((operations.map md5OperationAt).foldl
        (Md5Operation.set (md5Round round) X) locals).register =
      operations.foldl (stayingPass md5Turn (md5Assignment X))
        locals.register := by
  induction operations generalizing locals with
  | nil => rfl
  | cons operation operations induction =>
      have first : operation / 16 = round := within operation (by simp)
      rw [List.map_cons, List.foldl_cons, List.foldl_cons,
        induction (fun place member => within place (by simp [member]))]
      rw [← md5OperationAt_set, first]

theorem md5Round1_eq : md5Round1 = (List.range' 0 16).map md5OperationAt := by
  decide

theorem md5Round2_eq : md5Round2 = (List.range' 16 16).map md5OperationAt := by
  decide

theorem md5Round3_eq : md5Round3 = (List.range' 32 16).map md5OperationAt := by
  decide

theorem md5Round4_eq : md5Round4 = (List.range' 48 16).map md5OperationAt := by
  decide

/-- The four rounds, on the words `X`. -/
theorem md5Rounds_eq (X : List UInt32) (abcd : Md5State) :
    md5Round4.foldl (Md5Operation.set md5I X)
        (md5Round3.foldl (Md5Operation.set md5H X)
          (md5Round2.foldl (Md5Operation.set md5G X)
            (md5Round1.foldl (Md5Operation.set md5F X) abcd))) =
      (List.range 64).foldl (md5Set X) abcd := by
  have first := md5OperationAt_round X 0 (List.range' 0 16) (by decide)
  have second := md5OperationAt_round X 1 (List.range' 16 16) (by decide)
  have third := md5OperationAt_round X 2 (List.range' 32 16) (by decide)
  have fourth := md5OperationAt_round X 3 (List.range' 48 16) (by decide)
  have split : List.range 64 = List.range' 0 16 ++ List.range' 16 16 ++
      List.range' 32 16 ++ List.range' 48 16 := by decide
  apply Md5State.register_injective
  calc _ = (List.range 64).foldl (stayingPass md5Turn (md5Assignment X))
            abcd.register := by
          rw [md5Round1_eq, md5Round2_eq, md5Round3_eq, md5Round4_eq, split]
          simp only [List.foldl_append]
          rw [← first, ← second, ← third, ← fourth]
          rfl
    _ = (List.range 64).foldl (movingPass md5Turn (md5Assignment X))
          abcd.register :=
        (moving_eq_staying_of_full md5Turn _ _ md5Turn_full).symm
    _ = ((List.range 64).foldl (md5Set X) abcd).register :=
        (md5Set_loop X abcd _).symm

/-- A byte below a shifted word: no bit is set in both. -/
theorem md5_or_eq_add (word : UInt32) (byte : UInt8) :
    word <<< 8 ||| byte.toUInt32 = byte.toUInt32 + 256 * word := by
  apply UInt32.toNat_inj.mp
  have small : byte.toNat < 2 ^ 8 := byte.toNat_lt
  simp only [UInt32.toNat_or, UInt32.toNat_shiftLeft, UInt32.toNat_add,
    UInt32.toNat_mul, UInt8.toNat_toUInt32]
  have low : word.toNat <<< 8 % 2 ^ 32 = 2 ^ 8 * (word.toNat % 2 ^ 24) := by
    rw [Nat.shiftLeft_eq]
    omega
  change word.toNat <<< 8 % 2 ^ 32 ||| byte.toNat =
    (byte.toNat + 256 * word.toNat % 2 ^ 32) % 2 ^ 32
  rw [low, ← Nat.two_pow_add_eq_or_of_lt small]
  omega

/-- The first four bytes, taken apart. -/
theorem md5_take_four (xp : Bytes) (long : 4 ≤ xp.length) :
    xp.take 4 = [xp.getD 0 0, xp.getD 1 0, xp.getD 2 0, xp.getD 3 0] := by
  match xp with
  | _ :: _ :: _ :: _ :: _ => rfl

/-- A shift to the left that keeps a place in the word is a product. -/
theorem md5_shift_eq (word : UInt32) {places : UInt32} (fits : places < 32) :
    word <<< places = UInt32.ofNat (2 ^ places.toNat) * word := by
  apply UInt32.toNat_inj.mp
  have inside : places.toNat < 32 := UInt32.lt_iff_toNat_lt.mp fits
  rw [UInt32.toNat_shiftLeft, Nat.mod_eq_of_lt inside, UInt32.toNat_mul,
    UInt32.toNat_ofNat', Nat.shiftLeft_eq, Nat.mul_comm, Nat.mod_mul_mod]

theorem md5Assembled_eq (xp : Bytes) (long : 4 ≤ xp.length) :
    md5Assembled xp = md5WordOf (xp.take 4) := by
  have eight (word : UInt32) : word <<< 8 = 256 * word :=
    md5_shift_eq word (by decide)
  have sixteen (word : UInt32) : word <<< 16 = 65536 * word :=
    md5_shift_eq word (by decide)
  have twentyFour (word : UInt32) : word <<< 24 = 16777216 * word :=
    md5_shift_eq word (by decide)
  rw [md5_take_four xp long]
  simp only [md5WordOf, List.foldr_cons, List.foldr_nil, md5_or_eq_add]
  rw [md5Assembled, eight, sixteen, twentyFour]
  grind

theorem md5WordsAt_little (data : Bytes) :
    md5WordsAt .little data = md5Words data :=
  rfl

theorem md5WordsAt_take (order : ByteOrder) (data : Bytes) :
    md5WordsAt order (data.take 64) = md5WordsAt order data := by
  apply List.map_congr_left
  intro i member
  have small : i < 16 := List.mem_range.mp member
  rw [List.drop_take, List.take_take, Nat.min_eq_left (by omega)]

theorem md5Assembled_words (data : Bytes) (full : data.length = 64) :
    ((List.range 16).map fun i => md5Assembled (data.drop (4 * i))) =
      md5Words data := by
  apply List.map_congr_left
  intro i member
  have small : i < 16 := List.mem_range.mp member
  exact md5Assembled_eq (data.drop (4 * i)) (by
    rw [List.length_drop]
    omega)

/-- The first byte of a stored 1 tells the byte order. -/
theorem stored_one (order : ByteOrder) :
    (order.stored 4 1).headD 0 ≠ 0 ↔ order = .little := by
  cases order <;> decide

theorem md5X_eq (archIsBigEndian : Option Bool) (order : ByteOrder)
    (address : Nat) (data : Bytes) (full : data.length = 64)
    (allowed : archIsBigEndian = some false → order = .little) :
    md5X archIsBigEndian order address data = md5Words data := by
  simp only [md5X, stored_one, md5WordsAt_take, ite_self]
  split
  next direct =>
    have little : order = .little := by
      rcases direct with negative | ⟨_, little⟩
      · apply allowed
        match archIsBigEndian with
        | some false => rfl
      · exact little
    rw [little, md5WordsAt_little]
  next => exact md5Assembled_words data full

/-- A block that a big-endian machine must not read word by word. -/
theorem md5Process_misread :
    md5ProcessUnrolled (some false) .big 0 md5Init
        (1 :: List.replicate 63 0) ≠
      md5Process md5Init (1 :: List.replicate 63 0) := by
  decide +kernel

/-- On every machine, except where the compilation is told that a big-endian
machine is a little-endian one. -/
theorem md5Process_compiled (archIsBigEndian : Option Bool)
    (order : ByteOrder) :
    (∀ address abcd data, data.length = 64 →
        md5ProcessUnrolled archIsBigEndian order address abcd data =
          md5Process abcd data) ↔
      (archIsBigEndian = some false → order = .little) := by
  constructor
  · rintro agrees rfl
    cases order with
    | little => rfl
    | big => exact absurd (agrees 0 md5Init _ (by simp)) md5Process_misread
  · intro allowed address abcd data full
    have words := md5X_eq archIsBigEndian order address data full allowed
    simp only [md5ProcessUnrolled, words, md5Rounds_eq]
    rfl

end KetamaRouter
