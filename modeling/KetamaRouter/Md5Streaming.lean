import Mathlib.Algebra.Ring.Int.Defs
import Mathlib.Tactic.IntervalCases
import KetamaRouter.Library.BlockBuffer
import KetamaRouter.Source.Md5Stream

/-!
# The digest of a message in pieces

Between two calls of `md5_append`, the registers and the buffer hold the message
so far, and the two words of the length count its bits.  However a message is cut
into pieces, `md5_finish` returns the digest of the whole.
-/

namespace KetamaRouter

open FaultProgram BlockBuffer

variable {pms : Md5Stream} {message data p : Bytes} {nbytes : Int32}
  {left : Nat}

/-- What an MD5 state knows of the message so far. -/
structure Md5Stream.Holds (pms : Md5Stream) (message : Bytes) : Prop where
  bits : pms.count0.toNat + 2 ^ 32 * pms.count1.toNat =
    8 * message.length % 2 ^ 64
  buffers : Buffers md5Process 64 md5Init message pms.abcd pms.buf

/-- Two states with the same length words. -/
structure Md5Stream.SameCount (pms after : Md5Stream) : Prop where
  count0 : after.count0 = pms.count0
  count1 : after.count1 = pms.count1

theorem Md5Stream.Holds.offset (holds : pms.Holds message) :
    (pms.count0 >>> 3 &&& 63).toNat = message.length % 64 := by
  have bits := holds.bits
  have small := pms.count0.toNat_lt
  have masked : (pms.count0 >>> 3 &&& 63).toNat = pms.count0.toNat / 8 % 64 := by
    rw [UInt32.toNat_and, UInt32.toNat_shiftRight]
    change pms.count0.toNat >>> 3 &&& (2 ^ 6 - 1) = _
    rw [Nat.and_two_pow_sub_one_eq_mod, Nat.shiftRight_eq_div_pow]
  omega

/-- A positive `int` in three bits more, lower word. -/
theorem nbits_toNat (positive : 0 < nbytes.toInt) :
    (nbytes.toUInt32 <<< 3).toNat = 8 * nbytes.toNatClampNeg % 2 ^ 32 := by
  have low := Int32.toNat_toUInt32_of_le
    (Int32.le_iff_toInt_le.mpr (Int.le_of_lt positive))
  rw [UInt32.toNat_shiftLeft, low, Nat.shiftLeft_eq, Nat.mul_comm]
  rfl

/-- A positive `int` in three bits more, upper word. -/
theorem nbytes_shift_toNat (positive : 0 < nbytes.toInt) :
    (nbytes >>> 29).toUInt32.toNat = nbytes.toNatClampNeg / 2 ^ 29 := by
  have low := Int32.toNat_toBitVec_of_le
    (Int32.le_iff_toInt_le.mpr (Int.le_of_lt positive))
  have shifted : (nbytes >>> 29).toUInt32.toBitVec =
      nbytes.toBitVec.sshiftRight 29 :=
    rfl
  have sign : nbytes.toBitVec.msb = false := by
    rw [BitVec.msb_eq_toInt]
    exact decide_eq_false (Int.not_lt.mpr (Int.le_of_lt positive))
  rw [← UInt32.toNat_toBitVec, shifted,
    BitVec.toNat_sshiftRight_of_msb_false sign, low,
    Nat.shiftRight_eq_div_pow]

/-- The sum over both words, with the carry between them. -/
theorem md5Count_bits {length : Nat} (positive : 0 < nbytes.toInt)
    (bits : pms.count0.toNat + 2 ^ 32 * pms.count1.toNat = 8 * length % 2 ^ 64) :
    (md5Count nbytes pms).count0.toNat +
        2 ^ 32 * (md5Count nbytes pms).count1.toNat =
      8 * (length + nbytes.toNatClampNeg) % 2 ^ 64 := by
  have lower := nbits_toNat positive
  have upper := nbytes_shift_toNat positive
  have fits := nbytes.toNatClampNeg_lt
  have small0 := pms.count0.toNat_lt
  have small1 := pms.count1.toNat_lt
  have sum : (pms.count0 + nbytes.toUInt32 <<< 3).toNat =
      (pms.count0.toNat + 8 * nbytes.toNatClampNeg % 2 ^ 32) % 2 ^ 32 := by
    rw [UInt32.toNat_add, lower]
  simp only [md5Count]
  split
  · rename_i carry
    rw [UInt32.lt_iff_toNat_lt, sum, lower] at carry
    rw [sum, UInt32.toNat_add, UInt32.toNat_add, upper]
    change _ + 2 ^ 32 * (((_ + _) % 2 ^ 32 + 1) % 2 ^ 32) = _
    omega
  · rename_i carry
    rw [UInt32.lt_iff_toNat_lt, sum, lower] at carry
    rw [sum, UInt32.toNat_add, upper]
    omega

theorem md5ProcessAt_spec (enough : 64 ≤ p.length) :
    Yields (md5ProcessAt p) pms fun _ after =>
      after = { pms with abcd := md5Process pms.abcd (p.take 64) } := by
  unfold md5ProcessAt
  rw [if_pos enough]
  apply Yields.modify
  rfl

/-- Copying within both arrays. -/
theorem md5Copy_spec {offset copy : Nat} (room : offset + copy ≤ 64)
    (enough : copy ≤ p.length) :
    Yields (md5Copy offset copy p) pms fun _ after =>
      pms.SameCount after ∧ after.abcd = pms.abcd ∧
        after.buf = pms.buf.take offset ++ p.take copy ++
          pms.buf.drop (offset + copy) := by
  unfold md5Copy
  apply Yields.get_bind
  rw [dif_pos ⟨room, enough⟩]
  apply Yields.set
  exact ⟨⟨rfl, rfl⟩, rfl, rfl⟩

/-- From a whole number of blocks on, the rest of the piece is taken in. -/
theorem md5Blocks_spec (enough : left ≤ p.length)
    (aligned : message.length % 64 = 0)
    (buffers : Buffers md5Process 64 md5Init message pms.abcd pms.buf) :
    Yields (md5Blocks left p) pms fun _ after =>
      pms.SameCount after ∧
        Buffers md5Process 64 md5Init (message ++ p.take left) after.abcd
          after.buf := by
  induction left using Nat.strongRecOn generalizing p message pms with
  | ind left induction =>
      unfold md5Blocks
      by_cases whole : 64 ≤ left
      · rw [if_pos whole]
        have long : 64 ≤ p.length := Nat.le_trans whole enough
        apply Yields.bind (md5ProcessAt_spec long)
        intro _ middle processed
        subst processed
        have block : (p.take 64).length = 64 := List.length_take_of_le long
        let next := { pms with abcd := md5Process pms.abcd (p.take 64) }
        have taken : Buffers md5Process 64 md5Init (message ++ p.take 64)
            next.abcd next.buf :=
          buffers.direct (by decide) aligned block pms.buf
        have rest : left - 64 ≤ (p.drop 64).length := by
          rw [List.length_drop]
          omega
        have alignedAfter : (message ++ p.take 64).length % 64 = 0 := by
          rw [List.length_append, block]
          omega
        apply (induction (left - 64) (by omega) rest alignedAfter taken).mono
        intro _ after holds
        obtain ⟨counts, absorbed⟩ := holds
        refine ⟨⟨counts.count0, counts.count1⟩, ?_⟩
        have split : p.take left = p.take 64 ++ (p.drop 64).take (left - 64) := by
          rw [← List.take_add, Nat.add_sub_cancel' whole]
        rw [split, ← List.append_assoc]
        exact absorbed
      · rw [if_neg whole]
        by_cases some : left = 0
        · rw [if_neg (not_not_intro some), some, List.take_zero, List.append_nil]
          apply Yields.pure
          exact ⟨⟨rfl, rfl⟩, buffers⟩
        · rw [if_pos some]
          apply (md5Copy_spec (by omega) enough).mono
          intro _ after copied
          obtain ⟨counts, registers, buffer⟩ := copied
          have short : message.length % 64 + (p.take left).length < 64 := by
            rw [aligned, List.length_take_of_le enough]
            omega
          have filled := buffers.fill short (pms.buf.drop (0 + left))
          rw [aligned] at filled
          rw [registers, buffer]
          exact ⟨counts, filled⟩

/-- The bytes are taken in whatever there is in the buffer. -/
theorem md5TakeIn_spec (enough : left ≤ data.length)
    (fits : message.length % 64 = 0 ∨ message.length % 64 + left ≤ intMax)
    (buffers : Buffers md5Process 64 md5Init message pms.abcd pms.buf) :
    Yields (md5TakeIn (message.length % 64) left data) pms fun _ after =>
      pms.SameCount after ∧
        Buffers md5Process 64 md5Init (message ++ data.take left) after.abcd
          after.buf := by
  have below : message.length % 64 < 64 := Nat.mod_lt _ (by decide)
  unfold md5TakeIn
  split
  · rename_i aligned
    exact md5Blocks_spec enough aligned buffers
  · rename_i partly
    rw [if_neg (Nat.not_lt.mpr (fits.resolve_left partly))]
    extract_lets copy
    have most : copy ≤ left := by
      simp only [copy]
      split <;> omega
    have room : message.length % 64 + copy ≤ 64 := by
      simp only [copy]
      split <;> omega
    have all : message.length % 64 + copy < 64 → copy = left := by
      simp only [copy]
      split <;> omega
    have enoughCopy : copy ≤ data.length := Nat.le_trans most enough
    have taken : (data.take copy).length = copy :=
      List.length_take_of_le enoughCopy
    apply Yields.bind (md5Copy_spec room enoughCopy)
    intro _ middle copied
    obtain ⟨counts, registers, buffer⟩ := copied
    split
    · -- the block stays short, so the piece is at its end
      rename_i short
      apply Yields.pure
      refine ⟨counts, ?_⟩
      rw [registers, buffer, ← all short]
      apply buffers.fill
      rw [taken]
      exact short
    · rename_i full
      have whole : message.length % 64 + copy = 64 := by omega
      have middleLength := middle.buf_length
      have block : pms.buf.take (message.length % 64) ++ data.take copy =
          middle.buf.take 64 := by
        rw [List.take_of_length_le (Nat.le_of_eq middleLength), buffer, whole,
          List.drop_of_length_le (Nat.le_of_eq pms.buf_length), List.append_nil]
      rw [← taken] at whole
      let next := { middle with
        abcd := md5Process middle.abcd (middle.buf.take 64) }
      have completed : Buffers md5Process 64 md5Init
          (message ++ data.take copy) next.abcd next.buf := by
        have filled := buffers.complete (by decide) whole middle.buf
        rw [block, ← registers] at filled
        exact filled
      apply Yields.get_bind
      apply Yields.bind (md5ProcessAt_spec (Nat.le_of_eq middleLength.symm))
      intro _ processed same
      subst same
      have length : (message ++ data.take copy).length % 64 = 0 := by
        rw [List.length_append, taken]
        omega
      have rest : left - copy ≤ (data.drop copy).length := by
        rw [List.length_drop]
        omega
      apply (md5Blocks_spec rest length completed).mono
      intro _ after done
      obtain ⟨countsAfter, absorbed⟩ := done
      refine ⟨⟨countsAfter.count0.trans counts.count0,
        countsAfter.count1.trans counts.count1⟩, ?_⟩
      have split : data.take left =
          data.take copy ++ (data.drop copy).take (left - copy) := by
        rw [← List.take_add, Nat.add_sub_cancel' most]
      rw [split, ← List.append_assoc]
      exact absorbed

/-- `md5_append` takes in the first `nbytes` bytes, if there are any. -/
theorem md5Append_spec (holds : pms.Holds message)
    (enough : nbytes.toNatClampNeg ≤ data.length)
    (fits : message.length % 64 = 0 ∨
      message.length % 64 + nbytes.toNatClampNeg ≤ intMax) :
    Yields (md5Append data nbytes) pms fun _ after =>
      after.Holds (message ++ data.take nbytes.toNatClampNeg) := by
  unfold md5Append
  apply Yields.get_bind
  dsimp only
  rw [holds.offset]
  split
  · rename_i none
    have zero : nbytes.toNatClampNeg = 0 :=
      Int.toNat_of_nonpos (Int32.le_iff_toInt_le.mp none)
    rw [zero, List.take_zero, List.append_nil]
    apply Yields.pure
    exact holds
  · rename_i some
    have positive : 0 < nbytes.toInt := by
      rw [Int32.le_iff_toInt_le] at some
      exact Int.not_le.mp some
    have counted := md5Count_bits positive holds.bits
    apply Yields.modify_bind
    have buffers : Buffers md5Process 64 md5Init message
        (md5Count nbytes pms).abcd (md5Count nbytes pms).buf :=
      holds.buffers
    apply (md5TakeIn_spec enough fits buffers).mono
    intro _ after done
    obtain ⟨counts, buffers⟩ := done
    refine ⟨?_, buffers⟩
    rw [counts.count0, counts.count1, List.length_append,
      List.length_take_of_le enough]
    exact counted

/-- A byte of a word, which the last byte of a number is taken from. -/
theorem md5ByteAt_eq (words : List UInt32) (i : Nat) :
    md5ByteAt words i =
      UInt8.ofNat ((words.getD (i / 4) 0).toNat / 256 ^ (i % 4)) := by
  have place : i >>> 2 = i / 4 := Nat.shiftRight_eq_div_pow i 2
  have shift : (i &&& 3) <<< 3 = 8 * (i % 4) := by
    rw [Nat.shiftLeft_eq, Nat.mul_comm]
    exact congrArg (8 * ·) (Nat.and_two_pow_sub_one_eq_mod i 2)
  have below : i % 4 < 4 := Nat.mod_lt i (by decide)
  have fits : 8 * (i % 4) < UInt32.size := by
    change 8 * (i % 4) < 4294967296
    omega
  have small : 8 * (i % 4) % 32 = 8 * (i % 4) := Nat.mod_eq_of_lt (by omega)
  apply UInt8.toNat_inj.mp
  unfold md5ByteAt
  rw [place, shift, UInt32.toNat_toUInt8, UInt32.toNat_shiftRight,
    UInt32.toNat_ofNat_of_lt' fits, small, Nat.shiftRight_eq_div_pow,
    UInt8.toNat_ofNat', Nat.pow_mul]

/-- The eight bytes of the length. -/
theorem Md5Stream.Holds.lengthBytes (holds : pms.Holds message) :
    (List.range 8).map (md5ByteAt [pms.count0, pms.count1]) =
      md5Bytes 8 (8 * message.length) := by
  have bits := holds.bits
  have small0 := pms.count0.toNat_lt
  have small1 := pms.count1.toNat_lt
  unfold md5Bytes
  apply List.map_congr_left
  intro i member
  have below := List.mem_range.mp member
  rw [md5ByteAt_eq]
  apply UInt8.toNat_inj.mp
  rw [UInt8.toNat_ofNat', UInt8.toNat_ofNat']
  interval_cases i <;> simp <;> omega

theorem toInt32_toNatClampNeg {number : UInt32} (small : number.toNat < 2 ^ 31) :
    number.toInt32.toNatClampNeg = number.toNat := by
  have value : number.toInt32.toInt = number.toNat :=
    BitVec.toInt_eq_toNat_of_lt (by
      change 2 * number.toNat < 2 ^ 32
      omega)
  rw [← Int32.toNat_toInt, value, Int.toNat_natCast]

/-- The bytes `md5_finish` pads with. -/
theorem Md5Stream.Holds.padding (holds : pms.Holds message) :
    (((55 : UInt32) - pms.count0 >>> 3 &&& 63) + 1).toInt32.toNatClampNeg =
      (119 - message.length % 64) % 64 + 1 := by
  have bits := holds.bits
  have small := pms.count0.toNat_lt
  have shifted : (pms.count0 >>> 3).toNat = pms.count0.toNat / 8 := by
    rw [UInt32.toNat_shiftRight]
    exact Nat.shiftRight_eq_div_pow _ 3
  have masked : ((55 : UInt32) - pms.count0 >>> 3 &&& 63).toNat =
      (119 - message.length % 64) % 64 := by
    rw [UInt32.toNat_and, UInt32.toNat_sub, shifted]
    change (2 ^ 32 - pms.count0.toNat / 8 + 55) % 2 ^ 32 &&& (2 ^ 6 - 1) = _
    rw [Nat.and_two_pow_sub_one_eq_mod]
    omega
  have total : (((55 : UInt32) - pms.count0 >>> 3 &&& 63) + 1).toNat =
      (119 - message.length % 64) % 64 + 1 := by
    rw [UInt32.toNat_add, masked]
    change (_ + 1) % 2 ^ 32 = _
    omega
  rw [toInt32_toNatClampNeg (by omega), total]

theorem md5Pad_take {count : Nat} (short : count < 64) :
    md5Pad.take (count + 1) = 0x80 :: List.replicate count 0 := by
  unfold md5Pad
  rw [List.take_succ_cons, List.take_replicate, Nat.min_eq_left (by omega)]

/-- The registers as the bytes of the digest. -/
theorem digestBytes (state : Md5State) (place : Fin 16) :
    md5ByteAt [state.a, state.b, state.c, state.d] place =
      ([state.a, state.b, state.c, state.d].flatMap fun word =>
        md5Bytes 4 word.toNat).getD place 0 := by
  rw [md5ByteAt_eq]
  obtain ⟨place, below⟩ := place
  interval_cases place <;> simp [md5Bytes, List.range_succ]

/-- Padding and the length make up whole blocks, the last ones of the digest. -/
theorem md5Finish_spec (holds : pms.Holds message) :
    Yields md5Finish pms fun digest _ => digest = md5Digest message := by
  have count := holds.padding
  have short := Nat.mod_lt (119 - message.length % 64) (by decide : 0 < 64)
  unfold md5Finish
  apply Yields.get_bind
  dsimp only
  rw [holds.lengthBytes]
  have enough : (119 - message.length % 64) % 64 + 1 ≤ md5Pad.length := by
    change _ ≤ 64
    omega
  rw [← count] at enough
  have fits : message.length % 64 + ((119 - message.length % 64) % 64 + 1) ≤
      intMax := by
    unfold intMax
    omega
  rw [← count] at fits
  apply Yields.bind (md5Append_spec holds enough (.inr fits))
  intro _ padded holdsPadded
  rw [count, md5Pad_take short] at holdsPadded
  have eight : (md5Bytes 8 (8 * message.length)).length = 8 := by
    rw [md5Bytes, List.length_map, List.length_range]
  have allEight : Int32.toNatClampNeg 8 = 8 := rfl
  have enoughEight : Int32.toNatClampNeg 8 ≤
      (md5Bytes 8 (8 * message.length)).length := Nat.le_of_eq eight.symm
  apply Yields.bind (md5Append_spec holdsPadded enoughEight
    (.inr (by rw [allEight]; unfold intMax; omega)))
  intro _ last holdsLast
  rw [allEight, List.take_of_length_le (Nat.le_of_eq eight)] at holdsLast
  apply Yields.get_bind
  apply Yields.pure
  have registers : last.abcd =
      absorb md5Process 64 md5Init (md5Padded message) :=
    holdsLast.buffers.absorbed
  funext place
  rw [digestBytes, registers]
  rfl

theorem md5StreamInit_spec (pms : Md5Stream) :
    Yields md5StreamInit pms fun _ after => after.Holds [] := by
  apply Yields.modify
  exact ⟨rfl, Buffers.start md5Init pms.buf⟩

/-- A call of `md5_append` for each piece. -/
def md5AppendAll (calls : List (Bytes × Int32)) : Md5Program Unit :=
  calls.forM fun call => md5Append call.1 call.2

/-- What the calls say their message is. -/
def md5Pieces (calls : List (Bytes × Int32)) : Bytes :=
  calls.flatMap fun call => call.1.take call.2.toNatClampNeg

theorem md5AppendAll_spec {calls : List (Bytes × Int32)}
    (holds : pms.Holds message)
    (enough : ∀ call ∈ calls, call.2.toNatClampNeg ≤ call.1.length)
    (fits : ∀ call ∈ calls, call.2.toNatClampNeg + 63 ≤ intMax) :
    Yields (md5AppendAll calls) pms fun _ after =>
      after.Holds (message ++ md5Pieces calls) := by
  induction calls generalizing pms message with
  | nil =>
      apply Yields.pure
      rw [md5Pieces, List.flatMap_nil, List.append_nil]
      exact holds
  | cons call calls induction =>
      have below : message.length % 64 < 64 := Nat.mod_lt _ (by decide)
      have first := fits call List.mem_cons_self
      apply Yields.bind (md5Append_spec holds (enough call List.mem_cons_self)
        (.inr (by omega)))
      intro _ middle taken
      rw [md5Pieces, List.flatMap_cons, ← List.append_assoc]
      apply induction taken
      · intro later member
        exact enough later (List.mem_cons_of_mem call member)
      · intro later member
        exact fits later (List.mem_cons_of_mem call member)

/-- However a message is cut, and whatever the state held before `md5_init`, its
digest is that of the whole, and no access leaves an array. -/
theorem md5_of_pieces (pms : Md5Stream) (calls : List (Bytes × Int32))
    (enough : ∀ call ∈ calls, call.2.toNatClampNeg ≤ call.1.length)
    (fits : ∀ call ∈ calls, call.2.toNatClampNeg + 63 ≤ intMax) :
    Yields (do md5StreamInit; md5AppendAll calls; md5Finish) pms
      fun digest _ => digest = md5Digest (md5Pieces calls) := by
  apply Yields.bind (md5StreamInit_spec pms)
  intro _ fresh holds
  apply Yields.bind (md5AppendAll_spec holds enough fits)
  intro _ taken holds
  exact md5Finish_spec holds

theorem md5_of_two_pieces :
    ∃ pms : Md5Stream,
      Yields (do
          md5StreamInit
          md5AppendAll [([97, 98, 0], 2), ([99], 1)]
          md5Finish) pms
        fun digest _ => digest = md5Digest [97, 98, 99] :=
  ⟨{ count0 := 1, count1 := 1, abcd := md5Init, buf := List.replicate 64 7,
      buf_length := List.length_replicate },
    md5_of_pieces _ [([97, 98, 0], 2), ([99], 1)] (by decide) (by decide)⟩

/-- How much of a string of the length `inLen` an `int` lets through. -/
def md5Hashed (inLen : UInt64) : Nat :=
  if inLen.toNat % 2 ^ 32 < 2 ^ 31 then inLen.toNat % 2 ^ 32 else 0

theorem md5Hashed_eq (inLen : UInt64) :
    inLen.toUInt32.toInt32.toNatClampNeg = md5Hashed inLen := by
  have low : inLen.toUInt32.toNat = inLen.toNat % 2 ^ 32 :=
    UInt64.toNat_toUInt32 inLen
  unfold md5Hashed
  rw [← low]
  split
  · rename_i small
    exact toInt32_toNatClampNeg small
  · rename_i large
    have fits := inLen.toUInt32.toNat_lt
    have value : inLen.toUInt32.toInt32.toInt =
        (inLen.toUInt32.toNat : ℤ) - 2 ^ 32 := by
      change BitVec.toInt inLen.toUInt32.toBitVec = _
      rw [BitVec.toInt_eq_toNat_cond, if_neg]
      · rfl
      · change ¬ 2 * inLen.toUInt32.toNat < 2 ^ 32
        omega
    rw [← Int32.toNat_toInt, value]
    omega

/-- `Ketama_hashi` is the hash of the ring's model for every string, except that
a length from `2 ^ 31` on is cut or taken for none. -/
theorem ketamaStreamHashi_eq (pms : Md5Stream) (inString : Bytes)
    (inLen : UInt64) (enough : inLen.toNat ≤ inString.length) :
    Yields (ketamaStreamHashi inString inLen) pms fun h _ =>
      h = ketamaHashi Platform.standard
        (inString.take (md5Hashed inLen)) := by
  have part : md5Hashed inLen ≤ inLen.toNat := by
    unfold md5Hashed
    split
    · exact Nat.mod_le _ _
    · exact Nat.zero_le _
  have enoughInt : inLen.toUInt32.toInt32.toNatClampNeg ≤ inString.length := by
    rw [md5Hashed_eq]
    exact Nat.le_trans part enough
  have digest : Yields (ketamaMd5Digest inString inLen) pms fun digest _ =>
      digest = md5Digest (inString.take (md5Hashed inLen)) := by
    unfold ketamaMd5Digest
    apply Yields.bind (md5StreamInit_spec pms)
    intro _ fresh holds
    apply Yields.bind (md5Append_spec holds enoughInt (.inl rfl))
    intro _ taken holds
    rw [md5Hashed_eq, List.nil_append] at holds
    exact md5Finish_spec holds
  unfold ketamaStreamHashi
  apply Yields.bind digest
  intro digest _ same
  apply Yields.pure
  rw [same]
  rfl

theorem ketamaStreamHashi_eq_short :
    ∃ pms : Md5Stream,
      Yields (ketamaStreamHashi [97, 98, 99] 2) pms fun h _ =>
        h = ketamaHashi Platform.standard [97, 98] :=
  ⟨{ count0 := 1, count1 := 1, abcd := md5Init, buf := List.replicate 64 7,
      buf_length := List.length_replicate },
    ketamaStreamHashi_eq _ [97, 98, 99] 2 (by decide)⟩

end KetamaRouter
