import KetamaRouter.Source.Ketama

/-!
# MD5 in pieces

`md5_state_t` of `md5.c` and the functions on it, with the two of `ketama.c` that
call them.  Reading behind the end of an array, or writing there, is a fault, and
so is an `int` sum that does not fit; `nbytes << 3` keeps the low 32 bits.
-/

namespace KetamaRouter

/-- `md5_state_t` -/
structure Md5Stream where
  count0 : UInt32
  count1 : UInt32
  abcd : Md5State
  buf : Bytes
  buf_length : buf.length = 64
  deriving DecidableEq

abbrev Md5Program := EStateM Fault Md5Stream

/-- `md5_init`, which leaves `buf` as it is. -/
def md5StreamInit : Md5Program Unit :=
  modify fun pms => { pms with count0 := 0, count1 := 0, abcd := md5Init }

/-- `memcpy(pms->buf + offset, p, copy)` -/
def md5Copy (offset copy : Nat) (p : Bytes) : Md5Program Unit := do
  let pms ← get
  if room : offset + copy ≤ 64 ∧ copy ≤ p.length then
    set { pms with
      buf := pms.buf.take offset ++ p.take copy ++ pms.buf.drop (offset + copy)
      buf_length := by
        have whole := pms.buf_length
        simp only [List.length_append, List.length_take, List.length_drop]
        omega }
  else
    throw .outOfBounds

/-- `md5_process(pms, p)` -/
def md5ProcessAt (p : Bytes) : Md5Program Unit := do
  if 64 ≤ p.length then
    modify fun pms => { pms with abcd := md5Process pms.abcd (p.take 64) }
  else
    throw .outOfBounds

/-- The end of `md5_append`: full blocks, and a final partial one. -/
def md5Blocks (left : Nat) (p : Bytes) : Md5Program Unit := do
  if 64 ≤ left then
    md5ProcessAt p
    md5Blocks (left - 64) (p.drop 64)
  else if left ≠ 0 then
    md5Copy 0 left p
termination_by left

/-- The message length, in bits, after `nbytes` more. -/
def md5Count (nbytes : Int32) (pms : Md5Stream) : Md5Stream :=
  let nbits := nbytes.toUInt32 <<< 3
  let count1 := pms.count1 + (nbytes >>> 29).toUInt32
  let count0 := pms.count0 + nbits
  { pms with
    count0 := count0
    count1 := if count0 < nbits then count1 + 1 else count1 }

/-- The part of `md5_append` that takes in the bytes, `offset` of them being in
`buf` already. -/
def md5TakeIn (offset left : Nat) (data : Bytes) : Md5Program Unit := do
  if offset = 0 then
    md5Blocks left data
  else if intMax < offset + left then
    throw .unspecified
  else
    let copy := if offset + left > 64 then 64 - offset else left
    md5Copy offset copy data
    if offset + copy < 64 then
      return ()
    else
      md5ProcessAt (← get).buf
      md5Blocks (left - copy) (data.drop copy)

def md5Append (data : Bytes) (nbytes : Int32) : Md5Program Unit := do
  let offset := ((← get).count0 >>> 3 &&& 63).toNat
  if nbytes ≤ 0 then
    return ()
  else
    modify (md5Count nbytes)
    md5TakeIn offset nbytes.toNatClampNeg data

/-- `pad` of `md5_finish` -/
def md5Pad : Bytes :=
  0x80 :: List.replicate 63 0

/-- `(md5_byte_t)(words[i >> 2] >> ((i & 3) << 3))` -/
def md5ByteAt (words : List UInt32) (i : Nat) : UInt8 :=
  (words.getD (i >>> 2) 0 >>> UInt32.ofNat ((i &&& 3) <<< 3)).toUInt8

def md5Finish : Md5Program (Fin 16 → UInt8) := do
  let pms ← get
  let data := (List.range 8).map (md5ByteAt [pms.count0, pms.count1])
  md5Append md5Pad (((55 : UInt32) - pms.count0 >>> 3 &&& 63) + 1).toInt32
  md5Append data 8
  let abcd := (← get).abcd
  return fun i => md5ByteAt [abcd.a, abcd.b, abcd.c, abcd.d] i

/-- `Ketama_md5_digest`; the conversion to `int` keeps the low 32 bits. -/
def ketamaMd5Digest (inString : Bytes) (inLen : UInt64) :
    Md5Program (Fin 16 → UInt8) := do
  md5StreamInit
  md5Append inString inLen.toUInt32.toInt32
  md5Finish

/-- `Ketama_hashi` -/
def ketamaStreamHashi (inString : Bytes) (inLen : UInt64) :
    Md5Program UInt32 := do
  let digest ← ketamaMd5Digest inString inLen
  return digestPoint digest ⟨0, Nat.zero_lt_succ 3⟩

end KetamaRouter
