import KetamaRouter.Source.Md5

/-!
# `md5_process` line by line

The 64 uses of `SET` that `md5.c` writes out, with the registers in turn, and
the three ways it takes the words of a block, for machines of either byte order.
`Md5.lean` has the same as a loop, in which the registers change places.
-/

namespace KetamaRouter

/-- The variables `a`, `b`, `c` and `d`. -/
inductive Md5Register where
  | a
  | b
  | c
  | d
  deriving DecidableEq

def Md5State.register (locals : Md5State) : Md5Register → UInt32
  | .a => locals.a
  | .b => locals.b
  | .c => locals.c
  | .d => locals.d

def Md5State.assign (locals : Md5State) (register : Md5Register)
    (word : UInt32) : Md5State :=
  match register with
  | .a => { locals with a := word }
  | .b => { locals with b := word }
  | .c => { locals with c := word }
  | .d => { locals with d := word }

/-- `T_MASK` -/
def md5TMask : UInt32 := ~~~0

/-- `T1` to `T64`, as the source spells them. -/
def md5T : List UInt32 :=
  [md5TMask ^^^ 0x28955b87, md5TMask ^^^ 0x173848a9,
   0x242070db, md5TMask ^^^ 0x3e423111,
   md5TMask ^^^ 0x0a83f050, 0x4787c62a,
   md5TMask ^^^ 0x57cfb9ec, md5TMask ^^^ 0x02b96afe,
   0x698098d8, md5TMask ^^^ 0x74bb0850,
   md5TMask ^^^ 0x0000a44e, md5TMask ^^^ 0x76a32841,
   0x6b901122, md5TMask ^^^ 0x02678e6c,
   md5TMask ^^^ 0x5986bc71, 0x49b40821,
   md5TMask ^^^ 0x09e1da9d, md5TMask ^^^ 0x3fbf4cbf,
   0x265e5a51, md5TMask ^^^ 0x16493855,
   md5TMask ^^^ 0x29d0efa2, 0x02441453,
   md5TMask ^^^ 0x275e197e, md5TMask ^^^ 0x182c0437,
   0x21e1cde6, md5TMask ^^^ 0x3cc8f829,
   md5TMask ^^^ 0x0b2af278, 0x455a14ed,
   md5TMask ^^^ 0x561c16fa, md5TMask ^^^ 0x03105c07,
   0x676f02d9, md5TMask ^^^ 0x72d5b375,
   md5TMask ^^^ 0x0005c6bd, md5TMask ^^^ 0x788e097e,
   0x6d9d6122, md5TMask ^^^ 0x021ac7f3,
   md5TMask ^^^ 0x5b4115bb, 0x4bdecfa9,
   md5TMask ^^^ 0x0944b49f, md5TMask ^^^ 0x4140438f,
   0x289b7ec6, md5TMask ^^^ 0x155ed805,
   md5TMask ^^^ 0x2b10cf7a, 0x04881d05,
   md5TMask ^^^ 0x262b2fc6, md5TMask ^^^ 0x1924661a,
   0x1fa27cf8, md5TMask ^^^ 0x3b53a99a,
   md5TMask ^^^ 0x0bd6ddbb, 0x432aff97,
   md5TMask ^^^ 0x546bdc58, md5TMask ^^^ 0x036c5fc6,
   0x655b59c3, md5TMask ^^^ 0x70f3336d,
   md5TMask ^^^ 0x00100b82, md5TMask ^^^ 0x7a7ba22e,
   0x6fa87e4f, md5TMask ^^^ 0x01d3191f,
   md5TMask ^^^ 0x5cfebceb, 0x4e0811a1,
   md5TMask ^^^ 0x08ac817d, md5TMask ^^^ 0x42c50dca,
   0x2ad7d2bb, md5TMask ^^^ 0x14792c6e]

def md5F (x y z : UInt32) : UInt32 := x &&& y ||| ~~~x &&& z

def md5G (x y z : UInt32) : UInt32 := x &&& z ||| y &&& ~~~z

def md5H (x y z : UInt32) : UInt32 := x ^^^ y ^^^ z

def md5I (x y z : UInt32) : UInt32 := y ^^^ (x ||| ~~~z)

/-- `SET(a, b, c, d, k, s, Ti)` -/
structure Md5Operation where
  a : Md5Register
  b : Md5Register
  c : Md5Register
  d : Md5Register
  k : Nat
  s : UInt32
  i : Nat
  deriving DecidableEq

/-- The macro with the function of its round. -/
def Md5Operation.set (function : UInt32 → UInt32 → UInt32 → UInt32)
    (X : List UInt32) (locals : Md5State) (operation : Md5Operation) :
    Md5State :=
  let t := locals.register operation.a +
    function (locals.register operation.b) (locals.register operation.c)
      (locals.register operation.d) +
    X.getD operation.k 0 + md5T.getD (operation.i - 1) 0
  locals.assign operation.a
    (md5RotateLeft t operation.s + locals.register operation.b)

def md5Round1 : List Md5Operation :=
  [⟨.a, .b, .c, .d, 0, 7, 1⟩,
   ⟨.d, .a, .b, .c, 1, 12, 2⟩,
   ⟨.c, .d, .a, .b, 2, 17, 3⟩,
   ⟨.b, .c, .d, .a, 3, 22, 4⟩,
   ⟨.a, .b, .c, .d, 4, 7, 5⟩,
   ⟨.d, .a, .b, .c, 5, 12, 6⟩,
   ⟨.c, .d, .a, .b, 6, 17, 7⟩,
   ⟨.b, .c, .d, .a, 7, 22, 8⟩,
   ⟨.a, .b, .c, .d, 8, 7, 9⟩,
   ⟨.d, .a, .b, .c, 9, 12, 10⟩,
   ⟨.c, .d, .a, .b, 10, 17, 11⟩,
   ⟨.b, .c, .d, .a, 11, 22, 12⟩,
   ⟨.a, .b, .c, .d, 12, 7, 13⟩,
   ⟨.d, .a, .b, .c, 13, 12, 14⟩,
   ⟨.c, .d, .a, .b, 14, 17, 15⟩,
   ⟨.b, .c, .d, .a, 15, 22, 16⟩]

def md5Round2 : List Md5Operation :=
  [⟨.a, .b, .c, .d, 1, 5, 17⟩,
   ⟨.d, .a, .b, .c, 6, 9, 18⟩,
   ⟨.c, .d, .a, .b, 11, 14, 19⟩,
   ⟨.b, .c, .d, .a, 0, 20, 20⟩,
   ⟨.a, .b, .c, .d, 5, 5, 21⟩,
   ⟨.d, .a, .b, .c, 10, 9, 22⟩,
   ⟨.c, .d, .a, .b, 15, 14, 23⟩,
   ⟨.b, .c, .d, .a, 4, 20, 24⟩,
   ⟨.a, .b, .c, .d, 9, 5, 25⟩,
   ⟨.d, .a, .b, .c, 14, 9, 26⟩,
   ⟨.c, .d, .a, .b, 3, 14, 27⟩,
   ⟨.b, .c, .d, .a, 8, 20, 28⟩,
   ⟨.a, .b, .c, .d, 13, 5, 29⟩,
   ⟨.d, .a, .b, .c, 2, 9, 30⟩,
   ⟨.c, .d, .a, .b, 7, 14, 31⟩,
   ⟨.b, .c, .d, .a, 12, 20, 32⟩]

def md5Round3 : List Md5Operation :=
  [⟨.a, .b, .c, .d, 5, 4, 33⟩,
   ⟨.d, .a, .b, .c, 8, 11, 34⟩,
   ⟨.c, .d, .a, .b, 11, 16, 35⟩,
   ⟨.b, .c, .d, .a, 14, 23, 36⟩,
   ⟨.a, .b, .c, .d, 1, 4, 37⟩,
   ⟨.d, .a, .b, .c, 4, 11, 38⟩,
   ⟨.c, .d, .a, .b, 7, 16, 39⟩,
   ⟨.b, .c, .d, .a, 10, 23, 40⟩,
   ⟨.a, .b, .c, .d, 13, 4, 41⟩,
   ⟨.d, .a, .b, .c, 0, 11, 42⟩,
   ⟨.c, .d, .a, .b, 3, 16, 43⟩,
   ⟨.b, .c, .d, .a, 6, 23, 44⟩,
   ⟨.a, .b, .c, .d, 9, 4, 45⟩,
   ⟨.d, .a, .b, .c, 12, 11, 46⟩,
   ⟨.c, .d, .a, .b, 15, 16, 47⟩,
   ⟨.b, .c, .d, .a, 2, 23, 48⟩]

def md5Round4 : List Md5Operation :=
  [⟨.a, .b, .c, .d, 0, 6, 49⟩,
   ⟨.d, .a, .b, .c, 7, 10, 50⟩,
   ⟨.c, .d, .a, .b, 14, 15, 51⟩,
   ⟨.b, .c, .d, .a, 5, 21, 52⟩,
   ⟨.a, .b, .c, .d, 12, 6, 53⟩,
   ⟨.d, .a, .b, .c, 3, 10, 54⟩,
   ⟨.c, .d, .a, .b, 10, 15, 55⟩,
   ⟨.b, .c, .d, .a, 1, 21, 56⟩,
   ⟨.a, .b, .c, .d, 8, 6, 57⟩,
   ⟨.d, .a, .b, .c, 15, 10, 58⟩,
   ⟨.c, .d, .a, .b, 6, 15, 59⟩,
   ⟨.b, .c, .d, .a, 13, 21, 60⟩,
   ⟨.a, .b, .c, .d, 4, 6, 61⟩,
   ⟨.d, .a, .b, .c, 11, 10, 62⟩,
   ⟨.c, .d, .a, .b, 2, 15, 63⟩,
   ⟨.b, .c, .d, .a, 9, 21, 64⟩]

/-- The byte order of a machine. -/
inductive ByteOrder where
  | little
  | big
  deriving DecidableEq

/-- The bytes of a number that the machine has stored. -/
def ByteOrder.stored (order : ByteOrder) (count number : Nat) : Bytes :=
  match order with
  | .little => md5Bytes count number
  | .big => (md5Bytes count number).reverse

/-- The word that the machine reads from four bytes. -/
def ByteOrder.word (order : ByteOrder) (bytes : Bytes) : UInt32 :=
  match order with
  | .little => md5WordOf bytes
  | .big => md5WordOf bytes.reverse

/-- `BYTE_ORDER`, by what `ARCH_IS_BIG_ENDIAN` is if it is defined. -/
def md5ByteOrder (archIsBigEndian : Option Bool) : Int :=
  match archIsBigEndian with
  | some bigEndian => if bigEndian then 1 else -1
  | none => 0

/-- `(const md5_word_t *)data` -/
def md5WordsAt (order : ByteOrder) (data : Bytes) : List UInt32 :=
  (List.range 16).map fun i => order.word ((data.drop (4 * i)).take 4)

/-- `xp[0] + (xp[1] << 8) + (xp[2] << 16) + (xp[3] << 24)`, where the `int` sum
is taken for its 32 bits. -/
def md5Assembled (xp : Bytes) : UInt32 :=
  (xp.getD 0 0).toUInt32 + (xp.getD 1 0).toUInt32 <<< 8 +
    (xp.getD 2 0).toUInt32 <<< 16 + (xp.getD 3 0).toUInt32 <<< 24

/-- `X` of `md5_process`, for a block that starts at `address`. -/
def md5X (archIsBigEndian : Option Bool) (order : ByteOrder) (address : Nat)
    (data : Bytes) : List UInt32 :=
  let w := order.stored 4 1
  if md5ByteOrder archIsBigEndian < 0 ∨
      md5ByteOrder archIsBigEndian = 0 ∧ w.headD 0 ≠ 0 then
    if address &&& 3 = 0 then
      md5WordsAt order data
    else
      let xbuf := data.take 64
      md5WordsAt order xbuf
  else
    (List.range 16).map fun i => md5Assembled (data.drop (4 * i))

/-- `md5_process` -/
def md5ProcessUnrolled (archIsBigEndian : Option Bool) (order : ByteOrder)
    (address : Nat) (abcd : Md5State) (data : Bytes) : Md5State :=
  let X := md5X archIsBigEndian order address data
  let locals := md5Round1.foldl (Md5Operation.set md5F X) abcd
  let locals := md5Round2.foldl (Md5Operation.set md5G X) locals
  let locals := md5Round3.foldl (Md5Operation.set md5H X) locals
  let locals := md5Round4.foldl (Md5Operation.set md5I X) locals
  { a := abcd.a + locals.a
    b := abcd.b + locals.b
    c := abcd.c + locals.c
    d := abcd.d + locals.d }

end KetamaRouter
