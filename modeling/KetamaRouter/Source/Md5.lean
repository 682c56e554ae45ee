import KetamaRouter.Source.CString

/-!
# MD5

`md5.c`, for a message given in one piece.
-/

namespace KetamaRouter

/-- `T1` to `T64` -/
def md5Table : List UInt32 :=
  [0xd76aa478, 0xe8c7b756, 0x242070db, 0xc1bdceee,
   0xf57c0faf, 0x4787c62a, 0xa8304613, 0xfd469501,
   0x698098d8, 0x8b44f7af, 0xffff5bb1, 0x895cd7be,
   0x6b901122, 0xfd987193, 0xa679438e, 0x49b40821,
   0xf61e2562, 0xc040b340, 0x265e5a51, 0xe9b6c7aa,
   0xd62f105d, 0x02441453, 0xd8a1e681, 0xe7d3fbc8,
   0x21e1cde6, 0xc33707d6, 0xf4d50d87, 0x455a14ed,
   0xa9e3e905, 0xfcefa3f8, 0x676f02d9, 0x8d2a4c8a,
   0xfffa3942, 0x8771f681, 0x6d9d6122, 0xfde5380c,
   0xa4beea44, 0x4bdecfa9, 0xf6bb4b60, 0xbebfbc70,
   0x289b7ec6, 0xeaa127fa, 0xd4ef3085, 0x04881d05,
   0xd9d4d039, 0xe6db99e5, 0x1fa27cf8, 0xc4ac5665,
   0xf4292244, 0x432aff97, 0xab9423a7, 0xfc93a039,
   0x655b59c3, 0x8f0ccc92, 0xffeff47d, 0x85845dd1,
   0x6fa87e4f, 0xfe2ce6e0, 0xa3014314, 0x4e0811a1,
   0xf7537e82, 0xbd3af235, 0x2ad7d2bb, 0xeb86d391]

def md5RotateLeft (x n : UInt32) : UInt32 :=
  x <<< n ||| x >>> (32 - n)

/-- The functions `F`, `G`, `H` and `I` of the four rounds. -/
def md5Round (round : Nat) (x y z : UInt32) : UInt32 :=
  match round with
  | 0 => x &&& y ||| ~~~x &&& z
  | 1 => x &&& z ||| y &&& ~~~z
  | 2 => x ^^^ y ^^^ z
  | _ => y ^^^ (x ||| ~~~z)

/-- The word that operation `step` of a round takes from the block. -/
def md5Word (round step : Nat) : Nat :=
  match round with
  | 0 => step
  | 1 => (5 * step + 1) % 16
  | 2 => (3 * step + 5) % 16
  | _ => 7 * step % 16

def md5Shift (round step : Nat) : UInt32 :=
  match round, step % 4 with
  | 0, 0 => 7 | 0, 1 => 12 | 0, 2 => 17 | 0, _ => 22
  | 1, 0 => 5 | 1, 1 => 9 | 1, 2 => 14 | 1, _ => 20
  | 2, 0 => 4 | 2, 1 => 11 | 2, 2 => 16 | 2, _ => 23
  | _, 0 => 6 | _, 1 => 10 | _, 2 => 15 | _, _ => 21

/-- `abcd` of `md5_state_t` -/
structure Md5State where
  a : UInt32
  b : UInt32
  c : UInt32
  d : UInt32
  deriving DecidableEq, Repr

/-- One use of `SET`, after which the registers change places. -/
def md5Set (words : List UInt32) (state : Md5State) (operation : Nat) :
    Md5State :=
  let round := operation / 16
  let step := operation % 16
  let t := state.a + md5Round round state.b state.c state.d +
    words.getD (md5Word round step) 0 + md5Table.getD operation 0
  { a := state.d
    b := md5RotateLeft t (md5Shift round step) + state.b
    c := state.b
    d := state.c }

/-- Four bytes as a word, the first one lowest. -/
def md5WordOf (bytes : Bytes) : UInt32 :=
  bytes.foldr (fun byte word => word <<< 8 ||| byte.toUInt32) 0

/-- The words of a block. -/
def md5Words (block : Bytes) : List UInt32 :=
  (List.range 16).map fun place => md5WordOf ((block.drop (4 * place)).take 4)

def md5Process (state : Md5State) (block : Bytes) : Md5State :=
  let last := (List.range 64).foldl (md5Set (md5Words block)) state
  { a := state.a + last.a
    b := state.b + last.b
    c := state.c + last.c
    d := state.d + last.d }

def md5Init : Md5State :=
  { a := 0x67452301, b := 0xefcdab89, c := 0x98badcfe, d := 0x10325476 }

/-- The bytes of a number, the first one lowest. -/
def md5Bytes (count number : Nat) : Bytes :=
  (List.range count).map fun place => UInt8.ofNat (number / 256 ^ place)

/-- What `md5_finish` makes of a message before its last blocks are processed:
a bit, zeroes up to 56 bytes of a block, and the length in bits. -/
def md5Padded (message : Bytes) : Bytes :=
  message ++ 0x80 :: List.replicate ((119 - message.length % 64) % 64) 0 ++
    md5Bytes 8 (8 * message.length)

/-- `md5_init`, `md5_append` of the message and `md5_finish`. -/
def md5Digest (message : Bytes) (place : Fin 16) : UInt8 :=
  let padded := md5Padded message
  let last := (List.range (padded.length / 64)).foldl
    (fun state block => md5Process state ((padded.drop (64 * block)).take 64))
    md5Init
  let digest := [last.a, last.b, last.c, last.d].flatMap fun word =>
    md5Bytes 4 word.toNat
  digest.getD place 0

end KetamaRouter
