import StarsGaming.Foundation.Bytes
import StarsGaming.Foundation.Feed

/-!
# The MD5 message digest

The digest as its standard describes it: a message is padded to whole blocks of
64 bytes, which are compressed one after the other by a loop of 64 steps.
-/

namespace StarsGaming.Foundation.MessageDigest

structure Chain where
  a : BitVec 32
  b : BitVec 32
  c : BitVec 32
  d : BitVec 32
  deriving DecidableEq

/-! ## Words and bytes -/

/-- Word `i` of a block, the lowest byte first. -/
def wordOf (block : List Byte) (i : Nat) : BitVec 32 :=
  (block.getD (4 * i) 0#8).setWidth 32 |||
    (block.getD (4 * i + 1) 0#8).setWidth 32 <<< 8 |||
    (block.getD (4 * i + 2) 0#8).setWidth 32 <<< 16 |||
    (block.getD (4 * i + 3) 0#8).setWidth 32 <<< 24

def bytesOfWord (w : BitVec 32) : List Byte :=
  [w.setWidth 8, (w >>> 8).setWidth 8, (w >>> 16).setWidth 8,
    (w >>> 24).setWidth 8]

def bytesOf (s : Chain) : List Byte :=
  bytesOfWord s.a ++ bytesOfWord s.b ++ bytesOfWord s.c ++ bytesOfWord s.d

/-! ## Compression -/

def sines : List (BitVec 32) :=
  [0xd76aa478, 0xe8c7b756, 0x242070db, 0xc1bdceee, 0xf57c0faf, 0x4787c62a,
   0xa8304613, 0xfd469501, 0x698098d8, 0x8b44f7af, 0xffff5bb1, 0x895cd7be,
   0x6b901122, 0xfd987193, 0xa679438e, 0x49b40821, 0xf61e2562, 0xc040b340,
   0x265e5a51, 0xe9b6c7aa, 0xd62f105d, 0x02441453, 0xd8a1e681, 0xe7d3fbc8,
   0x21e1cde6, 0xc33707d6, 0xf4d50d87, 0x455a14ed, 0xa9e3e905, 0xfcefa3f8,
   0x676f02d9, 0x8d2a4c8a, 0xfffa3942, 0x8771f681, 0x6d9d6122, 0xfde5380c,
   0xa4beea44, 0x4bdecfa9, 0xf6bb4b60, 0xbebfbc70, 0x289b7ec6, 0xeaa127fa,
   0xd4ef3085, 0x04881d05, 0xd9d4d039, 0xe6db99e5, 0x1fa27cf8, 0xc4ac5665,
   0xf4292244, 0x432aff97, 0xab9423a7, 0xfc93a039, 0x655b59c3, 0x8f0ccc92,
   0xffeff47d, 0x85845dd1, 0x6fa87e4f, 0xfe2ce6e0, 0xa3014314, 0x4e0811a1,
   0xf7537e82, 0xbd3af235, 0x2ad7d2bb, 0xeb86d391]

def auxiliary (round : Nat) (x y z : BitVec 32) : BitVec 32 :=
  match round with
  | 0 => (x &&& y) ||| (~~~x &&& z)
  | 1 => (x &&& z) ||| (y &&& ~~~z)
  | 2 => x ^^^ y ^^^ z
  | _ => y ^^^ (x ||| ~~~z)

/-- The word of the block that step `i` takes. -/
def wordIndex (i : Nat) : Nat :=
  match i / 16 with
  | 0 => i % 16
  | 1 => (5 * i + 1) % 16
  | 2 => (3 * i + 5) % 16
  | _ => 7 * i % 16

def shifts : List (List Nat) :=
  [[7, 12, 17, 22], [5, 9, 14, 20], [4, 11, 16, 23], [6, 10, 15, 21]]

def stepRotation (i : Nat) : Nat :=
  (shifts.getD (i / 16) []).getD (i % 4) 0

def step (block : Nat → BitVec 32) (s : Chain) (i : Nat) : Chain :=
  ⟨s.d, s.b + (s.a + auxiliary (i / 16) s.b s.c s.d + block (wordIndex i) +
    sines.getD i 0#32).rotateLeft (stepRotation i), s.b, s.c⟩

def compress (h : Chain) (block : Nat → BitVec 32) : Chain :=
  let s := (List.range 64).foldl (step block) h
  ⟨h.a + s.a, h.b + s.b, h.c + s.c, h.d + s.d⟩

/-! ## Messages -/

def start : Chain :=
  ⟨0x67452301#32, 0xefcdab89#32, 0x98badcfe#32, 0x10325476#32⟩

/-- What follows a message of `n` bytes: a bit, zeros and the number of bits. -/
def padding (n : Nat) : List Byte :=
  [0x80#8] ++ List.replicate ((119 - n % 64) % 64) 0#8 ++
    bytesOfWord (BitVec.ofNat 32 (8 * n)) ++
    bytesOfWord (BitVec.ofNat 32 (8 * n / 2 ^ 32))

def hasher : Feeder Chain Byte where
  want _ := some 64
  take block h := compress h (wordOf block)
  weight := 1
  rank _ := 0
  rank_take := by
    intro h n items hwant _
    obtain rfl := Option.some.inj hwant
    decide

def digest (message : List Byte) : List Byte :=
  bytesOf (hasher.drain start (message ++ padding message.length)).1

end StarsGaming.Foundation.MessageDigest
