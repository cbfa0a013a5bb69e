import StarsGaming.Foundation.MessageDigest

/-!
# The digest

A message is taken in pieces of any length: whole blocks are compressed at
once, the rest waits in the context.  The number of bits is counted in two
words.  The digest is that of the padded message, however it was cut.
-/

namespace StarsGaming.Tools

open Foundation Foundation.MessageDigest

/-! ## Compression -/

def f1 (x y z : BitVec 32) : BitVec 32 :=
  z ^^^ (x &&& (y ^^^ z))

def f2 (x y z : BitVec 32) : BitVec 32 :=
  f1 z x y

def f3 (x y z : BitVec 32) : BitVec 32 :=
  x ^^^ y ^^^ z

def f4 (x y z : BitVec 32) : BitVec 32 :=
  y ^^^ (x ||| ~~~z)

def md5Step (f : BitVec 32 → BitVec 32 → BitVec 32 → BitVec 32)
    (w x y z data : BitVec 32) (s : Nat) : BitVec 32 :=
  let w := w + (f x y z + data)
  let w := w <<< s ||| w >>> (32 - s)
  w + x

structure Rotations where
  s₁ : Nat
  s₂ : Nat
  s₃ : Nat
  s₄ : Nat

/-- Four steps, for the words `a`, `d`, `c` and `b`; each takes a word of the
block and a constant. -/
def md5Four (f : BitVec 32 → BitVec 32 → BitVec 32 → BitVec 32)
    (r : Rotations) (block : Nat → BitVec 32)
    (t₁ t₂ t₃ t₄ : Nat × BitVec 32) (s : Chain) : Chain :=
  let a := md5Step f s.a s.b s.c s.d (block t₁.1 + t₁.2) r.s₁
  let d := md5Step f s.d a s.b s.c (block t₂.1 + t₂.2) r.s₂
  let c := md5Step f s.c d a s.b (block t₃.1 + t₃.2) r.s₃
  let b := md5Step f s.b c d a (block t₄.1 + t₄.2) r.s₄
  ⟨a, b, c, d⟩

def md5Transform (buf : Chain) (block : Nat → BitVec 32) : Chain :=
  let s := md5Four f1 ⟨7, 12, 17, 22⟩ block
    (0, 0xd76aa478#32) (1, 0xe8c7b756#32)
    (2, 0x242070db#32) (3, 0xc1bdceee#32) buf
  let s := md5Four f1 ⟨7, 12, 17, 22⟩ block
    (4, 0xf57c0faf#32) (5, 0x4787c62a#32)
    (6, 0xa8304613#32) (7, 0xfd469501#32) s
  let s := md5Four f1 ⟨7, 12, 17, 22⟩ block
    (8, 0x698098d8#32) (9, 0x8b44f7af#32)
    (10, 0xffff5bb1#32) (11, 0x895cd7be#32) s
  let s := md5Four f1 ⟨7, 12, 17, 22⟩ block
    (12, 0x6b901122#32) (13, 0xfd987193#32)
    (14, 0xa679438e#32) (15, 0x49b40821#32) s
  let s := md5Four f2 ⟨5, 9, 14, 20⟩ block
    (1, 0xf61e2562#32) (6, 0xc040b340#32)
    (11, 0x265e5a51#32) (0, 0xe9b6c7aa#32) s
  let s := md5Four f2 ⟨5, 9, 14, 20⟩ block
    (5, 0xd62f105d#32) (10, 0x02441453#32)
    (15, 0xd8a1e681#32) (4, 0xe7d3fbc8#32) s
  let s := md5Four f2 ⟨5, 9, 14, 20⟩ block
    (9, 0x21e1cde6#32) (14, 0xc33707d6#32)
    (3, 0xf4d50d87#32) (8, 0x455a14ed#32) s
  let s := md5Four f2 ⟨5, 9, 14, 20⟩ block
    (13, 0xa9e3e905#32) (2, 0xfcefa3f8#32)
    (7, 0x676f02d9#32) (12, 0x8d2a4c8a#32) s
  let s := md5Four f3 ⟨4, 11, 16, 23⟩ block
    (5, 0xfffa3942#32) (8, 0x8771f681#32)
    (11, 0x6d9d6122#32) (14, 0xfde5380c#32) s
  let s := md5Four f3 ⟨4, 11, 16, 23⟩ block
    (1, 0xa4beea44#32) (4, 0x4bdecfa9#32)
    (7, 0xf6bb4b60#32) (10, 0xbebfbc70#32) s
  let s := md5Four f3 ⟨4, 11, 16, 23⟩ block
    (13, 0x289b7ec6#32) (0, 0xeaa127fa#32)
    (3, 0xd4ef3085#32) (6, 0x04881d05#32) s
  let s := md5Four f3 ⟨4, 11, 16, 23⟩ block
    (9, 0xd9d4d039#32) (12, 0xe6db99e5#32)
    (15, 0x1fa27cf8#32) (2, 0xc4ac5665#32) s
  let s := md5Four f4 ⟨6, 10, 15, 21⟩ block
    (0, 0xf4292244#32) (7, 0x432aff97#32)
    (14, 0xab9423a7#32) (5, 0xfc93a039#32) s
  let s := md5Four f4 ⟨6, 10, 15, 21⟩ block
    (12, 0x655b59c3#32) (3, 0x8f0ccc92#32)
    (10, 0xffeff47d#32) (1, 0x85845dd1#32) s
  let s := md5Four f4 ⟨6, 10, 15, 21⟩ block
    (8, 0x6fa87e4f#32) (15, 0xfe2ce6e0#32)
    (6, 0xa3014314#32) (13, 0x4e0811a1#32) s
  let s := md5Four f4 ⟨6, 10, 15, 21⟩ block
    (4, 0xf7537e82#32) (11, 0xbd3af235#32)
    (2, 0x2ad7d2bb#32) (9, 0xeb86d391#32) s
  ⟨buf.a + s.a, buf.b + s.b, buf.c + s.c, buf.d + s.d⟩

def transform (buf : Chain) (block : List Byte) : Chain :=
  md5Transform buf (wordOf block)

/-! ## Contexts -/

structure Md5Ctx where
  buf : Chain
  bits0 : BitVec 32
  bits1 : BitVec 32
  input : List Byte

def overwrite (buffer : List Byte) (offset : Nat) (bytes : List Byte) :
    List Byte :=
  buffer.take offset ++ bytes ++ buffer.drop (offset + bytes.length)

def md5Init (ctx : Md5Ctx) : Md5Ctx :=
  { ctx with
    buf := ⟨0x67452301#32, 0xefcdab89#32, 0x98badcfe#32, 0x10325476#32⟩
    bits0 := 0#32
    bits1 := 0#32 }

def md5Blocks (buf : Chain) (input data : List Byte) :
    Chain × List Byte :=
  if 64 ≤ data.length then
    let input := overwrite input 0 (data.take 64)
    md5Blocks (transform buf input) input (data.drop 64)
  else (buf, overwrite input 0 data)
termination_by data.length

def md5Update (ctx : Md5Ctx) (data : List Byte) : Md5Ctx :=
  let len := BitVec.ofNat 32 data.length
  let t := ctx.bits0
  let bits0 := t + len <<< 3
  let carried := if bits0 < t then ctx.bits1 + 1 else ctx.bits1
  let bits1 := carried + len >>> 29
  let t := ((t >>> 3) &&& 0x3f#32).toNat
  if t = 0 then
    let (buf, input) := md5Blocks ctx.buf ctx.input data
    ⟨buf, bits0, bits1, input⟩
  else if data.length < 64 - t then
    ⟨ctx.buf, bits0, bits1, overwrite ctx.input t data⟩
  else
    let input := overwrite ctx.input t (data.take (64 - t))
    let (buf, input) := md5Blocks (transform ctx.buf input) input
      (data.drop (64 - t))
    ⟨buf, bits0, bits1, input⟩

def md5Final (ctx : Md5Ctx) : List Byte :=
  let count := ((ctx.bits0 >>> 3) &&& 0x3f#32).toNat
  let input := overwrite ctx.input count [0x80#8]
  let p := count + 1
  let count := 64 - 1 - count
  let (buf, input) :=
    if count < 8 then
      let input := overwrite input p (List.replicate count 0#8)
      (transform ctx.buf input, overwrite input 0 (List.replicate 56 0#8))
    else (ctx.buf, overwrite input p (List.replicate (count - 8) 0#8))
  let input := overwrite input 56 (bytesOfWord ctx.bits0)
  let input := overwrite input 60 (bytesOfWord ctx.bits1)
  let buf := transform buf input
  bytesOfWord buf.a ++ bytesOfWord buf.b ++ bytesOfWord buf.c ++
    bytesOfWord buf.d

def md516 (ctx : Md5Ctx) (msg : List Byte) : List Byte :=
  md5Final (md5Update (md5Init ctx) (msg.take (msg.length % 2 ^ 32)))

def hexDigits : List Byte :=
  ascii "0123456789abcdef"

def bin2hex (p : List Byte) : List Byte :=
  p.flatMap fun (c : Byte) => [hexDigits.getD (c >>> 4).toNat 0#8,
    hexDigits.getD (c &&& 0x0f#8).toNat 0#8]

def md532 (ctx : Md5Ctx) (data : List Byte) : List Byte :=
  let outPut := overwrite (List.replicate 33 0#8) 0 (bin2hex (md516 ctx data))
  outPut.takeWhile fun c => c ≠ 0#8

/-! ## The loop of the standard -/

theorem f1_eq (x y z : BitVec 32) : f1 x y z = auxiliary 0 x y z := by
  apply BitVec.eq_of_getLsbD_eq
  intro i hi
  simp only [f1, auxiliary, BitVec.getLsbD_xor, BitVec.getLsbD_and,
    BitVec.getLsbD_or, BitVec.getLsbD_not, hi]
  cases x.getLsbD i <;> cases y.getLsbD i <;> cases z.getLsbD i <;> rfl

theorem f2_eq (x y z : BitVec 32) : f2 x y z = auxiliary 1 x y z := by
  rw [f2, f1_eq, auxiliary, auxiliary, BitVec.and_comm z, BitVec.and_comm _ y]

theorem md5Step_eq (f : BitVec 32 → BitVec 32 → BitVec 32 → BitVec 32)
    (w x y z m k : BitVec 32) {s : Nat} (hs : s < 32) :
    md5Step f w x y z (m + k) s =
      x + (w + f x y z + m + k).rotateLeft s := by
  rw [md5Step, BitVec.rotateLeft_def, Nat.mod_eq_of_lt hs, BitVec.add_comm]
  simp only [BitVec.add_assoc]

def functionOf (j : Nat) : BitVec 32 → BitVec 32 → BitVec 32 → BitVec 32 :=
  match j / 4 with
  | 0 => f1
  | 1 => f2
  | 2 => f3
  | _ => f4

theorem functionOf_eq {j : Nat} (hj : j < 16) (x y z : BitVec 32) :
    functionOf j x y z = auxiliary (j / 4) x y z := by
  have hround : j / 4 < 4 := by omega
  rw [functionOf]
  generalize j / 4 = n at hround ⊢
  match n, hround with
  | 0, _ => exact f1_eq x y z
  | 1, _ => exact f2_eq x y z
  | 2, _ => rfl
  | 3, _ => rfl

def standardFour (block : Nat → BitVec 32) (s : Chain) (j : Nat) : Chain :=
  md5Four (functionOf j)
    ⟨stepRotation (4 * j), stepRotation (4 * j + 1), stepRotation (4 * j + 2),
      stepRotation (4 * j + 3)⟩ block
    (wordIndex (4 * j), sines.getD (4 * j) 0#32)
    (wordIndex (4 * j + 1), sines.getD (4 * j + 1) 0#32)
    (wordIndex (4 * j + 2), sines.getD (4 * j + 2) 0#32)
    (wordIndex (4 * j + 3), sines.getD (4 * j + 3) 0#32) s

theorem standardFour_eq {j : Nat} (hj : j < 16) (block : Nat → BitVec 32)
    (s : Chain) :
    standardFour block s j =
      [4 * j, 4 * j + 1, 4 * j + 2, 4 * j + 3].foldl (step block) s := by
  have hrotation : ∀ i < 64, stepRotation i < 32 := by decide
  have h₀ : 4 * j / 16 = j / 4 := by omega
  have h₁ : (4 * j + 1) / 16 = j / 4 := by omega
  have h₂ : (4 * j + 2) / 16 = j / 4 := by omega
  have h₃ : (4 * j + 3) / 16 = j / 4 := by omega
  rw [standardFour, md5Four, md5Step_eq _ _ _ _ _ _ _ (hrotation _ (by omega)),
    md5Step_eq _ _ _ _ _ _ _ (hrotation _ (by omega)),
    md5Step_eq _ _ _ _ _ _ _ (hrotation _ (by omega)),
    md5Step_eq _ _ _ _ _ _ _ (hrotation _ (by omega))]
  simp only [List.foldl_cons, List.foldl_nil, step, h₀, h₁, h₂, h₃,
    functionOf_eq hj]

theorem md5Transform_eq (buf : Chain) (block : Nat → BitVec 32) :
    md5Transform buf block = compress buf block := by
  have hfours : (List.range 16).foldl (standardFour block) buf =
      (List.range 64).foldl (step block) buf := by
    have hrange : List.range 64 = (List.range 16).flatMap fun j =>
        [4 * j, 4 * j + 1, 4 * j + 2, 4 * j + 3] := rfl
    rw [hrange, List.foldl_flatMap]
    apply List.foldl_ext
    intro s j hj
    exact standardFour_eq (List.mem_range.mp hj) block s
  rw [compress, ← hfours]
  rfl

theorem transform_eq (buf : Chain) (block : List Byte) :
    transform buf block = hasher.take block buf :=
  md5Transform_eq buf (wordOf block)

/-! ## Buffers -/

theorem length_overwrite {buffer bytes : List Byte} {offset : Nat}
    (h : offset + bytes.length ≤ buffer.length) :
    (overwrite buffer offset bytes).length = buffer.length := by
  rw [overwrite, List.length_append, List.length_append, List.length_take,
    List.length_drop]
  omega

theorem take_overwrite {buffer : List Byte} (bytes : List Byte)
    {offset : Nat} (h : offset ≤ buffer.length) :
    (overwrite buffer offset bytes).take (offset + bytes.length) =
      buffer.take offset ++ bytes := by
  have hlength : (buffer.take offset ++ bytes).length =
      offset + bytes.length := by
    rw [List.length_append, List.length_take_of_le h]
  rw [overwrite, List.take_left' hlength]

theorem overwrite_of_full {buffer bytes : List Byte} {offset : Nat}
    (h : buffer.length = offset + bytes.length) :
    overwrite buffer offset bytes = buffer.take offset ++ bytes := by
  rw [overwrite, ← h, List.drop_length, List.append_nil]

theorem overwrite_overwrite {buffer first second : List Byte}
    {offset : Nat} (h : offset ≤ buffer.length) :
    overwrite (overwrite buffer offset first) (offset + first.length)
        second =
      overwrite buffer offset (first ++ second) := by
  have hlength : (buffer.take offset ++ first).length =
      offset + first.length := by
    rw [List.length_append, List.length_take_of_le h]
  have hdrop : (overwrite buffer offset first).drop
      (offset + first.length + second.length) =
        buffer.drop (offset + (first ++ second).length) := by
    rw [overwrite, ← List.drop_drop, List.drop_left' hlength,
      List.drop_drop, List.length_append, Nat.add_assoc]
  rw [overwrite, take_overwrite first h, hdrop, overwrite,
    List.append_assoc _ first second]

/-! ## Pieces of a message -/

theorem md5Blocks_eq (buf : Chain) {input : List Byte} (data : List Byte)
    (hinput : input.length = 64) :
    (md5Blocks buf input data).2.length = 64 ∧
      hasher.drain buf data =
        ((md5Blocks buf input data).1,
          (md5Blocks buf input data).2.take (data.length % 64)) := by
  induction buf, input, data using md5Blocks.induct with
  | case1 buf input data hlen input' ih =>
      have hblock : (data.take 64).length = 64 := List.length_take_of_le hlen
      have hfull : overwrite input 0 (data.take 64) = data.take 64 := by
        apply overwrite_of_full
        rw [hinput, hblock]
      have hnext : md5Blocks buf input data =
          md5Blocks (hasher.take (data.take 64) buf) (data.take 64)
            (data.drop 64) := by
        rw [md5Blocks, if_pos hlen]
        simp only [hfull, transform_eq]
      have hrest : (data.drop 64).length % 64 = data.length % 64 := by
        rw [List.length_drop]
        omega
      simp only [input', hfull, transform_eq, hrest] at ih
      rw [hnext, Feeder.drain_of_enough rfl hlen]
      exact ih hblock
  | case2 buf input data hlen =>
      have hshort : data.length < 64 := by omega
      have htake := take_overwrite data (Nat.zero_le input.length)
      rw [Nat.zero_add, List.take_zero, List.nil_append] at htake
      rw [md5Blocks, if_neg hlen, Nat.mod_eq_of_lt hshort, htake,
        length_overwrite (by omega)]
      exact ⟨hinput, Feeder.drain_of_short rfl hshort⟩

structure Md5Ctx.Holds (ctx : Md5Ctx) (message : List Byte) : Prop where
  length_input : ctx.input.length = 64
  drained : hasher.drain start message =
    (ctx.buf, ctx.input.take (message.length % 64))
  bits : ctx.bits0.toNat + 2 ^ 32 * ctx.bits1.toNat =
    8 * message.length % 2 ^ 64

namespace Md5Ctx.Holds

variable {ctx : Md5Ctx} {message : List Byte}

theorem init {ctx : Md5Ctx} (h : ctx.input.length = 64) :
    (md5Init ctx).Holds [] where
  length_input := h
  drained := Feeder.drain_of_short rfl (by decide)
  bits := rfl

theorem count_eq (h : ctx.Holds message) :
    ((ctx.bits0 >>> 3) &&& 0x3f#32).toNat = message.length % 64 := by
  have hbits := h.bits
  have hand : ((ctx.bits0 >>> 3) &&& 0x3f#32).toNat =
      ctx.bits0.toNat / 8 % 64 := by
    rw [BitVec.toNat_and, BitVec.toNat_ushiftRight, Nat.shiftRight_eq_div_pow]
    exact Nat.and_two_pow_sub_one_eq_mod _ 6
  omega

theorem bits_add (h : ctx.Holds message) {data : List Byte}
    (hdata : data.length < 2 ^ 32) :
    let len := BitVec.ofNat 32 data.length
    let bits0 := ctx.bits0 + len <<< 3
    let carried := if bits0 < ctx.bits0 then ctx.bits1 + 1 else ctx.bits1
    bits0.toNat + 2 ^ 32 * (carried + len >>> 29).toNat =
      8 * (message ++ data).length % 2 ^ 64 := by
  intro len bits0 carried
  have hbits := h.bits
  have hlen : len.toNat = data.length := Nat.mod_eq_of_lt hdata
  have hlow : bits0.toNat =
      (ctx.bits0.toNat + data.length * 8) % 2 ^ 32 := by
    rw [BitVec.toNat_add, BitVec.toNat_shiftLeft, hlen, Nat.shiftLeft_eq]
    omega
  have hhigh : (len >>> 29).toNat = data.length / 2 ^ 29 := by
    rw [BitVec.toNat_ushiftRight, hlen, Nat.shiftRight_eq_div_pow]
  have hcarry : carried.toNat = (ctx.bits1.toNat +
      if bits0.toNat < ctx.bits0.toNat then 1 else 0) % 2 ^ 32 := by
    have hsame := Nat.mod_eq_of_lt ctx.bits1.isLt
    simp only [carried, BitVec.lt_def]
    split_ifs
    · exact BitVec.toNat_add _ _
    · exact hsame.symm
  have h₀ := ctx.bits0.isLt
  have h₁ := ctx.bits1.isLt
  rw [BitVec.toNat_add carried, hcarry, hhigh, List.length_append]
  split_ifs at hcarry ⊢ <;> omega

theorem update (h : ctx.Holds message) {data : List Byte}
    (hdata : data.length < 2 ^ 32) :
    (md5Update ctx data).Holds (message ++ data) := by
  have hbits := h.bits_add hdata
  have hinput := h.length_input
  have hfeed : hasher.drain start (message ++ data) =
      hasher.drain ctx.buf
        (ctx.input.take (message.length % 64) ++ data) := by
    rw [Feeder.drain_append, h.drained, Feeder.feed]
  have hpending : (ctx.input.take (message.length % 64)).length =
      message.length % 64 := by
    rw [List.length_take_of_le]
    omega
  rw [md5Update, h.count_eq]
  by_cases hempty : message.length % 64 = 0
  · -- nothing waits
    rw [if_pos hempty]
    obtain ⟨hlength, hdrain⟩ := md5Blocks_eq ctx.buf data hinput
    have hcount : (message ++ data).length % 64 = data.length % 64 := by
      rw [List.length_append]
      omega
    rw [hempty, List.take_zero, List.nil_append, hdrain] at hfeed
    exact ⟨hlength, by rw [hcount, hfeed], hbits⟩
  rw [if_neg hempty]
  by_cases hshort : data.length < 64 - message.length % 64
  · -- the buffer does not get full
    rw [if_pos hshort]
    have hcount : (message ++ data).length % 64 =
        message.length % 64 + data.length := by
      rw [List.length_append]
      omega
    have htake := take_overwrite data
      (show message.length % 64 ≤ ctx.input.length by omega)
    refine ⟨?_, ?_, hbits⟩
    · exact (length_overwrite (by omega)).trans hinput
    · rw [hfeed, hcount, htake, Feeder.drain_of_short rfl]
      rw [List.length_append, hpending]
      omega
  · -- the buffer gets full
    rw [if_neg hshort]
    obtain ⟨space, hspace⟩ : ∃ space, 64 - message.length % 64 = space :=
      ⟨_, rfl⟩
    rw [hspace] at hshort ⊢
    have hfirst : (data.take space).length = space :=
      List.length_take_of_le (by omega)
    have hfull : overwrite ctx.input (message.length % 64)
        (data.take space) =
          ctx.input.take (message.length % 64) ++ data.take space := by
      apply overwrite_of_full
      rw [hinput, hfirst]
      omega
    have hblock : (ctx.input.take (message.length % 64) ++
        data.take space).length = 64 := by
      rw [List.length_append, hpending, hfirst]
      omega
    have hcount : (message ++ data).length % 64 =
        (data.drop space).length % 64 := by
      rw [List.length_append, List.length_drop]
      omega
    obtain ⟨hlength, hdrain⟩ := md5Blocks_eq
      (hasher.take (ctx.input.take (message.length % 64) ++
        data.take space) ctx.buf) (data.drop space) hblock
    have hpieces : ctx.input.take (message.length % 64) ++ data =
        (ctx.input.take (message.length % 64) ++ data.take space) ++
          data.drop space := by
      rw [List.append_assoc, List.take_append_drop]
    have hwant : hasher.want ctx.buf = some
        (ctx.input.take (message.length % 64) ++
          data.take space).length := by
      rw [hblock]
      rfl
    rw [hpieces, Feeder.drain_append_of_want _ hwant, hdrain,
      ← hcount] at hfeed
    simp only [hfull, transform_eq]
    exact ⟨hlength, hfeed, hbits⟩

theorem updates (h : ctx.Holds message) {pieces : List (List Byte)}
    (hpieces : ∀ piece ∈ pieces, piece.length < 2 ^ 32) :
    (pieces.foldl md5Update ctx).Holds (message ++ pieces.flatten) := by
  induction pieces generalizing ctx message with
  | nil => simpa using h
  | cons piece pieces ih =>
      have hpiece := h.update (hpieces piece List.mem_cons_self)
      rw [List.foldl_cons, List.flatten_cons, ← List.append_assoc]
      exact ih hpiece fun p hp => hpieces p (List.mem_cons_of_mem _ hp)

end Md5Ctx.Holds

/-! ## The end of a message -/

theorem length_bytesOfWord (w : BitVec 32) : (bytesOfWord w).length = 4 :=
  rfl

theorem Md5Ctx.Holds.padding_eq {ctx : Md5Ctx} {message : List Byte}
    (h : ctx.Holds message) :
    padding message.length =
      [0x80#8] ++ List.replicate ((119 - message.length % 64) % 64) 0#8 ++
        bytesOfWord ctx.bits0 ++ bytesOfWord ctx.bits1 := by
  have hbits := h.bits
  have h₀ : BitVec.ofNat 32 (8 * message.length) = ctx.bits0 := by
    apply BitVec.eq_of_toNat_eq
    have hlt := ctx.bits0.isLt
    rw [BitVec.toNat_ofNat]
    omega
  have h₁ : BitVec.ofNat 32 (8 * message.length / 2 ^ 32) = ctx.bits1 := by
    apply BitVec.eq_of_toNat_eq
    have hlt₀ := ctx.bits0.isLt
    have hlt₁ := ctx.bits1.isLt
    rw [BitVec.toNat_ofNat]
    omega
  rw [padding, h₀, h₁]

theorem overwrite_padding {buffer : List Byte} (zeros : List Byte)
    {offset : Nat} (bits0 bits1 : BitVec 32) (h : offset ≤ buffer.length)
    (hzeros : offset + zeros.length = 56) (hbuffer : buffer.length = 64) :
    overwrite (overwrite (overwrite buffer offset zeros) 56
        (bytesOfWord bits0)) 60 (bytesOfWord bits1) =
      buffer.take offset ++
        (zeros ++ bytesOfWord bits0 ++ bytesOfWord bits1) := by
  have hlow : offset + (zeros ++ bytesOfWord bits0).length = 60 := by
    rw [List.length_append, length_bytesOfWord]
    omega
  rw [← hzeros, overwrite_overwrite h, ← hlow, overwrite_overwrite h,
    overwrite_of_full]
  rw [List.length_append, length_bytesOfWord]
  omega

theorem drain_block {block : List Byte} (h : block.length = 64)
    (buf : Chain) (rest : List Byte) :
    hasher.drain buf (block ++ rest) =
      hasher.drain (transform buf block) rest := by
  rw [transform_eq]
  apply Feeder.drain_append_of_want
  rw [h]
  rfl

theorem md5Final_eq {ctx : Md5Ctx} {message : List Byte}
    (h : ctx.Holds message) : md5Final ctx = digest message := by
  have hinput := h.length_input
  have hdrain : hasher.drain start
      (message ++ padding message.length) =
        hasher.drain ctx.buf (ctx.input.take (message.length % 64) ++
          padding message.length) := by
    rw [Feeder.drain_append, h.drained, Feeder.feed]
  have hlt := Nat.mod_lt message.length (show 0 < 64 by decide)
  rw [digest, hdrain, h.padding_eq, md5Final, h.count_eq]
  generalize message.length % 64 = count at hlt ⊢
  have hcount : count ≤ ctx.input.length := by omega
  have hpending : (ctx.input.take count).length = count :=
    List.length_take_of_le hcount
  have hmark (zeros : List Byte) :
      overwrite (overwrite ctx.input count [0x80#8]) (count + 1) zeros =
        overwrite ctx.input count ([0x80#8] ++ zeros) :=
    overwrite_overwrite hcount
  simp only [hmark]
  by_cases hroom : 64 - 1 - count < 8
  · -- two blocks
    have hfull : overwrite ctx.input count
        ([0x80#8] ++ List.replicate (64 - 1 - count) 0#8) =
          ctx.input.take count ++
            ([0x80#8] ++ List.replicate (64 - 1 - count) 0#8) := by
      apply overwrite_of_full
      rw [List.length_append, List.length_replicate, hinput,
        List.length_singleton]
      omega
    have hfirst : (ctx.input.take count ++
        ([0x80#8] ++ List.replicate (64 - 1 - count) 0#8)).length = 64 := by
      simp only [List.length_append, hpending, List.length_replicate,
        List.length_singleton]
      omega
    have hblock := overwrite_padding (List.replicate 56 0#8)
      ctx.bits0 ctx.bits1 (Nat.zero_le _) rfl hfirst
    have hsecond : (List.replicate 56 0#8 ++ bytesOfWord ctx.bits0 ++
        bytesOfWord ctx.bits1).length = 64 := rfl
    have hzeros : List.replicate ((119 - count) % 64) 0#8 =
        List.replicate (64 - 1 - count) 0#8 ++ List.replicate 56 0#8 := by
      rw [List.replicate_append_replicate]
      congr 1
      omega
    have hpieces : ctx.input.take count ++
        ([0x80#8] ++ List.replicate ((119 - count) % 64) 0#8 ++
          bytesOfWord ctx.bits0 ++ bytesOfWord ctx.bits1) =
        (ctx.input.take count ++
          ([0x80#8] ++ List.replicate (64 - 1 - count) 0#8)) ++
          ((List.replicate 56 0#8 ++ bytesOfWord ctx.bits0 ++
            bytesOfWord ctx.bits1) ++ []) := by
      rw [hzeros]
      simp only [List.append_assoc, List.append_nil]
    rw [List.take_zero, List.nil_append] at hblock
    simp only [if_pos hroom, hfull, hblock]
    rw [hpieces, drain_block hfirst, drain_block hsecond,
      Feeder.drain_of_short rfl (by decide)]
    rfl
  · -- one block
    have hzeros : (119 - count) % 64 = 64 - 1 - count - 8 := by omega
    have hblock := overwrite_padding ([0x80#8] ++
      List.replicate (64 - 1 - count - 8) 0#8) ctx.bits0 ctx.bits1 hcount
        (by
          rw [List.length_append, List.length_replicate,
            List.length_singleton]
          omega) hinput
    have hlength : (ctx.input.take count ++ ([0x80#8] ++
        List.replicate (64 - 1 - count - 8) 0#8 ++ bytesOfWord ctx.bits0 ++
          bytesOfWord ctx.bits1)).length = 64 := by
      simp only [List.length_append, hpending, List.length_replicate,
        List.length_singleton, length_bytesOfWord]
      omega
    simp only [if_neg hroom, hblock, hzeros]
    have hdrained := drain_block hlength ctx.buf []
    rw [List.append_nil] at hdrained
    rw [hdrained, Feeder.drain_of_short rfl (by decide)]
    rfl

theorem md516_eq {ctx : Md5Ctx} (hctx : ctx.input.length = 64)
    (msg : List Byte) :
    md516 ctx msg = digest (msg.take (msg.length % 2 ^ 32)) := by
  have hlength : (msg.take (msg.length % 2 ^ 32)).length < 2 ^ 32 := by
    have hlt := Nat.mod_lt msg.length (show 0 < 2 ^ 32 by decide)
    rw [List.length_take]
    omega
  exact md5Final_eq ((Md5Ctx.Holds.init hctx).update hlength)

theorem length_bin2hex (p : List Byte) :
    (bin2hex p).length = 2 * p.length := by
  induction p with
  | nil => rfl
  | cons c p ih =>
      rw [bin2hex, List.flatMap_cons, List.length_append, ← bin2hex, ih,
        List.length_cons, List.length_cons, List.length_cons, List.length_nil]
      omega

theorem hexDigits_ne_zero : ∀ c : Byte,
    hexDigits.getD (c >>> 4).toNat 0#8 ≠ 0#8 ∧
      hexDigits.getD (c &&& 0x0f#8).toNat 0#8 ≠ 0#8 := by
  decide +kernel

theorem zero_notMem_bin2hex (p : List Byte) : 0#8 ∉ bin2hex p := by
  intro hzero
  obtain ⟨c, -, hc⟩ := List.mem_flatMap.mp hzero
  obtain ⟨hhigh, hlow⟩ := hexDigits_ne_zero c
  simp only [List.mem_cons, List.not_mem_nil, or_false] at hc
  obtain hc | hc := hc
  · exact hhigh hc.symm
  · exact hlow hc.symm

theorem md532_eq {ctx : Md5Ctx} (hctx : ctx.input.length = 64)
    (data : List Byte) :
    md532 ctx data =
      bin2hex (digest (data.take (data.length % 2 ^ 32))) := by
  have hkeep : ∀ c ∈ bin2hex (digest (data.take (data.length % 2 ^ 32))),
      decide (c ≠ 0#8) = true := by
    intro c hc
    rw [decide_eq_true_eq]
    rintro rfl
    exact zero_notMem_bin2hex _ hc
  have hlength : (bin2hex (digest
      (data.take (data.length % 2 ^ 32)))).length = 32 :=
    length_bin2hex _
  rw [md532, md516_eq hctx, overwrite, hlength, List.take_zero,
    List.nil_append, List.takeWhile_append_of_pos hkeep]
  simp

/-! ## Main results -/

/-- However a message is cut into pieces, its digest is the standard's. -/
theorem pieces_digest {ctx : Md5Ctx} (hctx : ctx.input.length = 64)
    {pieces : List (List Byte)}
    (hpieces : ∀ piece ∈ pieces, piece.length < 2 ^ 32) :
    md5Final (pieces.foldl md5Update (md5Init ctx)) =
      digest pieces.flatten := by
  have hholds := (Md5Ctx.Holds.init hctx).updates hpieces
  exact md5Final_eq hholds

def sampleCtx : Md5Ctx :=
  ⟨⟨1#32, 2#32, 3#32, 4#32⟩, 5#32, 6#32, List.replicate 64 7#8⟩

theorem pieces_digest_abc :
    md5Final ([ascii "a", [], ascii "bc"].foldl md5Update
        (md5Init sampleCtx)) =
      digest (ascii "abc") :=
  pieces_digest rfl (by decide)

end StarsGaming.Tools
