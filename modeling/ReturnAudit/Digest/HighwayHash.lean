import ReturnAudit.Text.Bytes

/-!
# HighwayHash

The 64-bit HighwayHash of a byte text under a fixed key. The state is four lanes of four words;
every packet of 32 bytes is mixed into it by multiplications and a fixed exchange of bytes.
-/

namespace ReturnAudit.HighwayHash

/-- Four words that are updated side by side. -/
structure Lanes where
  a : UInt64
  b : UInt64
  c : UInt64
  d : UInt64
  deriving DecidableEq, Repr

namespace Lanes

/-- One word in every lane. -/
def replicate (w : UInt64) : Lanes := ⟨w, w, w, w⟩

/-- A function of two words, lane by lane. -/
def zipWith (f : UInt64 → UInt64 → UInt64) (x y : Lanes) : Lanes :=
  ⟨f x.a y.a, f x.b y.b, f x.c y.c, f x.d y.d⟩

/-- A function of one word, lane by lane. -/
def map (f : UInt64 → UInt64) (x : Lanes) : Lanes :=
  ⟨f x.a, f x.b, f x.c, f x.d⟩

instance : Add Lanes := ⟨zipWith (· + ·)⟩

instance : XorOp Lanes := ⟨zipWith (· ^^^ ·)⟩

end Lanes

/-- The state of the hash. -/
structure State where
  v0 : Lanes
  v1 : Lanes
  mul0 : Lanes
  mul1 : Lanes
  deriving DecidableEq, Repr

/-- The two halves of a word exchanged. -/
def swapHalves (w : UInt64) : UInt64 :=
  w >>> 32 ||| w <<< 32

/-- The word whose bytes are given, the lowest first. -/
def wordOfBytes (bytes : Bytes) : UInt64 :=
  bytes.foldr (fun b w => w <<< 8 ||| b.toUInt64) 0

/-- The lanes of 32 bytes. -/
def lanesOfBytes (bytes : Bytes) : Lanes :=
  ⟨wordOfBytes (bytes.take 8), wordOfBytes ((bytes.drop 8).take 8),
    wordOfBytes ((bytes.drop 16).take 8), wordOfBytes ((bytes.drop 24).take 8)⟩

/-- The key under which everything is hashed. -/
def key : Lanes :=
  lanesOfBytes "0123456789ABCDEF0123456789ABCDEF"

/-- The state before any packet. -/
def State.initial : State :=
  let mul0 : Lanes :=
    ⟨0xdbe6d5d5fe4cce2f, 0xa4093822299f31d0, 0x13198a2e03707344, 0x243f6a8885a308d3⟩
  let mul1 : Lanes :=
    ⟨0x3bd39e10cb0ef593, 0xc0acf169b5f18a8c, 0xbe5466cf34e90c6c, 0x452821e638d01377⟩
  ⟨mul0 ^^^ key, mul1 ^^^ key.map swapHalves, mul0, mul1⟩

/-- The bits of a word under a mask. -/
private def keep (mask w : UInt64) : UInt64 :=
  w &&& mask

/-- The product of the low half of one word and the high half of another. -/
private def cross (low high : UInt64) : UInt64 :=
  keep 0xffffffff low * (high >>> 32)

/-- The bytes of two words exchanged for the lower of two results. -/
private def zipLow (hi lo : UInt64) : UInt64 :=
  (keep 0xff000000 lo ||| keep 0xff00000000 hi) >>> 24
    ||| (keep 0xff0000000000 lo ||| keep 0xff000000000000 hi) >>> 16
    ||| keep 0xff0000 lo ||| (keep 0xff00 lo) <<< 32
    ||| (keep 0xff00000000000000 hi) >>> 8 ||| lo <<< 56

/-- The bytes of two words exchanged for the higher of two results. -/
private def zipHigh (hi lo : UInt64) : UInt64 :=
  (keep 0xff000000 hi ||| keep 0xff00000000 lo) >>> 24
    ||| keep 0xff0000 hi ||| (keep 0xff0000000000 hi) >>> 16
    ||| (keep 0xff00 hi) <<< 24 ||| (keep 0xff000000000000 lo) >>> 8
    ||| (keep 0xff hi) <<< 48 ||| keep 0xff00000000000000 lo

/-- The bytes of each pair of lanes exchanged. -/
private def zipper (x : Lanes) : Lanes :=
  ⟨zipLow x.b x.a, zipHigh x.b x.a, zipLow x.d x.c, zipHigh x.d x.c⟩

/-- Mixes one packet into the state. -/
def State.update (s : State) (packet : Lanes) : State :=
  let v1 := s.v1 + (s.mul0 + packet)
  let mul0 := s.mul0 ^^^ Lanes.zipWith cross v1 s.v0
  let v0 := s.v0 + s.mul1
  let mul1 := s.mul1 ^^^ Lanes.zipWith cross v0 v1
  let v0 := v0 + zipper v1
  let v1 := v1 + zipper v0
  ⟨v0, v1, mul0, mul1⟩

/-- Both halves of a word rotated left by `count` bits, where `count` is between 1 and 31. -/
private def rotateHalves (count : UInt64) (w : UInt64) : UInt64 :=
  let rotate := fun (half : UInt64) => keep 0xffffffff (half <<< count ||| half >>> (32 - count))
  rotate (keep 0xffffffff w) ||| rotate (w >>> 32) <<< 32

/-- The last packet when between 1 and 31 bytes are left: whole words first, and what is beyond them
at a fixed place. -/
private def lastPacket (rest : Bytes) : Bytes :=
  let n := rest.length
  let whole := rest.take (n / 4 * 4)
  let tail := rest.drop (n / 4 * 4)
  let byteAt := fun (i : Nat) => (rest[i]?).getD 0
  if 16 ≤ n then
    whole ++ List.replicate (28 - whole.length) 0
      ++ [byteAt (n - 4), byteAt (n - 3), byteAt (n - 2), byteAt (n - 1)]
  else if tail.isEmpty then whole
  else
    let pick := fun (i : Nat) => (tail[i]?).getD 0
    whole ++ List.replicate (16 - whole.length) 0
      ++ [pick 0, pick (tail.length / 2), pick (tail.length - 1)]

/-- Mixes in the bytes that do not fill a packet. -/
private def State.updateLast (s : State) (rest : Bytes) : State :=
  let n := rest.length.toUInt64
  let s := { s with v0 := s.v0 + Lanes.replicate (n <<< 32 + n), v1 := s.v1.map (rotateHalves n) }
  s.update (lanesOfBytes (lastPacket rest))

/-- Mixes in all bytes; `bound` is at least the number of packets. -/
private def State.absorb (s : State) : (bound : Nat) → Bytes → State
  | 0, _ => s
  | bound + 1, data =>
    match Bytes.splitExactly 32 data with
    | some (packet, rest) => absorb (s.update (lanesOfBytes packet)) bound rest
    | none => if data.isEmpty then s else s.updateLast data

/-- One round without data: the state is mixed with itself. -/
private def State.permute (s : State) : State :=
  s.update ⟨swapHalves s.v0.c, swapHalves s.v0.d, swapHalves s.v0.a, swapHalves s.v0.b⟩

/-- The hash of a byte text. -/
def hash (data : Bytes) : UInt64 :=
  let s := State.initial.absorb (data.length / 32 + 1) data
  let s := s.permute.permute.permute.permute
  s.v0.a + s.v1.a + s.mul0.a + s.mul1.a

end ReturnAudit.HighwayHash
