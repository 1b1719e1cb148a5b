import EvmHarness.Bytes
set_option autoImplicit false

/-!
# Keccak-256

The sponge over the permutation of 1600 bits, with a rate of 136 bytes, a digest of 32 bytes and
the padding `0x01 … 0x80` of the submission (the later standard pads with `0x06`).  The state is
five planes of five lanes; every step of a round acts on whole planes except the one that moves
lanes between them.
-/

namespace EvmHarness.Keccak

/-- Five lanes of 64 bits that share a `y` coordinate. -/
structure Plane where
  a : UInt64
  b : UInt64
  c : UInt64
  d : UInt64
  e : UInt64
  deriving DecidableEq, Inhabited

/-- The 1600 bits of the permutation: five planes. -/
structure State where
  a : Plane
  b : Plane
  c : Plane
  d : Plane
  e : Plane
  deriving DecidableEq, Inhabited

/-- A lane turned left by `n` bits, `0 < n < 64`. -/
def rotate (lane n : UInt64) : UInt64 := (lane <<< n) ||| (lane >>> (64 - n))

namespace Plane

/-- The plane of zero lanes. -/
def zero : Plane := ⟨0, 0, 0, 0, 0⟩

/-- Lane by lane exclusive or. -/
def xor (p q : Plane) : Plane := ⟨p.a ^^^ q.a, p.b ^^^ q.b, p.c ^^^ q.c, p.d ^^^ q.d, p.e ^^^ q.e⟩

/-- The column parities spread to their neighbours: for each `x`, the parity of column `x - 1`
and the turned parity of column `x + 1`. -/
def spread (p : Plane) : Plane :=
  ⟨p.e ^^^ rotate p.b 1, p.a ^^^ rotate p.c 1, p.b ^^^ rotate p.d 1, p.c ^^^ rotate p.e 1,
    p.d ^^^ rotate p.a 1⟩

/-- The nonlinear step: each lane is flipped where its right neighbour is clear and the one
after it is set. -/
def chi (p : Plane) : Plane :=
  ⟨p.a ^^^ (~~~p.b &&& p.c), p.b ^^^ (~~~p.c &&& p.d), p.c ^^^ (~~~p.d &&& p.e),
    p.d ^^^ (~~~p.e &&& p.a), p.e ^^^ (~~~p.a &&& p.b)⟩

end Plane

namespace State

/-- The state of zero bits. -/
def zero : State := ⟨.zero, .zero, .zero, .zero, .zero⟩

/-- Adds to every plane the spread column parities. -/
def theta (s : State) : State :=
  let parity := (((s.a.xor s.b).xor s.c).xor s.d).xor s.e
  let effect := parity.spread
  ⟨s.a.xor effect, s.b.xor effect, s.c.xor effect, s.d.xor effect, s.e.xor effect⟩

/-- Turns every lane by its own amount and moves it to its new place. -/
def rhoPi (s : State) : State where
  a := ⟨s.a.a, rotate s.b.b 44, rotate s.c.c 43, rotate s.d.d 21, rotate s.e.e 14⟩
  b := ⟨rotate s.a.d 28, rotate s.b.e 20, rotate s.c.a 3, rotate s.d.b 45, rotate s.e.c 61⟩
  c := ⟨rotate s.a.b 1, rotate s.b.c 6, rotate s.c.d 25, rotate s.d.e 8, rotate s.e.a 18⟩
  d := ⟨rotate s.a.e 27, rotate s.b.a 36, rotate s.c.b 10, rotate s.d.c 15, rotate s.e.d 56⟩
  e := ⟨rotate s.a.c 62, rotate s.b.d 55, rotate s.c.e 39, rotate s.d.a 41, rotate s.e.b 2⟩

/-- One round, with its constant added to the first lane. -/
def round (s : State) (constant : UInt64) : State :=
  let s := s.theta.rhoPi
  let first := s.a.chi
  ⟨{ first with a := first.a ^^^ constant }, s.b.chi, s.c.chi, s.d.chi, s.e.chi⟩

/-- The constants of the 24 rounds. -/
def roundConstants : List UInt64 :=
  [0x0000000000000001, 0x0000000000008082, 0x800000000000808a, 0x8000000080008000,
   0x000000000000808b, 0x0000000080000001, 0x8000000080008081, 0x8000000000008009,
   0x000000000000008a, 0x0000000000000088, 0x0000000080008009, 0x000000008000000a,
   0x000000008000808b, 0x800000000000008b, 0x8000000000008089, 0x8000000000008003,
   0x8000000000008002, 0x8000000000000080, 0x000000000000800a, 0x800000008000000a,
   0x8000000080008081, 0x8000000000008080, 0x0000000080000001, 0x8000000080008008]

/-- The permutation: all rounds in order. -/
def permute (s : State) : State := roundConstants.foldl round s

end State

/-- The bytes of one block. -/
def rate : Nat := 136

/-- The lane that the eight bytes from `offset` on write, least significant byte first. -/
def laneAt (b : ByteArray) (offset : Nat) : UInt64 :=
  let byte (i : Nat) : UInt64 := (Bytes.byteAt b (offset + i)).toUInt64
  byte 0 ||| (byte 1 <<< 8) ||| (byte 2 <<< 16) ||| (byte 3 <<< 24) ||| (byte 4 <<< 32) |||
    (byte 5 <<< 40) ||| (byte 6 <<< 48) ||| (byte 7 <<< 56)

/-- The plane that the five lanes from `offset` on write. -/
def planeAt (b : ByteArray) (offset : Nat) : Plane :=
  ⟨laneAt b offset, laneAt b (offset + 8), laneAt b (offset + 16), laneAt b (offset + 24),
    laneAt b (offset + 32)⟩

/-- The message followed by its padding up to a whole number of blocks. -/
def pad (message : ByteArray) : ByteArray :=
  let fill := rate - message.size % rate
  if fill = 1 then message.push 0x81
  else (Bytes.pushZeros (message.push 0x01) (fill - 2)).push 0x80

/-- Adds `blocks` blocks of the padded message to the state, from `offset` on, permuting after
each. -/
def absorb (padded : ByteArray) : Nat → Nat → State → State
  | 0, _, s => s
  | blocks + 1, offset, s =>
    let a := s.a.xor (planeAt padded offset)
    let b := s.b.xor (planeAt padded (offset + 40))
    let c := s.c.xor (planeAt padded (offset + 80))
    let d := s.d.xor ⟨laneAt padded (offset + 120), laneAt padded (offset + 128), 0, 0, 0⟩
    absorb padded blocks (offset + rate) (State.permute ⟨a, b, c, d, s.e⟩)

/-- A lane with its bytes in reverse order: neighbours are exchanged, then pairs, then halves. -/
def swapBytes (lane : UInt64) : UInt64 :=
  let evenBytes : UInt64 := 0x00ff00ff00ff00ff
  let evenPairs : UInt64 := 0x0000ffff0000ffff
  let bytes := ((lane >>> 8) &&& evenBytes) ||| ((lane &&& evenBytes) <<< 8)
  let pairs := ((bytes >>> 16) &&& evenPairs) ||| ((bytes &&& evenPairs) <<< 16)
  (pairs >>> 32) ||| (pairs <<< 32)

/-- The digest of a message: the first four lanes after all blocks are absorbed, as a
big-endian number. -/
def digest (message : ByteArray) : BitVec 256 :=
  let padded := pad message
  let s := absorb padded (padded.size / rate) 0 .zero
  let lane (x : UInt64) : Nat := (swapBytes x).toNat
  BitVec.ofNat 256
    ((((lane s.a.a <<< 64 + lane s.a.b) <<< 64) + lane s.a.c) <<< 64 + lane s.a.d)

end EvmHarness.Keccak
