/-!
# The hash xxHash64

The 64-bit hash of a list of bytes under a seed. Stripes of 32 bytes are mixed into four lanes, the
lanes are merged, the remaining bytes are mixed in by eights, by a four and one by one, and the result
is avalanched. All arithmetic is modulo 2^64, and words are read with the least byte first.
-/

namespace AddressRegistry.XXHash64

/-- The first mixing constant. -/
def prime₁ : UInt64 := 0x9E3779B185EBCA87
/-- The second mixing constant. -/
def prime₂ : UInt64 := 0xC2B2AE3D27D4EB4F
/-- The third mixing constant. -/
def prime₃ : UInt64 := 0x165667B19E3779F9
/-- The fourth mixing constant. -/
def prime₄ : UInt64 := 0x85EBCA77C2B2AE63
/-- The fifth mixing constant. -/
def prime₅ : UInt64 := 0x27D4EB2F165667C5

/-- Rotate to the left, by less than 64. -/
def rotate (x : UInt64) (bits : UInt64) : UInt64 :=
  (x <<< bits) ||| (x >>> (64 - bits))

/-- The word whose bytes these are, least first. -/
def word (bytes : List UInt8) : UInt64 :=
  bytes.foldr (fun b acc => (acc <<< 8) ||| b.toUInt64) 0

/-- Mix a word into a lane. -/
def round (lane input : UInt64) : UInt64 :=
  rotate (lane + input * prime₂) 31 * prime₁

/-- The four lanes. -/
structure Lanes where
  a : UInt64
  b : UInt64
  c : UInt64
  d : UInt64

/-- The lanes before any stripe. -/
def Lanes.start (seed : UInt64) : Lanes :=
  ⟨seed + prime₁ + prime₂, seed + prime₂, seed, seed - prime₁⟩

/-- Mix the next 32 bytes into the lanes. -/
def Lanes.stripe (l : Lanes) (bytes : List UInt8) : Lanes where
  a := round l.a (word (bytes.take 8))
  b := round l.b (word ((bytes.drop 8).take 8))
  c := round l.c (word ((bytes.drop 16).take 8))
  d := round l.d (word ((bytes.drop 24).take 8))

/-- Fold one lane into the merged value. -/
def mergeLane (acc lane : UInt64) : UInt64 :=
  (acc ^^^ round 0 lane) * prime₁ + prime₄

/-- The merged value of the lanes. -/
def Lanes.merge (l : Lanes) : UInt64 :=
  let acc := rotate l.a 1 + rotate l.b 7 + rotate l.c 12 + rotate l.d 18
  mergeLane (mergeLane (mergeLane (mergeLane acc l.a) l.b) l.c) l.d

/-- Mix a number of whole stripes into the lanes. -/
def Lanes.stripes : Nat → Lanes → List UInt8 → Lanes
  | 0, l, _ => l
  | n + 1, l, bytes => Lanes.stripes n (l.stripe bytes) (bytes.drop 32)

/-- Mix in a number of whole eights. -/
def eights : Nat → UInt64 → List UInt8 → UInt64
  | 0, acc, _ => acc
  | n + 1, acc, bytes =>
    eights n (rotate (acc ^^^ round 0 (word (bytes.take 8))) 27 * prime₁ + prime₄) (bytes.drop 8)

/-- Mix in four bytes, if there are four left. -/
def four (acc : UInt64) (bytes : List UInt8) : UInt64 :=
  if 4 ≤ bytes.length then
    rotate (acc ^^^ (word (bytes.take 4) * prime₁)) 23 * prime₂ + prime₃
  else
    acc

/-- Mix in one byte. -/
def single (acc : UInt64) (byte : UInt8) : UInt64 :=
  rotate (acc ^^^ (byte.toUInt64 * prime₅)) 11 * prime₁

/-- The final avalanche. -/
def avalanche (acc : UInt64) : UInt64 :=
  let acc := (acc ^^^ (acc >>> 33)) * prime₂
  let acc := (acc ^^^ (acc >>> 29)) * prime₃
  acc ^^^ (acc >>> 32)

/-- The hash of a list of bytes under a seed. -/
def hash (seed : UInt64) (bytes : List UInt8) : UInt64 :=
  let count := bytes.length
  let start :=
    if 32 ≤ count then ((Lanes.start seed).stripes (count / 32) bytes).merge else seed + prime₅
  let rest := bytes.drop (count / 32 * 32)
  let acc := eights (rest.length / 8) (start + UInt64.ofNat count) rest
  let rest := rest.drop (rest.length / 8 * 8)
  let acc := four acc rest
  avalanche ((if 4 ≤ rest.length then rest.drop 4 else rest).foldl single acc)

end AddressRegistry.XXHash64
