/-!
A hash of byte strings: the first half of the 128 bits of MurmurHash3 for 64-bit words, with zero as the seed.
-/

namespace ClientScript.Murmur

def rotate (word count : UInt64) : UInt64 := (word <<< count) ||| (word >>> (64 - count))

/-- The number in up to eight bytes, low byte first. -/
def word (bytes : List UInt8) : UInt64 :=
  bytes.foldr (fun byte word => (word <<< 8) ||| byte.toUInt64) 0

def lowFactor : UInt64 := 0x87c37b91114253d5

def highFactor : UInt64 := 0x4cf5ad432745937f

def scatterLow (word : UInt64) : UInt64 := rotate (word * lowFactor) 31 * highFactor

def scatterHigh (word : UInt64) : UInt64 := rotate (word * highFactor) 33 * lowFactor

structure State where
  low : UInt64 := 0
  high : UInt64 := 0

namespace State

def absorb (state : State) (block : List UInt8) : State :=
  let low := (rotate (state.low ^^^ scatterLow (word (block.take 8))) 27 + state.high) * 5 + 0x52dce729
  let high := (rotate (state.high ^^^ scatterHigh (word (block.drop 8))) 31 + low) * 5 + 0x38495ab5
  ⟨low, high⟩

def absorbRest (state : State) (rest : List UInt8) : State :=
  ⟨state.low ^^^ scatterLow (word (rest.take 8)), state.high ^^^ scatterHigh (word (rest.drop 8))⟩

def absorbAll : Nat → State → List UInt8 → State
  | 0, state, rest => state.absorbRest rest
  | blocks + 1, state, bytes => absorbAll blocks (state.absorb (bytes.take 16)) (bytes.drop 16)

end State

def mix (word : UInt64) : UInt64 :=
  let word := (word ^^^ (word >>> 33)) * 0xff51afd7ed558ccd
  let word := (word ^^^ (word >>> 33)) * 0xc4ceb9fe1a85ec53
  word ^^^ (word >>> 33)

def hash (bytes : List UInt8) : UInt64 :=
  let state := State.absorbAll (bytes.length / 16) {} bytes
  let length := UInt64.ofNat bytes.length
  let low := (state.low ^^^ length) + (state.high ^^^ length)
  let high := low + (state.high ^^^ length)
  mix low + mix high

end ClientScript.Murmur
