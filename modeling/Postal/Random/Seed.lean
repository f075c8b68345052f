import Postal.Random.ChaCha

/-!
# A key from a seed.

A seed of one word of 64 binary digits is spread over the eight words of a key: a linear congruence
moves the seed on, and each of its states is folded and turned into one word of the key.
-/

namespace Postal.Random

/-- The next state of the congruence. -/
def seedStep (state : UInt64) : UInt64 := state * 6364136223846793005 + 11634580027462260723

/-- The word of a key that a state stands for. -/
def seedWord (state : UInt64) : UInt32 :=
  let folded := (((state >>> 18) ^^^ state) >>> 27).toUInt32
  let places := (state >>> 59).toUInt32
  (folded >>> places) ||| (folded <<< ((32 - places) % 32))

/-- The key of a seed. -/
def Key.ofSeed (seed : Nat) : Key :=
  let s0 := seedStep (UInt64.ofNat seed)
  let s1 := seedStep s0
  let s2 := seedStep s1
  let s3 := seedStep s2
  let s4 := seedStep s3
  let s5 := seedStep s4
  let s6 := seedStep s5
  let s7 := seedStep s6
  ⟨seedWord s0, seedWord s1, seedWord s2, seedWord s3, seedWord s4, seedWord s5,
    seedWord s6, seedWord s7⟩

/-- The stream of words that a seed stands for. -/
def stream (seed : Nat) : Nat → UInt32 := word (.ofSeed seed)

end Postal.Random
