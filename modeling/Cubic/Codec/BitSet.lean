import Cubic.Codec.Reader

/-! # Bit sets of 64-bit words (`bitset.rs`) -/

namespace Cubic

set_option autoImplicit false

structure BitSetLimits where
  maxWords : Nat
  maxBits : Nat
  deriving DecidableEq

def BitSetLimits.maximumEncodedWords (limits : BitSetLimits) : Nat :=
  let byBits := (limits.maxBits + 63) / 64
  if byBits < limits.maxWords then byBits else limits.maxWords

/-- The words, without zero words at the end. -/
structure BitSet where
  words : List UInt64
  canonical : words.getLast? ≠ some 0
  deriving DecidableEq

/-- The scan from the last word down. -/
def highestSetBit (words : List UInt64) : Option Nat :=
  words.zipIdx.reverse.findSome? fun entry =>
    if entry.1 = 0 then none
    else (checkedMul entry.2 64).bind fun base => checkedAdd base (Nat.log2 entry.1.toNat)

def validateWords (words : List UInt64) (limits : BitSetLimits) : Except CodecError Unit :=
  if limits.maximumEncodedWords < words.length then
    .error (.bitSetTooManyWords words.length limits.maximumEncodedWords)
  else match highestSetBit words with
    | some bit =>
      if limits.maxBits ≤ bit then .error (.bitSetBitOutOfRange bit limits.maxBits) else .ok ()
    | none => .ok ()

/-- The loop that pops zero words, over the reversed words. -/
def popZeros (words : List UInt64) : List UInt64 := (words.reverse.dropWhile (· = 0)).reverse

theorem popZeros_canonical (words : List UInt64) : (popZeros words).getLast? ≠ some 0 := by
  unfold popZeros
  rw [List.getLast?_reverse]
  intro h
  have hnot := List.head?_dropWhile_not (fun word : UInt64 => decide (word = 0)) words.reverse
  rw [h] at hnot
  exact absurd hnot (by decide)

namespace BitSet

def fromWords (words : List UInt64) (limits : BitSetLimits) : Except CodecError BitSet := do
  validateWords words limits
  pure ⟨popZeros words, popZeros_canonical words⟩

end BitSet

def readBitSet (limits : BitSetLimits) : ReaderM BitSet := do
  let wordCount ← readLength .bitSet
  if limits.maximumEncodedWords < wordCount then
    Mut.fail (.bitSetTooManyWords wordCount limits.maximumEncodedWords)
  else do
    let words ← Mut.repeatCall readU64 wordCount
    Mut.ofExcept (BitSet.fromWords words limits)

end Cubic
