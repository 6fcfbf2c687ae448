import WorkTracking.Bitmap.Basic

/-!
Equality and fingerprints of bitmaps look at the significant words only. A fingerprint is what some
word digest makes of them. Nothing depends on the choice of the digest: equal bitmaps have equal
fingerprints under every one. The one written out here is meant to tell unequal ones apart in
practice.
-/
namespace WorkTracking

/-- Any way to condense a sequence of words into one. -/
abbrev WordDigest := List UInt64 → UInt64

namespace Bitmap

/-- The words up to the last one that is not zero. -/
def significant (b : Bitmap) : List UInt64 :=
  (b.words.toList.reverse.dropWhile (· == 0)).reverse

instance : BEq Bitmap := ⟨fun b c => b.significant == c.significant⟩

def fingerprint (digest : WordDigest) (b : Bitmap) : UInt64 := digest b.significant

/-! ### One word digest -/

/-- The two halves of the full product of two words, joined by exclusive or. -/
def foldedProduct (x y : UInt64) : UInt64 :=
  UInt64.ofNat (x.toNat * y.toNat) ^^^ UInt64.ofNat ((x.toNat * y.toNat) >>> 64)

/-- Two running words take in a sequence from left to right, two words in a step. The last step
takes the last two, so of an odd number of words the last but one is taken twice. -/
def absorb (left right : UInt64) : List UInt64 → UInt64
  | [] => foldedProduct left right
  | [w] => foldedProduct (left ^^^ w) (right ^^^ w)
  | [v, w] => foldedProduct (left ^^^ v) (right ^^^ w)
  | [u, v, w] =>
    foldedProduct (right ^^^ v) (foldedProduct (left ^^^ u) (0xa4093822299f31d0 ^^^ v) ^^^ w)
  | u :: v :: rest => absorb right (foldedProduct (left ^^^ u) (0xa4093822299f31d0 ^^^ v)) rest

/-- The number of words and what they come to, each followed by a multiplication. The constants are
the first binary digits of π and an odd multiplier. -/
def mixingDigest : WordDigest := fun words =>
  let size := UInt64.ofNat words.length
  let mixed := absorb 0x243f6a8885a308d3 0x13198a2e03707344 words ^^^ 8 * size
  (size * 0xf1357aea2e62a9c5 + mixed) * 0xf1357aea2e62a9c5

end Bitmap

end WorkTracking
