/-!
# Fingerprints

`fingerprint` is the 64-bit xxHash of the bytes of a text with seed zero. The bytes are read as
little-endian words of eight; each full group of four words feeds the four lanes, and what remains
is mixed in word by word, then as one half word, then byte by byte.
-/

namespace FlagSelect.Text.Digest

def prime₁ : UInt64 := 11400714785074694791
def prime₂ : UInt64 := 14029467366897019727
def prime₃ : UInt64 := 1609587929392839161
def prime₄ : UInt64 := 9650029242287828579
def prime₅ : UInt64 := 2870177450012600261

/-- Rotation to the left by `n` bits, for `0 < n < 64`. -/
def rotateLeft (x n : UInt64) : UInt64 :=
  (x <<< n) ||| (x >>> (64 - n))

/-- The little-endian number of a list of bytes. -/
def ofBytes (bs : List UInt8) : UInt64 :=
  bs.foldr (fun b n => n * 256 + b.toUInt64) 0

/-- Splits bytes into full words of eight and the fewer than eight bytes behind them. -/
def splitWords : List UInt8 → List UInt64 × List UInt8
  | a :: b :: c :: d :: e :: f :: g :: h :: rest =>
    let (words, tail) := splitWords rest
    (ofBytes [a, b, c, d, e, f, g, h] :: words, tail)
  | tail => ([], tail)

/-- The four accumulators that take one word of each group. -/
structure Lanes where
  first : UInt64
  second : UInt64
  third : UInt64
  fourth : UInt64

def round (acc word : UInt64) : UInt64 :=
  rotateLeft (acc + word * prime₂) 31 * prime₁

/-- Feeds all full groups of four words to the lanes and gives the words left over. -/
def Lanes.absorb (l : Lanes) : List UInt64 → Lanes × List UInt64
  | a :: b :: c :: d :: rest =>
    Lanes.absorb ⟨round l.first a, round l.second b, round l.third c, round l.fourth d⟩ rest
  | rest => (l, rest)

def mergeLane (h lane : UInt64) : UInt64 :=
  (h ^^^ round 0 lane) * prime₁ + prime₄

def Lanes.merge (l : Lanes) : UInt64 :=
  let h := rotateLeft l.first 1 + rotateLeft l.second 7 + rotateLeft l.third 12 +
    rotateLeft l.fourth 18
  mergeLane (mergeLane (mergeLane (mergeLane h l.first) l.second) l.third) l.fourth

def mixWord (h word : UInt64) : UInt64 :=
  rotateLeft (h ^^^ round 0 word) 27 * prime₁ + prime₄

def mixHalf (h half : UInt64) : UInt64 :=
  rotateLeft (h ^^^ half * prime₁) 23 * prime₂ + prime₃

def mixByte (h : UInt64) (b : UInt8) : UInt64 :=
  rotateLeft (h ^^^ b.toUInt64 * prime₅) 11 * prime₁

/-- Mixes in the fewer than eight bytes behind the last full word. -/
def mixTail (h : UInt64) : List UInt8 → UInt64
  | a :: b :: c :: d :: rest => rest.foldl mixByte (mixHalf h (ofBytes [a, b, c, d]))
  | tail => tail.foldl mixByte h

/-- Spreads every bit over the whole word. -/
def avalanche (h : UInt64) : UInt64 :=
  let h := (h ^^^ (h >>> 33)) * prime₂
  let h := (h ^^^ (h >>> 29)) * prime₃
  h ^^^ (h >>> 32)

/-- The 64-bit xxHash with seed zero. -/
def hash (bs : List UInt8) : UInt64 :=
  let (words, tail) := splitWords bs
  let (lanes, words) := Lanes.absorb ⟨prime₁ + prime₂, prime₂, 0, 0 - prime₁⟩ words
  let h := if 32 ≤ bs.length then lanes.merge else prime₅
  avalanche (mixTail (words.foldl mixWord (h + bs.length.toUInt64)) tail)

/-- The fingerprint of a text: the hash of its UTF-8 bytes. -/
def fingerprint (s : String) : UInt64 :=
  hash s.toUTF8.toList

example : hash [] = 0xef46db3751d8e999 := by decide +kernel

end FlagSelect.Text.Digest
