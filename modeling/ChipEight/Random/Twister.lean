/-!
# A seeded generator

The Mersenne twister: 624 words of 32 bits, renewed all at once when they have been used up, each
renewed word being a word 397 places on combined with the shifted bits of its own place and the
next. What the generator gives out is a word with its bits mixed once more.

A seed is a whole number. Its sign is dropped and its 32-bit words, least significant first, are
stirred into the state.
-/

namespace ChipEight

/-- The state words and how many of them have been used. -/
structure Twister where
  words : Array UInt32
  used : Nat

namespace Twister

/-- The number of state words. -/
abbrev size : Nat := 624

/-- How far on the word lies that a renewed word is combined with. -/
abbrev distance : Nat := 397

/-- The state word in a place. -/
def word (words : Array UInt32) (k : Nat) : UInt32 := words.getD k 0

/-- The word that follows a word while the state is first filled. -/
def successor (k : Nat) (w : UInt32) : UInt32 :=
  (1812433253 : UInt32) * (w ^^^ (w >>> 30)) + UInt32.ofNat k

/-- The state that a single word fills. -/
def fill (first : UInt32) : Array UInt32 :=
  (List.range (size - 1)).foldl
    (fun words k => words.push (successor (k + 1) (word words k))) #[first]

/-- The 32-bit words of a number, least significant first and at least one. -/
def seedWords (n : Nat) : List UInt32 :=
  if n < 0x100000000 then [UInt32.ofNat n]
  else UInt32.ofNat (n % 0x100000000) :: seedWords (n / 0x100000000)
termination_by n
decreasing_by omega

/-- One place further in the state, with the last word carried to the front at the end. -/
def advance (words : Array UInt32) (k : Nat) : Array UInt32 × Nat :=
  if k + 1 < size then (words, k + 1) else (words.setIfInBounds 0 (word words (size - 1)), 1)

/-- Stirs a word into a place of the state. -/
def stir (factor : UInt32) (words : Array UInt32) (k : Nat) : UInt32 :=
  let before := word words (k - 1)
  word words k ^^^ ((before ^^^ (before >>> 30)) * factor)

/-- Stirs the seed in, a number of times and in turn. -/
def stirSeed (key : Array UInt32) : Nat → Array UInt32 → Nat → Nat → Array UInt32 × Nat
  | 0, words, k, _ => (words, k)
  | times + 1, words, k, j =>
    let w := stir 1664525 words k + word key j + UInt32.ofNat j
    let (words, k) := advance (words.setIfInBounds k w) k
    stirSeed key times words k (if j + 1 < key.size then j + 1 else 0)

/-- Stirs the places themselves in, a number of times. -/
def stirPlaces : Nat → Array UInt32 → Nat → Array UInt32
  | 0, words, _ => words
  | times + 1, words, k =>
    let w := stir 1566083941 words k - UInt32.ofNat k
    let (words, k) := advance (words.setIfInBounds k w) k
    stirPlaces times words k

/-- The generator of a seed. -/
def ofSeed (seed : Int) : Twister :=
  let key := (seedWords seed.natAbs).toArray
  let (words, k) := stirSeed key (max size key.size) (fill 19650218) 1 0
  let words := stirPlaces (size - 1) words k
  ⟨words.setIfInBounds 0 0x80000000, size⟩

/-- Renews one word of the state. -/
def renewWord (words : Array UInt32) (k : Nat) : Array UInt32 :=
  let y := (word words k &&& 0x80000000) ||| (word words ((k + 1) % size) &&& 0x7fffffff)
  let odd : UInt32 := if y &&& 1 = 0 then 0 else 0x9908b0df
  words.setIfInBounds k (word words ((k + distance) % size) ^^^ (y >>> 1) ^^^ odd)

/-- Renews all words of the state. -/
def renew (words : Array UInt32) : Array UInt32 := (List.range size).foldl renewWord words

/-- Mixes the bits of a word that is given out. -/
def temper (y : UInt32) : UInt32 :=
  let y := y ^^^ (y >>> 11)
  let y := y ^^^ ((y <<< 7) &&& 0x9d2c5680)
  let y := y ^^^ ((y <<< 15) &&& 0xefc60000)
  y ^^^ (y >>> 18)

/-- The next word. -/
def nextWord (g : Twister) : UInt32 × Twister :=
  if g.used < size then (temper (word g.words g.used), { g with used := g.used + 1 })
  else
    let words := renew g.words
    (temper (word words 0), ⟨words, 1⟩)

/-- The next number below 256 among the numbers below 512 that the first nine bits of the words
make. Every second number is fit on average; after the given number of unfit ones in a row the
answer is zero. -/
def nextByteWithin : Nat → Twister → Nat × Twister
  | 0, g => (0, g)
  | tries + 1, g =>
    let (w, g) := g.nextWord
    let n := (w >>> 23).toNat
    if n < 256 then (n, g) else nextByteWithin tries g

/-- The next number below 256. -/
def nextByte (g : Twister) : Nat × Twister := nextByteWithin 4096 g

end Twister

end ChipEight
