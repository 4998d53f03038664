import ChipEight.Random.Twister

/-!
# Random numbers

Where the machine's random numbers come from: a seeded generator, or any sequence of whole
numbers given from outside, of which a number of members has been used. The k-th number asked for
is the k-th member, whoever asks.
-/

namespace ChipEight

/-- A source of random numbers and how far it has been used. -/
inductive RandomSource
  | sequence (member : Nat → Int) (taken : Nat)
  | seeded (generator : Twister)

namespace RandomSource

/-- Takes the next number. -/
def next : RandomSource → Int × RandomSource
  | .sequence member taken => (member taken, .sequence member (taken + 1))
  | .seeded generator =>
    let (value, generator) := generator.nextByte
    ((value : Int), .seeded generator)

/-- The members of an array over and over, or zeros if it is empty. -/
def cycle (members : Array Int) : RandomSource :=
  .sequence (fun k => members.getD (k % members.size) 0) 0

/-- The numbers of a seed. -/
def ofSeed (seed : Int) : RandomSource := .seeded (Twister.ofSeed seed)

end RandomSource

end ChipEight
