/-! # Powers and ranges

    Powers of the two bases, and the ranges of integers of a given width in
    bits. -/

namespace WorkloadEnv

/-- Two to the power of `n`. -/
def pow2 (n : Nat) : Nat := Nat.pow 2 n

/-- Ten to the power of `n`. -/
def pow10 (n : Nat) : Nat := Nat.pow 10 n

/-- The integers from one to another, with both ends. -/
structure IntRange where
  low : Int
  high : Int
  deriving DecidableEq, Repr

namespace IntRange

/-- The integers of a width in two's complement. -/
def signed (bits : Nat) : IntRange := ⟨-(pow2 (bits - 1) : Int), (pow2 (bits - 1) : Int) - 1⟩

/-- The integers of a width without a sign. -/
def unsigned (bits : Nat) : IntRange := ⟨0, (pow2 bits : Int) - 1⟩

def contains (r : IntRange) (n : Int) : Bool := r.low ≤ n && n ≤ r.high

/-- Does the integer fit in a width, with a sign or without? -/
def fits (bits : Nat) (n : Int) : Bool := (signed bits).contains n || (unsigned bits).contains n

end IntRange

end WorkloadEnv
