/-!
# Number — Power

Powers of two and ten, and the sizes of machine words.
-/

namespace ResourceQuery

/-- `2ᵏ`. -/
def twoPow (k : Nat) : Nat := Nat.pow 2 k

/-- `10ᵏ`. -/
def tenPow (k : Nat) : Nat := Nat.pow 10 k

/-- How many numbers a word of 32 bits holds, `2³²`. -/
def wordCount : Nat := 4294967296

/-- How many numbers a word of 64 bits holds, `2⁶⁴`. -/
def longCount : Nat := 18446744073709551616

/-- How many numbers from 0 on a signed word of 64 bits holds, `2⁶³`. -/
def signedCount : Nat := 9223372036854775808

end ResourceQuery
