/-
Powers of two and of ten.
-/
namespace ResilientClient

/-- The power of two. -/
def twoTo (n : Nat) : Nat := Nat.pow 2 n

/-- The power of ten. -/
def tenTo (n : Nat) : Nat := Nat.pow 10 n

end ResilientClient
