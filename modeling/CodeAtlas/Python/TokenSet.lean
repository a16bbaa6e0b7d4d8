/-!
# Sets of tokens

Tokens are numbered, and a set of them is the number whose bits are its members.
-/

namespace CodeAtlas.Python

/-- A set of token numbers. -/
structure TokenSet where
  bits : Nat
  deriving DecidableEq, Hashable, Inhabited

namespace TokenSet

def empty : TokenSet := ⟨0⟩

def singleton (n : Nat) : TokenSet := ⟨1 <<< n⟩

def contains (s : TokenSet) (n : Nat) : Bool := s.bits.testBit n

def union (s t : TokenSet) : TokenSet := ⟨s.bits ||| t.bits⟩

instance : Union TokenSet := ⟨union⟩

end TokenSet

end CodeAtlas.Python
