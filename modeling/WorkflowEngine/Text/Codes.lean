/-!
# Codes of characters

Characters by their codes, and sets of characters as ranges of codes.
-/

namespace WorkflowEngine.Text

/-- The character with a code, if there is one. -/
def ofCode? (n : Nat) : Option Char :=
  if n.isValidChar then some (Char.ofNat n) else none

/-- Whether a character lies in one of some ranges, to which both of their ends belong. -/
def within (ranges : List (Nat × Nat)) (c : Char) : Bool :=
  ranges.any fun r => r.1 ≤ c.toNat && c.toNat ≤ r.2

end WorkflowEngine.Text
