/-!
# Classes of characters

A class of characters is kept as the increasing list of code points at which membership changes:
it begins outside the class, and each entry switches sides.  Membership is a binary search.
-/

set_option autoImplicit false

namespace SandboxedGo.Text

/-- A set of code points, given by the points at which membership changes. -/
structure CharClass where
  switches : Array Nat

namespace CharClass

/-- How many of the entries from `low` up to `high` are at most `code`, plus `low`; the entries are
increasing. -/
def countUpTo (switches : Array Nat) (code low high : Nat) : Nat :=
  if low < high then
    let middle := low + (high - low) / 2
    if switches[middle]?.getD 0 ≤ code then countUpTo switches code (middle + 1) high
    else countUpTo switches code low middle
  else low
termination_by high - low

def contains (cls : CharClass) (c : Char) : Bool :=
  countUpTo cls.switches c.toNat 0 cls.switches.size % 2 = 1

end CharClass

end SandboxedGo.Text
