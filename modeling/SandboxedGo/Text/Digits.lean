/-!
# Digits of numbers

Natural numbers in bases up to thirty-six, written with lower case letters and read with letters of
either case.
-/

set_option autoImplicit false

namespace SandboxedGo.Text

/-- A digit of a base up to thirty-six, letters in lower case. -/
def digitChar (d : Nat) : Char :=
  Char.ofNat (if d < 10 then '0'.toNat + d else 'a'.toNat + (d - 10))

/-- The digits of a number in a base, in front of others. -/
def digitsBefore (base n : Nat) (others : List Char) : List Char :=
  if n < base ∨ base < 2 then digitChar n :: others
  else digitsBefore base (n / base) (digitChar (n % base) :: others)
termination_by n
decreasing_by exact Nat.div_lt_self (by omega) (by omega)

/-- The digits of a number in a base up to thirty-six, at least `width` of them. -/
def digitsIn (base width n : Nat) : List Char :=
  let digits := digitsBefore base n []
  List.replicate (width - digits.length) '0' ++ digits

def digitValue? (base : Nat) (c : Char) : Option Nat :=
  let value? :=
    if c.isDigit then some (c.toNat - '0'.toNat)
    else if 'a' ≤ c && c ≤ 'z' then some (c.toNat - 'a'.toNat + 10)
    else if 'A' ≤ c && c ≤ 'Z' then some (c.toNat - 'A'.toNat + 10)
    else none
  value?.filter (· < base)

/-- The number that digits write behind the number `read`. -/
def numberAfter (base read : Nat) : List Char → Option Nat
  | [] => some read
  | c :: rest =>
    match digitValue? base c with
    | some d => numberAfter base (base * read + d) rest
    | none => none

/-- The number that one digit or more write; none if a character is no digit of the base. -/
def numberIn? (base : Nat) (digits : List Char) : Option Nat :=
  if digits.isEmpty then none else numberAfter base 0 digits

end SandboxedGo.Text
