/-!
# Spans of time

Spans of whole milliseconds, and how they are written in messages: in seconds from one second on,
with as many places as needed, and in milliseconds below.
-/

set_option autoImplicit false

namespace SandboxedGo

structure Duration where
  milliseconds : Nat
  deriving DecidableEq, Repr

namespace Duration

def ofSeconds (n : Nat) : Duration := ⟨1000 * n⟩

def fractionDigits (thousandths : Nat) : List Char :=
  let digits := (Nat.toDigits 10 (1000 + thousandths)).drop 1
  (digits.reverse.dropWhile (· = '0')).reverse

def text (d : Duration) : String :=
  if d.milliseconds = 0 then "0ns"
  else if d.milliseconds < 1000 then toString d.milliseconds ++ "ms"
  else
    let places := fractionDigits (d.milliseconds % 1000)
    toString (d.milliseconds / 1000) ++
      (if places.isEmpty then "" else "." ++ String.ofList places) ++ "s"

end Duration

end SandboxedGo
