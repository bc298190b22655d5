import SandboxedGo.Text.CharClass.Display
import SandboxedGo.Text.Digits
import SandboxedGo.Text.Utf8

/-!
# Quoted text

Two ways to write a text between quotes: the literals of the guest language, which its lexer reads
back, and the form used inside diagnostics, where every character without a picture of its own is
written as its code point.
-/

set_option autoImplicit false

namespace SandboxedGo.Text

/-- One character inside a literal that ends with `delimiter`. -/
def literalChar (delimiter c : Char) : List Char :=
  match c with
  | '\x07' => ['\\', 'a']
  | '\x08' => ['\\', 'b']
  | '\x0c' => ['\\', 'f']
  | '\n' => ['\\', 'n']
  | '\r' => ['\\', 'r']
  | '\t' => ['\\', 't']
  | '\x0b' => ['\\', 'v']
  | '\\' => ['\\', '\\']
  | _ =>
    if c = delimiter then ['\\', c]
    else if c.toNat < 0x20 || c.toNat = 0x7f then '\\' :: 'x' :: digitsIn 16 2 c.toNat
    else if isControl c then '\\' :: 'u' :: digitsIn 16 4 c.toNat
    else [c]

def quote (s : String) : String :=
  String.ofList ('"' :: s.toList.flatMap (literalChar '"') ++ ['"'])

def quoteRune (c : Char) : String :=
  String.ofList ('\'' :: literalChar '\'' c ++ ['\''])

def diagnosticChar (c : Char) : List Char :=
  match c with
  | '\x00' => ['\\', '0']
  | '\t' => ['\\', 't']
  | '\r' => ['\\', 'r']
  | '\n' => ['\\', 'n']
  | '\\' => ['\\', '\\']
  | '"' => ['\\', '"']
  | _ =>
    if CharClass.extending.contains c || CharClass.unprintable.contains c then
      ['\\', 'u', '\x7b'] ++ digitsIn 16 1 c.toNat ++ ['\x7d']
    else [c]

def quoteDiagnostic (s : String) : String :=
  String.ofList ('"' :: s.toList.flatMap diagnosticChar ++ ['"'])

def quoteDiagnosticList (texts : List String) : String :=
  "[" ++ ", ".intercalate (texts.map quoteDiagnostic) ++ "]"

end SandboxedGo.Text
