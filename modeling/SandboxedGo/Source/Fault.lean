import SandboxedGo.Decimal.Scientific
import SandboxedGo.Source.Token
import SandboxedGo.Text.Quoted

/-!
# Syntax errors

The causes for which a source text is refused, each with its wording.
-/

set_option autoImplicit false

namespace SandboxedGo.Source

inductive Fault
  -- inside a token
  | commentNotTerminated
  | invalidHexLiteral (digits : String)
  | invalidFloatLiteral (text : String)
  | integerOverflow (text : String)
  | escapeNotTerminated
  | invalidOctalEscape
  | invalidHexEscape
  | invalidUnicodeEscape
  | unknownEscape (c : Char)
  | stringNotTerminated
  | rawStringNotTerminated
  | runeNotTerminated
  | runeNotSingle
  | unexpectedCharacter (c : Char)
  -- between tokens
  | unexpected (found : Token) (expecting : String)
  | nestedTooDeeply
  | importAfterDeclarations
  | importPathNotString
  | missingBody (function : String)
  | missingTypeOrInitializer
  | arrayLength
  | channels
  | variadicNotLast
  | mixedParameters
  | deferWithoutCall
  | goroutines
  | selectStatement
  | gotoStatement
  | labels
  | rangeOutsideFor
  | rangeVariables
  | defineWithoutName
  | notOneExpression
  | rangeInIfHeader
  | assignmentAsCondition
  | unexpectedRange
  | loopCondition
  | switchHeader
  | threeIndexSlice
  | missingIndex
  | missingLiteralType

def Token.describe : Token → String
  | .name word => "name " ++ word
  | .int value => "literal " ++ toString value.toInt
  | .float value => "literal " ++ Decimal.diagnosticFloat value
  | .string value => "literal " ++ Text.quoteDiagnostic value
  | .rune _ => "rune literal"
  | .keyword k => k.spelling
  | .mark m => m.label
  | .endOfText => "EOF"

namespace Fault

def message : Fault → String
  | .commentNotTerminated => "comment not terminated"
  | .invalidHexLiteral digits => "invalid hex literal 0x" ++ digits
  | .invalidFloatLiteral text => "invalid float literal " ++ text
  | .integerOverflow text => "integer literal " ++ text ++ " overflows"
  | .escapeNotTerminated => "escape sequence not terminated"
  | .invalidOctalEscape => "invalid octal escape"
  | .invalidHexEscape => "invalid hex escape"
  | .invalidUnicodeEscape => "invalid unicode escape"
  | .unknownEscape c => "unknown escape sequence \\" ++ c.toString
  | .stringNotTerminated => "string literal not terminated"
  | .rawStringNotTerminated => "raw string literal not terminated"
  | .runeNotTerminated => "rune literal not terminated"
  | .runeNotSingle => "rune literal must hold one character"
  | .unexpectedCharacter c => "unexpected character " ++ Text.quoteDiagnostic c.toString
  | .unexpected found expecting => "unexpected " ++ found.describe ++ ", expecting " ++ expecting
  | .nestedTooDeeply => "program nested too deeply"
  | .importAfterDeclarations => "imports must appear before other declarations"
  | .importPathNotString => "import path must be a string"
  | .missingBody function => "missing function body for " ++ function
  | .missingTypeOrInitializer => "missing type or initializer in var declaration"
  | .arrayLength => "array length must be a constant integer"
  | .channels => "channels are not supported"
  | .variadicNotLast => "can only use ... with final parameter"
  | .mixedParameters => "mixed named and unnamed parameters"
  | .deferWithoutCall => "expression in defer must be function call"
  | .goroutines => "goroutines are not supported"
  | .selectStatement => "select is not supported"
  | .gotoStatement => "goto is not supported"
  | .labels => "labels are not supported"
  | .rangeOutsideFor => "range outside for statement"
  | .rangeVariables => "range clause permits at most two iteration variables"
  | .defineWithoutName => "non-name on left side of :="
  | .notOneExpression => "expected 1 expression"
  | .rangeInIfHeader => "range in if header"
  | .assignmentAsCondition => "cannot use assignment as value in if condition"
  | .unexpectedRange => "unexpected range"
  | .loopCondition => "expected for loop condition"
  | .switchHeader => "switch header must be an expression"
  | .threeIndexSlice => "3-index slices are not supported"
  | .missingIndex => "expected index expression"
  | .missingLiteralType => "missing type in composite literal"

end Fault

/-- A refused source text: the cause and the place. -/
structure ParseError where
  position : Position
  fault : Fault

namespace ParseError

def display (e : ParseError) : String :=
  toString e.position.line ++ ":" ++ toString e.position.column ++ ": " ++ e.fault.message

end ParseError

end SandboxedGo.Source
