/-!
# Causes of panics and errors

A guest program panics for one of the causes of the first kind; a panic may be recovered, and its
text is then the value that the program sees.  The causes of the second kind are mistakes that a
compiler would have found, and constructs that are not supported; they end the run and cannot be
recovered.
-/

set_option autoImplicit false

namespace SandboxedGo

/-! ## Panics -/

inductive Panic
  /-- A call of `panic` with this text. -/
  | raised (text : String)
  | nilDereference
  | indexOutOfRange (index : Int) (length : Nat)
  | negativeBound (bound : Int)
  | boundsBeyondCapacity (low high : Int) (capacity : Nat)
  | boundsBeyondLength (low high length : Nat)
  | divisionByZero
  | negativeShift
  | nilMapAssignment
  | conversion (dynamicType wantedType : String)
  | makeLength
  | makeCapacity
  | sliceTooLong
  | stringTooLong
  | builderTooLong
  | arrayTooLong
  | literalIndexTooLarge
  | negativeRepeat
  | repeatTooLong
  | integerBase
  deriving DecidableEq, Repr

namespace Panic

def message : Panic → String
  | raised text => text
  | nilDereference => "runtime error: invalid memory address or nil pointer dereference"
  | indexOutOfRange index length =>
    "runtime error: index out of range [" ++ toString index ++ "] with length " ++ toString length
  | negativeBound bound => "runtime error: slice bounds out of range [" ++ toString bound ++ ":]"
  | boundsBeyondCapacity low high capacity =>
    "runtime error: slice bounds out of range [" ++ toString low ++ ":" ++ toString high ++
      "] with capacity " ++ toString capacity
  | boundsBeyondLength low high length =>
    "runtime error: slice bounds out of range [" ++ toString low ++ ":" ++ toString high ++
      "] with length " ++ toString length
  | divisionByZero => "runtime error: integer divide by zero"
  | negativeShift => "runtime error: negative shift amount"
  | nilMapAssignment => "assignment to entry in nil map"
  | conversion dynamicType wantedType =>
    "interface conversion: interface \x7b\x7d is " ++ dynamicType ++ ", not " ++ wantedType
  | makeLength => "runtime error: makeslice: len out of range"
  | makeCapacity => "runtime error: makeslice: cap out of range"
  | sliceTooLong => "runtime error: growslice: len out of range"
  | stringTooLong => "runtime error: string concatenation too long"
  | builderTooLong => "runtime error: strings.Builder too large"
  | arrayTooLong => "runtime error: array too large"
  | literalIndexTooLarge => "runtime error: composite literal index too large"
  | negativeRepeat => "strings: negative Repeat count"
  | repeatTooLong => "strings: Repeat output length overflow"
  | integerBase => "strconv: illegal AppendInt/FormatInt base"

end Panic

/-! ## Runtime errors -/

/-- Why a guest program cannot go on. -/
inductive RuntimeError
  -- declarations
  | notMainPackage (package : String)
  | unavailablePackage (path : String)
  | dotImport
  | missingMain
  | missingInitializer
  | recursiveType
  -- names and types
  | undefined (name : String)
  | packageWithoutSelector (name : String)
  | typeAsExpression (type : String)
  | expectedType
  | missingMember (type member : String)
  | missingField (type field : String)
  | missingMethod (receiver method : String)
  | notMethodValue (type member : String)
  | unknownField (field type : String)
  -- operands
  | notBoolean (type : String)
  | notUsable (type wanted : String)
  | notComparable (kind : String)
  | notMapKey (type : String)
  | unaryOperator (symbol type : String)
  | binaryOperator (symbol left right : String)
  | operatorOn (symbol type : String)
  | notNumeric (type : String)
  | notIndexable (type : String)
  | notSliceable (type : String)
  | notRangeable (type : String)
  | notIndirect (type : String)
  | notConvertible (value type wanted : String)
  -- assignments
  | manyValues (count : Nat)
  | manyValuesInList
  | assignmentMismatch (targets values : Nat)
  | commaOkIndex (type : String)
  | noNewVariables
  | notAssignable
  | fieldOf (field type : String)
  | throughStructPointer (type : String)
  | stringIndex
  | rangeOverInt
  -- literals
  | literalType (type : String)
  | missingMapKey
  | negativeLiteralIndex (index : Int)
  | literalIndexOutOfBounds (index length : Nat)
  | mixedLiteral (type : String)
  | fewLiteralValues (type : String)
  -- calls
  | notFunction (type : String)
  | notMethod (name : String)
  | tooFewArguments (have_ least : Nat)
  | argumentCount (have_ wanted : Nat)
  | conversionArguments (type : String)
  | spreadNonSlice
  | deferOutsideFunction
  | deferWithoutCall
  | hostArgument (function reason : String)
  | builtinArity (builtin : String)
  | builtinTooFew (builtin : String)
  | builtinArgument (builtin value type : String)
  | notSlice (value type : String)
  | notMakeable (type : String)
  | makeWithoutLength
  | channels
  | builderArguments (method : String)
  -- the library
  | libraryArgumentCount (function : String) (have_ wanted : Nat)
  | libraryTooFew (function : String)
  | libraryArgument (type wanted function : String)
  | notWriter (type : String)
  | floatFormat
  -- control that leaves every function
  | breakOutsideLoop
  | continueOutsideLoop
  | returnOutsideFunction
  deriving DecidableEq, Repr

namespace RuntimeError

def message : RuntimeError → String
  | notMainPackage package => "package " ++ package ++ " is not a main package"
  | unavailablePackage path => "package " ++ path ++ " is not available in the sandbox"
  | dotImport => "dot imports are not supported"
  | missingMain => "function main is undeclared in the main package"
  | missingInitializer => "missing init expr for const declaration"
  | recursiveType => "invalid recursive type"
  | undefined name => "undefined: " ++ name
  | packageWithoutSelector name => "use of package " ++ name ++ " without selector"
  | typeAsExpression type => type ++ " (type) is not an expression"
  | expectedType => "expected type"
  | missingMember type member =>
    type ++ "." ++ member ++ " undefined (type " ++ type ++ " has no field or method " ++ member ++
      ")"
  | missingField type field =>
    type ++ "." ++ field ++ " undefined (type has no field " ++ field ++ ")"
  | missingMethod receiver method => receiver ++ " has no method " ++ method
  | notMethodValue type member =>
    type ++ "." ++ member ++ " is not a method value that can be deferred"
  | unknownField field type => "unknown field " ++ field ++ " in struct literal of type " ++ type
  | notBoolean type => "non-boolean condition (type " ++ type ++ ")"
  | notUsable type wanted => "cannot use " ++ type ++ " as " ++ wanted ++ " value"
  | notComparable kind => kind ++ " can only be compared to nil"
  | notMapKey type => "unsupported map key type " ++ type
  | unaryOperator symbol type =>
    "invalid operation: operator " ++ symbol ++ " not defined on " ++ type
  | binaryOperator symbol left right =>
    "invalid operation: operator " ++ symbol ++ " not defined on " ++ left ++ " and " ++ right
  | operatorOn symbol type =>
    "invalid operation: operator " ++ symbol ++ " not defined on " ++ type
  | notNumeric type => "invalid operation: non-numeric operand (type " ++ type ++ ")"
  | notIndexable type => "invalid operation: cannot index " ++ type
  | notSliceable type => "cannot slice " ++ type
  | notRangeable type => "cannot range over value of type " ++ type
  | notIndirect type => "invalid indirect of " ++ type
  | notConvertible value type wanted =>
    "cannot convert " ++ value ++ " (type " ++ type ++ ") to type " ++ wanted
  | manyValues count =>
    "multiple-value in single-value context (" ++ toString count ++ " values)"
  | manyValuesInList => "multiple-value in single-value context"
  | assignmentMismatch targets values =>
    "assignment mismatch: " ++ toString targets ++ " variables but " ++ toString values ++
      " values"
  | commaOkIndex type =>
    "assignment mismatch: 2 variables but index of " ++ type ++ " yields 1 value"
  | noNewVariables => "no new variables on left side of :="
  | notAssignable => "cannot assign to expression"
  | fieldOf field type => "cannot assign to field " ++ field ++ " of " ++ type
  | throughStructPointer type => "cannot assign " ++ type ++ " through struct pointer"
  | stringIndex => "cannot assign to string index (strings are immutable)"
  | rangeOverInt => "range over int permits only one iteration variable"
  | literalType type => "invalid composite literal type " ++ type
  | missingMapKey => "missing key in map literal"
  | negativeLiteralIndex index => "index " ++ toString index ++ " must be non-negative"
  | literalIndexOutOfBounds index length =>
    "array index " ++ toString index ++ " out of bounds [0:" ++ toString length ++ "]"
  | mixedLiteral type => "mixture of field:value and value elements in " ++ type ++ " literal"
  | fewLiteralValues type => "too few values in struct literal of type " ++ type
  | notFunction type => "invalid operation: cannot call non-function (type " ++ type ++ ")"
  | notMethod name => name ++ " is not a method"
  | tooFewArguments have_ least =>
    "not enough arguments in call: have " ++ toString have_ ++ ", want at least " ++
      toString least
  | argumentCount have_ wanted =>
    "wrong number of arguments in call: have " ++ toString have_ ++ ", want " ++ toString wanted
  | conversionArguments type => "wrong argument count in conversion to " ++ type
  | spreadNonSlice => "cannot use ... with non-slice argument"
  | deferOutsideFunction => "defer outside function"
  | deferWithoutCall => "expression in defer must be function call"
  | hostArgument function reason => function ++ ": " ++ reason
  | builtinArity builtin => "wrong number of arguments for " ++ builtin ++ "()"
  | builtinTooFew builtin => "not enough arguments for " ++ builtin ++ "()"
  | builtinArgument builtin value type =>
    "invalid argument: " ++ value ++ " (type " ++ type ++ ") for built-in " ++ builtin
  | notSlice value type => "invalid argument: " ++ value ++ " (type " ++ type ++ ") is not a slice"
  | notMakeable type => "invalid argument: cannot make " ++ type
  | makeWithoutLength => "invalid operation: make([]T) expects 2 or 3 arguments"
  | channels => "channels are not supported in the sandbox"
  | builderArguments method =>
    "strings.Builder." ++ method ++ " called with unsupported arguments"
  | libraryArgumentCount function have_ wanted =>
    "wrong number of arguments in call to " ++ function ++ ": have " ++ toString have_ ++
      ", want " ++ toString wanted
  | libraryTooFew function => "not enough arguments in call to " ++ function
  | libraryArgument type wanted function =>
    "cannot use " ++ type ++ " as " ++ wanted ++ " value in argument to " ++ function
  | notWriter type => "cannot use " ++ type ++ " as io.Writer value"
  | floatFormat => "strconv.FormatFloat: unsupported format"
  | breakOutsideLoop => "break outside loop"
  | continueOutsideLoop => "continue outside loop"
  | returnOutsideFunction => "return outside function"

end RuntimeError

end SandboxedGo
