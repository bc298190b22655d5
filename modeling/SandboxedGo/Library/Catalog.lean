/-!
# The library of guest programs

The packages that a guest program may import and the members of each.  A function is a constructor
of its package's type; what it does is said elsewhere.
-/

set_option autoImplicit false

namespace SandboxedGo.Library

inductive Package
  | fmt | strings | strconv | math | errors | sort | unicode | utf8 | os | json
  deriving DecidableEq, Repr

namespace Package

def path : Package → String
  | fmt => "fmt"
  | strings => "strings"
  | strconv => "strconv"
  | math => "math"
  | errors => "errors"
  | sort => "sort"
  | unicode => "unicode"
  | utf8 => "unicode/utf8"
  | os => "os"
  | json => "encoding/json"

/-- All packages, in the order of their import paths. -/
def all : List Package :=
  [json, errors, fmt, math, os, sort, strconv, strings, unicode, utf8]

def ofPath? (p : String) : Option Package := all.find? (·.path = p)

def label : Package → String
  | utf8 => "utf8"
  | json => "json"
  | p => p.path

end Package

inductive FmtFunction
  | println | printf | print | sprintln | sprintf | sprint | errorf | fprintln | fprintf | fprint
  deriving DecidableEq, Repr

inductive StringsFunction
  | contains | containsAny | containsRune | hasPrefix | hasSuffix | index | indexAny | indexByte
  | indexRune | lastIndex | split | splitN | fields | join | replace | replaceAll | toUpper
  | toLower | title | trimSpace | trim | trimLeft | trimRight | trimPrefix | trimSuffix | trimFunc
  | repeated | count | equalFold | compare | cut | map
  deriving DecidableEq, Repr

inductive StrconvFunction
  | itoa | atoi | parseInt | parseFloat | parseBool | formatInt | formatFloat | formatBool | quote
  deriving DecidableEq, Repr

inductive MathFunction
  -- of one float
  | sqrt | abs | floor | ceil | round | roundToEven | trunc | cbrt | exp | exp2 | log | log2 | log10
  | log1p | sin | cos | tan | asin | acos | atan | tanh
  -- of two floats
  | pow | atan2 | hypot | mod | max | min | dim | copysign
  -- others
  | inf | nan | isNaN | isInf | signbit
  deriving DecidableEq, Repr

inductive ErrorsFunction
  | new | is | unwrap
  deriving DecidableEq, Repr

inductive SortFunction
  | ints | strings | float64s | slice | sliceStable | sliceIsSorted | sort | stable | search
  | searchInts | searchStrings | intsAreSorted | stringsAreSorted
  deriving DecidableEq, Repr

inductive UnicodeFunction
  | isLetter | isDigit | isNumber | isSpace | isUpper | isLower | isPunct | isControl | toUpper
  | toLower
  deriving DecidableEq, Repr

inductive Utf8Function
  | runeCountInString | runeLen | validString
  deriving DecidableEq, Repr

inductive OsFunction
  | exit
  deriving DecidableEq, Repr

inductive JsonFunction
  | marshal | marshalIndent
  deriving DecidableEq, Repr

inductive Function
  | fmt (f : FmtFunction)
  | strings (f : StringsFunction)
  | strconv (f : StrconvFunction)
  | math (f : MathFunction)
  | errors (f : ErrorsFunction)
  | sort (f : SortFunction)
  | unicode (f : UnicodeFunction)
  | utf8 (f : Utf8Function)
  | os (f : OsFunction)
  | json (f : JsonFunction)
  deriving DecidableEq, Repr

inductive Stream
  | stdout | stderr
  deriving DecidableEq, Repr

inductive Member
  | function (f : Function)
  | int (n : Int64)
  | float (f : Float)
  | stream (s : Stream)

def functions : Package → List (String × Function)
  | .fmt =>
    [("Println", .fmt .println), ("Printf", .fmt .printf), ("Print", .fmt .print),
     ("Sprintln", .fmt .sprintln), ("Sprintf", .fmt .sprintf), ("Sprint", .fmt .sprint),
     ("Errorf", .fmt .errorf), ("Fprintln", .fmt .fprintln), ("Fprintf", .fmt .fprintf),
     ("Fprint", .fmt .fprint)]
  | .strings =>
    [("Contains", .strings .contains), ("ContainsAny", .strings .containsAny),
     ("ContainsRune", .strings .containsRune), ("HasPrefix", .strings .hasPrefix),
     ("HasSuffix", .strings .hasSuffix), ("Index", .strings .index),
     ("IndexAny", .strings .indexAny), ("IndexByte", .strings .indexByte),
     ("IndexRune", .strings .indexRune), ("LastIndex", .strings .lastIndex),
     ("Split", .strings .split), ("SplitN", .strings .splitN), ("Fields", .strings .fields),
     ("Join", .strings .join), ("Replace", .strings .replace),
     ("ReplaceAll", .strings .replaceAll), ("ToUpper", .strings .toUpper),
     ("ToLower", .strings .toLower), ("Title", .strings .title),
     ("TrimSpace", .strings .trimSpace), ("Trim", .strings .trim),
     ("TrimLeft", .strings .trimLeft), ("TrimRight", .strings .trimRight),
     ("TrimPrefix", .strings .trimPrefix), ("TrimSuffix", .strings .trimSuffix),
     ("TrimFunc", .strings .trimFunc), ("Repeat", .strings .repeated), ("Count", .strings .count),
     ("EqualFold", .strings .equalFold), ("Compare", .strings .compare), ("Cut", .strings .cut),
     ("Map", .strings .map)]
  | .strconv =>
    [("Itoa", .strconv .itoa), ("Atoi", .strconv .atoi), ("ParseInt", .strconv .parseInt),
     ("ParseFloat", .strconv .parseFloat), ("ParseBool", .strconv .parseBool),
     ("FormatInt", .strconv .formatInt), ("FormatFloat", .strconv .formatFloat),
     ("FormatBool", .strconv .formatBool), ("Quote", .strconv .quote)]
  | .math =>
    [("Sqrt", .math .sqrt), ("Abs", .math .abs), ("Floor", .math .floor), ("Ceil", .math .ceil),
     ("Round", .math .round), ("RoundToEven", .math .roundToEven), ("Trunc", .math .trunc),
     ("Cbrt", .math .cbrt), ("Exp", .math .exp), ("Exp2", .math .exp2), ("Log", .math .log),
     ("Log2", .math .log2), ("Log10", .math .log10), ("Log1p", .math .log1p), ("Sin", .math .sin),
     ("Cos", .math .cos), ("Tan", .math .tan), ("Asin", .math .asin), ("Acos", .math .acos),
     ("Atan", .math .atan), ("Tanh", .math .tanh), ("Pow", .math .pow), ("Atan2", .math .atan2),
     ("Hypot", .math .hypot), ("Mod", .math .mod), ("Max", .math .max), ("Min", .math .min),
     ("Dim", .math .dim), ("Copysign", .math .copysign), ("Inf", .math .inf), ("NaN", .math .nan),
     ("IsNaN", .math .isNaN), ("IsInf", .math .isInf), ("Signbit", .math .signbit)]
  | .errors => [("New", .errors .new), ("Is", .errors .is), ("Unwrap", .errors .unwrap)]
  | .sort =>
    [("Ints", .sort .ints), ("Strings", .sort .strings), ("Float64s", .sort .float64s),
     ("Slice", .sort .slice), ("SliceStable", .sort .sliceStable),
     ("SliceIsSorted", .sort .sliceIsSorted), ("Sort", .sort .sort), ("Stable", .sort .stable),
     ("Search", .sort .search), ("SearchInts", .sort .searchInts),
     ("SearchStrings", .sort .searchStrings), ("IntsAreSorted", .sort .intsAreSorted),
     ("StringsAreSorted", .sort .stringsAreSorted)]
  | .unicode =>
    [("IsLetter", .unicode .isLetter), ("IsDigit", .unicode .isDigit),
     ("IsNumber", .unicode .isNumber), ("IsSpace", .unicode .isSpace),
     ("IsUpper", .unicode .isUpper), ("IsLower", .unicode .isLower),
     ("IsPunct", .unicode .isPunct), ("IsControl", .unicode .isControl),
     ("ToUpper", .unicode .toUpper), ("ToLower", .unicode .toLower)]
  | .utf8 =>
    [("RuneCountInString", .utf8 .runeCountInString), ("RuneLen", .utf8 .runeLen),
     ("ValidString", .utf8 .validString)]
  | .os => [("Exit", .os .exit)]
  | .json => [("Marshal", .json .marshal), ("MarshalIndent", .json .marshalIndent)]

def constants : Package → List (String × Member)
  | .math =>
    [("Pi", .float (Float.ofBits 0x400921fb54442d18)),
     ("E", .float (Float.ofBits 0x4005bf0a8b145769)),
     ("Sqrt2", .float (Float.ofBits 0x3ff6a09e667f3bcd)),
     ("Ln2", .float (Float.ofBits 0x3fe62e42fefa39ef)),
     ("Ln10", .float (Float.ofBits 0x40026bb1bbb55516)),
     ("Phi", .float (Float.ofBits 0x3ff9e3779b97f4a8)),
     ("MaxFloat64", .float (Float.ofBits 0x7fefffffffffffff)),
     ("SmallestNonzeroFloat64", .float (Float.ofBits 1)),
     ("MaxFloat32", .float (Float.ofBits 0x47efffffe0000000)),
     ("MaxInt", .int Int64.maxValue), ("MinInt", .int Int64.minValue),
     ("MaxInt64", .int Int64.maxValue), ("MinInt64", .int Int64.minValue),
     ("MaxInt32", .int 2147483647), ("MinInt32", .int (-2147483648)),
     ("MaxInt16", .int 32767), ("MinInt16", .int (-32768)),
     ("MaxInt8", .int 127), ("MinInt8", .int (-128)),
     ("MaxUint8", .int 255), ("MaxUint16", .int 65535), ("MaxUint32", .int 4294967295)]
  | .unicode => [("MaxRune", .int 0x10ffff)]
  | .utf8 => [("RuneError", .int 0xfffd), ("UTFMax", .int 4)]
  | .os => [("Stdout", .stream .stdout), ("Stderr", .stream .stderr)]
  | _ => []

def member? (p : Package) (name : String) : Option Member :=
  ((functions p).lookup name).map .function <|> (constants p).lookup name

namespace Function

def package : Function → Package
  | .fmt _ => .fmt
  | .strings _ => .strings
  | .strconv _ => .strconv
  | .math _ => .math
  | .errors _ => .errors
  | .sort _ => .sort
  | .unicode _ => .unicode
  | .utf8 _ => .utf8
  | .os _ => .os
  | .json _ => .json

def name (f : Function) : String :=
  (((functions f.package).find? (·.2 = f)).map Prod.fst).getD ""

def label (f : Function) : String := f.package.label ++ "." ++ f.name

end Function

end SandboxedGo.Library
