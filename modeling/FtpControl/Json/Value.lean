namespace FtpControl.Json

inductive Fault where
  | eofInList
  | eofInObject
  | eofInString
  | eofInValue
  | expectedColon
  | expectedListCommaOrEnd
  | expectedObjectCommaOrEnd
  | expectedIdent
  | expectedValue
  | invalidEscape
  | invalidNumber
  | numberOutOfRange
  | controlCharacter
  | keyMustBeString
  | loneSurrogate
  | trailingComma
  | trailingCharacters
  | unexpectedEndOfHexEscape
  deriving DecidableEq, Repr

def Fault.message : Fault → String
  | .eofInList => "EOF while parsing a list"
  | .eofInObject => "EOF while parsing an object"
  | .eofInString => "EOF while parsing a string"
  | .eofInValue => "EOF while parsing a value"
  | .expectedColon => "expected `:`"
  | .expectedListCommaOrEnd => "expected `,` or `]`"
  | .expectedObjectCommaOrEnd => "expected `,` or `\x7d`"
  | .expectedIdent => "expected ident"
  | .expectedValue => "expected value"
  | .invalidEscape => "invalid escape"
  | .invalidNumber => "invalid number"
  | .numberOutOfRange => "number out of range"
  | .controlCharacter => "control character (\\u0000-\\u001F) found while parsing a string"
  | .keyMustBeString => "key must be a string"
  | .loneSurrogate => "lone leading surrogate in hex escape"
  | .trailingComma => "trailing comma"
  | .trailingCharacters => "trailing characters"
  | .unexpectedEndOfHexEscape => "unexpected end of hex escape"

/-- Where a text ceases to be JSON: the fault for a reader who wants the value, and for one who
passes over it. -/
structure Break where
  wanted : Fault
  skipped : Fault
  deriving DecidableEq, Repr

def Break.both (fault : Fault) : Break :=
  ⟨fault, fault⟩

structure Numeral where
  negative : Bool := false
  whole : List Char
  fraction : List Char := []
  /-- The sign is true for a negative exponent. -/
  exponent : Option (Bool × List Char) := none
  deriving DecidableEq, Repr

end FtpControl.Json

namespace FtpControl

/-- A JSON value, as far as its text can be read. -/
inductive Json where
  | null
  | bool (b : Bool)
  | number (n : Json.Numeral)
  | string (s : String)
  /-- A string whose escapes name no text; it can be passed over but not used. -/
  | unusable (why : Json.Fault)
  /-- Items in order, and where the text broke off among them. -/
  | array (items : List Json) (stop : Option Json.Break)
  /-- Members in order, repetitions included, and where the text broke off among them. A key that is
  no string ends the object. -/
  | object (members : List (Json × Json)) (stop : Option Json.Break)
  | broken (b : Json.Break)

def Json.ofNat (n : Nat) : Json :=
  .number { whole := Nat.toDigits 10 n }

def Json.record (members : List (String × Json)) : Json :=
  .object (members.map fun (key, value) => (.string key, value)) none

def Json.list (items : List Json) : Json :=
  .array items none

def Json.optional (s : Option String) : Json :=
  s.elim .null .string

end FtpControl
