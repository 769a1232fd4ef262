import FtpControl.Json.Number
import FtpControl.Json.Reader
import FtpControl.Text.Quoted

namespace FtpControl.Json

/-- Why a text does not hold what is asked for. -/
inductive Mismatch where
  | grammar (fault : Fault)
  | kind (found expected : String)
  | value (found expected : String)
  | length (size : Nat) (expected : String)
  | choice (found : String) (names : List String)
  | missing (field : String)
  | repeated (field : String)
  | form (message : String)
  deriving DecidableEq, Repr

def choiceText : List String → String
  | [] => "there are no variants"
  | [a] => "expected `" ++ a ++ "`"
  | [a, b] => "expected `" ++ a ++ "` or `" ++ b ++ "`"
  | names => "expected one of " ++ ", ".intercalate (names.map fun name => "`" ++ name ++ "`")

def Mismatch.message : Mismatch → String
  | .grammar fault => fault.message
  | .kind found expected => "invalid type: " ++ found ++ ", expected " ++ expected
  | .value found expected => "invalid value: " ++ found ++ ", expected " ++ expected
  | .length size expected => "invalid length " ++ toString size ++ ", expected " ++ expected
  | .choice found names => "unknown variant `" ++ found ++ "`, " ++ choiceText names
  | .missing field => "missing field `" ++ field ++ "`"
  | .repeated field => "duplicate field `" ++ field ++ "`"
  | .form message => message

def Number.shown : Number → String
  | .natural n => "integer `" ++ toString n ++ "`"
  | .negative size => "integer `-" ++ toString size ++ "`"
  | .float x => "floating point `" ++ numberStyle.floatText x ++ "`"

/-- A value as a message names it, if its text can be read that far. -/
def shown : Json → Except Fault String
  | .null => .ok "null"
  | .bool b => .ok ("boolean `" ++ toString b ++ "`")
  | .number n => n.number.map Number.shown
  | .string s => .ok ("string " ++ quoted s)
  | .unusable why => .error why
  | .array _ _ => .ok "sequence"
  | .object _ _ => .ok "map"
  | .broken b => .error b.wanted

def refuse {α : Type} (value : Json) (expected : String) : Except Mismatch α :=
  match value.shown with
  | .ok found => .error (.kind found expected)
  | .error fault => .error (.grammar fault)

def takeText : Json → Except Mismatch String
  | .string s => .ok s
  | value => value.refuse "a string"

def takeOptionalText : Json → Except Mismatch (Option String)
  | .null => .ok none
  | value => some <$> value.takeText

def takeFlag : Json → Except Mismatch Bool
  | .bool b => .ok b
  | value => value.refuse "a boolean"

/-- Takes a whole number of at most so many bits. -/
def takeNatural (bits : Nat) (value : Json) : Except Mismatch Nat :=
  let expected := "u" ++ toString bits
  match value with
  | .number n =>
    match n.number with
    | .ok (.natural size) =>
      if size.toNat < Nat.pow 2 bits then .ok size.toNat
      else .error (.value (Number.natural size).shown expected)
    | .ok (.negative size) => .error (.value (Number.negative size).shown expected)
    | .ok (.float _) => value.refuse expected
    | .error fault => .error (.grammar fault)
  | value => value.refuse expected

def choose {α : Type} (choices : List (String × α)) (name : String) : Except Mismatch α :=
  match choices.lookup name with
  | some a => .ok a
  | none => .error (.choice name (choices.map Prod.fst))

/-- Takes a choice by its name: the name alone, or an object with the name for its only key and null
for its value. -/
def takeChoice {α : Type} (choices : List (String × α)) : Json → Except Mismatch α
  | .string name => choose choices name
  | .unusable why => .error (.grammar why)
  | .broken b => .error (.grammar b.wanted)
  | .object [] none => .error (.grammar .expectedValue)
  | .object [] (some _) => .error (.grammar .eofInValue)
  | .object ((key, value) :: members) stop => do
    let a ← match key with
      | .string name => choose choices name
      | key => key.refuse "variant identifier"
    match value with
    | .null => pure ()
    | value => value.refuse "unit"
    if members.isEmpty then
      match stop with
      | none => return a
      | some b => throw (.grammar (if b = .both .eofInObject then .eofInObject else .expectedValue))
    else throw (.grammar .expectedValue)
  | _ => .error (.grammar .expectedValue)

def pass : Json → Except Mismatch Unit
  | .broken b | .array _ (some b) | .object _ (some b) => .error (.grammar b.skipped)
  | _ => .ok ()

/-- The value can be held without knowing what it is for: every part of it is usable, and no part
lies deeper than so many levels. -/
def holdable : Nat → Json → Bool
  | _, .null | _, .bool _ | _, .string _ => true
  | _, .number n => n.number.isOk
  | _, .unusable _ | _, .broken _ => false
  | 0, .array _ _ | 0, .object _ _ => false
  | depth + 1, .array items stop => stop.isNone && items.all (holdable depth)
  | depth + 1, .object members stop =>
    stop.isNone && members.all fun (key, value) => holdable depth key && holdable depth value

/-- Takes what a text holds; nothing but white space may follow it. -/
def takeAll {α : Type} (take : Json → Except Mismatch α) (text : List Char) :
    Except Mismatch α := do
  let (value, rest) := read text
  let a ← take value
  match rest with
  | .error b => throw (.grammar b.wanted)
  | .ok rest =>
    if (skipSpaces rest).isEmpty then return a else throw (.grammar .trailingCharacters)

end FtpControl.Json
