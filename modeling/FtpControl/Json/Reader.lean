import FtpControl.Json.Value
import FtpControl.Text

namespace FtpControl.Json

def isSpace (c : Char) : Bool :=
  c == ' ' || c == '\t' || c == '\n' || c == '\r'

def skipSpaces (cs : List Char) : List Char :=
  cs.dropWhile isSpace

def unit? (a b c d : Char) : Option Nat := do
  return 4096 * (← hexValue? a) + 256 * (← hexValue? b) + 16 * (← hexValue? c) + (← hexValue? d)

def shortEscape? : Char → Option Char
  | '"' => some '"'
  | '\\' => some '\\'
  | '/' => some '/'
  | 'b' => some '\x08'
  | 'f' => some '\x0c'
  | 'n' => some '\n'
  | 'r' => some '\r'
  | 't' => some '\t'
  | _ => none

/-- The text of a string so far, last character first, or the first fault that makes it unusable;
and a high surrogate that waits for its partner. -/
structure Unescaped where
  text : Except Fault (List Char) := .ok []
  high : Option Nat := none

namespace Unescaped

/-- Notes a fault, unless one came before it. -/
def flaw (u : Unescaped) (fault : Fault) : Unescaped :=
  match u.text with
  | .ok _ => { text := .error fault }
  | .error _ => { u with high := none }

def push (u : Unescaped) (c : Char) : Unescaped :=
  match u.high with
  | some _ => u.flaw .unexpectedEndOfHexEscape
  | none => { u with text := u.text.map (c :: ·) }

def pushUnit (u : Unescaped) (n : Nat) : Unescaped :=
  let low := 0xDC00 ≤ n ∧ n ≤ 0xDFFF
  match u.high with
  | some h =>
    if low then
      let c := Char.ofNat (0x10000 + 0x400 * (h - 0xD800) + (n - 0xDC00))
      { text := u.text.map (c :: ·) }
    else u.flaw .loneSurrogate
  | none =>
    if low then u.flaw .loneSurrogate
    else if 0xD800 ≤ n ∧ n ≤ 0xDBFF then { u with high := some n }
    else { u with text := u.text.map (Char.ofNat n :: ·) }

/-- The break at a fault of the grammar: a reader who wants the text meets an earlier flaw first. -/
def stop (u : Unescaped) (fault : Fault) : Break :=
  match u.text with
  | .ok _ => ⟨fault, fault⟩
  | .error first => ⟨first, fault⟩

def finish (u : Unescaped) : Except Fault String :=
  let u := match u.high with
    | some _ => u.flaw .unexpectedEndOfHexEscape
    | none => u
  u.text.map fun cs => String.ofList cs.reverse

end Unescaped

def readString (u : Unescaped) : List Char → Except Break (Except Fault String × List Char)
  | [] => .error (u.stop .eofInString)
  | '"' :: cs => .ok (u.finish, cs)
  | '\\' :: 'u' :: a :: b :: c :: d :: cs =>
    match unit? a b c d with
    | some n => readString (u.pushUnit n) cs
    | none => .error (u.stop .invalidEscape)
  | '\\' :: 'u' :: cs =>
    .error (u.stop (if cs.foldl (fun n c => n + c.utf8Size) 0 < 4 then .eofInString else .invalidEscape))
  | '\\' :: c :: cs =>
    match shortEscape? c with
    | some e => readString (u.push e) cs
    | none => .error ((u.push ' ').stop .invalidEscape)
  | '\\' :: [] => .error (u.stop .eofInString)
  | c :: cs =>
    if c.toNat < 0x20 then .error ((u.push ' ').stop .controlCharacter)
    else readString (u.push c) cs

def readIdent : List Char → List Char → Except Break (List Char)
  | [], cs => .ok cs
  | _ :: _, [] => .error (.both .eofInValue)
  | i :: is, c :: cs => if i = c then readIdent is cs else .error (.both .expectedIdent)

/-- Reads a row of digits; the text may not end before the first. -/
def readDigits (cs : List Char) : Except Break (List Char × List Char) :=
  match cs with
  | [] => .error ⟨.eofInValue, .invalidNumber⟩
  | c :: _ =>
    if isDigit c then .ok (cs.takeWhile isDigit, cs.dropWhile isDigit)
    else .error (.both .invalidNumber)

def readWhole (cs : List Char) : Except Break (List Char × List Char) := do
  let (ds, rest) ← readDigits cs
  if ds.head? = some '0' ∧ ds.length ≠ 1 then .error (.both .invalidNumber) else .ok (ds, rest)

def readFraction : List Char → Except Break (List Char × List Char)
  | '.' :: cs => readDigits cs
  | cs => .ok ([], cs)

def readExponent (cs : List Char) : Except Break (Option (Bool × List Char) × List Char) :=
  match cs with
  | c :: cs' =>
    if c = 'e' ∨ c = 'E' then do
      let (negative, cs') := match cs' with
        | '-' :: cs' => (true, cs')
        | '+' :: cs' => (false, cs')
        | cs' => (false, cs')
      let (ds, rest) ← readDigits cs'
      .ok (some (negative, ds), rest)
    else .ok (none, cs)
  | [] => .ok (none, [])

def readNumber (cs : List Char) : Except Break (Numeral × List Char) := do
  let (negative, cs) := match cs with
    | '-' :: cs => (true, cs)
    | cs => (false, cs)
  let (whole, cs) ← readWhole cs
  let (fraction, cs) ← readFraction cs
  let (exponent, cs) ← readExponent cs
  .ok ({ negative, whole, fraction, exponent }, cs)

def settle {α : Type} (value : α → Json) :
    Except Break (α × List Char) → Json × Except Break (List Char)
  | .ok (a, cs) => (value a, .ok cs)
  | .error b => (.broken b, .error b)

def ofString : Except Fault String → Json
  | .ok s => .string s
  | .error why => .unusable why

/-- Where the text behind a container's parts breaks off, if it does. -/
def stopOf : Except Break (List Char) → Option Break
  | .ok _ => none
  | .error b => some b

mutual

/-- Reads one value; the fuel bounds its parts. -/
def readValue : Nat → List Char → Json × Except Break (List Char)
  | 0, _ => (.broken (.both .eofInValue), .error (.both .eofInValue))
  | fuel + 1, cs =>
    match skipSpaces cs with
    | [] => (.broken (.both .eofInValue), .error (.both .eofInValue))
    | 'n' :: cs => settle (fun _ => .null) ((readIdent "ull".toList cs).map ((), ·))
    | 't' :: cs => settle (fun _ => .bool true) ((readIdent "rue".toList cs).map ((), ·))
    | 'f' :: cs => settle (fun _ => .bool false) ((readIdent "alse".toList cs).map ((), ·))
    | '"' :: cs => settle ofString (readString {} cs)
    | '[' :: cs =>
      match skipSpaces cs with
      | ']' :: cs => (.array [] none, .ok cs)
      | [] => (.array [] (some (.both .eofInList)), .error (.both .eofInList))
      | cs =>
        let (items, rest) := readItems fuel cs
        (.array items (stopOf rest), rest)
    | '\x7b' :: cs =>
      match skipSpaces cs with
      | '\x7d' :: cs => (.object [] none, .ok cs)
      | '"' :: cs =>
        let (members, rest) := readMembers fuel cs
        (.object members (stopOf rest), rest)
      | [] => (.object [] (some (.both .eofInObject)), .error (.both .eofInObject))
      | cs =>
        let stop := Break.both .keyMustBeString
        (.object [((readValue fuel cs).1, .broken stop)] (some stop), .error stop)
    | c :: cs =>
      if c = '-' ∨ isDigit c then settle .number (readNumber (c :: cs))
      else (.broken (.both .expectedValue), .error (.both .expectedValue))

def readItems : Nat → List Char → List Json × Except Break (List Char)
  | 0, _ => ([], .error (.both .eofInList))
  | fuel + 1, cs =>
    match readValue fuel cs with
    | (item, .error b) => ([item], .error b)
    | (item, .ok cs) =>
      match skipSpaces cs with
      | ']' :: cs => ([item], .ok cs)
      | ',' :: cs =>
        match skipSpaces cs with
        | ']' :: _ => ([item], .error ⟨.trailingComma, .expectedValue⟩)
        | [] => ([item], .error (.both .eofInValue))
        | cs =>
          let (items, rest) := readItems fuel cs
          (item :: items, rest)
      | [] => ([item], .error (.both .eofInList))
      | _ => ([item], .error (.both .expectedListCommaOrEnd))

/-- Reads the members of an object, from behind the quote of a key, up to the object's brace. -/
def readMembers :
    Nat → List Char → List (Json × Json) × Except Break (List Char)
  | 0, _ => ([], .error (.both .eofInObject))
  | fuel + 1, cs =>
    match readString {} cs with
    | .error b => ([(.broken b, .broken b)], .error b)
    | .ok (found, cs) =>
      let key := ofString found
      match skipSpaces cs with
      | ':' :: cs =>
        match readValue fuel cs with
        | (value, .error b) => ([(key, value)], .error b)
        | (value, .ok cs) =>
          match skipSpaces cs with
          | '\x7d' :: cs => ([(key, value)], .ok cs)
          | ',' :: cs =>
            match skipSpaces cs with
            | '"' :: cs =>
              let (members, rest) := readMembers fuel cs
              ((key, value) :: members, rest)
            | '\x7d' :: _ => ([(key, value)], .error ⟨.trailingComma, .keyMustBeString⟩)
            | [] => ([(key, value)], .error ⟨.eofInValue, .eofInObject⟩)
            | _ => ([(key, value)], .error (.both .keyMustBeString))
          | [] => ([(key, value)], .error (.both .eofInObject))
          | _ => ([(key, value)], .error (.both .expectedObjectCommaOrEnd))
      | [] => ([(key, .broken (.both .eofInObject))], .error (.both .eofInObject))
      | _ => ([(key, .broken (.both .expectedColon))], .error (.both .expectedColon))

end

/-- Reads the value at the front of a text, as far as it goes, and gives the text behind it or the break
at which it ceased to be JSON. -/
def read (text : List Char) : Json × Except Break (List Char) :=
  readValue (text.length + 1) text

end FtpControl.Json
