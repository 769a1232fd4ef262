import FtpControl.Json.Value

namespace FtpControl.Json

def escaped (c : Char) : List Char :=
  match c with
  | '"' => ['\\', '"']
  | '\\' => ['\\', '\\']
  | '\x08' => ['\\', 'b']
  | '\x0c' => ['\\', 'f']
  | '\n' => ['\\', 'n']
  | '\r' => ['\\', 'r']
  | '\t' => ['\\', 't']
  | c =>
    if c.toNat < 0x20 then
      ['\\', 'u', '0', '0', Nat.digitChar (c.toNat / 16), Nat.digitChar (c.toNat % 16)]
    else [c]

def stringText (s : String) : List Char :=
  '"' :: s.toList.flatMap escaped ++ ['"']

def Numeral.text (n : Numeral) : List Char :=
  let fraction := if n.fraction.isEmpty then [] else '.' :: n.fraction
  let exponent := match n.exponent with
    | none => []
    | some (true, ds) => 'e' :: '-' :: ds
    | some (false, ds) => 'e' :: ds
  (if n.negative then ['-'] else []) ++ n.whole ++ fraction ++ exponent

mutual

/-- The text of a value. What could not be read is left out. -/
def text : Json → List Char
  | .null => "null".toList
  | .bool true => "true".toList
  | .bool false => "false".toList
  | .number n => n.text
  | .string s => stringText s
  | .unusable _ | .broken _ => []
  | .array items _ => '[' :: itemsText items ++ [']']
  | .object members _ => '\x7b' :: membersText members ++ ['\x7d']

def itemsText : List Json → List Char
  | [] => []
  | [item] => item.text
  | item :: items => item.text ++ ',' :: itemsText items

def membersText : List (Json × Json) → List Char
  | [] => []
  | [m] => memberText m
  | m :: members => memberText m ++ ',' :: membersText members

def memberText : Json × Json → List Char
  | (key, value) => key.text ++ ':' :: value.text

end

def line (value : Json) : String :=
  String.ofList value.text

end FtpControl.Json
