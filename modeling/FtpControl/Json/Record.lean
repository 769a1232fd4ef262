import FtpControl.Json.Decode

namespace FtpControl.Json

/-- One field of a record under construction. -/
structure Field (α : Type) where
  name : String
  /-- Puts the value into the record. -/
  put : Json → α → Except Mismatch α
  /-- An object must have it. -/
  named : Bool := false
  /-- An array must have it. -/
  placed : Bool := false

/-- The fields of a record, and what it is called in messages. In an object they come by name in any
order, with unknown names passed over, in an array in their own order. -/
structure RecordShape (α : Type) where
  title : String
  fields : List (Field α)

namespace RecordShape

variable {α : Type}

def field? (shape : RecordShape α) (name : String) : Option (Field α) :=
  shape.fields.find? fun field => field.name == name

/-- The name that a member has. The value of a member without one is broken where the name would be.
-/
def memberName : Json × Json → Except Mismatch String
  | (.string name, _) => .ok name
  | (.unusable why, _) => .error (.grammar why)
  | (_, .broken b) => .error (.grammar b.wanted)
  | _ => .error (.grammar .keyMustBeString)

/-- Takes the members of an object in order; `seen` names the fields that there were. -/
def takeMembers (shape : RecordShape α) (stop : Option Break) (seen : List String) (a : α) :
    List (Json × Json) → Except Mismatch α
  | [] =>
    match stop with
    | some b => .error (.grammar b.wanted)
    | none =>
      match shape.fields.find? fun field => field.named && !seen.contains field.name with
      | some field => .error (.missing field.name)
      | none => .ok a
  | member :: members => do
    let name ← memberName member
    match shape.field? name with
    | none =>
      member.2.pass
      shape.takeMembers stop seen a members
    | some field =>
      if seen.contains name then throw (.repeated name)
      let a ← field.put member.2 a
      shape.takeMembers stop (name :: seen) a members

def surplus (stop : Option Break) : Option Fault :=
  match stop with
  | none => none
  | some ⟨.trailingComma, _⟩ => some .trailingComma
  | some ⟨.eofInList, _⟩ => some .eofInList
  | some _ => some .trailingCharacters

/-- Takes the items of an array in order, for the fields that are left; `place` is the place of the
next. -/
def takeItems (shape : RecordShape α) (stop : Option Break) (place : Nat) (a : α) :
    List (Field α) → List Json → Except Mismatch α
  | [], [] =>
    match surplus stop with
    | some fault => .error (.grammar fault)
    | none => .ok a
  | [], _ :: _ => .error (.grammar .trailingCharacters)
  | field :: fields, item :: items => do
    let a ← field.put item a
    shape.takeItems stop (place + 1) a fields items
  | field :: fields, [] =>
    match stop with
    | some b => .error (.grammar b.wanted)
    | none =>
      if field.placed then
        .error (.length place
          (shape.title ++ " with " ++ toString shape.fields.length ++ " elements"))
      else shape.takeItems stop (place + 1) a fields []

/-- Takes a record; `blank` is the record before any of its fields is known. -/
def take (shape : RecordShape α) (blank : α) : Json → Except Mismatch α
  | .object members stop => shape.takeMembers stop [] blank members
  | .array items stop => shape.takeItems stop 0 blank shape.fields items
  | value => value.refuse shape.title

end RecordShape

end FtpControl.Json
