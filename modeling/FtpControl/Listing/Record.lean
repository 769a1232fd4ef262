import FtpControl.Json.Record
import FtpControl.Listing.Entry

namespace FtpControl.Entry

def kinds : List (String × Kind) :=
  [("file", .file), ("directory", .directory), ("link", .link), ("other", .other)]

def Kind.name : Kind → String
  | .file => "file"
  | .directory => "directory"
  | .link => "link"
  | .other => "other"

def toJson (e : Entry) : Json :=
  .record [
    ("name", .string e.name),
    ("kind", .string e.kind.name),
    ("size", .ofNat e.size.toNat),
    ("modified", .string e.modified.text)]

def blank : Entry where
  name := ""
  kind := .other
  size := 0
  modified := ⟨⟨0, 1, 1, by decide⟩, .midnight⟩

def takeModified (value : Json) : Except Json.Mismatch Timestamp := do
  match Timestamp.ofText? (← value.takeText) with
  | some t => return t
  | none => throw (.form "input contains invalid characters")

/-- The stored form of an entry, field by field; each of them is needed. -/
def shape : Json.RecordShape Entry where
  title := "an entry"
  fields := [
    { name := "name", named := true, placed := true
      put := fun v e => return { e with name := ← v.takeText } },
    { name := "kind", named := true, placed := true
      put := fun v e => return { e with kind := ← v.takeChoice kinds } },
    { name := "size", named := true, placed := true
      put := fun v e => return { e with size := UInt64.ofNat (← v.takeNatural 64) } },
    { name := "modified", named := true, placed := true
      put := fun v e => return { e with modified := ← takeModified v } }]

def ofJson (value : Json) : Except Json.Mismatch Entry :=
  shape.take blank value

end FtpControl.Entry
