import FtpControl.Failure
import FtpControl.Json.Record

namespace FtpControl.Failure

def kinds : List (String × Kind) :=
  Kind.all.map fun kind => (kind.name, kind)

def toJson (failure : Failure) : Json :=
  .record [
    ("kind", .string failure.kind.name),
    ("message", .string failure.message),
    ("code", failure.code.elim .null fun code => .ofNat code.toNat)]

/-- A failure before anything is known of it. -/
def blank : Failure where
  kind := .ioError
  message := ""

def takeCode : Json → Except Json.Mismatch (Option UInt16)
  | .null => .ok none
  | value => (fun n => some (UInt16.ofNat n)) <$> value.takeNatural 16

def shape : Json.RecordShape Failure where
  title := "a failure"
  fields := [
    { name := "kind", named := true, placed := true
      put := fun v f => return { f with kind := ← v.takeChoice kinds } },
    { name := "message", named := true, placed := true
      put := fun v f => return { f with message := ← v.takeText } },
    { name := "code", placed := true
      put := fun v f => return { f with code := ← takeCode v } }]

def ofJson (value : Json) : Except Json.Mismatch Failure :=
  shape.take blank value

end FtpControl.Failure
