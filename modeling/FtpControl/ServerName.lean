import FtpControl.Address
import FtpControl.Failure

namespace FtpControl

def ServerName.isLabelChar (c : Char) : Bool :=
  c.isAlphanum || c == '-' || c == '_'

/-- A label has 1 to 63 characters and a hyphen at neither end. -/
def ServerName.isLabel (label : List Char) : Bool :=
  label.all isLabelChar && 0 < label.length && label.length ≤ 63 &&
    label.head? != some '-' && label.getLast? != some '-'

/-- Labels with points between them, at most 253 characters in all. The last label, which a point
may follow, is no number. -/
def ServerName.isDns (name : List Char) : Bool :=
  let labels := match name.getLast? with
    | some '.' => Address.parts '.' name.dropLast
    | _ => Address.parts '.' name
  name.length ≤ 253 && labels.all isLabel && !(labels.getLast?.any fun label => label.all isDigit)

/-- A name that a certificate can be checked for. -/
inductive ServerName where
  | dns (name : String) (valid : ServerName.isDns name.toList = true)
  | ip (address : Address)
  deriving DecidableEq, Repr

namespace ServerName

def ofHost (host : String) : Except Failure ServerName :=
  if valid : isDns host.toList = true then .ok (.dns host valid)
  else
    match Address.ofText? host.toList with
    | some address => .ok (.ip address)
    | none => .error {
        kind := .tlsFailed
        message := "Invalid server name '" ++ host ++ "': invalid dns name" }

def text : ServerName → String
  | .dns name _ => name
  | .ip address => address.text

end ServerName

end FtpControl
