import FtpControl.Address
import FtpControl.Failure
import FtpControl.Json.Record

namespace FtpControl

structure Profile where
  host : String := ""
  port : UInt16 := 21
  /-- Addresses of the other family are not tried. -/
  family : Address.Family := .ipv4
  username : String := "anonymous"
  password : String := "anonymous@"
  /-- Encrypt the connection before the login. -/
  authTls : Bool := true
  /-- Take any certificate for good. -/
  acceptInvalidCerts : Bool := false
  /-- How long a guarded operation may take, in seconds. -/
  timeout : UInt64 := 15
  /-- The directory to change to after the login. -/
  initialDirectory : Option String := none
  /-- List the directory after the login. -/
  listAfterLogin : Bool := true
  /-- One bad line spoils a listing. -/
  strictListing : Bool := true
  label : Option String := none
  deriving DecidableEq, Repr

namespace Profile

/-- The first setting without which no connection can be tried. -/
def fault? (p : Profile) : Option String :=
  if blankText p.host.toList then some "Empty host."
  else if p.port = 0 then some "Port must be non-zero."
  else if p.username.isEmpty then some "Empty username."
  else if p.password.isEmpty then some "Empty password."
  else none

def validated (p : Profile) : Except Failure Profile :=
  match p.fault? with
  | some message => .error (.argument message)
  | none => .ok p

/-- The label, or else user, host and port. -/
def displayName (p : Profile) : String :=
  match p.label with
  | some label => if label.isEmpty then ofParts else label
  | none => ofParts
where
  /-- User, host and port. -/
  ofParts : String := p.username ++ "@" ++ p.host ++ ":" ++ toString p.port

def families : List (String × Address.Family) :=
  [("ipv4", .ipv4), ("ipv6", .ipv6)]

def shape : Json.RecordShape Profile where
  title := "struct FtpConnectionConfig"
  fields := [
    { name := "host", named := true, placed := true
      put := fun v p => return { p with host := ← v.takeText } },
    { name := "port"
      put := fun v p => return { p with port := UInt16.ofNat (← v.takeNatural 16) } },
    { name := "addressFamily"
      put := fun v p => return { p with family := ← v.takeChoice families } },
    { name := "username", named := true, placed := true
      put := fun v p => return { p with username := ← v.takeText } },
    { name := "password", named := true, placed := true
      put := fun v p => return { p with password := ← v.takeText } },
    { name := "authTls"
      put := fun v p => return { p with authTls := ← v.takeFlag } },
    { name := "acceptInvalidCerts"
      put := fun v p => return { p with acceptInvalidCerts := ← v.takeFlag } },
    { name := "timeoutSec"
      put := fun v p => return { p with timeout := UInt64.ofNat (← v.takeNatural 64) } },
    { name := "initialDirectory"
      put := fun v p => return { p with initialDirectory := ← v.takeOptionalText } },
    { name := "listAfterLogin"
      put := fun v p => return { p with listAfterLogin := ← v.takeFlag } },
    { name := "strictListing"
      put := fun v p => return { p with strictListing := ← v.takeFlag } },
    { name := "label"
      put := fun v p => return { p with label := ← v.takeOptionalText } }]

def unreadable (why : Json.Mismatch) : Failure :=
  .argument ("Invalid connection config: " ++ why.message)

/-- Reads a profile that a connection can be tried with. -/
def ofText (text : List Char) : Except Failure Profile := do
  let p ← (Json.takeAll (shape.take {}) text).mapError unreadable
  p.validated

inductive FileFault where
  | notFound
  | isDirectory
  | notDirectory
  | notText
  | other (message : String)
  deriving DecidableEq, Repr

def FileFault.message : FileFault → String
  | .notFound => "No such file or directory (os error 2)"
  | .isDirectory => "Is a directory (os error 21)"
  | .notDirectory => "Not a directory (os error 20)"
  | .notText => "stream did not contain valid UTF-8"
  | .other message => message

def ofFile (path : String) (content : Except FileFault (List Char)) : Except Failure Profile :=
  match content with
  | .ok text => ofText text
  | .error fault => .error (.argument ("Cannot read " ++ path ++ ": " ++ fault.message))

def toJson (p : Profile) : Json :=
  .record [
    ("host", .string p.host),
    ("port", .ofNat p.port.toNat),
    ("addressFamily", .string (match p.family with | .ipv4 => "ipv4" | .ipv6 => "ipv6")),
    ("username", .string p.username),
    ("password", .string p.password),
    ("authTls", .bool p.authTls),
    ("acceptInvalidCerts", .bool p.acceptInvalidCerts),
    ("timeoutSec", .ofNat p.timeout.toNat),
    ("initialDirectory", .optional p.initialDirectory),
    ("listAfterLogin", .bool p.listAfterLogin),
    ("strictListing", .bool p.strictListing),
    ("label", .optional p.label)]

end Profile

end FtpControl
