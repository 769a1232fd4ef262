import FtpControl.Listing.Record

namespace FtpControl

/-- A piece of news from a session. -/
inductive Event where
  /-- A line for the log. -/
  | log (line : String)
  | connected
  /-- The login is done. -/
  | idle
  | error (message : String)
  /-- The session is over. -/
  | fatal (message : String)
  | directory (path : String)
  | listing (entries : List Entry)
  deriving DecidableEq, Repr

namespace Event

inductive Kind where
  | log
  | connected
  | idle
  | error
  | fatal
  | directory
  | listing
  deriving DecidableEq, Repr

def kinds : List (String × Kind) :=
  [("log", .log), ("connected", .connected), ("idle", .idle), ("error", .error),
    ("fatalError", .fatal), ("directoryChanged", .directory), ("directoryListing", .listing)]

def toJson : Event → Json
  | .log line => .record [("type", .string "log"), ("data", .string line)]
  | .connected => .record [("type", .string "connected")]
  | .idle => .record [("type", .string "idle")]
  | .error message => .record [("type", .string "error"), ("data", .string message)]
  | .fatal message => .record [("type", .string "fatalError"), ("data", .string message)]
  | .directory path => .record [("type", .string "directoryChanged"), ("data", .string path)]
  | .listing entries =>
    .record [("type", .string "directoryListing"), ("data", .list (entries.map Entry.toJson))]

def takeEntries : Json → Except Json.Mismatch (List Entry)
  | .array items stop => do
    let entries ← items.mapM Entry.ofJson
    match stop with
    | some b => throw (.grammar b.wanted)
    | none => return entries
  | value => value.refuse "a sequence"

def ofData (data : Json) : Kind → Except Json.Mismatch Event
  | .log => .log <$> data.takeText
  | .connected =>
    match data with
    | .null => .ok .connected
    | data => data.refuse "unit variant"
  | .idle =>
    match data with
    | .null => .ok .idle
    | data => data.refuse "unit variant"
  | .error => .error <$> data.takeText
  | .fatal => .fatal <$> data.takeText
  | .directory => .directory <$> data.takeText
  | .listing => .listing <$> takeEntries data

def ofKind : Kind → Except Json.Mismatch Event
  | .connected => .ok .connected
  | .idle => .ok .idle
  | _ => .error (.missing "data")

/-- What is known of an event while its members are taken. -/
inductive Draft where
  | empty
  | typed (kind : Kind)
  /-- Data that came before their type. -/
  | held (data : Json)
  | complete (event : Event)

/-- How deep data may go that come before their type. -/
def heldDepth : Nat := 126

def Draft.take (name : String) (value : Json) : Draft → Except Json.Mismatch Draft
  | .empty =>
    if name = "type" then .typed <$> value.takeChoice kinds
    else if value.holdable heldDepth then .ok (.held value)
    else .error (.form "the data cannot be held")
  | .typed kind =>
    if name = "type" then .error (.repeated "type") else .complete <$> ofData value kind
  | .held data =>
    if name = "type" then do return .complete (← ofData data (← value.takeChoice kinds))
    else .error (.repeated "data")
  | .complete _ => .error (.repeated name)

def Draft.finish : Draft → Except Json.Mismatch Event
  | .empty | .held _ => .error (.missing "type")
  | .typed kind => ofKind kind
  | .complete event => .ok event

def takeMembers (stop : Option Json.Break) (draft : Draft) :
    List (Json × Json) → Except Json.Mismatch Event
  | [] =>
    match stop with
    | some b => .error (.grammar b.wanted)
    | none => draft.finish
  | member :: members => do
    let name ← Json.RecordShape.memberName member
    if name = "type" ∨ name = "data" then
      takeMembers stop (← draft.take name member.2) members
    else
      member.2.pass
      takeMembers stop draft members

def ofJson : Json → Except Json.Mismatch Event
  | .object members stop => takeMembers stop .empty members
  | .array (kind :: data :: rest) stop => do
    let event ← ofData data (← kind.takeChoice kinds)
    if rest.isEmpty ∧ stop.isNone then return event
    throw (.grammar .trailingCharacters)
  | .array items stop =>
    match stop with
    | some b => .error (.grammar b.wanted)
    | none => .error (.length items.length "an event")
  | value => value.refuse "an event"

end Event

end FtpControl
