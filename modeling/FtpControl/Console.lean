import FtpControl.Json.Printer
import FtpControl.Profile
import FtpControl.Session.Event

namespace FtpControl.Console

structure Options where
  /-- The file of the saved connection. -/
  config : String
  /-- The directory to change to, instead of the saved one. -/
  directory : Option String := none
  noList : Bool := false
  /-- Print events as JSON. -/
  json : Bool := false
  deriving DecidableEq, Repr

structure Draft where
  config : Option String := none
  directory : Option String := none
  noList : Bool := false
  json : Bool := false
  deriving DecidableEq, Repr

namespace Draft

def setConfig? (d : Draft) (name : String) : Option Draft :=
  if d.config.isSome then none else some { d with config := some name }

def setDirectory? (d : Draft) (path : String) : Option Draft :=
  if d.directory.isSome then none else some { d with directory := some path }

def isOption (arg : String) : Bool :=
  arg.startsWith "-" && arg != "-"

/-- Takes the arguments in order. After two hyphens nothing is an option. -/
def takeAll? (d : Draft) : List String → Option Draft
  | [] => some d
  | ["--cd"] => none
  | "--cd" :: path :: args =>
    if isOption path then none else (d.setDirectory? path).bind fun d => d.takeAll? args
  | "--no-list" :: args => if d.noList then none else { d with noList := true }.takeAll? args
  | "--json" :: args => if d.json then none else { d with json := true }.takeAll? args
  | "--" :: args => args.foldlM setConfig? d
  | arg :: args =>
    if "--cd=".toList.isPrefixOf arg.toList then
      (d.setDirectory? (String.ofList (arg.toList.drop 5))).bind fun d => d.takeAll? args
    else if isOption arg then none
    else (d.setConfig? arg).bind fun d => d.takeAll? args

end Draft

/-- Reads the arguments; nothing comes of a wrong use. -/
def Options.ofArgs? (args : List String) : Option Options := do
  let d ← Draft.takeAll? {} args
  return { config := ← d.config, directory := d.directory, noList := d.noList, json := d.json }

/-- The saved connection, changed as the options ask. -/
def Options.adapt (o : Options) (p : Profile) : Profile :=
  { p with
    initialDirectory := o.directory <|> p.initialDirectory
    listAfterLogin := p.listAfterLogin && !o.noList }

def kindName : Entry.Kind → String
  | .file => "file"
  | .directory => "dir"
  | .link => "link"
  | .other => "other"

def entryLine (e : Entry) : String :=
  e.name ++ ": " ++ kindName e.kind ++ ", " ++ toString e.size ++ " bytes, " ++ e.modified.shown

def plainLines : Event → List String
  | .log line => ["Session: " ++ line]
  | .error message => ["Error: " ++ message]
  | .fatal message => ["Fatal error: " ++ message]
  | .directory path => ["Directory: " ++ path]
  | .listing entries => entries.map entryLine
  | .connected | .idle => []

def lines (json : Bool) (event : Event) : List String :=
  if json then [event.toJson.line] else plainLines event

inductive Status where
  | success
  | failure
  | usage
  deriving DecidableEq, Repr

def Status.code : Status → Nat
  | .success => 0
  | .failure => 1
  | .usage => 2

/-- What the program waits for. -/
structure Watch where
  listing : Bool
  directory : Bool
  /-- The login is done, so that an error means that a request failed. -/
  loggedIn : Bool := false
  deriving DecidableEq, Repr

def Watch.ofProfile (p : Profile) : Watch where
  listing := p.listAfterLogin
  directory := p.initialDirectory.isSome

/-- The status that an event ends the program with, if it does. -/
def Watch.verdict (w : Watch) : Event → Option Status
  | .fatal _ => some .failure
  | .listing _ => some .success
  | .directory _ => if w.listing then none else some .success
  | .idle => if w.listing ∨ w.directory then none else some .success
  | .error _ => if w.loggedIn then some .failure else none
  | .log _ | .connected => none

def Watch.after (w : Watch) (event : Event) : Watch :=
  if event = .idle then { w with loggedIn := true } else w

/-- The events up to the one that ends the program, and the status. -/
def Watch.follow (w : Watch) : List Event → List Event × Option Status
  | [] => ([], none)
  | event :: events =>
    match w.verdict event with
    | some status => ([event], some status)
    | none =>
      let (seen, status) := (w.after event).follow events
      (event :: seen, status)

structure Result where
  status : Status
  output : List String := []
  errors : List String := []
  deriving DecidableEq, Repr

def Result.refused (failure : Failure) : Result :=
  { status := .failure, errors := [failure.text] }

end FtpControl.Console
