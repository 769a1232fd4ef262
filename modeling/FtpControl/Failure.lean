namespace FtpControl

inductive Failure.Kind where
  | invalidReply
  | codeOutOfRange
  | malformedPath
  | listingParse
  | invalidArgument
  | invalidState
  | resolveFailed
  | tlsFailed
  | timeout
  | disconnected
  | ioError
  deriving DecidableEq, Repr

/-- The name that a kind is shown and stored under. -/
def Failure.Kind.name : Failure.Kind → String
  | .invalidReply => "InvalidReply"
  | .codeOutOfRange => "CodeOutOfRange"
  | .malformedPath => "MalformedPath"
  | .listingParse => "ListingParse"
  | .invalidArgument => "InvalidArgument"
  | .invalidState => "InvalidState"
  | .resolveFailed => "ResolveFailed"
  | .tlsFailed => "TlsFailed"
  | .timeout => "Timeout"
  | .disconnected => "Disconnected"
  | .ioError => "IoError"

def Failure.Kind.all : List Failure.Kind :=
  [.invalidReply, .codeOutOfRange, .malformedPath, .listingParse, .invalidArgument, .invalidState,
    .resolveFailed, .tlsFailed, .timeout, .disconnected, .ioError]

structure Failure where
  kind : Failure.Kind
  message : String
  /-- The reply code that caused it. -/
  code : Option UInt16 := none
  deriving DecidableEq, Repr

namespace Failure

def withCode (failure : Failure) (code : UInt16) : Failure :=
  { failure with code := some code }

def argument (message : String) : Failure :=
  { kind := .invalidArgument, message }

def listing (message : String) : Failure :=
  { kind := .listingParse, message }

def state (message : String) : Failure :=
  { kind := .invalidState, message }

def outOfRange (code : UInt16) : Failure :=
  { kind := .codeOutOfRange, message := "Server reply code out of range.", code := some code }

/-- The one-line form: kind, code if there is one, message. -/
def text (failure : Failure) : String :=
  match failure.code with
  | some code => s!"[FTP {failure.kind.name} {code}] {failure.message}"
  | none => s!"[FTP {failure.kind.name}] {failure.message}"

inductive Cause where
  | timedOut
  | unexpectedEnd
  | reset
  | other
  deriving DecidableEq, Repr

/-- An input or output error: a time-out is marked as one, a lost peer is a disconnection. -/
def ofCause (cause : Cause) (message : String) : Failure :=
  match cause with
  | .timedOut => { kind := .timeout, message := s!"I/O timeout: {message}" }
  | .unexpectedEnd | .reset => { kind := .disconnected, message }
  | .other => { kind := .ioError, message }

end Failure

end FtpControl
