namespace FtpControl

/-- The outcome of one operation on a connection. -/
inductive Notice where
  | connected
  | handshakeDone
  | written
  /-- A line, without the blanks at its end. -/
  | line (text : String)
  /-- One address failed; `exhausted` tells that none is left. -/
  | endpointFailed (message : String) (exhausted : Bool)
  | error (message : String) (fatal : Bool)
  deriving DecidableEq, Repr

/-- What the owner is to handle. -/
inductive Notice.Call where
  | connected
  | handshakeDone
  | line (text : String)
  | transportError (message : String) (fatal : Bool)
  deriving DecidableEq, Repr

/-- The calls that a notice makes. Running out of addresses ends the attempt as a whole. -/
def Notice.calls : Notice → List Notice.Call
  | .connected => [.connected]
  | .handshakeDone => [.handshakeDone]
  | .written => []
  | .line text => [.line text]
  | .endpointFailed message false => [.transportError message false]
  | .endpointFailed message true =>
    [.transportError message false, .transportError "Connection failed." true]
  | .error message fatal => [.transportError message fatal]

end FtpControl
