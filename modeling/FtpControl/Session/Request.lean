namespace FtpControl

/-- A request to a session. -/
inductive Request where
  | connect
  | changeDirectory (path : String)
  | listDirectory
  | disconnect
  deriving DecidableEq, Repr

/-- Requests that put an end to whatever the session is doing; the others can wait. -/
def Request.interrupts : Request → Bool
  | .connect | .disconnect => true
  | .changeDirectory _ | .listDirectory => false

end FtpControl
