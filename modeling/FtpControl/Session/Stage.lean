import FtpControl.Json.Decode

namespace FtpControl

/-- The stage of a session: nothing, a reply or handshake that is waited for, or ready. -/
inductive Stage where
  | notConnected
  | awaitingWelcome
  | awaitingAuthTls
  | awaitingHandshake
  | awaitingPbsz
  | awaitingUser
  | awaitingPass
  | loggedIn
  | awaitingCwd
  | awaitingPwd
  | awaitingStat
  deriving DecidableEq, Repr

namespace Stage

/-- Something is due from the server. -/
def isAwaiting : Stage → Bool
  | .notConnected | .loggedIn => false
  | _ => true

def names : List (String × Stage) :=
  [("notConnected", .notConnected), ("awaitingWelcome", .awaitingWelcome),
    ("awaitingAuthTlsReply", .awaitingAuthTls), ("awaitingHandshake", .awaitingHandshake),
    ("awaitingPbszReply", .awaitingPbsz), ("awaitingUserReply", .awaitingUser),
    ("awaitingPassReply", .awaitingPass), ("loggedIn", .loggedIn),
    ("awaitingCwdReply", .awaitingCwd), ("awaitingPwdReply", .awaitingPwd),
    ("awaitingStatLReply", .awaitingStat)]

def name (stage : Stage) : String :=
  ((names.find? fun entry => entry.2 == stage).map Prod.fst).getD ""

def ofJson (value : Json) : Except Json.Mismatch Stage :=
  value.takeChoice names

end Stage

end FtpControl
