import FtpControl.Failure

namespace FtpControl

/-- A text that may follow a command word. -/
structure Argument where
  text : String
  nonempty : text.toList ≠ []
  one_line : '\r' ∉ text.toList ∧ '\n' ∉ text.toList
  deriving DecidableEq, Repr

/-- Accepts an argument; `missing` is the message for an empty one. -/
def Argument.ofText (missing text : String) : Except Failure Argument :=
  if nonempty : text.toList = [] then .error (.argument missing)
  else if one_line : '\r' ∉ text.toList ∧ '\n' ∉ text.toList then .ok ⟨text, nonempty, one_line⟩
  else .error (.argument "Line break in command argument.")

inductive Command where
  | authTls
  | pbszZero
  | user (name : Argument)
  | pass (password : Argument)
  | cwd (path : Argument)
  | pwd
  | statList
  | dele (path : Argument)
  | mkd (path : Argument)
  | site (command : Argument)
  | feat
  | pasv
  deriving DecidableEq, Repr

namespace Command

/-- The line on the wire, without its terminator. -/
def line : Command → String
  | .authTls => "AUTH TLS"
  | .pbszZero => "PBSZ 0"
  | .user name => "USER " ++ name.text
  | .pass password => "PASS " ++ password.text
  | .cwd path => "CWD " ++ path.text
  | .pwd => "PWD"
  | .statList => "STAT -l"
  | .dele path => "DELE " ++ path.text
  | .mkd path => "MKD " ++ path.text
  | .site command => "SITE " ++ command.text
  | .feat => "FEAT"
  | .pasv => "PASV"

/-- The form for logs, which keeps the password back. -/
def shown : Command → String
  | .pass _ => "PASS ****"
  | command => command.line

def userNamed (name : String) : Except Failure Command :=
  .user <$> Argument.ofText "Empty username." name

def passWith (password : String) : Except Failure Command :=
  .pass <$> Argument.ofText "Empty password." password

def changeTo (path : String) : Except Failure Command :=
  .cwd <$> Argument.ofText "Empty path." path

def delete (path : String) : Except Failure Command :=
  .dele <$> Argument.ofText "Empty path." path

def makeDirectory (path : String) : Except Failure Command :=
  .mkd <$> Argument.ofText "Empty path." path

def siteCommand (command : String) : Except Failure Command :=
  .site <$> Argument.ofText "Empty command." command

end Command

end FtpControl
