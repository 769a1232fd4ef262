import FtpControl.Listing.Entry

namespace FtpControl.Listing

/-- A line that is not meant to be an entry. -/
def isFiller (line : String) : Bool :=
  blankText line.toList || "total".toList.isPrefixOf line.toList

def failure (line : String) (fault : Entry.Fault) : Failure :=
  .listing ("Could not parse directory list entry '" ++ line ++ "': " ++ fault.message)

def entry (today : Date) (line : String) : Except Failure Entry :=
  (Entry.ofLine today line.toList).mapError (failure line)

/-- The entries of the lines, up to the first bad one, which fails the whole. -/
def strict (today : Date) (lines : List String) : Except Failure (List Entry) :=
  (lines.filter fun line => !isFiller line).mapM (entry today)

/-- The entries of the lines that are entries. -/
def lenient (today : Date) (lines : List String) : List Entry :=
  (lines.filter fun line => !isFiller line).filterMap fun line => (entry today line).toOption

/-- Reads a listing in the given mode. -/
def read (today : Date) (isStrict : Bool) (lines : List String) : Except Failure (List Entry) :=
  if isStrict then strict today lines else .ok (lenient today lines)

end FtpControl.Listing
