/-!
# Formats of the log

Formats are named in letters of either case.
-/
namespace ReleaseKeeper

/-- How lines of the log are written. -/
inductive LogFormat where
  /-- One JSON object in a line. -/
  | json
  /-- Text for people. -/
  | text
deriving DecidableEq, Repr, Inhabited

namespace LogFormat

def name : LogFormat → String
  | json => "Json"
  | text => "Text"

/-- `from_str`: letters of either case. What names no format comes back in small letters. -/
def ofName (name : String) : Except String LogFormat :=
  let name := name.toLower
  if name = "json" then .ok json
  else if name = "text" ∨ name = "pretty" then .ok text
  else .error name

def unknownMessage (name : String) : String := s!"unknown log format: {name}"

end LogFormat

end ReleaseKeeper
