import ReleaseKeeper.Decimal.Shortest
import ReleaseKeeper.Error
import ReleaseKeeper.Json.Basic
import ReleaseKeeper.Text.Quoted
/-!
# Why a value has not the form asked for

The errors of serde. A fault says what was found and what was expected, or which field is missing,
given twice, or has a value that is none of its choices.
-/
namespace ReleaseKeeper.Typed

/-- The first thing that keeps a value from being read. -/
inductive Fault where
  /-- A value of another type. -/
  | type (found : Json) (expected : String)
  /-- A value of the right type that is not allowed. -/
  | value (found : Json) (expected : String)
  /-- A list of fields that is too short or too long. -/
  | length (found : Nat) (expected : String)
  /-- A field that is not there. -/
  | missing (field : String)
  /-- A field that is there twice, under two names. -/
  | duplicate (field : String)
  /-- A name that is none of the choices. -/
  | variant (found : String) (choices : List String)
  /-- A text that another reader refused. -/
  | text (detail : String)
deriving Repr

def describe : Json → String
  | .null => "null"
  | .bool b => s!"boolean `{b}`"
  | .int n => s!"integer `{n}`"
  | .float x => s!"floating point `{x.positional}`"
  | .str s => s!"string {Text.quoted s}"
  | .arr _ => "sequence"
  | .obj _ => "map"

namespace Fault

def message : Fault → String
  | type found expected => s!"invalid type: {describe found}, expected {expected}"
  | value found expected => s!"invalid value: {describe found}, expected {expected}"
  | length found expected => s!"invalid length {found}, expected {expected}"
  | missing field => s!"missing field `{field}`"
  | duplicate field => s!"duplicate field `{field}`"
  | variant found choices =>
    let names := ", ".intercalate (choices.map fun c => s!"`{c}`")
    s!"unknown variant `{found}`, expected one of {names}"
  | text detail => detail

def toError (f : Fault) : Error := .malformed none f.message

def toErrorFor (kind : String) (f : Fault) : Error := .malformed (some kind) f.message

end Fault

end ReleaseKeeper.Typed
