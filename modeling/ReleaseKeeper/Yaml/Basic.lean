import ReleaseKeeper.Error
import ReleaseKeeper.Json.Basic
import ReleaseKeeper.Yaml.Node
/-!
# YAML texts as JSON

`parse_documents` and `parse_yaml`. A text is a stream of documents, each of which is taken to a
JSON value. Keys that are no strings become the texts of their values. Infinite and undefined
numbers become null, unless they are written in a way that no reader of numbers knows.
-/
namespace ReleaseKeeper.Yaml

def flaw (detail : String) : Error := .malformed none detail

def realJson (text : String) : Except Error Json :=
  match readBinary64? text.toList with
  | none => .error (flaw s!"invalid float: {text}")
  | some x => .ok (if x.isFinite then .float x else .null)

namespace Node

/-- `key_to_string`. -/
def keyText : Node → Except Error String
  | .str s | .real s => .ok s
  | .int n => .ok (toString n)
  | .bool b => .ok (toString b)
  | .null => .ok "null"
  | _ => .error (flaw "unsupported YAML key type")

mutual

/-- `yaml_to_json`. -/
def toJson : Node → Except Error Json
  | .null => .ok .null
  | .bool b => .ok (.bool b)
  | .int n => .ok (.int n)
  | .real text => realJson text
  | .str s => .ok (.str s)
  | .seq items => (itemsJson items).map .arr
  | .map entries => (entriesJson entries).map .object
  | .bad => .error (flaw "bad YAML value")
termination_by structural x => x

def itemsJson : List Node → Except Error (List Json)
  | [] => .ok []
  | x :: rest => do
    let y ← x.toJson
    return y :: (← itemsJson rest)
termination_by structural x => x

def entriesJson : List (Node × Node) → Except Error (List (String × Json))
  | [] => .ok []
  | (k, x) :: rest => do
    let key ← k.keyText
    let y ← x.toJson
    return (key, y) :: (← entriesJson rest)
termination_by structural x => x

end

/-- Whether a document says nothing. -/
def isNull : Node → Bool
  | null => true
  | _ => false

end Node

/-- `load`. -/
def documents (text : String) : Except Error (List Node) := do
  let ts ← (tokens text).mapError fun e => flaw s!"invalid YAML: {e.message}"
  (documentsOf ts).mapError fun detail => flaw s!"invalid YAML: {detail}"

/-- `parse_yaml`: the first document, and null for a text without documents. -/
def readFirst (text : String) : Except Error Json := do
  match ← documents text with
  | [] => return .null
  | x :: _ => x.toJson

/-- `parse_documents`, without those that say nothing. -/
def readAll (text : String) : Except Error (List Json) := do
  ((← documents text).filter (!·.isNull)).mapM Node.toJson

end ReleaseKeeper.Yaml
