import ReleaseKeeper.Json.Basic
/-!
# Schemas of definitions

A definition tells a server what the objects of its kind look like. A schema describes a value; the
fields of a record say beside it whether they may be left out, may be null, or what stands for them.
-/
namespace ReleaseKeeper.Definition

/-- Whether a field has to be there. -/
inductive Presence where
  | required
  | optional
  /-- The field may be null, too. -/
  | nullable
  /-- A value stands for a field that is left out. -/
  | defaulted (x : Json)
deriving Repr, Inhabited

inductive Schema where
  | text
  /-- A date and a time. -/
  | time
  /-- A whole number of 64 bits. -/
  | int64
  /-- A whole number of 32 bits without sign. -/
  | nat32
  /-- One of some names. -/
  | choice (names : List String)
  | list (items : Schema)
  | dict (values : Schema)
  /-- Fields in the order of their names. -/
  | record (fields : List (String × Presence × Schema))
  /-- A schema with a sentence about it. -/
  | described (description : String) (schema : Schema)
deriving Repr, Inhabited

namespace Presence

/-- What is added to the schema of a field. -/
def members : Presence → Dict Json
  | required | optional => []
  | nullable => [("nullable", .bool true)]
  | defaulted x => [("default", x)]

def isRequired : Presence → Bool
  | required => true
  | _ => false

end Presence

namespace Schema

def type (name : String) : String × Json := ("type", .str name)

def requiredNames (fields : List (String × Presence × Schema)) : List String :=
  (fields.filter fun f => f.2.1.isRequired).map (·.1)

/-- Which fields of a record may not be left out, unless all of them may. -/
def requirement (fields : List (String × Presence × Schema)) : Dict Json :=
  match requiredNames fields with
  | [] => []
  | names => [("required", .arr (names.map .str))]

mutual

/-- The members of a schema. -/
def members : Schema → Dict Json
  | .text => [type "string"]
  | .time => [("format", .str "date-time"), type "string"]
  | .int64 => [("format", .str "int64"), type "integer"]
  | .nat32 => [("format", .str "uint32"), ("minimum", .float ⟨0⟩), type "integer"]
  | .choice names => [("enum", .arr (names.map .str)), type "string"]
  | .list items => [("items", .obj items.members), type "array"]
  | .dict values => [("additionalProperties", .obj values.members), type "object"]
  | .record fields =>
    Table.overlay (requirement fields) [("properties", .obj (properties fields)), type "object"]
  | .described description schema => Table.put "description" (.str description) schema.members
termination_by structural s => s

def properties : List (String × Presence × Schema) → Dict Json
  | [] => []
  | (name, presence, schema) :: rest =>
    (name, .obj (Table.overlay presence.members schema.members)) :: properties rest
termination_by structural fields => fields

end

def toJson (s : Schema) : Json := .obj s.members

end Schema

end ReleaseKeeper.Definition
