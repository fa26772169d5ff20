import ReleaseKeeper.Metadata
/-!
# Shapes of platform objects

The objects of the platform, as k8s-openapi reads them, are described by data: what type each field
has, and in which record. Checking goes through the members in the order of their names and stops at
the first fault. Members that the shape does not know are left alone, and null stands for a field
that is absent.
-/
namespace ReleaseKeeper.Typed

inductive Shape where
  | text
  | bool
  | int32
  | int64
  | timestamp
  | metadata
  /-- A whole number of 32 bits or a string. -/
  | intOrText
  /-- A number of any kind. -/
  | number
  /-- Any value. -/
  | any
  /-- Exactly this string, for which null does not stand. -/
  | exactly (s : String)
  /-- A value of one shape or another. -/
  | either (first second : Shape)
  | list (items : Shape)
  | dict (values : Shape)
  | record (name : String) (fields : List (String × Shape))
deriving Repr, Inhabited

/-- Keeps only the fault of a reader. -/
def Reader.check {α : Type} (read : Reader α) : Json → Except Fault Unit :=
  fun x => (read x).map fun _ => ()

/-- A whole number of 32 bits or a string. -/
def Reader.intOrText : Json → Except Fault Unit
  | .str _ => .ok ()
  | .int n =>
    if -2147483648 ≤ n ∧ n ≤ 2147483647 then .ok ()
    else .error (.value (.int n) "a 32-bit integer")
  | x => .error (.type x "enum IntOrString")

def Reader.number : Json → Except Fault Unit
  | .int _ | .float _ => .ok ()
  | x => .error (.type x "f64")

def Reader.exactly (s : String) : Json → Except Fault Unit
  | .str t => if t = s then .ok () else .error (.value (.str t) s)
  | x => .error (.type x "a string")

def checkItems (check : Json → Except Fault Unit) : List Json → Except Fault Unit
  | [] => .ok ()
  | x :: xs => do check x; checkItems check xs

def checkValues (check : String → Json → Except Fault Unit) : Dict Json → Except Fault Unit
  | [] => .ok ()
  | (k, x) :: rest => do check k x; checkValues check rest

namespace Shape

/-- Whether a certain string is asked for. -/
def isExact : Shape → Bool
  | .exactly _ => true
  | _ => false

mutual

/-- The first fault of a value, if it has one. -/
def check : Shape → Json → Except Fault Unit
  | .text, x => Reader.text.check x
  | .bool, x => Reader.bool.check x
  | .int32, x => Reader.int32.check x
  | .int64, x => Reader.int64.check x
  | .timestamp, x => Reader.timestamp.check x
  | .metadata, x => Reader.check Metadata.ofJson x
  | .intOrText, x => Reader.intOrText x
  | .number, x => Reader.number x
  | .any, _ => .ok ()
  | .exactly s, x => Reader.exactly s x
  | .either first second, x =>
    match first.check x with
    | .ok _ => .ok ()
    | .error _ => second.check x
  | .list _, .arr [] => .ok ()
  | .list items, .arr xs => checkItems items.check xs
  | .list _, x => .error (.type x "a sequence")
  | .dict values, .obj members => checkValues (fun _ => values.check) members
  | .dict _, x => .error (.type x "a map")
  | .record _ fields, .obj members => checkValues (checkField fields) members
  | .record name _, x => .error (.type x name)
termination_by structural s => s

/-- Checks the member of a record; null and unknown members pass. -/
def checkField : List (String × Shape) → String → Json → Except Fault Unit
  | [], _, _ => .ok ()
  | (name, shape) :: rest, key, x =>
    if name ≠ key then checkField rest key x
    else if x.isNull && !shape.isExact then .ok ()
    else shape.check x
termination_by structural fields => fields

end

end Shape

end ReleaseKeeper.Typed
