import ReleaseKeeper.Decimal.Binary64
import ReleaseKeeper.Table
/-!
# JSON values

The values of serde_json. An object is a dictionary. Whole numbers and floating point numbers are
told apart: `1` and `1.0` are different values. Two floating point numbers are equal when they are
the same number, so the two zeros are; everything else is compared part by part.
-/
namespace ReleaseKeeper

inductive Json where
  | null
  | bool (b : Bool)
  | int (n : Int)
  | float (x : Binary64)
  | str (s : String)
  | arr (items : List Json)
  | obj (members : List (String × Json))
deriving Repr, Inhabited

namespace Json

mutual

def same : Json → Json → Bool
  | .null, .null => true
  | .bool a, .bool b => a == b
  | .int a, .int b => a == b
  | .float a, .float b => a.same b
  | .str a, .str b => a == b
  | .arr a, .arr b => sameItems a b
  | .obj a, .obj b => sameMembers a b
  | _, _ => false
termination_by structural x => x

def sameItems : List Json → List Json → Bool
  | [], [] => true
  | a :: as, b :: bs => a.same b && sameItems as bs
  | _, _ => false
termination_by structural x => x

def sameMembers : List (String × Json) → List (String × Json) → Bool
  | [], [] => true
  | (j, a) :: as, (k, b) :: bs => j == k && a.same b && sameMembers as bs
  | _, _ => false
termination_by structural x => x

end

instance : BEq Json := ⟨same⟩

mutual

/-- The keys of every object inside a value are in increasing order, and its numbers are finite. -/
def WellFormed : Json → Prop
  | .float x => x.isFinite = true
  | .arr items => WellFormedItems items
  | .obj members => Table.Sorted members ∧ WellFormedMembers members
  | _ => True
termination_by structural x => x

def WellFormedItems : List Json → Prop
  | [] => True
  | x :: xs => x.WellFormed ∧ WellFormedItems xs
termination_by structural x => x

def WellFormedMembers : List (String × Json) → Prop
  | [] => True
  | (_, x) :: xs => x.WellFormed ∧ WellFormedMembers xs
termination_by structural x => x

end

def isNull : Json → Bool
  | .null => true
  | _ => false

def asStr? : Json → Option String
  | .str s => some s
  | _ => none

def asArr? : Json → Option (List Json)
  | .arr items => some items
  | _ => none

def asObj? : Json → Option (Dict Json)
  | .obj members => some members
  | _ => none

def get? (key : String) (x : Json) : Option Json :=
  x.asObj?.bind (·.lookup key)

def getStr? (key : String) (x : Json) : Option String :=
  (x.get? key).bind asStr?

/-- An object of the given members; of two with one key the later counts. -/
def object (members : List (String × Json)) : Json := .obj (Table.ofEntries members)

/-! ## Building objects -/

/-- Members under their keys, those that are absent left out. -/
def present (members : List (String × Option Json)) : Json :=
  .obj (members.filterMap fun (k, x?) => x?.map (k, ·))

/-- An object, unless it would be empty. -/
def nonemptyObject {α : Type} (entries : Dict α) (toJson : α → Json) : Option Json :=
  if entries.isEmpty then none else some (.obj (entries.map fun (k, x) => (k, toJson x)))

def nonemptyList {α : Type} (items : List α) (toJson : α → Json) : Option Json :=
  if items.isEmpty then none else some (.arr (items.map toJson))

def nonemptyText (s : String) : Option Json := if s = "" then none else some (.str s)

def ofTexts (texts : Dict String) : Json := .obj (texts.map fun (k, v) => (k, .str v))

/-! ## Parts of objects -/

/-- `string_map_at`: the members of an object whose values are strings. -/
def texts (members : Dict Json) : Dict String :=
  members.filterMap fun (k, v) => v.asStr?.map (k, ·)

def objectAt (key : String) (members : Dict Json) : Dict Json :=
  ((members.lookup key).bind asObj?).getD []

def itemsAt (key : String) (members : Dict Json) : List Json :=
  ((members.lookup key).bind asArr?).getD []

/-- `object_field`: changes the object under a key, which is created when it is missing or no
object. -/
def withObject (key : String) (f : Dict Json → Dict Json) (members : Dict Json) : Dict Json :=
  Table.put key (.obj (f (objectAt key members))) members

/-- `array_field`: the same for a list. -/
def withItems (key : String) (f : List Json → List Json) (members : Dict Json) : Dict Json :=
  Table.put key (.arr (f (itemsAt key members))) members

def mapObject (f : Dict Json → Dict Json) : Json → Json
  | .obj members => .obj (f members)
  | x => x

def mapItems (f : List Json → List Json) : Json → Json
  | .arr items => .arr (f items)
  | x => x

/-! ## Lists with one entry of each name -/

/-- `push_named`: replaces the first item with the name of an entry by that entry, or appends it. -/
def putNamed (entry : Json) : List Json → List Json
  | [] => [entry]
  | x :: rest =>
    if x.get? "name" == entry.get? "name" then entry :: rest else x :: putNamed entry rest

/-- Appends an item unless it is there. -/
def addNew (item : Json) (items : List Json) : List Json :=
  if items.any (item == ·) then items else items ++ [item]

/-- `container_name`. -/
def nameOf (members : Dict Json) : String := ((members.lookup "name").bind asStr?).getD ""

end Json

end ReleaseKeeper
