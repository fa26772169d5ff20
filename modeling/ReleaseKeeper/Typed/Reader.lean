import ReleaseKeeper.Typed.Fault
/-!
# Readers of typed values

Types that derive their reader from serde, read from a JSON value of serde_json. A reader takes a
JSON value to a value of some type or to the first fault. The fields of a record are read in the
order of their names; a field that is missing is found out only after all that are there were read.
A record may also be given as the list of its fields in the order of declaration.
-/
namespace ReleaseKeeper.Typed

abbrev Reader (α : Type) := Json → Except Fault α

namespace Reader

variable {α : Type}

def text : Reader String
  | .str s => .ok s
  | x => .error (.type x "a string")

def bool : Reader Bool
  | .bool b => .ok b
  | x => .error (.type x "a boolean")

/-- A whole number between two bounds. -/
def intWithin (low high : Int) (name : String) : Reader Int
  | .int n => if low ≤ n ∧ n ≤ high then .ok n else .error (.value (.int n) name)
  | x => .error (.type x name)

def int32 : Reader Int := intWithin (-2147483648) 2147483647 "i32"

def int64 : Reader Int := intWithin (-9223372036854775808) 9223372036854775807 "i64"

def nat32 : Reader Nat := fun x => (intWithin 0 4294967295 "u32" x).map Int.toNat

def nat16 : Reader Nat := fun x => (intWithin 0 65535 "u16" x).map Int.toNat

/-- The items of a list, up to the first fault. -/
def items (read : Reader α) : List Json → Except Fault (List α)
  | [] => .ok []
  | x :: xs => do
    let y ← read x
    let ys ← items read xs
    return y :: ys

def list (read : Reader α) : Reader (List α)
  | .arr xs => items read xs
  | x => .error (.type x "a sequence")

/-- The entries of a dictionary, up to the first fault. -/
def entries (read : Reader α) : Dict Json → Except Fault (Dict α)
  | [] => .ok []
  | (k, x) :: rest => do
    let y ← read x
    let ys ← entries read rest
    return (k, y) :: ys

def dict (read : Reader α) : Reader (Dict α)
  | .obj members => entries read members
  | x => .error (.type x "a map")

/-- A value or nothing, which is written as null. -/
def option (read : Reader α) : Reader (Option α)
  | .null => .ok none
  | x => (read x).map some

end Reader

/-! ## Records -/

/-- The field of a name, if it is there. -/
def field? {α : Type} (fields : Dict Json) (name : String) (read : Reader α) :
    Except Fault (Option α) :=
  match fields.lookup name with
  | none => .ok none
  | some x => (read x).map some

/-- The field of a name that may also be given under another, smaller name, but not under both. -/
def aliased? {α : Type} (fields : Dict Json) (other name : String) (read : Reader α) :
    Except Fault (Option α) := do
  match ← field? fields other read with
  | none => field? fields name read
  | some y => if (fields.lookup name).isSome then .error (.duplicate name) else return some y

/-- A field that has to be there. -/
def orMissing {α : Type} (name : String) : Option α → Except Fault α
  | none => .error (.missing name)
  | some y => .ok y

/-- The fields still to come of a record given as a list, their position, and what to expect. -/
structure Listing where
  position : Nat
  rest : List Json
  expected : String

/-- Reads the fields of a record from a list. -/
abbrev Listed := StateT Listing (Except Fault)

namespace Listed

variable {α : Type}

def next? (read : Reader α) : Listed (Option α) := do
  let l ← get
  match l.rest with
  | [] => set { l with position := l.position + 1 }; return none
  | x :: xs =>
    let y ← read x
    set { l with position := l.position + 1, rest := xs }
    return some y

/-- The next field, or a value that stands for it when there are none left. -/
def nextOr (absent : α) (read : Reader α) : Listed α := return (← next? read).getD absent

/-- The next field, which has to be there. -/
def next (read : Reader α) : Listed α := do
  let l ← get
  match ← next? read with
  | none => throw (.length l.position l.expected)
  | some y => return y

end Listed

/-- Reads a record of `size` fields from an object or from a list of its fields. -/
def record {α : Type} (name : String) (size : Nat) (named : Dict Json → Except Fault α)
    (listed : Listed α) : Reader α
  | .obj fields => named fields
  | .arr xs => do
    let elements := if size = 1 then "element" else "elements"
    let (y, l) ← listed.run ⟨0, xs, s!"struct {name} with {size} {elements}"⟩
    if l.rest.isEmpty then return y else .error (.length xs.length "fewer elements in array")
  | x => .error (.type x s!"struct {name}")

end ReleaseKeeper.Typed
