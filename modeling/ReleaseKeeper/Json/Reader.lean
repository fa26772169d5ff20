import ReleaseKeeper.Json.Basic
import ReleaseKeeper.Decimal.Numeral
/-!
# Reading JSON text

As serde_json reads it into a value. A number without point and exponent that fits 64 bits, with or
without sign, is whole; every other number is a floating point number. Its leading digits that fit
64 bits are rounded first and scaled by a power of ten after that. Of two members with one key the
later counts. Nesting is bounded by the length of the text.
-/
namespace ReleaseKeeper.Json

inductive ReadError where
  | unexpected (c : Char)
  | endOfText
  | trailing (c : Char)
  | badEscape
  | numberTooLarge
deriving Repr

abbrev Reader := StateT (List Char) (Except ReadError)

namespace Reader

def skipBlanks : Reader Unit :=
  modify (·.dropWhile fun c => c = ' ' || c = '\t' || c = '\n' || c = '\r')

def peek? : Reader (Option Char) := return (← get).head?

def next : Reader Char := do
  match ← get with
  | [] => throw .endOfText
  | c :: rest => set rest; return c

def expect (c : Char) : Reader Unit := do
  let d ← next
  if d = c then return () else throw (.unexpected d)

/-- Takes a word and answers with a value. -/
def word (cs : List Char) (x : Json) : Reader Json := do
  for c in cs do expect c
  return x

def hexQuad : Reader Nat := do
  let mut n := 0
  for _ in [0, 1, 2, 3] do
    match digitValue? 16 (← next) with
    | some d => n := 16 * n + d
    | none => throw .badEscape
  return n

/-- The character behind `\u`, which takes two escapes beyond the sixteen-bit range. -/
def unicodeEscape : Reader Char := do
  let high ← hexQuad
  if 0xD800 ≤ high ∧ high < 0xDC00 then
    expect '\\'
    expect 'u'
    let low ← hexQuad
    if 0xDC00 ≤ low ∧ low < 0xE000 then
      return .ofNat (0x10000 + (high - 0xD800) * 0x400 + (low - 0xDC00))
    else throw .badEscape
  else if 0xDC00 ≤ high ∧ high < 0xE000 then throw .badEscape
  else return .ofNat high

def escape : Reader Char := do
  match ← next with
  | '"' => return '"'
  | '\\' => return '\\'
  | '/' => return '/'
  | 'b' => return '\x08'
  | 'f' => return '\x0c'
  | 'n' => return '\n'
  | 'r' => return '\r'
  | 't' => return '\t'
  | 'u' => unicodeEscape
  | _ => throw .badEscape

/-- The rest of a string, its opening quote already taken. -/
def stringRest : Nat → List Char → Reader String
  | 0, _ => throw .endOfText
  | fuel + 1, done => do
    match ← next with
    | '"' => return .ofList done.reverse
    | '\\' => stringRest fuel ((← escape) :: done)
    | c => if c.toNat < 32 then throw (.unexpected c) else stringRest fuel (c :: done)

def digits : Reader (List Char) := do
  let (ds, rest) := (← get).span Char.isDigit
  set rest
  return ds

/-- The digits that fit 64 bits and the number of digits left over. -/
def fitting (ds : List Char) : Nat × Nat :=
  ds.foldl (fun (n, dropped) c =>
    let m := 10 * n + (c.toNat - '0'.toNat)
    if dropped = 0 ∧ m < twoTo 64 then (m, 0) else (n, dropped + 1)) (0, 0)

/-- A floating point number from its digits, rounded before it is scaled and after. -/
def scaled (negative : Bool) (significand : Nat) (power : Int) : Option Binary64 :=
  let m := Binary64.ofRatio false significand 1
  let ten (p : Nat) := Binary64.ofRatio false (tenTo p) 1
  if significand = 0 then some (.ofMagnitude negative 0)
  else if 308 < power then none
  else if 0 ≤ power then
    let x := Binary64.scaleUp m (ten power.toNat) negative
    if x.isFinite then some x else none
  else if -308 ≤ power then some (Binary64.scaleDown m (ten (-power).toNat) negative)
  else if -1000 ≤ power then
    let step := Binary64.scaleDown m (ten 308) false
    let rest := (-power).toNat - 308
    if rest ≤ 308 then some (Binary64.scaleDown step (ten rest) negative)
    else some (.ofMagnitude negative 0)
  else some (.ofMagnitude negative 0)

/-- The exponent of a number, if there is one. -/
def exponent? : Reader (Option Int) := do
  match ← get with
  | c :: rest =>
    if c = 'e' ∨ c = 'E' then
      let (negative, rest) := match rest with
        | '-' :: ds => (true, ds)
        | '+' :: ds => (false, ds)
        | ds => (false, ds)
      set rest
      match readNat? 10 (← digits) with
      | some n => return some (if negative then -n else n)
      | none => throw .endOfText
    else return none
  | [] => return none

/-- A number behind its sign. -/
def number (negative : Bool) : Reader Json := do
  let whole ← digits
  match whole with
  | [] => throw .endOfText
  | '0' :: c :: _ => throw (.unexpected c)
  | _ => pure ()
  let places ← match ← peek? with
    | some '.' => do
      let _ ← next
      let ds ← digits
      if ds.isEmpty then throw .endOfText else pure (some ds)
    | _ => pure none
  let power ← exponent?
  let (n, dropped) := fitting whole
  let asFloat (m : Nat) (p : Int) : Reader Json :=
    match scaled negative m p with
    | some x => return .float x
    | none => throw .numberTooLarge
  match places, power with
  | none, none =>
    if 0 < dropped then asFloat n dropped
    else if ¬ negative then return .int n
    else if n = 0 then return .float (.ofMagnitude true 0)
    else if n ≤ twoTo 63 then return .int (-n)
    else asFloat n 0
  | _, _ =>
    if 0 < dropped then asFloat n (dropped + power.getD 0)
    else
      let (m, lost) := fitting (whole ++ places.getD [])
      let kept : Int := ((places.getD []).length : Int) - lost
      asFloat m (power.getD 0 - kept)

mutual

def value : Nat → Reader Json
  | 0 => throw .endOfText
  | fuel + 1 => do
    skipBlanks
    match ← peek? with
    | none => throw .endOfText
    | some 'n' => word "null".toList .null
    | some 't' => word "true".toList (.bool true)
    | some 'f' => word "false".toList (.bool false)
    | some '"' => do
      let _ ← next
      return .str (← stringRest ((← get).length + 1) [])
    | some '-' => do
      let _ ← next
      number true
    | some '[' => do
      let _ ← next
      skipBlanks
      match ← peek? with
      | some ']' => let _ ← next; return .arr []
      | _ => return .arr (← items fuel)
    | some '{' => do
      let _ ← next
      skipBlanks
      match ← peek? with
      | some '}' => let _ ← next; return .obj []
      | _ => return .object (← members fuel)
    | some c => if c.isDigit then number false else throw (.unexpected c)

def items : Nat → Reader (List Json)
  | 0 => throw .endOfText
  | fuel + 1 => do
    let x ← value fuel
    skipBlanks
    match ← next with
    | ',' => return x :: (← items fuel)
    | ']' => return [x]
    | c => throw (.unexpected c)

def members : Nat → Reader (List (String × Json))
  | 0 => throw .endOfText
  | fuel + 1 => do
    skipBlanks
    expect '"'
    let key ← stringRest ((← get).length + 1) []
    skipBlanks
    expect ':'
    let x ← value fuel
    skipBlanks
    match ← next with
    | ',' => return (key, x) :: (← members fuel)
    | '}' => return [(key, x)]
    | c => throw (.unexpected c)

end

end Reader

/-- Reads a text that holds one value. -/
def read (text : String) : Except ReadError Json := do
  let cs := text.toList
  let (x, rest) ← (Reader.value (cs.length + 1)).run cs
  match rest.dropWhile Char.isWhitespace with
  | [] => return x
  | c :: _ => throw (.trailing c)

end ReleaseKeeper.Json
