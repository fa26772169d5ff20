import ReleaseKeeper.Decimal.Numeral
/-!
# Points in time

A point in time is its calendar date and time of day in UTC, as `DateTime` of chrono (0.4) reads and
writes it by RFC 3339, and as `Time` of k8s-openapi writes it. It is read from text with a date, a
separator, a time of day and an offset, and written with `Z`, either with the fewest of 0, 3, 6 or 9
places that lose nothing (chrono) or with whole seconds (k8s-openapi). Reading what was written
gives the same point again.
-/
namespace ReleaseKeeper

structure Timestamp where
  year : Int
  month : Nat
  day : Nat
  hour : Nat
  minute : Nat
  second : Nat
  nanos : Nat
deriving DecidableEq, Repr, Inhabited

namespace Timestamp

/-- `ParseErrorKind` of chrono: why a text is no point in time. -/
inductive Flaw where
  | outOfRange
  | impossible
  | notEnough
  | invalid
  | tooShort
  | tooLong
deriving DecidableEq, Repr

def Flaw.message : Flaw → String
  | outOfRange => "input is out of range"
  | impossible => "no possible date and time matching input"
  | notEnough => "input is not enough for unique date and time"
  | invalid => "input contains invalid characters"
  | tooShort => "premature end of input"
  | tooLong => "trailing input"

def isTold (year : Int) : Bool := -262143 ≤ year && year ≤ 262142

def isLeap (year : Int) : Bool := year % 4 = 0 && (year % 100 != 0 || year % 400 = 0)

def daysIn (year : Int) (month : Nat) : Nat :=
  if month = 2 then if isLeap year then 29 else 28
  else if month = 4 ∨ month = 6 ∨ month = 9 ∨ month = 11 then 30
  else 31

def nextDay (t : Timestamp) : Timestamp :=
  if t.day < daysIn t.year t.month then { t with day := t.day + 1 }
  else if t.month < 12 then { t with month := t.month + 1, day := 1 }
  else { t with year := t.year + 1, month := 1, day := 1 }

def previousDay (t : Timestamp) : Timestamp :=
  if 1 < t.day then { t with day := t.day - 1 }
  else if 1 < t.month then { t with month := t.month - 1, day := daysIn t.year (t.month - 1) }
  else { t with year := t.year - 1, month := 12, day := 31 }

/-- The point that a clock ahead of UTC by some minutes, fewer than a day's, shows as `t`. -/
def behind (t : Timestamp) (minutes : Int) : Timestamp :=
  let total : Int := (t.hour * 60 + t.minute : Nat) - minutes
  let within := total % 1440
  let u := { t with hour := (within / 60).toNat, minute := (within % 60).toNat }
  if total < 0 then u.previousDay else if 1440 ≤ total then u.nextDay else u

def epoch : Timestamp := ⟨1970, 1, 1, 0, 0, 0, 0⟩

def afterEpoch (seconds : Nat) : Timestamp :=
  let t := (seconds / 86400).repeat nextDay epoch
  let s := seconds % 86400
  { t with hour := s / 3600, minute := s / 60 % 60, second := s % 60 }

/-! ## Reading -/

abbrev Reader := StateT (List Char) (Except Flaw)

def skipBlanks : Reader Unit := modify (·.dropWhile Char.isWhitespace)

def literal (c : Char) : Reader Unit := do
  skipBlanks
  match ← get with
  | [] => throw .tooShort
  | d :: rest => if d = c then set rest else throw .invalid

def number (width : Nat) : Reader Nat := do
  let cs ← get
  let ds := (cs.take width).takeWhile Char.isDigit
  if cs.isEmpty then throw .tooShort
  match readNat? 10 ds with
  | none => throw .invalid
  | some n => set (cs.drop ds.length); return n

def bounded (low high : Nat) : Reader Nat := do
  skipBlanks
  let n ← number 2
  if low ≤ n ∧ n ≤ high then return n else throw .outOfRange

/-- Takes a year: four digits at most, or a sign and any number of digits. -/
def readYear : Reader Int := do
  skipBlanks
  let cs ← get
  match cs with
  | '-' :: rest => set rest; return -(← number rest.length)
  | '+' :: rest => set rest; return ← number rest.length
  | _ => return ← number 4

/-- Takes the places behind the seconds, of which nine count. -/
def readPlaces : Reader Nat := do
  match ← get with
  | '.' :: rest =>
    set rest
    let before := rest.length
    let n ← number 9
    let width := before - (← get).length
    modify (·.dropWhile Char.isDigit)
    return n * tenTo (9 - width)
  | _ => return 0

/-- Takes an offset from UTC and answers with its minutes. -/
def readOffset : Reader Int := do
  let cs ← get
  match cs with
  | [] => throw .tooShort
  | c :: rest =>
    if c = 'Z' ∨ c = 'z' then
      set rest
      return 0
    else if (String.ofList (cs.take 3)).toLower = "utc" then
      set (cs.drop 3)
      return 0
    else if c = '+' ∨ c = '-' ∨ c = '−' then
      match rest with
      | h₁ :: h₂ :: rest =>
        match readNat? 10 [h₁, h₂] with
        | none => throw .invalid
        | some hours =>
          match rest.dropWhile fun c => c = ':' || c.isWhitespace with
          | m₁ :: m₂ :: rest =>
            match readNat? 10 [m₁, m₂] with
            | none => throw .invalid
            | some minutes =>
              if 59 < minutes then throw .outOfRange
              set rest
              let total : Int := (hours * 60 + minutes : Nat)
              return if c = '+' then total else -total
          | _ => throw .tooShort
      | _ => throw .tooShort
    else throw .invalid

/-- Takes the mark between date and time of day. -/
def separator : Reader Unit := do
  match ← get with
  | [] => throw .notEnough
  | c :: rest => if c = 'T' ∨ c = 't' ∨ c = ' ' then set rest else throw .invalid

def ongoing : Reader Unit := do
  skipBlanks
  if (← get).isEmpty then throw .notEnough

def ending : Reader Unit := do
  skipBlanks
  if ¬ (← get).isEmpty then throw .tooLong

/-- The point in UTC that a clock with an offset shows as `t`, if there is one. -/
def resolve (t : Timestamp) (offset : Int) : Except Flaw Timestamp :=
  if daysIn t.year t.month < t.day ∨ 1440 ≤ offset.natAbs ∨ ¬ isTold t.year then
    .error .outOfRange
  else if isTold (t.behind offset).year then .ok (t.behind offset)
  else .error .impossible

def reader : Reader Timestamp := do
  let year ← readYear
  literal '-'
  let month ← bounded 1 12
  literal '-'
  let day ← bounded 1 31
  separator
  let hour ← bounded 0 23
  literal ':'
  let minute ← bounded 0 59
  literal ':'
  let second ← bounded 0 60
  let nanos ← readPlaces
  ongoing
  let offset ← readOffset
  ending
  resolve ⟨year, month, day, hour, minute, second, nanos⟩ offset

def read (text : String) : Except Flaw Timestamp :=
  reader.run' text.toList

/-! ## Writing -/

def padded (width n : Nat) : List Char :=
  let ds := Nat.toDigits 10 n
  List.replicate (width - ds.length) '0' ++ ds

/-- The year with four digits, or with a sign outside of four digits. -/
def writeYear (year : Int) : List Char :=
  if 0 ≤ year ∧ year ≤ 9999 then padded 4 year.toNat
  else (if year < 0 then '-' else '+') :: padded 4 year.natAbs

def writeSeconds (t : Timestamp) : List Char :=
  writeYear t.year ++ '-' :: padded 2 t.month ++ '-' :: padded 2 t.day ++ 'T' :: padded 2 t.hour ++
    ':' :: padded 2 t.minute ++ ':' :: padded 2 t.second

/-- The fewest of 0, 3, 6 or 9 places that lose nothing. -/
def writePlaces (nanos : Nat) : List Char :=
  if nanos = 0 then []
  else if nanos % 1000000 = 0 then '.' :: padded 3 (nanos / 1000000)
  else if nanos % 1000 = 0 then '.' :: padded 6 (nanos / 1000)
  else '.' :: padded 9 nanos

/-- The whole point in time. -/
def precise (t : Timestamp) : String :=
  .ofList (t.writeSeconds ++ writePlaces t.nanos ++ ['Z'])

/-- The point in time with the places behind the seconds cut away. -/
def toSeconds (t : Timestamp) : String :=
  .ofList (t.writeSeconds ++ ['Z'])

end Timestamp

end ReleaseKeeper
