import ReleaseKeeper.Decimal.Numeral
import ReleaseKeeper.Instance.Basic
import ReleaseKeeper.LogFormat
import ReleaseKeeper.Reconcile.Context
import ReleaseKeeper.Text.Cut
/-!
# The command line

The options of `Cli`, read as clap (4) reads them. They may stand before or behind the command;
behind it they win. What is not given is taken from the environment, and else has a default. An
option is given once on either side. Its value is checked only when something follows that has a
meaning of its own, or at the end, so that an argument nobody knows is reported before a bad value
in front of it.
-/
namespace ReleaseKeeper.CommandLine

/-- `Commands`: what the program is asked to do. -/
inductive Command where
  | controller
  | crd
deriving DecidableEq, Repr

/-- Why a command line is not followed. -/
inductive Refusal where
  | unknownArgument
  | unknownCommand
  /-- A value is missing or empty. -/
  | missingValue
  /-- A value has not the form that it should have. -/
  | badValue
  | repeated
  /-- A flag was given a value. -/
  | surplusValue
  | help
  | version
deriving DecidableEq, Repr

inductive Setting where
  | manifestPath
  | operandNamespace
  | operandName
  | logFormat
  | requeueSeconds
deriving DecidableEq, Repr

structure Given where
  manifestPath : Option String := none
  isRecursive : Bool := false
  operandNamespace : Option String := none
  operandName : Option String := none
  logFormat : Option LogFormat := none
  requeueSeconds : Option Nat := none
deriving DecidableEq, Repr, Inhabited

/-- `OperatorConfig`: the command line as it is to be followed. -/
structure Settings where
  command : Option Command
  manifestPath : Option String
  isRecursive : Bool
  operandNamespace : String
  operandName : String
  logFormat : LogFormat
  requeueSeconds : Nat
deriving DecidableEq, Repr

def Command.name : Command → String
  | controller => "controller"
  | crd => "crd"

def Command.ofName? (name : String) : Option Command := [controller, crd].find? (·.name = name)

def Setting.ofName? : String → Option Setting
  | "manifest-path" => some manifestPath
  | "operand-namespace" => some operandNamespace
  | "operand-name" => some operandName
  | "log-format" => some logFormat
  | "requeue-seconds" => some requeueSeconds
  | _ => none

/-! ## Values -/

def readPath (value : String) : Except Refusal String :=
  if value = "" then .error .missingValue else .ok value

def readFormat (value : String) : Except Refusal LogFormat :=
  (LogFormat.ofName value).mapError fun _ => .badValue

def readSeconds (value : String) : Except Refusal Nat :=
  match value.toList with
  | '-' :: _ => .error .badValue
  | cs =>
    match readInt? 10 0 18446744073709551615 cs with
    | some n => .ok n.toNat
    | none => .error .badValue

/-- Fails if there is a value already. -/
def once {α : Type} (given : Option α) : Except Refusal Unit :=
  if given.isSome then .error .repeated else .ok ()

def Given.set (g : Given) (value : String) : Setting → Except Refusal Given
  | .manifestPath => do
    once g.manifestPath
    return { g with manifestPath := some (← readPath value) }
  | .operandNamespace => do
    once g.operandNamespace
    return { g with operandNamespace := some value }
  | .operandName => do
    once g.operandName
    return { g with operandName := some value }
  | .logFormat => do
    once g.logFormat
    return { g with logFormat := some (← readFormat value) }
  | .requeueSeconds => do
    once g.requeueSeconds
    return { g with requeueSeconds := some (← readSeconds value) }

/-! ## Arguments -/

structure Side where
  given : Given := {}
  /-- An option whose value is still to be read or checked. -/
  pending : Option (Setting × Option String) := none

namespace Side

/-- Checks the value of the last option. -/
def settle (s : Side) : Except Refusal Side :=
  match s.pending with
  | none => .ok s
  | some (_, none) => .error .missingValue
  | some (setting, some value) => do return { given := ← s.given.set value setting }

def wantsValue (s : Side) : Bool := s.pending.any fun p => p.2.isNone

/-- Takes the value of the last option. -/
def take (value : String) (s : Side) : Side :=
  { s with pending := s.pending.map fun p => (p.1, some value) }

end Side

/-- Reads an argument behind two dashes. -/
def readLong (isFirstSide : Bool) (body : List Char) (s : Side) : Except Refusal Side := do
  let (name, value?) := match Text.cutFirst '=' body with
    | some (name, value) => (String.ofList name, some (String.ofList value))
    | none => (String.ofList body, none)
  match Setting.ofName? name with
  | some setting =>
    let s ← s.settle
    match value? with
    | some value => return { given := ← s.given.set value setting }
    | none => return { s with pending := some (setting, none) }
  | none =>
    let isVersion := isFirstSide && name = "version"
    if ¬ (name = "recursive" ∨ name = "help" ∨ isVersion) then throw .unknownArgument
    if value?.isSome then throw .surplusValue
    let s ← s.settle
    if name = "help" then throw .help
    if isVersion then throw .version
    if s.given.isRecursive then throw .repeated
    return { s with given := { s.given with isRecursive := true } }

/-- Reads an argument behind one dash, of which the first letter decides. -/
def readShort (isFirstSide : Bool) (letter : Char) (s : Side) : Except Refusal Side := do
  if letter = 'h' then
    let _ ← s.settle
    throw .help
  if isFirstSide ∧ letter = 'V' then
    let _ ← s.settle
    throw .version
  throw .unknownArgument

/-- Refuses what a request for help is about, unless it is a command. -/
def readHelp : List String → Refusal
  | [] => .help
  | [name] => if name = "help" ∨ (Command.ofName? name).isSome then .help else .unknownCommand
  | _ => .unknownCommand

/-- Reads an argument that is neither an option nor a command. -/
def readOther (isFirstSide isLiteral : Bool) (arg : String) : Refusal :=
  let isCommand := arg = "help" || (Command.ofName? arg).isSome
  if isFirstSide && !(isLiteral && isCommand) then .unknownCommand else .unknownArgument

/-- Reads the arguments on one side of the command, up to a command on the first side. -/
def readSide (isFirstSide : Bool) :
    List String → Side → Except Refusal (Side × Option (Command × List String))
  | [], s => .ok (s, none)
  | arg :: rest, s => do
    if isFirstSide ∧ ¬ s.wantsValue then
      if arg = "help" then throw (readHelp rest)
      if let some command := Command.ofName? arg then return (s, some (command, rest))
    match arg.toList with
    | ['-', '-'] =>
      match rest with
      | [] => return (s, none)
      | other :: _ => throw (readOther isFirstSide true other)
    | '-' :: '-' :: body => readSide isFirstSide rest (← readLong isFirstSide body s)
    | '-' :: letter :: _ => readSide isFirstSide rest (← readShort isFirstSide letter s)
    | _ =>
      if s.wantsValue then readSide isFirstSide rest (s.take arg)
      else throw (readOther isFirstSide false arg)

/-! ## The environment -/

def environmentNames : List (Setting × String) :=
  [(.manifestPath, "MANIFEST_PATH"), (.logFormat, "LOG_FORMAT")]

def Given.has (g : Given) : Setting → Bool
  | .manifestPath => g.manifestPath.isSome
  | .operandNamespace => g.operandNamespace.isSome
  | .operandName => g.operandName.isSome
  | .logFormat => g.logFormat.isSome
  | .requeueSeconds => g.requeueSeconds.isSome

/-- What the environment says about options that are not given. -/
def fromEnvironment (environment : Dict String) (g : Given) : Except Refusal Given :=
  environmentNames.foldlM (fun found (setting, name) =>
    match environment.lookup name with
    | some value => if g.has setting then .ok found else found.set value setting
    | none => .ok found) {}

def Given.orElse (g h : Given) : Given where
  manifestPath := g.manifestPath <|> h.manifestPath
  isRecursive := g.isRecursive || h.isRecursive
  operandNamespace := g.operandNamespace <|> h.operandNamespace
  operandName := g.operandName <|> h.operandName
  logFormat := g.logFormat <|> h.logFormat
  requeueSeconds := g.requeueSeconds <|> h.requeueSeconds

/-- Checks what is left of a side, and looks into the environment. -/
def finishSide (environment : Dict String) (s : Side) : Except Refusal (Given × Given) := do
  let s ← s.settle
  return (s.given, ← fromEnvironment environment s.given)

def readSecond (environment : Dict String) : Option (Command × List String) → Except Refusal Given
  | none => .ok {}
  | some (_, rest) => do
    let (s, _) ← readSide false rest {}
    return (← finishSide environment s).1

def read (environment : Dict String) (args : List String) : Except Refusal Settings := do
  let (first, command?) ← readSide true args {}
  let second ← readSecond environment command?
  let (given, found) ← finishSide environment first
  let g := second.orElse (given.orElse found)
  return {
    command := command?.map (·.1), manifestPath := g.manifestPath, isRecursive := g.isRecursive
    operandNamespace := g.operandNamespace.getD Instance.defaultNamespace
    operandName := g.operandName.getD "knative-serving"
    logFormat := g.logFormat.getD .json
    requeueSeconds := g.requeueSeconds.getD usualRequeueSeconds }

/-! ## Where the manifest is -/

def missingManifest : String :=
  "no manifest path: pass --manifest-path or set MANIFEST_PATH or KO_DATA_PATH"

/-- `from_cli`: the path of the manifest is the one given, else the one in the directory of the
image's data. -/
def manifestPath? (s : Settings) (dataPath : Option String) : Option String :=
  match s.manifestPath, dataPath.filter (· ≠ "") with
  | some path, _ => some path
  | none, some data =>
    some (if data.endsWith "/" then data ++ "knative-serving" else data ++ "/knative-serving")
  | none, none => none

end ReleaseKeeper.CommandLine
