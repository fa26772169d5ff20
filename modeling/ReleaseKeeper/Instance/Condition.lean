import ReleaseKeeper.Metadata
/-!
# Conditions

A condition set (`ConditionSet`) names one summary condition and the dependent conditions that it is
computed from. The summary is never marked directly; every change of a dependent computes it anew:
false with reason and message of the first dependent that is false, else unknown with those of the
first that is unknown or missing, else true. The time of a condition moves only when its status
changes.
-/
namespace ReleaseKeeper

inductive ConditionStatus where
  | true
  | false
  | unknown
deriving DecidableEq, Repr, Inhabited

structure Condition where
  type : String
  status : ConditionStatus
  reason : String := ""
  message : String := ""
  lastTransitionTime : Timestamp
deriving DecidableEq, Repr, Inhabited

open Typed Typed.Reader

namespace ConditionStatus

def name : ConditionStatus → String
  | true => "True"
  | false => "False"
  | unknown => "Unknown"

def ofName : String → Except Fault ConditionStatus
  | "True" => .ok true
  | "False" => .ok false
  | "Unknown" => .ok unknown
  | s => .error (.variant s ["True", "False", "Unknown"])

/-- A status as serde reads one of several names: the name, or an object with nothing under that
name alone. -/
def ofJson : Reader ConditionStatus
  | .str s => ofName s
  | .obj [(s, x)] => do
    let status ← ofName s
    if x.isNull then return status else .error (.type x "unit")
  | .obj members => .error (.value (.obj members) "map with a single key")
  | x => .error (.type x "string or map")

end ConditionStatus

namespace Condition

def ofJson : Reader Condition :=
  record "Condition" 5
    (fun fields => do
      let time ← field? fields "lastTransitionTime" timestamp
      let message ← field? fields "message" text
      let reason ← field? fields "reason" text
      let status ← field? fields "status" ConditionStatus.ofJson
      let type ← field? fields "type" text
      let type ← orMissing "type" type
      let status ← orMissing "status" status
      let lastTransitionTime ← orMissing "lastTransitionTime" time
      return {
        type, status, reason := reason.getD "", message := message.getD "", lastTransitionTime })
    do
      let type ← Listed.next text
      let status ← Listed.next ConditionStatus.ofJson
      let reason ← Listed.nextOr "" text
      let message ← Listed.nextOr "" text
      let lastTransitionTime ← Listed.next timestamp
      return { type, status, reason, message, lastTransitionTime }

def toJson (c : Condition) : Json := .present [
  ("lastTransitionTime", some (.str c.lastTransitionTime.precise)),
  ("message", Json.nonemptyText c.message),
  ("reason", Json.nonemptyText c.reason),
  ("status", some (.str c.status.name)),
  ("type", some (.str c.type))]

end Condition

/-- `get`: of several the first counts. -/
def condition? (type : String) (conditions : List Condition) : Option Condition :=
  conditions.find? fun c => c.type = type

/-- A summary condition and the conditions that it is computed from, in order. -/
structure ConditionSet where
  happy : String
  dependents : List String
deriving Repr

namespace ConditionSet

/-- `upsert`: a missing condition is appended. -/
def upsert (now : Timestamp) (type : String) (status : ConditionStatus) (reason message : String) :
    List Condition → List Condition
  | [] => [{ type, status, reason, message, lastTransitionTime := now }]
  | c :: rest =>
    if c.type = type then
      let time := if c.status = status then c.lastTransitionTime else now
      { c with status, reason, message, lastTransitionTime := time } :: rest
    else c :: upsert now type status reason message rest

/-- What `recompute_happy` makes of the dependents: a status with its reason and message. -/
def summary (conditions : List Condition) : List String → ConditionStatus × String × String
  | [] => (.true, "", "")
  | type :: rest =>
    let later := summary conditions rest
    match condition? type conditions with
    | some c =>
      match c.status with
      | .true => later
      | .false => (.false, c.reason, c.message)
      | .unknown => if later.1 = .false then later else (.unknown, c.reason, c.message)
    | none => if later.1 = .false then later else (.unknown, "", "")

/-- `recompute_happy`. -/
def recompute (set : ConditionSet) (now : Timestamp) (conditions : List Condition) :
    List Condition :=
  let (status, reason, message) := summary conditions set.dependents
  upsert now set.happy status reason message conditions

def ensure (now : Timestamp) (conditions : List Condition) (type : String) : List Condition :=
  match condition? type conditions with
  | some _ => conditions
  | none => conditions ++ [{ type, status := .unknown, lastTransitionTime := now }]

/-- `initialize`: every missing condition is added as unknown. -/
def complete (set : ConditionSet) (now : Timestamp) (conditions : List Condition) :
    List Condition :=
  set.recompute now (set.dependents.foldl (ensure now) conditions)

/-- `set_dependent`, which leaves the summary alone. -/
def mark (set : ConditionSet) (now : Timestamp) (type : String) (status : ConditionStatus)
    (reason message : String) (conditions : List Condition) : List Condition :=
  if type = set.happy then conditions
  else set.recompute now (upsert now type status reason message conditions)

/-- `is_happy`. -/
def isHappy (set : ConditionSet) (conditions : List Condition) : Bool :=
  (condition? set.happy conditions).any fun c => c.status = .true

end ConditionSet

def installSucceeded : String := "InstallSucceeded"

def deploymentsAvailable : String := "DeploymentsAvailable"

/-- `SERVING_CONDITIONS`. -/
def servingConditions : ConditionSet := ⟨"Ready", [installSucceeded, deploymentsAvailable]⟩

end ReleaseKeeper
