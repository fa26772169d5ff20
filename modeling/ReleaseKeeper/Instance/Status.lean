import ReleaseKeeper.Instance.Condition
import ReleaseKeeper.Resource.Key
/-!
# What was observed of an instance

The status of an instance (`KnativeServingStatus`) lists its conditions, the resources that were
applied last, the version that was installed last, and the generation that all this was found for.
-/
namespace ReleaseKeeper

open Typed Typed.Reader

def Reference.ofJson : Reader Reference :=
  record "ResourceRef" 5
    (fun fields => do
      let group ← field? fields "group" text
      let kind ← field? fields "kind" text
      let name ← field? fields "name" text
      let namespaceName ← field? fields "namespace" (option text)
      let version ← field? fields "version" text
      let version ← orMissing "version" version
      let kind ← orMissing "kind" kind
      let name ← orMissing "name" name
      return { group := group.getD "", version, kind, namespaceName := namespaceName.join, name })
    do
      let group ← Listed.nextOr "" text
      let version ← Listed.next text
      let kind ← Listed.next text
      let namespaceName ← Listed.nextOr none (option text)
      let name ← Listed.next text
      return { group, version, kind, namespaceName, name }

def Reference.toJson (r : Reference) : Json := .present [
  ("group", some (.str r.group)),
  ("kind", some (.str r.kind)),
  ("name", some (.str r.name)),
  ("namespace", r.namespaceName.map .str),
  ("version", some (.str r.version))]

/-- `KnativeServingStatus`. -/
structure InstanceStatus where
  version : Option String := none
  resources : List Reference := []
  conditions : List Condition := []
  observedGeneration : Option Int := none
deriving DecidableEq, Repr, Inhabited

namespace InstanceStatus

def ofJson : Reader InstanceStatus :=
  record "KnativeServingStatus" 4
    (fun fields => do
      let conditions ← field? fields "conditions" (list Condition.ofJson)
      let observedGeneration ← field? fields "observedGeneration" (option int64)
      let resources ← field? fields "resources" (list Reference.ofJson)
      let version ← field? fields "version" (option text)
      return {
        version := version.join, resources := resources.getD []
        conditions := conditions.getD [], observedGeneration := observedGeneration.join })
    do
      let version ← Listed.nextOr none (option text)
      let resources ← Listed.nextOr [] (list Reference.ofJson)
      let conditions ← Listed.nextOr [] (list Condition.ofJson)
      let observedGeneration ← Listed.nextOr none (option int64)
      return { version, resources, conditions, observedGeneration }

def toJson (s : InstanceStatus) : Json := .present [
  ("conditions", some (.arr (s.conditions.map Condition.toJson))),
  ("observedGeneration", s.observedGeneration.map .int),
  ("resources", Json.nonemptyList s.resources Reference.toJson),
  ("version", s.version.map .str)]

def condition? (s : InstanceStatus) (type : String) : Option Condition :=
  ReleaseKeeper.condition? type s.conditions

def holds (s : InstanceStatus) (type : String) : Bool :=
  (s.condition? type).any fun c => c.status = .true

def isReady (s : InstanceStatus) : Bool := s.holds servingConditions.happy

def isInstalled (s : InstanceStatus) : Bool := s.holds installSucceeded

def isAvailable (s : InstanceStatus) : Bool := s.holds deploymentsAvailable

/-- `is_deploying`: installed, and not yet available. -/
def isDeploying (s : InstanceStatus) : Bool := s.isInstalled && !s.isAvailable

/-- `initialize_conditions`. -/
def complete (now : Timestamp) (s : InstanceStatus) : InstanceStatus :=
  { s with conditions := servingConditions.complete now s.conditions }

def mark (now : Timestamp) (type : String) (status : ConditionStatus) (reason message : String)
    (s : InstanceStatus) : InstanceStatus :=
  { s with conditions := servingConditions.mark now type status reason message s.conditions }

/-- `mark_install_succeeded`. -/
def markInstalled (now : Timestamp) : InstanceStatus → InstanceStatus :=
  mark now installSucceeded .true "" ""

/-- `mark_install_failed`. -/
def markInstallFailed (now : Timestamp) (detail : String) : InstanceStatus → InstanceStatus :=
  mark now installSucceeded .false "Error" s!"Install failed with message: {detail}"

/-- `mark_deployments_available`. -/
def markAvailable (now : Timestamp) : InstanceStatus → InstanceStatus :=
  mark now deploymentsAvailable .true "" ""

/-- `mark_deployments_not_ready`. -/
def markNotReady (now : Timestamp) : InstanceStatus → InstanceStatus :=
  mark now deploymentsAvailable .false "NotReady" "Waiting on deployments"

/-- `mark_deployments_check_failed`. -/
def markCheckFailed (now : Timestamp) (detail : String) : InstanceStatus → InstanceStatus :=
  mark now deploymentsAvailable .false "NotReady" detail

end InstanceStatus

end ReleaseKeeper
