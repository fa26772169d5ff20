import ReleaseKeeper.Resource.Basic
import ReleaseKeeper.Typed.Pod
/-!
# Deployments

A deployment runs pods. Of the whole object only its conditions count here (`is_available`), but all
of it has to have the form of a deployment, as k8s-openapi has it, before they are believed.
-/
namespace ReleaseKeeper.Deployment

open Typed

def strategyShape : Shape := .record "DeploymentStrategy" [
  ("rollingUpdate", .record "RollingUpdateDeployment" [
    ("maxSurge", .intOrText), ("maxUnavailable", .intOrText)]),
  ("type", .text)]

def specShape : Shape := .record "DeploymentSpec" [
  ("minReadySeconds", .int32), ("paused", .bool), ("progressDeadlineSeconds", .int32),
  ("replicas", .int32), ("revisionHistoryLimit", .int32), ("selector", Shape.labelSelector),
  ("strategy", strategyShape), ("template", Shape.podTemplate)]

def conditionShape : Shape := .record "DeploymentCondition" [
  ("lastTransitionTime", .timestamp), ("lastUpdateTime", .timestamp), ("message", .text),
  ("reason", .text), ("status", .text), ("type", .text)]

def statusShape : Shape := .record "DeploymentStatus" [
  ("availableReplicas", .int32), ("collisionCount", .int32),
  ("conditions", .list conditionShape), ("observedGeneration", .int64), ("readyReplicas", .int32),
  ("replicas", .int32), ("unavailableReplicas", .int32), ("updatedReplicas", .int32)]

def apiVersion : String := "apps/v1"

def kind : String := "Deployment"

def shape : Shape := .record kind [
  ("apiVersion", .exactly apiVersion), ("kind", .exactly kind), ("metadata", .metadata),
  ("spec", specShape), ("status", statusShape)]

/-- `to_typed`: refuses a resource that has not the form of a deployment. -/
def check (r : Resource) : Except Error Unit :=
  (shape.check r.toJson).mapError (Fault.toErrorFor r.kind)

def conditions (r : Resource) : List Json :=
  ((r.valueAt? ["status", "conditions"]).bind Json.asArr?).getD []

def saysAvailable (condition : Json) : Bool :=
  condition.getStr? "type" = some "Available" && condition.getStr? "status" = some "True"

/-- `is_available`. -/
def isAvailable (r : Resource) : Bool := (conditions r).any saysAvailable

end ReleaseKeeper.Deployment
