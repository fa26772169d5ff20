import ReleaseKeeper.Timestamp
import ReleaseKeeper.Typed.Reader
/-!
# Object metadata

`ObjectMeta` of k8s-openapi, the typed form of an object's `metadata`. Members that are unknown or
null are dropped on reading; members that are absent are left out on writing, so writing and reading
again gives the same metadata.
-/
namespace ReleaseKeeper

structure OwnerReference where
  apiVersion : String := ""
  blockOwnerDeletion : Option Bool := none
  controller : Option Bool := none
  kind : String := ""
  name : String := ""
  uid : String := ""
deriving DecidableEq, Repr, Inhabited

/-- `ManagedFieldsEntry`: which manager set which fields. -/
structure ManagedFields where
  apiVersion : Option String := none
  fieldsType : Option String := none
  fieldsV1 : Option Json := none
  manager : Option String := none
  operation : Option String := none
  subresource : Option String := none
  time : Option Timestamp := none
deriving Repr, Inhabited

/-- `ObjectMeta`. -/
structure Metadata where
  annotations : Option (Dict String) := none
  creationTimestamp : Option Timestamp := none
  deletionGracePeriodSeconds : Option Int := none
  deletionTimestamp : Option Timestamp := none
  finalizers : Option (List String) := none
  generateName : Option String := none
  generation : Option Int := none
  labels : Option (Dict String) := none
  managedFields : Option (List ManagedFields) := none
  name : Option String := none
  namespaceName : Option String := none
  ownerReferences : Option (List OwnerReference) := none
  resourceVersion : Option String := none
  selfLink : Option String := none
  uid : Option String := none
deriving Repr, Inhabited

namespace Typed

/-- `Time`. -/
def Reader.timestamp : Reader Timestamp
  | .str s => (Timestamp.read s).mapError fun flaw => .text flaw.message
  | x => .error (.type x "an RFC 3339 formatted date and time string")

/-- Reads an object as k8s-openapi does, which never takes a list for it. -/
def platformRecord {α : Type} (name : String) (named : Dict Json → Except Fault α) : Reader α
  | .obj fields => named fields
  | x => .error (.type x name)

/-- A field as k8s-openapi reads it: null stands for one that is absent. -/
def known? {α : Type} (fields : Dict Json) (name : String) (read : Reader α) :
    Except Fault (Option α) := do
  return (← field? fields name (Reader.option read)).join

end Typed

open Typed Typed.Reader

def OwnerReference.ofJson : Reader OwnerReference :=
  platformRecord "OwnerReference" fun fields => do
    let apiVersion ← known? fields "apiVersion" text
    let blockOwnerDeletion ← known? fields "blockOwnerDeletion" bool
    let controller ← known? fields "controller" bool
    let kind ← known? fields "kind" text
    let name ← known? fields "name" text
    let uid ← known? fields "uid" text
    return {
      apiVersion := apiVersion.getD "", blockOwnerDeletion, controller, kind := kind.getD ""
      name := name.getD "", uid := uid.getD "" }

def OwnerReference.toJson (r : OwnerReference) : Json := .present [
  ("apiVersion", some (.str r.apiVersion)),
  ("blockOwnerDeletion", r.blockOwnerDeletion.map .bool),
  ("controller", r.controller.map .bool),
  ("kind", some (.str r.kind)),
  ("name", some (.str r.name)),
  ("uid", some (.str r.uid))]

def ManagedFields.ofJson : Reader ManagedFields :=
  platformRecord "ManagedFieldsEntry" fun fields => do
    let apiVersion ← known? fields "apiVersion" text
    let fieldsType ← known? fields "fieldsType" text
    let fieldsV1 ← known? fields "fieldsV1" .ok
    let manager ← known? fields "manager" text
    let operation ← known? fields "operation" text
    let subresource ← known? fields "subresource" text
    let time ← known? fields "time" timestamp
    return { apiVersion, fieldsType, fieldsV1, manager, operation, subresource, time }

def ManagedFields.toJson (m : ManagedFields) : Json := .present [
  ("apiVersion", m.apiVersion.map .str),
  ("fieldsType", m.fieldsType.map .str),
  ("fieldsV1", m.fieldsV1),
  ("manager", m.manager.map .str),
  ("operation", m.operation.map .str),
  ("subresource", m.subresource.map .str),
  ("time", m.time.map fun t => .str t.toSeconds)]

namespace Metadata

def ofJson : Reader Metadata :=
  platformRecord "ObjectMeta" fun fields => do
    let annotations ← known? fields "annotations" (dict text)
    let creationTimestamp ← known? fields "creationTimestamp" timestamp
    let deletionGracePeriodSeconds ← known? fields "deletionGracePeriodSeconds" int64
    let deletionTimestamp ← known? fields "deletionTimestamp" timestamp
    let finalizers ← known? fields "finalizers" (list text)
    let generateName ← known? fields "generateName" text
    let generation ← known? fields "generation" int64
    let labels ← known? fields "labels" (dict text)
    let managedFields ← known? fields "managedFields" (list ManagedFields.ofJson)
    let name ← known? fields "name" text
    let namespaceName ← known? fields "namespace" text
    let ownerReferences ← known? fields "ownerReferences" (list OwnerReference.ofJson)
    let resourceVersion ← known? fields "resourceVersion" text
    let selfLink ← known? fields "selfLink" text
    let uid ← known? fields "uid" text
    return {
      annotations, creationTimestamp, deletionGracePeriodSeconds, deletionTimestamp, finalizers
      generateName, generation, labels, managedFields, name, namespaceName, ownerReferences
      resourceVersion, selfLink, uid }

def toJson (m : Metadata) : Json := .present [
  ("annotations", m.annotations.map .ofTexts),
  ("creationTimestamp", m.creationTimestamp.map fun t => .str t.toSeconds),
  ("deletionGracePeriodSeconds", m.deletionGracePeriodSeconds.map .int),
  ("deletionTimestamp", m.deletionTimestamp.map fun t => .str t.toSeconds),
  ("finalizers", m.finalizers.map fun fs => .arr (fs.map .str)),
  ("generateName", m.generateName.map .str),
  ("generation", m.generation.map .int),
  ("labels", m.labels.map .ofTexts),
  ("managedFields", m.managedFields.map fun ms => .arr (ms.map ManagedFields.toJson)),
  ("name", m.name.map .str),
  ("namespace", m.namespaceName.map .str),
  ("ownerReferences", m.ownerReferences.map fun rs => .arr (rs.map OwnerReference.toJson)),
  ("resourceVersion", m.resourceVersion.map .str),
  ("selfLink", m.selfLink.map .str),
  ("uid", m.uid.map .str)]

/-- The name, else the beginning that a name is to be generated from, else nothing. -/
def anyName (m : Metadata) : String :=
  m.name.getD (m.generateName.getD "")

end Metadata

end ReleaseKeeper
