import ReleaseKeeper.Deployment
import ReleaseKeeper.Manifest.Apply
import ReleaseKeeper.Reconcile.Context
import ReleaseKeeper.Reconcile.Obsolete
import ReleaseKeeper.Transform.Builtin
/-!
# Stages of a pass

A pass takes an instance through a fixed list of stages (`STAGES`), the first error ending it. What
was applied stays; the next pass goes on from there. Where the release cannot be transformed or
applied, or its deployments cannot be looked at, the status is written before the pass fails; where
an obsolete object cannot be deleted it is not. It is written at the end if it is not what was
written last.
-/
namespace ReleaseKeeper

/-- `ReconcileState`: how far a pass has come. -/
structure Pass where
  /-- The instance with what was observed of it in this pass. -/
  subject : Instance
  /-- The release, transformed once that stage is over. -/
  manifest : Manifest
  contributions : Contributions := []
  /-- The status that was written last. -/
  written : Option InstanceStatus

inductive Stage where
  | ensureFinalizer
  | initStatus
  | transform
  | install
  | checkDeployments
  | deleteObsolete
deriving DecidableEq, Repr

namespace Stage

def name : Stage → String
  | ensureFinalizer => "ensure-finalizer"
  | initStatus => "init-status"
  | transform => "transform"
  | install => "install"
  | checkDeployments => "check-deployments"
  | deleteObsolete => "delete-obsolete-resources"

/-- `STAGES`, in order. -/
def all : List Stage :=
  [ensureFinalizer, initStatus, transform, install, checkDeployments, deleteObsolete]

end Stage

namespace Pass

def start (i : Instance) (m : Manifest) : Pass :=
  { subject := i, manifest := m, written := i.status }

def mapStatus (f : InstanceStatus → InstanceStatus) (p : Pass) : Pass :=
  { p with subject := p.subject.mapStatus f }

def isReady (p : Pass) : Bool := p.subject.status.any InstanceStatus.isReady

/-- `status_changed`: the status is not what was written last for this generation. -/
def isUnwritten (p : Pass) : Bool :=
  p.subject.status ≠ p.written ||
    p.written.bind (·.observedGeneration) ≠ p.subject.metadata.generation

/-- `persist_status`. -/
def writeStatus (p : Pass) : Operation Pass := do
  let p := p.mapStatus fun s => { s with observedGeneration := p.subject.metadata.generation }
  Operation.patchStatus p.subject p.subject.currentStatus
  return { p with written := p.subject.status }

/-- `fail_install`: an error kept the release from being applied. -/
def failInstall {α : Type} (now : Timestamp) (e : Error) (p : Pass) : Operation α := do
  let _ ← (p.mapStatus (InstanceStatus.markInstallFailed now e.message)).writeStatus
  throw e

/-- `ensure_finalizer`. -/
def ensureFinalizer (p : Pass) : Operation Pass := do
  if p.subject.hasFinalizer then return p
  Operation.ask (.addFinalizer p.subject.namespaceName p.subject.name Instance.finalizer)
  let subject := p.subject.withFinalizers (p.subject.finalizers ++ [Instance.finalizer])
  return { p with subject }

/-- `init_status`. -/
def initStatus (now : Timestamp) (p : Pass) : Operation Pass := do
  if p.subject.status.any fun s => !s.conditions.isEmpty then return p
  (p.mapStatus (InstanceStatus.complete now)).writeStatus

/-- The release as it is to be installed for the instance. -/
def transformed (p : Pass) : Except Error Manifest := do
  let pipeline ← Pipeline.builtin p.subject
  Pipeline.run (pipeline ++ p.contributions.transformers) p.manifest

/-- `transform`, which looks for platforms first. -/
def transform (ctx : Context) (now : Timestamp) (p : Pass) : Operation Pass := do
  match ← (Platform.detectAll ctx.platforms).outcome with
  | .error e => p.failInstall now e
  | .ok contributions =>
    let p := { p with contributions }
    match p.transformed with
    | .error e => p.failInstall now e
    | .ok manifest => return { p with manifest }

/-- `install`, between the hooks, unless only its deployments are waited for. -/
def install (ctx : Context) (now : Timestamp) (p : Pass) : Operation Pass := do
  if p.subject.status.any InstanceStatus.isDeploying then return p
  if let .error e ← (p.contributions.runBefore p.subject).outcome then
    return ← p.failInstall now e
  match ← ExceptT.lift (Manifest.applyAll p.manifest) with
  | .error f =>
    (p.mapStatus fun s => { s with resources := f.applied }).failInstall now f.toError
  | .ok applied =>
    let p := p.mapStatus fun s => { s with resources := applied }
    if let .error e ← (p.contributions.runAfter p.subject).outcome then
      return ← p.failInstall now e
    return p.mapStatus fun s =>
      InstanceStatus.markInstalled now { s with version := some ctx.version }

/-- `is_available` of the live object; an absent one is not. -/
def isDeploymentAvailable (r : Resource) : Operation Bool := do
  match ← Operation.get r.key with
  | none => return false
  | some live =>
    Deployment.check live
    return Deployment.isAvailable live

def checkEach (now : Timestamp) (p : Pass) : List Resource → Operation Pass
  | [] => return p.mapStatus (InstanceStatus.markAvailable now)
  | r :: rest => do
    match ← (isDeploymentAvailable r).outcome with
    | .error e =>
      let _ ← (p.mapStatus (InstanceStatus.markCheckFailed now e.message)).writeStatus
      throw e
    | .ok false => return p.mapStatus (InstanceStatus.markNotReady now)
    | .ok true => checkEach now p rest

/-- `check_deployments`, up to the first that is not available. -/
def checkDeployments (now : Timestamp) (p : Pass) : Operation Pass :=
  checkEach now p (Manifest.ofKind Deployment.kind p.manifest)

/-- `delete_obsolete_resources`. -/
def deleteObsolete (p : Pass) : Operation Pass := do
  Obsolete.delete p.subject.targetNamespace
  return p

end Pass

def Stage.run (ctx : Context) (now : Timestamp) : Stage → Pass → Operation Pass
  | ensureFinalizer, p => p.ensureFinalizer
  | initStatus, p => p.initStatus now
  | transform, p => p.transform ctx now
  | install, p => p.install ctx now
  | checkDeployments, p => p.checkDeployments now
  | deleteObsolete, p => p.deleteObsolete

end ReleaseKeeper
