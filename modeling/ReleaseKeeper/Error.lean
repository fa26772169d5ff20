/-!
# What can go wrong

An error names the object it is about, so that one line of text tells what failed. Errors that only
a change of the instance or of the release can cure are not worth another try.
-/
namespace ReleaseKeeper

/-- The status that an API server answers a refused request with. -/
structure ServerStatus where
  status : String
  message : String
  reason : String
  code : Nat
deriving DecidableEq, Repr, Inhabited

/-- Why a request to an API server came to nothing. -/
inductive ServerError where
  /-- The server answered with a status instead of an object. -/
  | refused (status : ServerStatus)
  /-- The request could not be made, or its answer could not be read. -/
  | broken (detail : String)
deriving DecidableEq, Repr, Inhabited

def ServerError.message : ServerError → String
  | refused s => s!"ApiError: {s.message}: {s.reason}"
  | broken detail => detail

def ServerError.code? : ServerError → Option Nat
  | refused s => some s.code
  | broken _ => none

inductive Error where
  /-- The API server failed a request. -/
  | server (cause : ServerError)
  /-- An object does not exist. -/
  | notFound (kind name : String)
  /-- A write was rejected because the object changed or exists already. -/
  | conflict (kind name detail : String)
  /-- A kind is not served. -/
  | unknownKind (apiVersion kind : String)
  /-- A value has not the form that its reader asks for. -/
  | malformed (kind : Option String) (detail : String)
  /-- A transformer rejected a resource. -/
  | transform (transformer resource detail : String)
  /-- A resource could not be applied. -/
  | apply (resource detail : String)
  /-- A platform's hook failed. -/
  | hook (platform name detail : String)
  /-- An instance was seen at an older generation than before. -/
  | staleGeneration (key : String) (observed lastSeen : Int)
  /-- A leftover of an older release could not be removed. -/
  | obsoleteCleanup (resource detail : String)
  /-- An instance or a resource is not valid. -/
  | invalid (subject : String) (field : Option String) (detail : String)
  /-- Something else failed. -/
  | internal (context detail : String)
deriving DecidableEq, Repr, Inhabited

namespace Error

/-- The context of an error that none was given for. -/
def noContext : String := "unknown"

def message : Error → String
  | server cause => s!"kubernetes error: {cause.message}"
  | notFound kind name => s!"{kind} {name} not found"
  | conflict kind name detail => s!"conflict on {kind} {name}: {detail}"
  | unknownKind apiVersion kind => s!"kind {kind} is not served for {apiVersion}"
  | malformed _ detail => s!"serialization error: {detail}"
  | transform transformer resource detail =>
    s!"transform {transformer} failed on {resource}: {detail}"
  | apply resource detail => s!"apply of {resource} failed: {detail}"
  | hook platform name detail => s!"{platform} hook {name} failed: {detail}"
  | staleGeneration key observed lastSeen =>
    s!"reconciling obsolete generation of {key}: {observed} < {lastSeen}"
  | obsoleteCleanup resource detail => s!"failed to delete obsolete {resource}: {detail}"
  | invalid subject _ detail => s!"validation error for {subject}: {detail}"
  | internal context detail => s!"internal error [{context}]: {detail}"

def isNotFound : Error → Bool
  | notFound .. => true
  | server (.refused s) => s.code = 404
  | _ => false

def isConflict : Error → Bool
  | conflict .. => true
  | server (.refused s) => s.code = 409
  | _ => false

/-- `is_retryable`: another try may succeed with the same instance and release. -/
def isRetryable : Error → Bool
  | server (.refused s) => ¬ (400 ≤ s.code ∧ s.code < 500 ∧ s.code ≠ 409)
  | malformed .. | transform .. | invalid .. => false
  | _ => true

end Error

end ReleaseKeeper
