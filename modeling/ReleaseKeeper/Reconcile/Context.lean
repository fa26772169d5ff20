import ReleaseKeeper.Platform.Basic
/-!
# What every pass has in common

The fields of `Context`: the release to install, the platforms to look for, the version that is
recorded with an install, and how long to wait for the next pass.
-/
namespace ReleaseKeeper

def releaseVersion : String := "0.13.0"

/-- `DEFAULT_REQUEUE`. -/
def usualRequeueSeconds : Nat := 5

structure Context where
  manifest : Manifest
  platforms : List Platform := []
  version : String := releaseVersion
  requeueSeconds : Nat := usualRequeueSeconds

inductive Action where
  /-- Wait for a change of the instance. -/
  | awaitChange
  /-- Begin another pass after some seconds. -/
  | requeue (seconds : Nat)
deriving DecidableEq, Repr

/-- `error_policy`. -/
def Context.afterError (ctx : Context) : Action := .requeue ctx.requeueSeconds

end ReleaseKeeper
