import ReleaseKeeper.Instance.Generation
import ReleaseKeeper.Reconcile.Stage
import ReleaseKeeper.Reconcile.Teardown
/-!
# Reconciling

`reconcile`. A pass brings the cluster to what an instance asks for. An instance that is marked for
deletion is torn down instead. After a pass the operator waits for a change if all is well, and else
for some time.
-/
namespace ReleaseKeeper

def Pass.runEach (ctx : Context) (now : Timestamp) : List Stage → Pass → Operation Pass
  | [], p => return p
  | stage :: rest, p => do runEach ctx now rest (← stage.run ctx now p)

/-- `run_stages`: the status is written at the end if that is still to be done. -/
def Pass.runAll (ctx : Context) (now : Timestamp) (p : Pass) : Operation Pass := do
  let p ← Pass.runEach ctx now Stage.all p
  if p.isUnwritten then p.writeStatus else return p

/-- The pass of an instance that is not marked for deletion. -/
def reconcileLive (ctx : Context) (now : Timestamp) (i : Instance) : Operation Action := do
  let p ← (Pass.start i ctx.manifest).runAll ctx now
  return if p.isReady then .awaitChange else .requeue ctx.requeueSeconds

/-- `reconcile`, with the generations that were seen as its state. -/
def reconcile (ctx : Context) (now : Timestamp) (i : Instance) (seen : Generations) :
    Operation.Steps (Except Error Action × Generations) := do
  if i.isDeleting then
    match ← (Teardown.finalize ctx i).run with
    | .error e => return (.error e, seen)
    | .ok () => return (.ok .awaitChange, seen.forget i.key)
  else
    match seen.observe i.key (i.metadata.generation.getD 0) with
    | .error e => return (.error e, seen)
    | .ok (_, seen) => return (← (reconcileLive ctx now i).run, seen)

end ReleaseKeeper
