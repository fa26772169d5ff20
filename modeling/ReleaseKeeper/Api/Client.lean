import ReleaseKeeper.Api.Instances
import ReleaseKeeper.Api.Objects
import ReleaseKeeper.Call
/-!
# Calls answered by an API server

Each call of the operator is answered by a program of requests, so every operation becomes a program
of requests as a whole.
-/
namespace ReleaseKeeper.Api.Client

def ofInstances {α : Type} (e : Exchange α) : Client α := exchange .server e

/-- Answers a call by requests. Declared platforms need none. -/
def perform : (c : Call) → Client c.Value
  | .get key => getObject key
  | .create r => createObject r
  | .update r => updateObject r
  | .delete key => deleteObject key
  | .list apiVersion kind namespaceName => listObjects apiVersion kind namespaceName
  | .kindExists apiVersion kind => do return (← find apiVersion kind).isSome
  | .patchStatus ns name status => ofInstances (Instances.patchStatus ns name status)
  | .addFinalizer ns name finalizer => ofInstances (Instances.addFinalizer ns name finalizer)
  | .removeFinalizer ns name finalizer => ofInstances (Instances.removeFinalizer ns name finalizer)
  | .listInstances => ofInstances Instances.list
  | .getInstance ns name => ofInstances (Instances.get? ns name)
  | .createInstance i => ofInstances (Instances.create i)
  | .detect _ => return ()
  | .hook .. => return ()

def answer (c : Call) : StateT KnownKinds (Program Request fun _ => Response) c.Answer :=
  (perform c).run

/-- An operation as a program of requests. -/
def ofOperation {α : Type} (op : Operation α) : Client α :=
  ExceptT.mk (Program.interpret answer op.run)

end ReleaseKeeper.Api.Client
