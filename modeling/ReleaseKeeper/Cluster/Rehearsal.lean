import ReleaseKeeper.Cluster.Basic
import ReleaseKeeper.Instance.Store
/-!
# Rehearsals

A rehearsal answers the calls of the operator from a cluster and a store of instances in memory. It
keeps a journal of all calls, and outages make chosen calls fail after they were noted. Of several
outages that fit a call the first is used; an outage can be used up.
-/
namespace ReleaseKeeper

/-- Makes calls of a verb fail. -/
structure Outage where
  verb : String
  /-- The only subject whose calls fail; of all subjects if there is none. -/
  subject : Option String := none
  error : Error
  /-- How many more calls fail; all of them if there is no number. -/
  times : Option Nat := none
deriving Repr

/-- A cluster and a store of instances that answer calls. -/
structure Rehearsal where
  cluster : Cluster := {}
  instances : InstanceStore := []
  outages : List Outage := []
  journal : List Call := []
deriving Repr, Inhabited

namespace Outage

def fits (o : Outage) (c : Call) : Bool :=
  o.verb = c.verb && o.subject.all (· = c.subject)

/-- What is left of an outage after a call failed by it. -/
def rest (o : Outage) : List Outage :=
  match o.times with
  | none => [o]
  | some n => if n ≤ 1 then [] else [{ o with times := some (n - 1) }]

/-- The error of the first outage that fits a call, and the outages that are left. -/
def strike (c : Call) : List Outage → Option Error × List Outage
  | [] => (none, [])
  | o :: os =>
    if o.fits c then (some o.error, o.rest ++ os)
    else
      let (error?, left) := strike c os
      (error?, o :: left)

end Outage

namespace Rehearsal

def keepCluster (w : Rehearsal) : Except Error Cluster → Except Error Unit × Rehearsal
  | .ok cluster => (.ok (), { w with cluster })
  | .error e => (.error e, w)

def keepInstances (w : Rehearsal) : Except Error InstanceStore → Except Error Unit × Rehearsal
  | .ok instances => (.ok (), { w with instances })
  | .error e => (.error e, w)

/-- The answer of cluster and store to a call. -/
def perform (w : Rehearsal) : (c : Call) → c.Answer × Rehearsal
  | .get key => (.ok (w.cluster.object? key), w)
  | .create r => w.keepCluster (w.cluster.create r)
  | .update r => w.keepCluster (w.cluster.update r)
  | .delete key => w.keepCluster (w.cluster.delete key)
  | .list apiVersion kind ns => (.ok (w.cluster.list apiVersion kind ns), w)
  | .kindExists apiVersion kind => (.ok (w.cluster.kindExists apiVersion kind), w)
  | .patchStatus ns name status => w.keepInstances (w.instances.patchStatus (ns, name) status)
  | .addFinalizer ns name finalizer =>
    w.keepInstances (w.instances.addFinalizer (ns, name) finalizer)
  | .removeFinalizer ns name finalizer =>
    w.keepInstances (.ok (w.instances.removeFinalizer (ns, name) finalizer))
  | .listInstances => (.ok (w.instances.map (·.2)), w)
  | .getInstance ns name => (.ok (w.instances.lookup (ns, name)), w)
  | .createInstance i => w.keepInstances (.ok (w.instances.put i))
  | .detect _ => (.ok (), w)
  | .hook .. => (.ok (), w)

/-- Notes a call and answers it, unless an outage makes it fail. -/
def answer (c : Call) : StateM Rehearsal c.Answer := fun w =>
  let (error?, outages) := Outage.strike c w.outages
  let w := { w with outages, journal := w.journal ++ [c] }
  match error? with
  | some e => (.error e, w)
  | none => w.perform c

def run {α : Type} (op : Operation α) : StateM Rehearsal (Except Error α) :=
  Program.run answer op.run

end Rehearsal

end ReleaseKeeper
