import ReleaseKeeper.Instance.Basic
import ReleaseKeeper.Program
import ReleaseKeeper.Resource.Basic
/-!
# What the operator asks of its surroundings

The operator reads and writes the objects of the cluster (`ClusterClient`), reads and writes
instances (`KubeClient`), and asks platforms that were declared to it. Each is a call with an answer
or an error. An operation is a program of such calls that ends at the first error nobody handles.
-/
namespace ReleaseKeeper

/-- A request of the operator. -/
inductive Call where
  /-- Fetch an object. -/
  | get (key : ResourceKey)
  /-- Create an object, a conflict if it exists. -/
  | create (object : Resource)
  /-- Replace an object that exists. -/
  | update (object : Resource)
  /-- Delete an object that exists. -/
  | delete (key : ResourceKey)
  /-- List the objects of a kind, of one namespace or of all. -/
  | list (apiVersion kind : String) (namespaceName : Option String)
  /-- Tell whether a kind is served. -/
  | kindExists (apiVersion kind : String)
  /-- Replace the status of an instance. -/
  | patchStatus (namespaceName name : String) (status : InstanceStatus)
  /-- Add a finalizer to an instance, unless it is there. -/
  | addFinalizer (namespaceName name finalizer : String)
  /-- Remove a finalizer from an instance, which may be gone. -/
  | removeFinalizer (namespaceName name finalizer : String)
  /-- List the instances of the cluster. -/
  | listInstances
  /-- Fetch an instance. -/
  | getInstance (namespaceName name : String)
  /-- Create an instance. -/
  | createInstance (i : Instance)
  /-- Look whether a declared platform is there. -/
  | detect (platform : String)
  /-- Run a hook of a declared platform. -/
  | hook (name instanceKey : String)
deriving Repr, Inhabited

namespace Call

abbrev Value : Call → Type
  | get _ => Option Resource
  | create _ | update _ | delete _ => Unit
  | list .. => List Resource
  | kindExists .. => Bool
  | patchStatus .. | addFinalizer .. | removeFinalizer .. => Unit
  | listInstances => List Instance
  | getInstance .. => Option Instance
  | createInstance _ | detect _ | hook .. => Unit

abbrev Answer (c : Call) : Type := Except Error c.Value

def verb : Call → String
  | get _ => "get"
  | create _ => "create"
  | update _ => "update"
  | delete _ => "delete"
  | list .. => "list"
  | kindExists .. => "kind_exists"
  | patchStatus .. => "patch_status"
  | addFinalizer .. => "add_finalizer"
  | removeFinalizer .. => "remove_finalizer"
  | listInstances => "list_instances"
  | getInstance .. => "get_instance"
  | createInstance _ => "create_instance"
  | detect _ => "detect"
  | hook .. => "hook"

def subject : Call → String
  | get key | delete key => key.describe
  | create r | update r => r.describe
  | list apiVersion kind _ | kindExists apiVersion kind => s!"{apiVersion} {kind}"
  | patchStatus ns name _ | addFinalizer ns name _ | removeFinalizer ns name _
  | getInstance ns name => s!"{ns}/{name}"
  | listInstances => ""
  | createInstance i => i.key
  | detect platform => platform
  | hook name instanceKey => s!"{name} {instanceKey}"

def describe (c : Call) : String := s!"{c.verb} {c.subject}"

end Call

/-- A program of calls. -/
abbrev Operation.Steps (α : Type) := Program Call Call.Answer α

/-- A program of calls that may end with an error. -/
abbrev Operation (α : Type) := ExceptT Error (Program Call Call.Answer) α

namespace Operation

def ask (c : Call) : Operation c.Value := ExceptT.mk (Program.ask c)

/-- Looks an object up; `none` if there is none under the key. -/
def get (key : ResourceKey) : Operation (Option Resource) := ask (.get key)

def create (object : Resource) : Operation Unit := ask (.create object)

def update (object : Resource) : Operation Unit := ask (.update object)

def delete (key : ResourceKey) : Operation Unit := ask (.delete key)

def kindExists (apiVersion kind : String) : Operation Bool := ask (.kindExists apiVersion kind)

def patchStatus (i : Instance) (status : InstanceStatus) : Operation Unit :=
  ask (.patchStatus i.namespaceName i.name status)

/-- The outcome of an operation, whose error is handled by who asks. -/
def outcome {α : Type} (op : Operation α) : Operation (Except Error α) :=
  ExceptT.lift op.run

end Operation

end ReleaseKeeper
