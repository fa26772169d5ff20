import ReleaseKeeper.Call
/-!
# A cluster in memory

`FakeCluster`: objects are stored under their keys. Every write gives the object a new version, and
an identity if it has none; creating what exists is a conflict, and changing or deleting what does
not exist is refused. Writes to chosen keys can be made to fail. All writes that went through are
recorded.
-/
namespace ReleaseKeeper

/-- A write that went through. -/
inductive Write where
  | create (key : ResourceKey)
  | update (key : ResourceKey)
  | delete (key : ResourceKey)
deriving DecidableEq, Repr

structure Cluster where
  objects : Table ResourceKey Resource := []
  writes : List Write := []
  /-- API version and kind of what is served even if no object of it exists. -/
  served : List (String × String) := []
  /-- The keys that cannot be written, with what the cluster says. -/
  failures : Table ResourceKey String := []
  /-- The number of writes that made a version. -/
  version : Nat := 0
deriving Repr, Inhabited

namespace Cluster

/-- Stores an object without recording a write. -/
def insert (r : Resource) (c : Cluster) : Cluster :=
  { c with objects := Table.put r.key r c.objects }

def object? (key : ResourceKey) (c : Cluster) : Option Resource := c.objects.lookup key

def allObjects (c : Cluster) : List Resource := c.objects.map (·.2)

/-- `serve_kind`. -/
def serve (apiVersion kind : String) (c : Cluster) : Cluster :=
  { c with served := (apiVersion, kind) :: c.served }

/-- `fail_on`: writes to a key fail from now on. -/
def failOn (key : ResourceKey) (detail : String) (c : Cluster) : Cluster :=
  { c with failures := Table.put key detail c.failures }

def heal (key : ResourceKey) (c : Cluster) : Cluster :=
  { c with failures := Table.drop key c.failures }

def clearWrites (c : Cluster) : Cluster := { c with writes := [] }

def isOf (apiVersion kind : String) (r : Resource) : Bool :=
  r.apiVersion = apiVersion && r.kind = kind

/-- The objects of a kind, of one namespace or of all. -/
def list (apiVersion kind : String) (namespaceName : Option String) (c : Cluster) :
    List Resource :=
  c.allObjects.filter fun r =>
    isOf apiVersion kind r && (namespaceName.isNone || r.namespaceName = namespaceName)

def kindExists (apiVersion kind : String) (c : Cluster) : Bool :=
  c.served.contains (apiVersion, kind) || c.allObjects.any (isOf apiVersion kind)

/-- `check_failure`. -/
def permit (key : ResourceKey) (c : Cluster) : Except Error Unit :=
  match c.failures.lookup key with
  | some detail => .error (.internal "fake-cluster" detail)
  | none => .ok ()

/-- Gives an object a version, and a uid if it has none. -/
def stamp (version : Nat) (r : Resource) : Resource :=
  r.within "metadata" fun metadata =>
    let versioned := Table.put "resourceVersion" (.str (toString version)) metadata
    if (versioned.lookup "uid").isSome then versioned
    else Table.put "uid" (.str s!"uid-{version}") versioned

/-- Stores a new version of an object and records the write. -/
def store (write : Write) (r : Resource) (c : Cluster) : Cluster :=
  { c with
    objects := Table.put r.key (stamp (c.version + 1) r) c.objects
    version := c.version + 1
    writes := c.writes ++ [write] }

def create (r : Resource) (c : Cluster) : Except Error Cluster := do
  c.permit r.key
  if (c.object? r.key).isSome then
    throw (.conflict r.kind r.key.describe "already exists")
  return c.store (.create r.key) r

def update (r : Resource) (c : Cluster) : Except Error Cluster := do
  c.permit r.key
  if (c.object? r.key).isNone then throw (.notFound r.kind r.key.describe)
  return c.store (.update r.key) r

def delete (key : ResourceKey) (c : Cluster) : Except Error Cluster := do
  c.permit key
  if (c.object? key).isNone then throw (.notFound key.kind key.describe)
  return { c with objects := Table.drop key c.objects, writes := c.writes ++ [.delete key] }

end Cluster

end ReleaseKeeper
