import ReleaseKeeper.Error
import ReleaseKeeper.Json.Pointer
import ReleaseKeeper.Resource.Key
/-!
# Resources

A resource (`Resource`) is an object of the cluster held as JSON, so that members nobody here knows
about are kept as they are. Its identity is read from its members. What changes a resource changes
one member and leaves the others alone.
-/
namespace ReleaseKeeper

structure Resource where
  members : Dict Json
deriving Repr, Inhabited

namespace Resource

instance : BEq Resource := ⟨fun a b => Json.sameMembers a.members b.members⟩

def valueAt? (r : Resource) (path : List String) : Option Json :=
  path.foldlM (fun x key => x.get? key) (Json.obj r.members)

def textAt? (r : Resource) (path : List String) : Option String :=
  (r.valueAt? path).bind Json.asStr?

/-- `string_map_at`: the members of another type are left out. -/
def textsAt (r : Resource) (path : List String) : Dict String :=
  (((r.valueAt? path).bind Json.asObj?).map Json.texts).getD []

def apiVersion (r : Resource) : String := (r.textAt? ["apiVersion"]).getD ""

def kind (r : Resource) : String := (r.textAt? ["kind"]).getD ""

def name (r : Resource) : String := (r.textAt? ["metadata", "name"]).getD ""

/-- The namespace, which counts as absent when it is empty. -/
def namespaceName (r : Resource) : Option String :=
  (r.textAt? ["metadata", "namespace"]).filter (· ≠ "")

def group (r : Resource) : String := (groupVersion r.apiVersion).1

def version (r : Resource) : String := (groupVersion r.apiVersion).2

def key (r : Resource) : ResourceKey := ⟨r.apiVersion, r.kind, r.namespaceName, r.name⟩

/-- `to_ref`: the identity as a status lists it. -/
def reference (r : Resource) : Reference := {
  group := r.group, version := r.version, kind := r.kind, namespaceName := r.namespaceName
  name := r.name }

def describe (r : Resource) : String := r.key.describe

/-- Whether the kind lives outside of any namespace. -/
def isClusterScoped (r : Resource) : Bool := clusterScopedKinds.contains r.kind

/-- `from_value`, which asks for API version, kind and name. -/
def ofJson : Json → Except Error Resource
  | .obj members =>
    let r : Resource := ⟨members⟩
    if r.apiVersion = "" ∨ r.kind = "" then
      .error (.malformed none "resource is missing apiVersion or kind")
    else if r.name = "" then
      .error (.malformed (some r.kind) "resource is missing metadata.name")
    else .ok r
  | _ => .error (.malformed none "resource is not a JSON object")

def toJson (r : Resource) : Json := .obj r.members

def annotations (r : Resource) : Dict String := r.textsAt ["metadata", "annotations"]

def annotation? (r : Resource) (key : String) : Option String :=
  r.textAt? ["metadata", "annotations", key]

def labels (r : Resource) : Dict String := r.textsAt ["metadata", "labels"]

def data (r : Resource) : Dict String := r.textsAt ["data"]

def spec? (r : Resource) : Option (Dict Json) := (r.valueAt? ["spec"]).bind Json.asObj?

def podSpec? (r : Resource) : Option (Dict Json) :=
  (r.valueAt? ["spec", "template", "spec"]).bind Json.asObj?

/-- `pointer`; escapes in the first segment stand for themselves. -/
def pointer? (r : Resource) (path : String) : Option Json :=
  match path.toList with
  | '/' :: rest =>
    match Text.cutFirst '/' rest with
    | some (head, tail) =>
      (r.members.lookup (.ofList head)).bind (·.pointer? (.ofList ('/' :: tail)))
    | none => r.members.lookup (.ofList rest)
  | _ => none

def put (key : String) (x : Json) (r : Resource) : Resource := ⟨Table.put key x r.members⟩

def erase (key : String) (r : Resource) : Resource := ⟨Table.drop key r.members⟩

/-- `object_field`: the object under a key is created when it is missing or no object. -/
def within (key : String) (f : Dict Json → Dict Json) (r : Resource) : Resource :=
  ⟨Json.withObject key f r.members⟩

def putMetadata (key : String) (x : Json) : Resource → Resource :=
  within "metadata" (Table.put key x)

def setNamespace (namespaceName : String) : Resource → Resource :=
  putMetadata "namespace" (.str namespaceName)

/-- `set_annotation`, which keeps the others. -/
def setAnnotation (key value : String) : Resource → Resource :=
  within "metadata" (Json.withObject "annotations" (Table.put key (.str value)))

/-- `pod_spec_mut`: the pod of a workload, if it is an object. -/
def mapPodSpec (f : Dict Json → Dict Json) (r : Resource) : Resource :=
  let inner := Json.mapObject (Table.adjust "spec" (Json.mapObject f))
  let outer := Json.mapObject (Table.adjust "template" inner)
  ⟨Table.adjust "spec" outer r.members⟩

/-- `containers_mut`: those containers of a workload that are objects. -/
def mapContainers (f : Dict Json → Dict Json) : Resource → Resource :=
  mapPodSpec (Table.adjust "containers" (Json.mapItems (·.map (Json.mapObject f))))

/-- Changes the first container of a workload that is an object. -/
def mapFirstContainer (f : Dict Json → Dict Json) : Resource → Resource :=
  mapPodSpec (Table.adjust "containers" (Json.mapItems onFirst))
where
  onFirst : List Json → List Json
    | [] => []
    | .obj members :: rest => .obj (f members) :: rest
    | x :: rest => x :: onFirst rest

end Resource

end ReleaseKeeper
