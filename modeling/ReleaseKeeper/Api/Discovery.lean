import ReleaseKeeper.Api.Answer
import ReleaseKeeper.Resource.Key
import ReleaseKeeper.Typed.Shape
/-!
# Which kinds a server serves

As the `discovery` part of the kube client (0.98) finds the kinds of one group. A server lists its
API groups with their versions, and for each version the kinds with their names in paths. The core
group is listed apart from the others. All versions of a group are asked for before a kind is looked
up in one of them, which is the one asked for.
-/
namespace ReleaseKeeper.Api

open Typed

/-- An `ApiResource` with its `Scope`. -/
structure ServedKind where
  /-- The API group, empty for the core group. -/
  group : String
  apiVersion : String
  kind : String
  /-- The name of the kind in paths. -/
  plural : String
  isNamespaced : Bool
deriving DecidableEq, Repr, Inhabited

def ServedKind.path (k : ServedKind) (namespaceName : Option String) : String :=
  let root := if k.group = "" then "/api" else "/apis"
  let within := match namespaceName with
    | some ns => s!"namespaces/{ns}/"
    | none => ""
  s!"{root}/{k.apiVersion}/{within}{k.plural}"

namespace Discovery

/-! ## Listings -/

def versionShape : Shape := .record "GroupVersionForDiscovery" [
  ("groupVersion", .text), ("version", .text)]

def addressShape : Shape := .record "ServerAddressByClientCIDR" [
  ("clientCIDR", .text), ("serverAddress", .text)]

/-- `APIGroup`. -/
def groupShape : Shape := .record "APIGroup" [
  ("apiVersion", .exactly "v1"), ("kind", .exactly "APIGroup"), ("name", .text),
  ("preferredVersion", versionShape), ("serverAddressByClientCIDRs", .list addressShape),
  ("versions", .list versionShape)]

/-- `APIGroupList`. -/
def groupsShape : Shape := .record "APIGroupList" [
  ("apiVersion", .exactly "v1"), ("groups", .list groupShape), ("kind", .exactly "APIGroupList")]

/-- `APIVersions`. -/
def coreShape : Shape := .record "APIVersions" [
  ("apiVersion", .exactly "v1"), ("kind", .exactly "APIVersions"),
  ("serverAddressByClientCIDRs", .list addressShape), ("versions", .list .text)]

/-- `APIResource`. -/
def kindShape : Shape := .record "APIResource" [
  ("categories", .list .text), ("group", .text), ("kind", .text), ("name", .text),
  ("namespaced", .bool), ("shortNames", .list .text), ("singularName", .text),
  ("storageVersionHash", .text), ("verbs", .list .text), ("version", .text)]

/-- `APIResourceList`. -/
def kindsShape : Shape := .record "APIResourceList" [
  ("apiVersion", .exactly "v1"), ("groupVersion", .text), ("kind", .exactly "APIResourceList"),
  ("resources", .list kindShape)]

def shaped (shape : Shape) : Reader Json := fun x => (shape.check x).map fun _ => x

/-- A string of a listing, nothing standing for one that is absent. -/
def textOf (key : String) (x : Json) : String := (x.getStr? key).getD ""

def listOf (key : String) (x : Json) : List Json := ((x.get? key).bind Json.asArr?).getD []

/-! ## Kinds of a version -/

def joined (group version : String) : String :=
  if group = "" then version else s!"{group}/{version}"

def groupAndVersion (listing : Json) : String × String :=
  let name := textOf "groupVersion" listing
  match Text.cutFirst '/' name.toList with
  | some (group, version) => (.ofList group, .ofList version)
  | none => ("", name)

/-- Whether a listing says that the kind of a name lives in namespaces. -/
def isNamespaced (listing : List Json) (name : String) : Bool :=
  match (listing.find? fun x => textOf "name" x = name).bind (·.get? "namespaced") with
  | some (.bool b) => b
  | _ => false

/-- The kinds of a listing; what has a slash in its name is part of another kind. -/
def kindsOf (listing : Json) : List ServedKind :=
  let (group, version) := groupAndVersion listing
  let entries := listOf "resources" listing
  let whole := entries.filter fun x => !(textOf "name" x).toList.contains '/'
  whole.map fun x => {
    group := (x.getStr? "group").getD group
    apiVersion := joined group version
    kind := textOf "kind" x
    plural := textOf "name" x
    isNamespaced := isNamespaced entries (textOf "name" x) }

/-! ## Groups -/

def ask (shape : Shape) (path : String) : Exchange Json := do
  let request ← Request.to .get path
  fetch (shaped shape) request

/-- Versions of a group with their kinds. -/
abbrev Versions := List (String × List ServedKind)

/-- Asks for the kinds of each version, given with its path. -/
def askVersions (versions : List (String × String)) : Exchange Versions :=
  if versions.isEmpty then throw (.broken "Error from discovery: empty api group")
  else versions.mapM fun (version, path) => return (version, kindsOf (← ask kindsShape path))

/-- Asks for the versions of a group out of the listing of groups. -/
def askGroup (listing : Json) : Exchange Versions :=
  askVersions ((listOf "versions" listing).map fun v =>
    (textOf "version" v, "/apis/" ++ textOf "groupVersion" v))

def askCore : Exchange Versions := do
  let listing ← ask coreShape "/api"
  let versions := (listOf "versions" listing).filterMap Json.asStr?
  askVersions (versions.map fun version => (version, "/api/" ++ version))

/-- Asks for the versions of a group; of several listings of one group the last counts. -/
def versionsOf (group : String) : Exchange Versions := do
  let listing ← ask groupsShape "/apis"
  let groups := (listOf "groups" listing).filter fun g => textOf "name" g = group
  let found ← groups.mapM askGroup
  if group = "" then askCore else return found.getLast?.getD []

/-- The kind of an API version, if it is served. -/
def find (apiVersion kind : String) : Exchange (Option ServedKind) := do
  let (group, version) := groupVersion apiVersion
  let versions ← versionsOf group
  return ((versions.lookup version).getD []).find? fun k => k.kind = kind

end Discovery

end ReleaseKeeper.Api
