import ReleaseKeeper.Transform.Basic
/-!
# The namespace of installed resources

`inject_namespace`. Namespaced resources are moved into the namespace that the release is installed
into. References that have to follow are moved with them: the service accounts that permissions are
granted to, and the services behind webhooks and served APIs.
-/
namespace ReleaseKeeper.Transformer

def moveReference (ns : String) : Json → Json := Json.mapObject (Table.put "namespace" (.str ns))

/-- Moves a subject of a grant if it is a service account. -/
def moveSubject (ns : String) (subject : Json) : Json :=
  if subject.getStr? "kind" = some "ServiceAccount" then moveReference ns subject else subject

/-- Sets the namespace of the service behind a webhook. -/
def moveWebhook (ns : String) : Json → Json
  | .obj members => .obj (Table.adjust "clientConfig"
      (Json.mapObject (Table.adjust "service" (moveReference ns))) members)
  | x => x

/-- Moves the references of a resource that point into the release. -/
def moveReferences (ns : String) (r : Resource) : Resource :=
  if ["ClusterRoleBinding", "RoleBinding"].contains r.kind then
    ⟨Table.adjust "subjects" (Json.mapItems (·.map (moveSubject ns))) r.members⟩
  else if ["MutatingWebhookConfiguration", "ValidatingWebhookConfiguration"].contains r.kind then
    ⟨Table.adjust "webhooks" (Json.mapItems (·.map (moveWebhook ns))) r.members⟩
  else if r.kind = "APIService" then
    ⟨Table.adjust "spec" (Json.mapObject (Table.adjust "service" (moveReference ns))) r.members⟩
  else r

def moveTo (ns : String) (r : Resource) : Resource :=
  moveReferences ns (if r.isClusterScoped then r else r.setNamespace ns)

/-- `inject_namespace`. -/
def inNamespace (ns : String) : Transformer := total "namespace" (moveTo ns)

end ReleaseKeeper.Transformer
