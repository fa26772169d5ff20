import ReleaseKeeper.Resource.Basic
/-!
# Kinds of resources that are treated apart

Roles and the bindings to them are those of the access control group only; kinds of equal name in
other groups are ordinary.
-/
namespace ReleaseKeeper.Resource

def accessGroup : String := "rbac.authorization.k8s.io"

/-- `is_role`. -/
def isRole (r : Resource) : Bool :=
  ["Role", "ClusterRole"].contains r.kind && r.group = accessGroup

/-- `is_role_binding`. -/
def isRoleBinding (r : Resource) : Bool :=
  ["RoleBinding", "ClusterRoleBinding"].contains r.kind && r.group = accessGroup

/-- `is_rbac`. -/
def isAccessControl (r : Resource) : Bool := r.isRole || r.isRoleBinding

/-- `is_crd`. -/
def isDefinition (r : Resource) : Bool := r.kind = "CustomResourceDefinition"

def hasKind (kind : String) (r : Resource) : Bool := r.kind = kind

def hasName (kind name : String) (r : Resource) : Bool := r.kind = kind && r.name = name

end ReleaseKeeper.Resource
