import ReleaseKeeper.Resource.Role
/-!
# The order of a release

A manifest lists the resources of a release. They are applied with roles first, then the bindings to
them, then the rest, so that whatever needs a permission finds it granted. They are deleted the
other way round, with roles and bindings kept until nothing else is left.
-/
namespace ReleaseKeeper

abbrev Manifest := List Resource

namespace Manifest

/-- `apply_order`. -/
def applyOrder (m : Manifest) : Manifest :=
  m.filter Resource.isRole ++ m.filter Resource.isRoleBinding ++
    m.filter fun r => !r.isAccessControl

/-- `delete_order`. -/
def deleteOrder (m : Manifest) : Manifest :=
  let reversed := m.applyOrder.reverse
  (reversed.filter fun r => !r.isAccessControl) ++ reversed.filter Resource.isAccessControl

def withoutDefinitions (m : Manifest) : Manifest := m.filter fun r => !r.isDefinition

def ofKind (kind : String) (m : Manifest) : Manifest := m.filter (·.hasKind kind)

end Manifest

end ReleaseKeeper
