import ReleaseKeeper.Json.Basic
/-!
# Merge patches

How an API server changes a stored value by a body of type `application/merge-patch+json`. The
members of a patch are merged into those of the value one after another: a member that is null drops
the one of its key, and any other is merged into it. What a patch leaves out stays as it is, and what
is no object is replaced.
-/
namespace ReleaseKeeper.Json

mutual

def patch : Json → Json → Json
  | .obj changes, target => .obj (patchMembers changes (target.asObj?.getD []))
  | change, _ => change
termination_by structural change => change

def patchMembers : List (String × Json) → Dict Json → Dict Json
  | [], target => target
  | (key, change) :: rest, target =>
    if change.isNull then patchMembers rest (Table.drop key target)
    else
      patchMembers rest (Table.put key (patch change ((target.lookup key).getD .null)) target)
termination_by structural change => change

end

end ReleaseKeeper.Json
