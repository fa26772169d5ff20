import ReleaseKeeper.Json.Basic
/-!
# Merging desired members into a live object

`update_changed`. Only members that the desired object has are written; what the server or others
added survives. Objects are merged member by member, except that a member `data` is replaced whole,
so that keys dropped from it disappear. Any other value, lists included, is replaced when it
differs. The merge tells whether it changed anything.
-/
namespace ReleaseKeeper.Json

/-- `REPLACED_WHOLE`, at any depth. -/
def payloadKey : String := "data"

mutual

/-- What becomes of the live value of a member, or nothing if it stays as it is. -/
def mergeMember (key : String) : Json → Option Json → Option Json
  | .obj want, some (.obj live) =>
    if key = payloadKey then
      if sameMembers live want then none else some (.obj want)
    else
      let (changed, merged) := mergeMembers want live
      if changed then some (.obj merged) else none
  | want, some live => if live.same want then none else some want
  | want, none => some want
termination_by structural want => want

/-- `update_changed`. -/
def mergeMembers : List (String × Json) → Dict Json → Bool × Dict Json
  | [], live => (false, live)
  | (key, want) :: rest, live =>
    match mergeMember key want (live.lookup key) with
    | none => mergeMembers rest live
    | some x => (true, (mergeMembers rest (Table.put key x live)).2)
termination_by structural want => want

end

end ReleaseKeeper.Json
