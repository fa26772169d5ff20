import ReleaseKeeper.Error
import ReleaseKeeper.Table
/-!
# Generations

Every change of a spec gives an instance a greater generation. What was seen last is kept for each
instance (`GenerationTracker`), and an older generation is refused, so that a pass that comes late
cannot bring an older spec back.
-/
namespace ReleaseKeeper

inductive GenerationChange where
  | creation
  | edit
  | resync
deriving DecidableEq, Repr

def GenerationChange.name : GenerationChange → String
  | creation => "creation"
  | edit => "edit"
  | resync => "resync"

/-- `GenerationTracker`: the generation seen last under the key of each instance. -/
abbrev Generations := Dict Int

namespace Generations

/-- `last_seen`. -/
def last? (key : String) (seen : Generations) : Option Int := seen.lookup key

def compare (key : String) (generation : Int) : Option Int → Except Error GenerationChange
  | none => .ok (if generation ≤ 1 then .creation else .edit)
  | some last =>
    if generation < last then .error (.staleGeneration key generation last)
    else .ok (if generation = last then .resync else .edit)

/-- `observe`: an older generation is refused and not kept. -/
def observe (key : String) (generation : Int) (seen : Generations) :
    Except Error (GenerationChange × Generations) := do
  let change ← compare key generation (last? key seen)
  return (change, Table.put key generation seen)

/-- `forget`. -/
def forget (key : String) (seen : Generations) : Generations := Table.drop key seen

end Generations

end ReleaseKeeper
