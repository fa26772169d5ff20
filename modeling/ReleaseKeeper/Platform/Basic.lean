import ReleaseKeeper.Call
import ReleaseKeeper.Transform.Basic
/-!
# Platforms

A platform (`PlatformExtension`) is looked for in the live cluster on every pass. Where it is found
it contributes transformers, and hooks that run before and after the release is applied. Platforms
are asked, and their contributions used, in the order of registration; the first error ends either.
-/
namespace ReleaseKeeper

/-- `InstallHook`: a side effect around the application of the release. -/
structure Hook where
  name : String
  run : Instance → Operation Unit

/-- `ExtensionBundle`: what a platform contributes where it is found. -/
structure Contribution where
  transformers : List Transformer := []
  before : List Hook := []
  after : List Hook := []

/-- `PlatformExtension`. -/
structure Platform where
  name : String
  /-- Looks for the platform in the cluster. -/
  detect : Operation (Option Contribution)

/-- `Extensions`: the contributions of the platforms that were found, under their names. -/
abbrev Contributions := List (String × Contribution)

namespace Platform

/-- `detect` of the registry. -/
def detectAll : List Platform → Operation Contributions
  | [] => return []
  | p :: rest => do
    match ← p.detect with
    | some c => return (p.name, c) :: (← detectAll rest)
    | none => detectAll rest

end Platform

namespace Contributions

def names (cs : Contributions) : List String := cs.map (·.1)

def transformers (cs : Contributions) : List Transformer := cs.flatMap fun c => c.2.transformers

/-- `run_hooks`; an error names platform and hook. -/
def runHooks (i : Instance) (platform : String) : List Hook → Operation Unit
  | [] => return ()
  | h :: rest => do
    match ← (h.run i).outcome with
    | .error e => throw (.hook platform h.name e.message)
    | .ok () => runHooks i platform rest

/-- `pre_install`. -/
def runBefore (i : Instance) : Contributions → Operation Unit
  | [] => return ()
  | (platform, c) :: rest => do
    runHooks i platform c.before
    runBefore i rest

/-- `post_install`. -/
def runAfter (i : Instance) : Contributions → Operation Unit
  | [] => return ()
  | (platform, c) :: rest => do
    runHooks i platform c.after
    runAfter i rest

end Contributions

end ReleaseKeeper
