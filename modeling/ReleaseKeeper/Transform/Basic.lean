import ReleaseKeeper.Manifest.Order
/-!
# Transformers

A transformer (`Transformer`) changes one resource or fails. A pipeline (`TransformPipeline`) passes
every resource of a manifest through its transformers from left to right; the first error ends it,
and then nothing of the manifest is changed.
-/
namespace ReleaseKeeper

structure Transformer where
  name : String
  change : Resource → Except Error Resource

namespace Transformer

def total (name : String) (f : Resource → Resource) : Transformer := ⟨name, fun r => .ok (f r)⟩

def blame (t : Transformer) (r : Resource) : Error → Error
  | e@(.transform ..) => e
  | e => .transform t.name r.describe e.message

/-- `apply`; an error names the transformer and the resource. -/
def apply (t : Transformer) (r : Resource) : Except Error Resource :=
  (t.change r).mapError (t.blame r)

end Transformer

abbrev Pipeline := List Transformer

namespace Pipeline

def apply (p : Pipeline) (r : Resource) : Except Error Resource :=
  p.foldlM (fun r t => t.apply r) r

def run (p : Pipeline) (m : Manifest) : Except Error Manifest := m.mapM p.apply

end Pipeline

end ReleaseKeeper
