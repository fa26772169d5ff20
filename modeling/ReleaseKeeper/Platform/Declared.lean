import ReleaseKeeper.Platform.Basic
/-!
# Declared platforms

A platform can be declared by data. Looking for it and running its hooks are calls, so that whoever
answers them decides whether they fail; its transformers annotate the resources of a kind, or reject
them.
-/
namespace ReleaseKeeper.Platform

/-- A rule for resources of a kind, or of every kind. -/
structure Rule where
  name : String
  kind : Option String := none
  /-- What resources are rejected with, if they are. -/
  rejection : Option Error := none
  key : String := ""
  value : String := ""
deriving Repr

/-- A platform in data. -/
structure Declaration where
  name : String
  isPresent : Bool := true
  rules : List Rule := []
  before : List String := []
  after : List String := []
deriving Repr

def Rule.transformer (rule : Rule) : Transformer where
  name := rule.name
  change r :=
    if rule.kind.any (· ≠ r.kind) then .ok r
    else
      match rule.rejection with
      | some e => .error e
      | none => .ok (r.setAnnotation rule.key rule.value)

/-- A hook that only is called. -/
def calledHook (name : String) : Hook := ⟨name, fun i => Operation.ask (.hook name i.key)⟩

def declared (d : Declaration) : Platform where
  name := d.name
  detect := do
    Operation.ask (.detect d.name)
    if ¬ d.isPresent then return none
    return some {
      transformers := d.rules.map Rule.transformer
      before := d.before.map calledHook
      after := d.after.map calledHook }

end ReleaseKeeper.Platform
