import ReleaseKeeper.Proofs.Cluster.Applied
import ReleaseKeeper.Proofs.Program.Interleaving
import ReleaseKeeper.Reconcile.Startup

/-!
# Several operators start at once

Operators that start at once share a server, which refuses with a conflict to create what is there and
to replace what has another version (`Serves`). Each of them goes through phases, and its calls are the
steps from phase to phase (`Phase.moves`), so what one step keeps (`Moves.fits`) is kept by any
interleaving (`phases_of_run`): objects and instances that are there stay, and only namespaces of the
release and the default instance are added (`ensureDefault_among_others`).

A conflict about the instance is no failure, but one about a namespace is. So an operator fails whose
namespace was created or changed by another one since it looked (`not_every_start_succeeds`). Not all
of them fail: what was looked up and is still there is not refused (`Moves.fresh`), and whoever changes
an object goes on to look up the next, so someone's look-up is always fresh.
-/
namespace ReleaseKeeper.Startup

open Operation
open Program (Interleaved Move movesOf)

/-- What a server stores. -/
structure Server where
  objects : ResourceKey → Option Resource
  /-- The instances under namespace and name. -/
  instances : String × String → Option Instance

namespace Server

def put (s : Server) (key : ResourceKey) (x : Resource) : Server :=
  { s with objects := Function.update s.objects key (some x) }

def putInstance (s : Server) (identity : String × String) (i : Instance) : Server :=
  { s with instances := Function.update s.instances identity (some i) }

/-- Every object is stored under its own key. -/
def Filed (s : Server) : Prop := ∀ key x, s.objects key = some x → x.key = key

end Server

/-- The version that an object has, or that is asked to be replaced. -/
def versionOf (r : Resource) : Option String := r.textAt? ["metadata", "resourceVersion"]

/-- How a server answers: it refuses to create what is there and to replace what has another version,
with a conflict. It fails in no other way, but that it cannot replace what is missing, which no operator
comes to (`Moves.fits`). What it makes of an object that it stores is up to it. -/
inductive Serves : Program.World Call Call.Answer Server
  | found (s : Server) (key : ResourceKey) : Serves s (.get key) (.ok (s.objects key)) s
  | created {s : Server} {r x : Resource} (absent : s.objects r.key = none) (filed : x.key = r.key) :
      Serves s (.create r) (.ok ()) (s.put r.key x)
  | taken {s : Server} {r : Resource} {e : Error} (there : s.objects r.key ≠ none)
      (conflict : e.isConflict = true) : Serves s (.create r) (.error e) s
  | replaced {s : Server} {r old x : Resource} (there : s.objects r.key = some old)
      (current : ∀ v ∈ versionOf r, versionOf old = some v) (filed : x.key = r.key) :
      Serves s (.update r) (.ok ()) (s.put r.key x)
  | changed {s : Server} {r old : Resource} {v : String} {e : Error}
      (there : s.objects r.key = some old) (desired : versionOf r = some v)
      (stale : versionOf old ≠ some v) (conflict : e.isConflict = true) :
      Serves s (.update r) (.error e) s
  | missing {s : Server} {r : Resource} {e : Error} (absent : s.objects r.key = none) :
      Serves s (.update r) (.error e) s
  | instanceFound (s : Server) (ns name : String) :
      Serves s (.getInstance ns name) (.ok (s.instances (ns, name))) s
  | instanceCreated {s : Server} {i stored : Instance} (absent : s.instances i.identity = none)
      (filed : stored.identity = i.identity) :
      Serves s (.createInstance i) (.ok ()) (s.putInstance i.identity stored)
  | instanceTaken {s : Server} {i : Instance} {e : Error} (there : s.instances i.identity ≠ none)
      (conflict : e.isConflict = true) : Serves s (.createInstance i) (.error e) s

/-! ## The phases of a start -/

/-- How far an operator got. -/
inductive Phase where
  /-- It is to look for the instance. -/
  | looking
  /-- It is to apply some namespaces and to create the instance then. -/
  | applying (rest : List Resource)
  /-- It found no object for the namespace and is to create it. -/
  | creating (r : Resource) (rest : List Resource)
  /-- It found an object for the namespace and is to replace it. -/
  | replacing (r live : Resource) (rest : List Resource)
  | ended (x : Except Error Unit)

/-- Applies some namespaces and creates the instance then. -/
def onwards (ns name : String) (rest : List Resource) : Operation.Steps (Except Error Unit) :=
  (applyEach rest >>= fun _ => createDefault ns name).run

/-- Goes on unless a write was refused. -/
def unlessRefused (next : Operation.Steps (Except Error Unit)) :
    Except Error Unit → Operation.Steps (Except Error Unit)
  | .ok _ => next
  | .error e => .done (.error e)

/-- What is left to do in a phase. -/
def Phase.program (m : Manifest) (ns name : String) : Phase → Operation.Steps (Except Error Unit)
  | looking => (ensureDefault m ns name).run
  | applying rest => onwards ns name rest
  | creating r rest => .call (.create r.tag) (unlessRefused (onwards ns name rest))
  | replacing r live rest =>
    .call (.update (r.mergeInto live).2) (unlessRefused (onwards ns name rest))
  | ended x => .done x

variable {m : Manifest} {ns name : String} {r live : Resource} {rest : List Resource}

theorem moveTo_of_namespace (ns : String) (h : r.kind = "Namespace") :
    Transformer.moveTo ns r = r := by
  have hscope : r.isClusterScoped = true := by
    rw [Resource.isClusterScoped, h]
    decide
  rw [Transformer.moveTo, if_pos hscope, Transformer.moveReferences, h]
  rfl

/-- Namespaces are not moved. -/
theorem namespaces_eq (m : Manifest) (ns : String) :
    namespaces m ns = .ok (Manifest.ofKind "Namespace" m) := by
  have hmove : namespaces m ns = .ok ((Manifest.ofKind "Namespace" m).map (Transformer.moveTo ns)) :=
    List.mapM_pure
  have hkind : ∀ r ∈ Manifest.ofKind "Namespace" m, r.kind = "Namespace" := fun r hr => by
    simpa [Manifest.ofKind, Resource.hasKind] using (List.mem_filter.1 hr).2
  rw [hmove, List.map_congr_left fun r hr => moveTo_of_namespace ns (hkind r hr), List.map_id']

theorem looking_program : (ensureDefault m ns name).run =
    .call (.getInstance ns name) fun
      | .ok none => onwards ns name (Manifest.ofKind "Namespace" m)
      | .ok (some _) => .done (.ok ())
      | .error e => .done (.error e) := by
  refine congrArg (Program.call _) (funext fun a => ?_)
  obtain e | i? := a
  · rfl
  · cases i? with
    | none =>
      change (liftM (namespaces m ns) >>= fun rs => applyEach rs >>= fun _ =>
        createDefault ns name : Operation Unit).run = onwards ns name (Manifest.ofKind "Namespace" m)
      rw [namespaces_eq]
      rfl
    | some i => rfl

theorem onwards_nil : onwards ns name [] =
    .call (.createInstance (defaultInstance ns name)) fun
      | .ok _ => .done (.ok ())
      | .error e => .done (if e.isConflict then .ok () else .error e) := by
  refine congrArg (Program.call _) (funext fun a => ?_)
  cases a with
  | ok _ => rfl
  | error e =>
    change ExceptT.run (if e.isConflict = true then pure () else throw e) =
      Program.done (if e.isConflict = true then Except.ok () else Except.error e)
    cases e.isConflict <;> rfl

theorem onwards_cons : onwards ns name (r :: rest) =
    .call (.get r.key) fun
      | .ok none => (Phase.creating r rest).program m ns name
      | .ok (some live) =>
        if (r.mergeInto live).1 then (Phase.replacing r live rest).program m ns name
        else onwards ns name rest
      | .error e => .done (.error e) := by
  refine congrArg (Program.call _) (funext fun a => ?_)
  obtain e | live? := a
  · rfl
  · cases live? with
    | none =>
      refine congrArg (Program.call _) (funext fun a => ?_)
      cases a <;> rfl
    | some live =>
      change Program.bind (Program.bind (ExceptT.run (if (r.mergeInto live).1 = true then
          (do Operation.update (r.mergeInto live).2; return Manifest.Applied.updated)
          else return Manifest.Applied.unchanged)) _) _ =
        if (r.mergeInto live).1 = true then
          Program.call (.update (r.mergeInto live).2) (unlessRefused (onwards ns name rest))
        else onwards ns name rest
      cases (r.mergeInto live).1 with
      | false => rfl
      | true =>
        refine congrArg (Program.call _) (funext fun a => ?_)
        cases a <;> rfl

/-! ## What one step can do -/

/-- The steps of an operator from phase to phase, each with what it does to the server. -/
inductive Moves (m : Manifest) (ns name : String) :
    Phase → Move Call Call.Answer Server → Phase → Prop
  | instanceThere {s : Server} {i : Instance} (found : s.instances (ns, name) = some i) :
      Moves m ns name .looking ⟨.getInstance ns name, .ok (some i), s, s⟩ (.ended (.ok ()))
  | instanceAbsent {s : Server} (found : s.instances (ns, name) = none) :
      Moves m ns name .looking ⟨.getInstance ns name, .ok none, s, s⟩
        (.applying (Manifest.ofKind "Namespace" m))
  | absent {s : Server} {r : Resource} {rest : List Resource} (found : s.objects r.key = none) :
      Moves m ns name (.applying (r :: rest)) ⟨.get r.key, .ok none, s, s⟩ (.creating r rest)
  | differs {s : Server} {r live : Resource} {rest : List Resource}
      (found : s.objects r.key = some live) :
      Moves m ns name (.applying (r :: rest)) ⟨.get r.key, .ok (some live), s, s⟩
        (.replacing r live rest)
  | settled {s : Server} {r live : Resource} {rest : List Resource}
      (found : s.objects r.key = some live) :
      Moves m ns name (.applying (r :: rest)) ⟨.get r.key, .ok (some live), s, s⟩ (.applying rest)
  | created {s : Server} {r x : Resource} {rest : List Resource} (absent : s.objects r.key = none)
      (filed : x.key = r.key) :
      Moves m ns name (.creating r rest) ⟨.create r.tag, .ok (), s, s.put r.key x⟩ (.applying rest)
  | taken {s : Server} {r : Resource} {rest : List Resource} {e : Error}
      (there : s.objects r.key ≠ none) (conflict : e.isConflict = true) :
      Moves m ns name (.creating r rest) ⟨.create r.tag, .error e, s, s⟩ (.ended (.error e))
  | replaced {s : Server} {r live old x : Resource} {rest : List Resource}
      (there : s.objects (r.mergeInto live).2.key = some old)
      (current : ∀ v ∈ versionOf (r.mergeInto live).2, versionOf old = some v)
      (filed : x.key = (r.mergeInto live).2.key) :
      Moves m ns name (.replacing r live rest)
        ⟨.update (r.mergeInto live).2, .ok (), s, s.put (r.mergeInto live).2.key x⟩ (.applying rest)
  | changed {s : Server} {r live old : Resource} {rest : List Resource} {e : Error}
      (there : s.objects (r.mergeInto live).2.key = some old)
      (stale : versionOf old ≠ versionOf (r.mergeInto live).2) (conflict : e.isConflict = true) :
      Moves m ns name (.replacing r live rest)
        ⟨.update (r.mergeInto live).2, .error e, s, s⟩ (.ended (.error e))
  | missing {s : Server} {r live : Resource} {rest : List Resource} {e : Error}
      (absent : s.objects (r.mergeInto live).2.key = none) :
      Moves m ns name (.replacing r live rest)
        ⟨.update (r.mergeInto live).2, .error e, s, s⟩ (.ended (.error e))
  | instanceCreated {s : Server} {i : Instance} (absent : s.instances (ns, name) = none) :
      Moves m ns name (.applying [])
        ⟨.createInstance (defaultInstance ns name), .ok (), s, s.putInstance (ns, name) i⟩
        (.ended (.ok ()))
  | instanceTaken {s : Server} {e : Error} (there : s.instances (ns, name) ≠ none) :
      Moves m ns name (.applying [])
        ⟨.createInstance (defaultInstance ns name), .error e, s, s⟩ (.ended (.ok ()))

/-- **Every call of an operator is one of its steps.** -/
theorem Phase.moves {phase : Phase} {c : Call}
    {next : c.Answer → Operation.Steps (Except Error Unit)} {a : c.Answer} {s s' : Server}
    (turn : phase.program m ns name = .call c next) (answered : Serves s c a s') :
    ∃ phase', next a = phase'.program m ns name ∧ Moves m ns name phase ⟨c, a, s, s'⟩ phase' := by
  cases phase with
  | looking =>
    rw [program, looking_program] at turn
    obtain ⟨rfl, hnext⟩ := Program.call.inj turn
    obtain rfl := eq_of_heq hnext
    cases answered with
    | instanceFound =>
      cases hfound : s.instances (ns, name) with
      | none => exact ⟨_, rfl, .instanceAbsent hfound⟩
      | some i => exact ⟨.ended (.ok ()), rfl, .instanceThere hfound⟩
  | applying rest =>
    cases rest with
    | nil =>
      rw [program, onwards_nil] at turn
      obtain ⟨rfl, hnext⟩ := Program.call.inj turn
      obtain rfl := eq_of_heq hnext
      cases answered with
      | instanceCreated absent => exact ⟨.ended (.ok ()), rfl, .instanceCreated absent⟩
      | instanceTaken there conflict =>
        refine ⟨.ended (.ok ()), ?_, .instanceTaken there⟩
        dsimp only
        rw [if_pos conflict]
        rfl
    | cons r rest =>
      rw [program, onwards_cons (m := m)] at turn
      obtain ⟨rfl, hnext⟩ := Program.call.inj turn
      obtain rfl := eq_of_heq hnext
      cases answered with
      | found =>
        cases hfound : s.objects r.key with
        | none => exact ⟨_, rfl, .absent hfound⟩
        | some live =>
          dsimp only
          split
          · exact ⟨_, rfl, .differs hfound⟩
          · exact ⟨.applying rest, rfl, .settled hfound⟩
  | creating r rest =>
    obtain ⟨rfl, hnext⟩ := Program.call.inj turn
    obtain rfl := eq_of_heq hnext
    cases answered with
    | created absent filed =>
      rw [Resource.key_tag] at absent filed ⊢
      exact ⟨.applying rest, rfl, .created absent filed⟩
    | taken there conflict =>
      rw [Resource.key_tag] at there
      exact ⟨.ended _, rfl, .taken there conflict⟩
  | replacing r live rest =>
    obtain ⟨rfl, hnext⟩ := Program.call.inj turn
    obtain rfl := eq_of_heq hnext
    cases answered with
    | replaced there current filed => exact ⟨.applying rest, rfl, .replaced there current filed⟩
    | changed there desired stale conflict =>
      exact ⟨.ended _, rfl, .changed there (desired ▸ stale) conflict⟩
    | missing absent => exact ⟨.ended _, rfl, .missing absent⟩
  | ended x => cases turn

theorem Phase.eq_ended {phase : Phase} {x : Except Error Unit}
    (h : phase.program m ns name = .done x) : phase = .ended x := by
  cases phase with
  | looking =>
    rw [program, looking_program] at h
    cases h
  | applying rest =>
    cases rest with
    | nil =>
      rw [program, onwards_nil] at h
      cases h
    | cons r rest =>
      rw [program, onwards_cons (m := m)] at h
      cases h
  | creating r rest => cases h
  | replacing r live rest => cases h
  | ended y => exact congrArg ended (Program.done.inj h)

/-! ## What changes on the server -/

/-- What operators make of a server: nothing goes away, no instance changes, and beside the namespaces
of the release and the default instance nothing is new. -/
structure Grown (m : Manifest) (ns name : String) (s s' : Server) : Prop where
  filed : s.Filed → s'.Filed
  present : ∀ key, s.objects key ≠ none → s'.objects key ≠ none
  objects : ∀ key, key ∉ (Manifest.ofKind "Namespace" m).map Resource.key →
    s'.objects key = s.objects key
  instances : ∀ identity i, s.instances identity = some i → s'.instances identity = some i
  others : ∀ identity, identity ≠ (ns, name) → s'.instances identity = s.instances identity

namespace Grown

variable {s s' s'' : Server}

theorem refl (s : Server) : Grown m ns name s s :=
  ⟨id, fun _ => id, fun _ _ => rfl, fun _ _ => id, fun _ _ => rfl⟩

theorem trans (h : Grown m ns name s s') (h' : Grown m ns name s' s'') : Grown m ns name s s'' where
  filed := h'.filed ∘ h.filed
  present key := h'.present key ∘ h.present key
  objects key hkey := (h'.objects key hkey).trans (h.objects key hkey)
  instances identity i := h'.instances identity i ∘ h.instances identity i
  others identity hne := (h'.others identity hne).trans (h.others identity hne)

theorem put {x : Resource} (hr : r ∈ Manifest.ofKind "Namespace" m) (hx : x.key = r.key) :
    Grown m ns name s (s.put r.key x) where
  filed hs key y hy := by
    obtain rfl | hne := eq_or_ne key r.key
    · obtain rfl : x = y := by simpa [Server.put] using hy
      exact hx
    · exact hs key y (by simpa [Server.put, hne] using hy)
  present key hkey := by
    obtain rfl | hne := eq_or_ne key r.key
    · simp [Server.put]
    · simpa [Server.put, hne] using hkey
  objects key hkey := by
    have hne : key ≠ r.key := fun heq => hkey (heq ▸ List.mem_map_of_mem hr)
    simp [Server.put, hne]
  instances _ _ := id
  others _ _ := rfl

theorem putInstance {i : Instance} (absent : s.instances (ns, name) = none) :
    Grown m ns name s (s.putInstance (ns, name) i) where
  filed := id
  present _ := id
  objects _ _ := rfl
  instances identity j hj := by
    have hne : identity ≠ (ns, name) := by
      rintro rfl
      rw [absent] at hj
      cases hj
    simpa [Server.putInstance, hne] using hj
  others identity hne := by simp [Server.putInstance, hne]

end Grown

/-! ## What holds in each phase -/

namespace Phase

/-- What holds of a phase and the server: there are namespaces of the release to be applied, the object
that one of them is merged into is of its key and does not go away, and who is done without a conflict
leaves the instance. -/
def Fits (m : Manifest) (ns name : String) (s : Server) : Phase → Prop
  | looking => True
  | applying rest => ∀ r ∈ rest, r ∈ Manifest.ofKind "Namespace" m
  | creating r rest => ∀ r' ∈ r :: rest, r' ∈ Manifest.ofKind "Namespace" m
  | replacing r live rest => (∀ r' ∈ r :: rest, r' ∈ Manifest.ofKind "Namespace" m) ∧
      live.key = r.key ∧ s.objects r.key ≠ none
  | ended (.ok _) => s.instances (ns, name) ≠ none
  | ended (.error e) => e.isConflict = true

/-- What was looked up last is still there as it was found, and no conflict ended the phase. -/
def Fresh (s : Server) : Phase → Prop
  | creating r _ => s.objects r.key = none
  | replacing r live _ => s.objects r.key = some live
  | ended (.error _) => False
  | _ => True

variable {phase phase' : Phase} {s s' : Server}

theorem Fits.mono (h : phase.Fits m ns name s) (hgrown : Grown m ns name s s') :
    phase.Fits m ns name s' := by
  cases phase with
  | replacing r live rest => exact ⟨h.1, h.2.1, hgrown.present _ h.2.2⟩
  | ended x =>
    cases x with
    | error e => exact h
    | ok _ =>
      obtain ⟨i, hi⟩ := Option.ne_none_iff_exists'.1 h
      have hkept := hgrown.instances _ _ hi
      exact fun hnone => Option.some_ne_none i (hkept.symm.trans hnone)
  | _ => exact h

theorem Fresh.congr (h : phase.Fresh s) (hobjects : s'.objects = s.objects) : phase.Fresh s' := by
  cases phase with
  | creating r rest => exact (congrFun hobjects _).trans h
  | replacing r live rest => exact (congrFun hobjects _).trans h
  | ended x =>
    cases x with
    | error e => exact h
    | ok _ => trivial
  | _ => trivial

end Phase

/-- A write of a namespace that the server refused: there is an object where none is to be, or one of
another version than the one that is to be replaced. -/
inductive Refused (m : Manifest) : Move Call Call.Answer Server → Error → Prop
  | create {s : Server} {r : Resource} {e : Error} (stands : r ∈ Manifest.ofKind "Namespace" m)
      (there : s.objects r.key ≠ none) : Refused m ⟨.create r.tag, .error e, s, s⟩ e
  | update {s : Server} {r live old : Resource} {e : Error}
      (stands : r ∈ Manifest.ofKind "Namespace" m) (there : s.objects r.key = some old)
      (stale : versionOf old ≠ versionOf (r.mergeInto live).2) :
      Refused m ⟨.update (r.mergeInto live).2, .error e, s, s⟩ e

section
variable {phase phase' : Phase} {mv : Move Call Call.Answer Server}
  (hm : ∀ r ∈ Manifest.ofKind "Namespace" m, r.Proper)
include hm

theorem key_of_fits {s : Server} (h : (Phase.replacing r live rest).Fits m ns name s) :
    (r.mergeInto live).2.key = r.key := by
  have hr := hm r (h.1 r List.mem_cons_self)
  exact Resource.key_mergeInto hr.ordered hr.name_ne h.2.1

/-- **What one step keeps.** -/
theorem Moves.fits (h : Moves m ns name phase mv phase') (hs : mv.before.Filed)
    (hfits : phase.Fits m ns name mv.before) :
    Grown m ns name mv.before mv.after ∧ phase'.Fits m ns name mv.after := by
  cases h with
  | instanceThere found => exact ⟨.refl _, by rw [Phase.Fits, found]; exact Option.some_ne_none _⟩
  | instanceAbsent => exact ⟨.refl _, fun _ => id⟩
  | absent => exact ⟨.refl _, hfits⟩
  | differs found =>
    exact ⟨.refl _, hfits, hs _ _ found, by rw [found]; exact Option.some_ne_none _⟩
  | settled => exact ⟨.refl _, fun r' hr' => hfits r' (List.mem_cons_of_mem _ hr')⟩
  | created absent filed =>
    obtain ⟨hr, hrest⟩ := List.forall_mem_cons.1 hfits
    exact ⟨.put hr filed, hrest⟩
  | taken there conflict => exact ⟨.refl _, conflict⟩
  | replaced _ _ filed =>
    obtain ⟨hr, hrest⟩ := List.forall_mem_cons.1 hfits.1
    rw [key_of_fits hm hfits] at filed ⊢
    exact ⟨.put hr filed, hrest⟩
  | changed there stale conflict => exact ⟨.refl _, conflict⟩
  | missing absent =>
    rw [key_of_fits hm hfits] at absent
    exact absurd absent hfits.2.2
  | instanceCreated absent => exact ⟨.putInstance absent, by simp [Phase.Fits, Server.putInstance]⟩
  | instanceTaken there => exact ⟨.refl _, there⟩

/-- An operator fails with the refusal of a write of a namespace. -/
theorem Moves.refused {e : Error} (h : Moves m ns name phase mv (.ended (.error e)))
    (hfits : phase.Fits m ns name mv.before) : Refused m mv e := by
  generalize hend : Phase.ended (.error e) = phase' at h
  cases h with
  | taken there =>
    cases hend
    exact .create (hfits _ List.mem_cons_self) there
  | changed there stale =>
    cases hend
    rw [key_of_fits hm hfits] at there
    exact .update (hfits.1 _ List.mem_cons_self) there stale
  | missing absent =>
    rw [key_of_fits hm hfits] at absent
    exact absurd absent hfits.2.2
  | _ => cases hend

/-- A namespace without a version is merged into an object without changing its version. -/
theorem versionOf_mergeInto {s : Server} (h : (Phase.replacing r live rest).Fits m ns name s)
    (hversion : r.valueAt? ["metadata", "resourceVersion"] = none) :
    versionOf (r.mergeInto live).2 = versionOf live := by
  have hr := hm r (h.1 r List.mem_cons_self)
  have hnone : r.metadata.lookup "resourceVersion" = none := by
    rw [← Resource.valueAt?_metadata (Resource.lookup_metadata hr.name_ne)]
    exact hversion
  rw [versionOf, versionOf, Resource.textAt?_metadata, Resource.textAt?_metadata]
  change ((r.mergeInto live).2.metadata.lookup _).bind _ = (live.metadata.lookup _).bind _
  rw [Resource.metadata_mergeInto hr.ordered hr.name_ne h.2.1,
    Json.text_merged (Table.keys_nodup hr.ordered.metadata), hnone]

/-- **What was looked up and is still there is not refused.** -/
theorem Moves.fresh
    (hversions : ∀ r ∈ Manifest.ofKind "Namespace" m, r.valueAt? ["metadata", "resourceVersion"] = none)
    (h : Moves m ns name phase mv phase') (hfits : phase.Fits m ns name mv.before)
    (hfresh : phase.Fresh mv.before) : phase'.Fresh mv.after := by
  cases h with
  | absent found => exact found
  | differs found => exact found
  | taken there => exact absurd hfresh there
  | changed there stale =>
    rw [key_of_fits hm hfits, show _ = some _ from hfresh] at there
    obtain rfl := Option.some.inj there
    exact absurd (versionOf_mergeInto hm hfits (hversions _ (hfits.1 _ List.mem_cons_self))).symm stale
  | missing absent =>
    rw [key_of_fits hm hfits] at absent
    exact absurd absent hfits.2.2
  | _ => trivial

omit hm in
/-- A step that changes an object goes on to what is to be looked up next. -/
theorem Moves.objects_eq_or_fresh (h : Moves m ns name phase mv phase') :
    mv.after.objects = mv.before.objects ∨ phase'.Fresh mv.after := by
  cases h with
  | created => exact .inr trivial
  | replaced => exact .inr trivial
  | _ => exact .inl rfl

/-! ## Any number of operators -/

/-- Nobody but the operators changes anything. -/
def nobody : Empty → Server → Server → Prop := fun l _ _ => nomatch l

/-- **What all steps keep.** From phase to phase the server grows, everyone fits it, and who fails was
refused a write. As long as the namespaces come without versions, someone is fresh. -/
theorem phases_of_run {ι : Type} [DecidableEq ι] {ps qs : ι → Operation.Steps (Except Error Unit)}
    {s s' : Server} {h : List (Program.Event ι Call Call.Answer Empty Server)}
    (hrun : Interleaved Serves nobody ps s h qs s') (phases : ι → Phase)
    (hps : ∀ j, ps j = (phases j).program m ns name) (hs : s.Filed)
    (hfits : ∀ j, (phases j).Fits m ns name s) : ∃ phases' : ι → Phase,
      (∀ j, qs j = (phases' j).program m ns name) ∧ Grown m ns name s s' ∧
      (∀ j, (phases' j).Fits m ns name s') ∧
      (∀ j e, phases' j = .ended (.error e) →
        phases j = .ended (.error e) ∨ ∃ mv ∈ movesOf j h, Refused m mv e) ∧
      ((∀ r ∈ Manifest.ofKind "Namespace" m, r.valueAt? ["metadata", "resourceVersion"] = none) →
        (∃ j, (phases j).Fresh s) → ∃ j, (phases' j).Fresh s') := by
  induction hrun generalizing phases with
  | rest ps s => exact ⟨phases, hps, .refl s, hfits, fun _ _ => .inl, fun _ => id⟩
  | foreign changed => exact nomatch changed
  | @own ps qs j c next a s s₁ s' h turn answered later ih =>
    obtain ⟨phase', hnext, hmove⟩ := Phase.moves ((hps j).symm.trans turn) answered
    obtain ⟨hgrown, hphase'⟩ := hmove.fits hm hs (hfits j)
    have hps' : ∀ k, Function.update ps j (next a) k =
        (Function.update phases j phase' k).program m ns name := by
      intro k
      obtain rfl | hne := eq_or_ne k j
      · rw [Function.update_self, Function.update_self, hnext]
      · rw [Function.update_of_ne hne, Function.update_of_ne hne, hps]
    have hfits' : ∀ k, (Function.update phases j phase' k).Fits m ns name s₁ := by
      intro k
      obtain rfl | hne := eq_or_ne k j
      · rwa [Function.update_self]
      · rw [Function.update_of_ne hne]
        exact (hfits k).mono hgrown
    obtain ⟨phases', hqs, hlater, hlast, hfailed, hfresh⟩ := ih _ hps' (hgrown.filed hs) hfits'
    refine ⟨phases', hqs, hgrown.trans hlater, hlast, fun k e hk => ?_, fun hversions hsome => ?_⟩
    · obtain hended | ⟨mv, hmv, hrefused⟩ := hfailed k e hk
      · obtain rfl | hne := eq_or_ne k j
        · rw [Function.update_self] at hended
          subst hended
          refine .inr ⟨_, ?_, hmove.refused hm (hfits k)⟩
          rw [Program.movesOf_own]
          exact List.mem_cons_self
        · rw [Function.update_of_ne hne] at hended
          exact .inl hended
      · exact .inr ⟨mv, (List.sublist_cons_self _ h).filterMap _ |>.subset hmv, hrefused⟩
    · refine hfresh hversions ?_
      obtain ⟨k, hk⟩ := hsome
      obtain rfl | hne := eq_or_ne k j
      · exact ⟨k, by rw [Function.update_self]; exact hmove.fresh hm hversions (hfits k) hk⟩
      · -- the one that was fresh still is, unless the step changed an object
        obtain hsame | hnew := hmove.objects_eq_or_fresh
        · exact ⟨k, by rw [Function.update_of_ne hne]; exact hk.congr hsame⟩
        · exact ⟨j, by rwa [Function.update_self]⟩

end

/-- Where the instance is there from the beginning, operators find it and change nothing. -/
theorem found_by_all {ι : Type} [DecidableEq ι] {ps qs : ι → Operation.Steps (Except Error Unit)}
    {s s' : Server} {h : List (Program.Event ι Call Call.Answer Empty Server)}
    (hrun : Interleaved Serves nobody ps s h qs s') (hthere : s.instances (ns, name) ≠ none)
    (hps : ∀ j, ps j = (ensureDefault m ns name).run ∨ ps j = .done (.ok ())) :
    s' = s ∧ ∀ j, qs j = (ensureDefault m ns name).run ∨ qs j = .done (.ok ()) := by
  induction hrun with
  | rest ps s => exact ⟨rfl, hps⟩
  | foreign changed => exact nomatch changed
  | @own ps qs j c next a s s₁ s' h turn answered later ih =>
    obtain hlooking | hdone := hps j
    · rw [hlooking, looking_program] at turn
      obtain ⟨rfl, hnext⟩ := Program.call.inj turn
      obtain rfl := eq_of_heq hnext
      cases answered with
      | instanceFound =>
        obtain ⟨i, hi⟩ := Option.ne_none_iff_exists'.1 hthere
        refine ih hthere fun k => ?_
        obtain rfl | hne := eq_or_ne k j
        · rw [Function.update_self, hi]
          exact .inr rfl
        · rw [Function.update_of_ne hne]
          exact hps k
    · rw [hdone] at turn
      cases turn

/-- **Several operators that start at once** leave all that is there, add nothing but the namespaces of
the release and the default instance, and come to the instance or to a conflict. It is a conflict only
if the server refused the operator's write of a namespace, so not all of them fail: once all are done,
one has found or made the instance. -/
theorem ensureDefault_among_others {ι : Type} [DecidableEq ι]
    {qs : ι → Operation.Steps (Except Error Unit)} {s s' : Server}
    {h : List (Program.Event ι Call Call.Answer Empty Server)}
    (hm : ∀ r ∈ Manifest.ofKind "Namespace" m, r.Proper) (hs : s.Filed)
    (hrun : Interleaved Serves nobody (fun _ => (ensureDefault m ns name).run) s h qs s') :
    (∀ identity i, s.instances identity = some i → s'.instances identity = some i) ∧
    (∀ identity, identity ≠ (ns, name) → s'.instances identity = s.instances identity) ∧
    (∀ key, key ∉ (Manifest.ofKind "Namespace" m).map Resource.key →
      s'.objects key = s.objects key) ∧
    (∀ j x, qs j = .done x → (x = .ok () ∧ s'.instances (ns, name) ≠ none) ∨
      ∃ e, x = .error e ∧ e.isConflict = true ∧ ∃ mv ∈ movesOf j h, Refused m mv e) ∧
    ((∀ r ∈ Manifest.ofKind "Namespace" m, r.valueAt? ["metadata", "resourceVersion"] = none) →
      Nonempty ι → (∀ j, ∃ x, qs j = .done x) →
      (∃ j, qs j = .done (.ok ())) ∧ s'.instances (ns, name) ≠ none) ∧
    (s.instances (ns, name) ≠ none → s' = s ∧ ∀ j x, qs j = .done x → x = .ok ()) := by
  obtain ⟨phases, hqs, hgrown, hfits, hfailed, hfresh⟩ := phases_of_run hm hrun
    (fun _ => .looking) (fun _ => rfl) hs fun _ => trivial
  have hended : ∀ j x, qs j = .done x → phases j = .ended x := fun j x hj =>
    Phase.eq_ended ((hqs j).symm.trans hj)
  refine ⟨hgrown.instances, hgrown.others, hgrown.objects, fun j x hj => ?_,
    fun hversions hsome hdone => ?_, fun hthere => ?_⟩
  · have hphase := hfits j
    rw [hended j x hj] at hphase
    cases x with
    | ok _ => exact .inl ⟨rfl, hphase⟩
    | error e =>
      obtain ⟨⟨⟩⟩ | hrefused := hfailed j e (hended j _ hj)
      exact .inr ⟨e, rfl, hphase, hrefused⟩
  · obtain ⟨j, hj⟩ := hfresh hversions (hsome.elim fun j => ⟨j, trivial⟩)
    obtain ⟨x, hx⟩ := hdone j
    have hphase := hfits j
    rw [hended j x hx] at hj hphase
    cases x with
    | error e => exact hj.elim
    | ok _ => exact ⟨⟨j, hx⟩, hphase⟩
  · obtain ⟨hsame, hends⟩ := found_by_all hrun hthere fun _ => .inl rfl
    refine ⟨hsame, fun j x hj => ?_⟩
    obtain hlooking | hdone := hends j
    · rw [hj, looking_program] at hlooking
      cases hlooking
    · exact Program.done.inj (hj.symm.trans hdone)

def operand : Resource := ⟨[("apiVersion", .str "v1"), ("kind", .str "Namespace"),
  ("metadata", .obj [("name", .str "serving")])]⟩

def empty : Server := ⟨fun _ => none, fun _ => none⟩

/-- Two operators look, find nothing, and look for the namespace before either has created it. -/
theorem race : ∃ (h : List (Program.Event Bool Call Call.Answer Empty Server))
    (qs : Bool → Operation.Steps (Except Error Unit)) (s' : Server),
    Interleaved Serves nobody (fun _ => (ensureDefault [operand] "serving" "serving").run) empty h
      qs s' ∧
    qs false = .done (.ok ()) ∧
    qs true = .done (.error (.conflict "Namespace" "Namespace serving" "already exists")) := by
  have hkind : Manifest.ofKind "Namespace" [operand] = [operand] := rfl
  have hnext := @onwards_cons [operand] "serving" "serving" operand []
  rw [← hkind] at hnext
  refine ⟨_, _, _, .own (j := false) looking_program (.instanceFound ..) <|
    .own (j := true) looking_program (.instanceFound ..) <|
    .own (j := false) hnext (.found ..) <|
    .own (j := true) hnext (.found ..) <|
    .own (j := false) rfl (.created (x := operand) rfl rfl) <|
    .own (j := true) rfl (.taken (by simp [Server.put, Resource.key_tag]) rfl) <|
    .own (j := false) onwards_nil (.instanceCreated rfl rfl) <|
    .rest _ _, rfl, rfl⟩

/-- One operator fails although all that it was to do is done. -/
theorem not_every_start_succeeds :
    ¬ ∀ (h : List (Program.Event Bool Call Call.Answer Empty Server))
      (qs : Bool → Operation.Steps (Except Error Unit)) (s' : Server),
      Interleaved Serves nobody (fun _ => (ensureDefault [operand] "serving" "serving").run) empty h
        qs s' → ∀ j x, qs j = .done x → x = .ok () := by
  intro hall
  obtain ⟨h, qs, s', hrun, -, hlost⟩ := race
  cases hall h qs s' hrun true _ hlost

theorem ensureDefault_among_others_race :
    ∃ (h : List (Program.Event Bool Call Call.Answer Empty Server))
      (qs : Bool → Operation.Steps (Except Error Unit)) (s' : Server),
      Interleaved Serves nobody (fun _ => (ensureDefault [operand] "serving" "serving").run) empty h
        qs s' ∧
      s'.instances ("serving", "serving") ≠ none ∧
      ∃ e, qs true = .done (.error e) ∧ ∃ mv ∈ movesOf true h, Refused [operand] mv e := by
  obtain ⟨h, qs, s', hrun, hwon, hlost⟩ := race
  have hwellFormed : operand.toJson.WellFormed := by
    simp only [operand, Resource.toJson, Json.WellFormed, Json.WellFormedMembers, Table.Sorted]
    decide
  have hproper : operand.Proper := ⟨.of_wellFormed hwellFormed, rfl⟩
  have hfiled : empty.Filed := by
    rintro key x ⟨⟩
  have hdone : ∀ j, ∃ x, qs j = .done x := fun j => by
    cases j
    · exact ⟨_, hwon⟩
    · exact ⟨_, hlost⟩
  obtain ⟨-, -, -, hends, hall, -⟩ := ensureDefault_among_others (fun r hr => by
    obtain rfl := List.mem_singleton.1 hr
    exact hproper) hfiled hrun
  obtain ⟨⟨⟩, -⟩ | ⟨e, he, -, hrefused⟩ := hends true _ hlost
  obtain rfl := Except.error.inj he
  refine ⟨h, qs, s', hrun, (hall (fun r hr => ?_) ⟨true⟩ hdone).2, _, hlost, hrefused⟩
  obtain rfl := List.mem_singleton.1 hr
  rfl

end ReleaseKeeper.Startup
