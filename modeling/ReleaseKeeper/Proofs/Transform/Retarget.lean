import ReleaseKeeper.Proofs.Transform.Frame
import ReleaseKeeper.Proofs.Transform.Idempotence

/-!
# Where a resource and its references go

A resource goes into a namespace with all references that have to follow it, and nothing else of it is
changed (`Resource.Retargeted`). What is such a reference is a matter of shape alone: a subject that
is a service account, or the object at the end of a path. Items of any other shape stay where they are
in their lists, and a path that ends early leads to nothing that could be changed.

Nothing of a first move is left after a second one (`Transformer.absorbs_moveTo`): both write the same
entries, whatever they find there. So what went elsewhere before can be moved as if it had not.
-/
namespace ReleaseKeeper

/-! ## Changes of some entries -/

namespace Table

/-- Tables that differ in the values of some keys only, and are in order alike. -/
structure SameBut {α : Type} (keys : List String) (before after : Dict α) : Prop where
  rest : beside keys after = beside keys before
  sorted : Sorted before → Sorted after

variable {α : Type} {keys : List String} {key : String}

theorem SameBut.refl (keys : List String) (entries : Dict α) : SameBut keys entries entries :=
  ⟨rfl, id⟩

theorem SameBut.trans {a b c : Dict α} (h : SameBut keys a b) (h' : SameBut keys b c) :
    SameBut keys a c :=
  ⟨h'.rest.trans h.rest, h'.sorted ∘ h.sorted⟩

theorem sameBut_put (h : key ∈ keys) (x : α) (entries : Dict α) :
    SameBut keys entries (put key x entries) :=
  ⟨beside_put h x entries, sorted_put⟩

theorem sameBut_adjust (h : key ∈ keys) (f : α → α) (entries : Dict α) :
    SameBut keys entries (adjust key f entries) :=
  ⟨beside_adjust h f entries, sorted_adjust⟩

end Table

/-! ## Changes of values -/

namespace Json

/-- The object at the end of a path of keys. -/
def objectAlong? : List String → Json → Option (Dict Json)
  | [], x => x.asObj?
  | key :: path, x => (x.get? key).bind (objectAlong? path)

/-- Changes the value at the end of a path of keys. -/
def mapAlong (f : Json → Json) : List String → Json → Json
  | [] => f
  | key :: path => mapObject (Table.adjust key (mapAlong f path))

/-- A value is changed in some way if something holds, and otherwise not at all. -/
def ChangedIf (p : Prop) (change : Json → Json → Prop) (x y : Json) : Prop :=
  (p → change x y) ∧ (¬ p → y = x)

/-- A list is changed item by item, and any other value not at all. -/
inductive ItemsChanged (change : Json → Json → Prop) : Json → Json → Prop
  | items {xs ys : List Json} (h : List.Forall₂ change xs ys) :
      ItemsChanged change (.arr xs) (.arr ys)
  | other {x : Json} (hx : x.asArr? = none) : ItemsChanged change x x

/-- The object at the end of a path gets a namespace, and all else stays. -/
inductive Retargets (ns : String) : List String → Json → Json → Prop
  | target {m m' : Dict Json} (hns : m'.lookup "namespace" = some (.str ns))
      (hrest : Table.SameBut ["namespace"] m m') :
      Retargets ns [] (.obj m) (.obj m')
  | member {key : String} {path : List String} {m m' : Dict Json} {x x' : Json}
      (hx : m.lookup key = some x) (hx' : m'.lookup key = some x') (h : Retargets ns path x x')
      (hrest : Table.SameBut [key] m m') :
      Retargets ns (key :: path) (.obj m) (.obj m')

/-- Whatever object is at the end of a path gets a namespace. -/
def Follows (ns : String) (path : List String) (x y : Json) : Prop :=
  ChangedIf (objectAlong? path x).isSome (Retargets ns path) x y

/-- A service account gets a namespace. -/
def AccountFollows (ns : String) (x y : Json) : Prop :=
  ChangedIf (x.getStr? "kind" = some "ServiceAccount") (Retargets ns []) x y

theorem rel_map {change : Json → Json → Prop} {f : Json → Json} (h : ∀ x, change x (f x))
    (x? : Option Json) : Option.Rel change x? (x?.map f) := by
  cases x? with
  | none => exact .none
  | some x => exact .some (h x)

theorem itemsChanged_mapItems {change : Json → Json → Prop} {f : Json → Json}
    (h : ∀ x, change x (f x)) (x : Json) : ItemsChanged change x (mapItems (List.map f) x) := by
  cases x with
  | arr xs =>
    have hself : ∀ xs : List Json, List.Forall₂ (fun x y => change x (f y)) xs xs := fun xs =>
      List.forall₂_same.2 fun x _ => h x
    exact .items (List.forall₂_map_right_iff.2 (hself xs))
  | _ => exact .other rfl

end Json

open Json

/-! ## Moving references -/

namespace Transformer

variable {ns kind : String} {x : Resource}

theorem retargets_moveReference (ns : String) (members : Dict Json) :
    Retargets ns [] (.obj members) (moveReference ns (.obj members)) :=
  .target (by rw [Table.lookup_put, if_pos rfl]) (Table.sameBut_put List.mem_cons_self _ _)

/-- The reference at the end of a path is moved if there is one. -/
theorem follows_mapAlong (ns : String) (path : List String) (x : Json) :
    Follows ns path x (mapAlong (moveReference ns) path x) := by
  -- along the path: what is no object has no end of the path inside, and stays
  induction path generalizing x with
  | nil =>
    cases x with
    | obj members =>
      exact ⟨fun _ => retargets_moveReference ns members, fun h => absurd (by rfl) h⟩
    | _ => exact ⟨fun h => Bool.noConfusion h, fun _ => rfl⟩
  | cons key path ih =>
    cases x with
    | obj members =>
      have hpath : objectAlong? (key :: path) (.obj members) =
          (members.lookup key).bind (objectAlong? path) := rfl
      rw [Follows, hpath]
      cases hy : members.lookup key with
      | none =>
        refine ⟨fun h => Bool.noConfusion h, fun _ => congrArg obj (Table.adjust_eq_self ?_)⟩
        simp [hy]
      | some y =>
        obtain ⟨hmoved, hkept⟩ := ih y
        refine ⟨fun h => ?_, fun h => congrArg obj (Table.adjust_eq_self ?_)⟩
        · refine .member hy ?_ (hmoved h) (Table.sameBut_adjust List.mem_cons_self _ _)
          rw [Table.lookup_adjust, if_pos rfl, hy]
          rfl
        · rintro z hz
          obtain rfl := Option.some.inj (hy.symm.trans hz)
          exact hkept h
    | _ => exact ⟨fun h => Bool.noConfusion h, fun _ => rfl⟩

/-- A subject is moved if it is a service account. -/
theorem accountFollows_moveSubject (ns : String) (subject : Json) :
    AccountFollows ns subject (moveSubject ns subject) := by
  rw [AccountFollows, moveSubject]
  refine ⟨fun haccount => ?_, fun hother => if_neg hother⟩
  rw [if_pos haccount]
  cases subject with
  | obj members => exact retargets_moveReference ns members
  | _ => cases haccount

theorem follows_moveWebhook (ns : String) (webhook : Json) :
    Follows ns ["clientConfig", "service"] webhook (moveWebhook ns webhook) := by
  rw [moveWebhook_eq]
  exact follows_mapAlong ns ["clientConfig", "service"] webhook

/-! ## Moving resources -/

/-- Puts resources of a kind into a namespace, if the kind lives in any. -/
def place (ns kind : String) : Resource → Resource :=
  if clusterScopedKinds.contains kind then id else Resource.setNamespace ns

/-- Moves the references of resources of a kind. -/
def lead (ns kind : String) : Resource → Resource :=
  (references? ns kind).elim id fun moved x => ⟨Table.adjust moved.1 moved.2 x.members⟩

/-- What is done to a resource depends on its kind. -/
theorem moveTo_eq (h : x.kind = kind) : moveTo ns x = lead ns kind (place ns kind x) := by
  subst h
  have hplaced : (if x.isClusterScoped then x else x.setNamespace ns) = place ns x.kind x := by
    rw [place, Resource.isClusterScoped]
    split <;> rfl
  have hkind : (place ns x.kind x).kind = x.kind := by
    rw [place]
    split
    · rfl
    · exact (Resource.alike_setNamespace ns x).kind
  rw [moveTo, hplaced, moveReferences_eq, hkind, lead]
  cases references? ns x.kind <;> rfl

theorem absorbs_place (ns before kind : String) : Absorbs (place ns kind) (place before kind) := by
  intro x
  rw [place, place]
  split
  · rfl
  · exact (Resource.traversal_within "metadata").absorbs (fun _ => Table.put_put _ _ _) x

theorem absorbs_lead (ns before kind : String) : Absorbs (lead ns kind) (lead before kind) := by
  intro x
  cases hbefore : references? before kind with
  | none => rw [lead, lead, hbefore]; rfl
  | some moved =>
    obtain ⟨g, hg, habsorbs⟩ := absorbs_references hbefore ns
    rw [lead, lead, hbefore, hg]
    exact Resource.traversal_members.absorbs ((Table.traversal_adjust _).absorbs habsorbs) x

theorem commute_place_lead (ns before kind : String) :
    Function.Commute (place ns kind) (lead before kind) := by
  rw [place, lead]
  split
  · exact Function.Commute.id_left
  · cases hmoved : references? before kind with
    | none => exact Function.Commute.id_right
    | some moved => exact (HeadChange.commute_references_metadata hmoved _).symm

/-- **A second move leaves nothing of the first one.** -/
theorem absorbs_moveTo (ns before : String) : Absorbs (moveTo ns) (moveTo before) := by
  intro x
  -- the first move keeps the kind, so the second one does the same sort of changes
  rw [moveTo_eq (kind_moveTo x), moveTo_eq rfl, moveTo_eq rfl]
  exact (absorbs_place ns before x.kind).comp (absorbs_lead ns before x.kind)
    (commute_place_lead ns before x.kind) x

end Transformer

/-! ## What becomes of a resource -/

namespace Resource

/-- The member in which a resource refers to others of its release, if its kind does. -/
def referring (r : Resource) : Option String :=
  if r.kind = "ClusterRoleBinding" ∨ r.kind = "RoleBinding" then some "subjects"
  else if r.kind = "MutatingWebhookConfiguration" ∨ r.kind = "ValidatingWebhookConfiguration" then
    some "webhooks"
  else if r.kind = "APIService" then some "spec"
  else none

/-- What a resource is once it and its references have gone into a namespace. -/
structure Retargeted (ns : String) (r out : Resource) : Prop where
  stays : r.isClusterScoped = true →
    out.members.lookup "metadata" = r.members.lookup "metadata"
  goes : r.isClusterScoped = false → ∃ m, out.members.lookup "metadata" = some (.obj m) ∧
    m.lookup "namespace" = some (.str ns) ∧ Table.SameBut ["namespace"] r.metadata m
  subjects : r.kind = "ClusterRoleBinding" ∨ r.kind = "RoleBinding" →
    Option.Rel (ItemsChanged (AccountFollows ns))
      (r.members.lookup "subjects") (out.members.lookup "subjects")
  webhooks : r.kind = "MutatingWebhookConfiguration" ∨ r.kind = "ValidatingWebhookConfiguration" →
    Option.Rel (ItemsChanged (Follows ns ["clientConfig", "service"]))
      (r.members.lookup "webhooks") (out.members.lookup "webhooks")
  backend : r.kind = "APIService" →
    Option.Rel (Follows ns ["service"]) (r.members.lookup "spec") (out.members.lookup "spec")
  rest : Table.SameBut ("metadata" :: r.referring.toList) r.members out.members

end Resource

namespace Transformer

variable {ns key : String} {f : Json → Json} {r : Resource}

theorem lookup_place (ns kind : String) (h : key ≠ "metadata") (x : Resource) :
    (place ns kind x).members.lookup key = x.members.lookup key := by
  rw [place]
  split
  · rfl
  · exact Resource.lookup_within_metadata _ _ h

/-- The member with the references is changed where it stands. -/
theorem lookup_references (h : references? ns r.kind = some (key, f)) :
    (moveTo ns r).members.lookup key = (r.members.lookup key).map f := by
  have hkey : key ≠ "metadata" := by
    rintro rfl
    exact not_mem_headKeys h (by decide)
  rw [moveTo_eq rfl, lead, h, ← lookup_place ns r.kind hkey r]
  change (Table.adjust key f _).lookup key = _
  rw [Table.lookup_adjust, if_pos rfl]

theorem referring_eq (ns : String) (r : Resource) :
    r.referring = (references? ns r.kind).map (·.1) := by
  rw [Resource.referring, references?]
  simp only [List.contains_eq_mem, List.mem_cons, List.not_mem_nil, or_false, decide_eq_true_eq]
  split_ifs <;> rfl

theorem sameBut_moveTo (ns : String) (r : Resource) :
    Table.SameBut ("metadata" :: r.referring.toList) r.members (moveTo ns r).members := by
  have hplaced : Table.SameBut ("metadata" :: r.referring.toList) r.members
      (place ns r.kind r).members := by
    rw [place]
    split
    · exact .refl _ _
    · exact Table.sameBut_put List.mem_cons_self _ _
  refine hplaced.trans ?_
  rw [moveTo_eq rfl, lead, referring_eq ns]
  cases references? ns r.kind with
  | none => exact .refl _ _
  | some moved => exact Table.sameBut_adjust (by simp) _ _

theorem retargeted_moveTo (ns : String) (r : Resource) : r.Retargeted ns (moveTo ns r) where
  stays h := by
    rw [moveTo, if_pos h]
    exact (aside_moveReferences ns r).head "metadata" (by decide)
  goes h := by
    rw [moveTo, if_neg (by simp [h]), (aside_moveReferences ns _).head "metadata" (by decide)]
    refine ⟨Table.put "namespace" (.str ns) r.metadata, ?_, ?_, ?_⟩
    · exact (Table.lookup_put _ _ _ _).trans (if_pos rfl)
    · rw [Table.lookup_put, if_pos rfl]
    · exact Table.sameBut_put List.mem_cons_self _ _
  subjects h := by
    have hmoved : references? ns r.kind =
        some ("subjects", mapItems (List.map (moveSubject ns))) := by
      obtain h | h := h <;> rw [h] <;> rfl
    rw [lookup_references hmoved]
    exact rel_map (itemsChanged_mapItems (accountFollows_moveSubject ns)) _
  webhooks h := by
    have hmoved : references? ns r.kind =
        some ("webhooks", mapItems (List.map (moveWebhook ns))) := by
      obtain h | h := h <;> rw [h] <;> rfl
    rw [lookup_references hmoved]
    exact rel_map (itemsChanged_mapItems (follows_moveWebhook ns)) _
  backend h := by
    have hmoved : references? ns r.kind =
        some ("spec", mapAlong (moveReference ns) ["service"]) := by
      rw [h]
      rfl
    rw [lookup_references hmoved]
    exact rel_map (follows_mapAlong ns ["service"]) _
  rest := sameBut_moveTo ns r

/-- **A resource goes into a namespace with its references, and into another as if it had not.** The
service accounts that are granted something, and the services that are found where webhooks and served
APIs have them, are in the namespace afterwards. All else is as before, also where something else
stands in their places. -/
theorem inNamespace_retargets (ns : String) (r : Resource) :
    ∃ out, (inNamespace ns).apply r = .ok out ∧ r.Retargeted ns out ∧
      ∀ next, (inNamespace next).apply out = (inNamespace next).apply r := by
  refine ⟨moveTo ns r, rfl, retargeted_moveTo ns r, fun next => ?_⟩
  have hback : moveTo next (moveTo ns r) = moveTo next r := absorbs_moveTo next ns r
  exact congrArg Except.ok hback

/-- A grant to an account, to a user, and to something that is no subject. -/
def granted : Resource := ⟨[("apiVersion", .str "rbac.authorization.k8s.io/v1"),
  ("kind", .str "RoleBinding"),
  ("metadata", .obj [("name", .str "granted"), ("namespace", .str "release")]),
  ("subjects", .arr [.obj [("kind", .str "ServiceAccount"), ("name", .str "controller")],
    .obj [("kind", .str "User"), ("namespace", .str "release")], .str "ServiceAccount"])]⟩

/-- Of the three only the account goes along, and can go on. -/
theorem inNamespace_retargets_granted : ∃ out, (inNamespace "serving").apply granted = .ok out ∧
    out.members.lookup "subjects" = some (.arr [
      .obj [("kind", .str "ServiceAccount"), ("name", .str "controller"),
        ("namespace", .str "serving")],
      .obj [("kind", .str "User"), ("namespace", .str "release")], .str "ServiceAccount"]) ∧
    granted.Retargeted "serving" out ∧
    (inNamespace "eventing").apply out = (inNamespace "eventing").apply granted := by
  obtain ⟨out, hout, hretargeted, hnext⟩ := inNamespace_retargets "serving" granted
  obtain rfl := total_eq_ok.1 hout
  exact ⟨_, hout, rfl, hretargeted, hnext "eventing"⟩

end Transformer

end ReleaseKeeper
