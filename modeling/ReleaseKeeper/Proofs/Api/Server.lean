import ReleaseKeeper.Proofs.Api.Objects
import ReleaseKeeper.Proofs.Program.Interleaving

/-!
# A server that gives versions to objects

A server files objects under paths and gives an object a fresh version whenever it stores it. It
refuses to create an object where there is one, and to replace one of another version than the body
has; what it refuses changes nothing (`Serves`).

So a version tells what is stored (`Server.Tells`): once an object has been fetched, nothing but that
very object, under its path, is ever of its version (`Server.Tells.serves`), whoever makes requests.
-/
namespace ReleaseKeeper.Api

open Typed

/-- What a server stores. -/
structure Server where
  /-- The objects under their paths. -/
  objects : Dict Json
  /-- The versions that were given to objects so far. -/
  given : List String

namespace Server

/-- The server after an object was stored, with a version. -/
def store (s : Server) (path version : String) (x : Json) : Server where
  objects := Table.put path (stamped version x) s.objects
  given := version :: s.given

/-- The server after an object was deleted. -/
def remove (s : Server) (path : String) : Server := { s with objects := Table.drop path s.objects }

end Server

/-- How a server deals with requests. -/
inductive Serves : Program.World Request (fun _ => Response) Server
  /-- A request that is refused, for whatever reason, changes nothing. -/
  | refused {s : Server} {r : Request} {a : Response} {e : ServerError}
    (answered : a.accepted = .error e) : Serves s r a s
  /-- What is fetched is the object under the path. Where there is none it may be a listing, which has
  no name. -/
  | fetched {s : Server} {r : Request} {a : Response} {body : Json} (method : r.method = .get)
    (answered : a.accepted = .ok body) (stored : ∀ x ∈ s.objects.lookup r.path, body = x)
    (absent : s.objects.lookup r.path = none → nameOf body = none) : Serves s r a s
  /-- An object is created under its name, where there was none. -/
  | created {s : Server} {r : Request} {a : Response} {x : Json} {name version : String}
    (method : r.method = .post) (content : r.content = some ⟨wholeObject, x⟩)
    (object : x.asObj?.isSome) (named : nameOf x = some name)
    (absent : s.objects.lookup (r.path ++ "/" ++ name) = none) (fresh : version ∉ s.given)
    (answered : a.accepted = .ok (stamped version x)) :
    Serves s r a (s.store (r.path ++ "/" ++ name) version x)
  /-- An object is replaced by a body of its version or of none. -/
  | replaced {s : Server} {r : Request} {a : Response} {x old : Json} {version : String}
    (method : r.method = .put) (content : r.content = some ⟨wholeObject, x⟩)
    (object : x.asObj?.isSome) (stored : s.objects.lookup r.path = some old)
    (current : ∀ v ∈ versionOf x, versionOf old = some v) (fresh : version ∉ s.given)
    (answered : a.accepted = .ok (stamped version x)) : Serves s r a (s.store r.path version x)
  /-- A change may come to any object. -/
  | changed {s : Server} {r : Request} {a : Response} {path version : String} {x old : Json}
    (method : r.method = .patch) (object : x.asObj?.isSome)
    (stored : s.objects.lookup path = some old) (fresh : version ∉ s.given)
    (answered : a.accepted = .ok (stamped version x)) : Serves s r a (s.store path version x)
  | deleted {s : Server} {r : Request} {a : Response} {body : Json} (method : r.method = .delete)
    (answered : a.accepted = .ok body) : Serves s r a (s.remove r.path)

/-- What foreign clients do is what the server makes of their requests. -/
def Foreign (l : Request × Response) (s s' : Server) : Prop := Serves s l.1 l.2 s'

/-- A request of a party, with its answer and the server before and after it. -/
abbrev Requested := Program.Move Request (fun _ => Response) Server

section
variable {s s' : Server} {r : Request} {a : Response} {x : Json}

theorem Serves.of_get (h : Serves s r a s') (method : r.method = .get) :
    s' = s ∧ ∀ body, a.accepted = .ok body →
      (∀ y ∈ s.objects.lookup r.path, body = y) ∧
        (s.objects.lookup r.path = none → nameOf body = none) := by
  cases h with
  | refused answered =>
    refine ⟨rfl, fun body haccepted => ?_⟩
    cases answered.symm.trans haccepted
  | fetched _ answered stored absent =>
    refine ⟨rfl, fun body haccepted => ?_⟩
    cases answered.symm.trans haccepted
    exact ⟨stored, absent⟩
  | created hm => exact absurd (hm.symm.trans method) (by decide)
  | replaced hm => exact absurd (hm.symm.trans method) (by decide)
  | changed hm => exact absurd (hm.symm.trans method) (by decide)
  | deleted hm => exact absurd (hm.symm.trans method) (by decide)

theorem Serves.of_post (h : Serves s r a s') (method : r.method = .post)
    (content : r.content = some ⟨wholeObject, x⟩) :
    (s' = s ∧ ∃ e, a.accepted = .error e) ∨ ∃ name version, nameOf x = some name ∧
      s.objects.lookup (r.path ++ "/" ++ name) = none ∧ version ∉ s.given ∧
      a.accepted = .ok (stamped version x) ∧ s' = s.store (r.path ++ "/" ++ name) version x := by
  cases h with
  | refused answered => exact .inl ⟨rfl, _, answered⟩
  | fetched hm => exact absurd (hm.symm.trans method) (by decide)
  | created _ hcontent _ named absent fresh answered =>
    cases content.symm.trans hcontent
    exact .inr ⟨_, _, named, absent, fresh, answered, rfl⟩
  | replaced hm => exact absurd (hm.symm.trans method) (by decide)
  | changed hm => exact absurd (hm.symm.trans method) (by decide)
  | deleted hm => exact absurd (hm.symm.trans method) (by decide)

theorem Serves.of_put (h : Serves s r a s') (method : r.method = .put)
    (content : r.content = some ⟨wholeObject, x⟩) :
    (s' = s ∧ ∃ e, a.accepted = .error e) ∨ ∃ old version, s.objects.lookup r.path = some old ∧
      (∀ v ∈ versionOf x, versionOf old = some v) ∧ version ∉ s.given ∧
      a.accepted = .ok (stamped version x) ∧ s' = s.store r.path version x := by
  cases h with
  | refused answered => exact .inl ⟨rfl, _, answered⟩
  | fetched hm => exact absurd (hm.symm.trans method) (by decide)
  | created hm => exact absurd (hm.symm.trans method) (by decide)
  | replaced _ hcontent _ stored current fresh answered =>
    cases content.symm.trans hcontent
    exact .inr ⟨_, _, stored, current, fresh, answered, rfl⟩
  | changed hm => exact absurd (hm.symm.trans method) (by decide)
  | deleted hm => exact absurd (hm.symm.trans method) (by decide)

/-- All that a request does: nothing, or one object is stored with a fresh version or deleted. -/
theorem Serves.cases (h : Serves s r a s') : s' = s ∨ (∃ path, s' = s.remove path) ∨
    ∃ path version x, x.asObj?.isSome ∧ version ∉ s.given ∧ s' = s.store path version x := by
  cases h with
  | refused => exact .inl rfl
  | fetched => exact .inl rfl
  | created _ _ object _ _ fresh => exact .inr (.inr ⟨_, _, _, object, fresh, rfl⟩)
  | replaced _ _ object _ _ fresh => exact .inr (.inr ⟨_, _, _, object, fresh, rfl⟩)
  | changed _ object _ fresh => exact .inr (.inr ⟨_, _, _, object, fresh, rfl⟩)
  | deleted => exact .inr (.inl ⟨_, rfl⟩)

end

namespace Server

variable {s s' : Server} {path version v : String} {x old : Json}

theorem lookup_store (s : Server) (path version : String) (x : Json) (path' : String) :
    (s.store path version x).objects.lookup path' =
      if path' = path then some (stamped version x) else s.objects.lookup path' :=
  Table.lookup_put ..

theorem lookup_remove (s : Server) (path path' : String) :
    (s.remove path).objects.lookup path' =
      if path' = path then none else s.objects.lookup path' :=
  Table.lookup_drop ..

/-- The stored objects have versions that were given, and no two have the same. -/
structure Consistent (s : Server) : Prop where
  versioned : ∀ path x, s.objects.lookup path = some x → ∃ v ∈ s.given, versionOf x = some v
  distinct : ∀ path path' x x', s.objects.lookup path = some x → s.objects.lookup path' = some x' →
    versionOf x = versionOf x' → path = path'

/-- Nothing but one object under one path is of a version, now and ever after. -/
structure Tells (s : Server) (v path : String) (x : Json) : Prop where
  given : v ∈ s.given
  only : ∀ path' x', s.objects.lookup path' = some x' → versionOf x' = some v → path' = path ∧ x' = x

theorem Consistent.store (h : s.Consistent) (hx : x.asObj?.isSome) (hfresh : version ∉ s.given) :
    (s.store path version x).Consistent where
  versioned path' y hy := by
    rw [lookup_store] at hy
    split at hy
    · obtain rfl := Option.some.inj hy
      exact ⟨version, List.mem_cons_self, versionOf_stamped hx⟩
    · obtain ⟨v, hv, hversion⟩ := h.versioned path' y hy
      exact ⟨v, List.mem_cons_of_mem _ hv, hversion⟩
  distinct p q y z hy hz hsame := by
    -- an object that was there before is not of the fresh version
    have hold : ∀ p y, s.objects.lookup p = some y → versionOf y ≠ some version := fun p y hy hv => by
      obtain ⟨v, hgiven, hversion⟩ := h.versioned p y hy
      obtain rfl := Option.some.inj (hversion.symm.trans hv)
      exact hfresh hgiven
    rw [lookup_store] at hy hz
    split at hy <;> split at hz
    · next hp hq => rw [hp, hq]
    · obtain rfl := Option.some.inj hy
      rw [versionOf_stamped hx] at hsame
      exact absurd hsame.symm (hold q z hz)
    · obtain rfl := Option.some.inj hz
      rw [versionOf_stamped hx] at hsame
      exact absurd hsame (hold p y hy)
    · exact h.distinct p q y z hy hz hsame

theorem Consistent.remove (h : s.Consistent) : (s.remove path).Consistent where
  versioned path' y hy := by
    rw [lookup_remove] at hy
    split at hy
    · cases hy
    · exact h.versioned path' y hy
  distinct p q y z hy hz := by
    rw [lookup_remove] at hy hz
    split at hy
    · cases hy
    · split at hz
      · cases hz
      · exact h.distinct p q y z hy hz

/-- **Versions stay distinct**, whatever is asked of the server. -/
theorem Consistent.serves (h : s.Consistent) {r : Request} {a : Response} (hserves : Serves s r a s') :
    s'.Consistent := by
  obtain rfl | ⟨path, rfl⟩ | ⟨path, version, x, hx, hfresh, rfl⟩ := hserves.cases
  · exact h
  · exact h.remove
  · exact h.store hx hfresh

/-- The version of a stored object tells the object. -/
theorem Consistent.tells (h : s.Consistent) (hx : s.objects.lookup path = some x) :
    ∃ v, versionOf x = some v ∧ s.Tells v path x := by
  obtain ⟨v, hgiven, hv⟩ := h.versioned path x hx
  refine ⟨v, hv, hgiven, fun path' x' hx' hv' => ?_⟩
  obtain rfl := h.distinct path' path x' x hx' hx (hv'.trans hv.symm)
  exact ⟨rfl, Option.some.inj (hx'.symm.trans hx)⟩

/-- **What a version tells it keeps telling**, whatever is asked of the server. -/
theorem Tells.serves (h : s.Tells v path x) {r : Request} {a : Response}
    (hserves : Serves s r a s') : s'.Tells v path x := by
  obtain rfl | ⟨p, rfl⟩ | ⟨p, version, y, hy, hfresh, rfl⟩ := hserves.cases
  · exact h
  · refine ⟨h.given, fun path' x' hx' => ?_⟩
    rw [lookup_remove] at hx'
    split at hx'
    · cases hx'
    · exact h.only path' x' hx'
  · refine ⟨List.mem_cons_of_mem _ h.given, fun path' x' hx' hv => ?_⟩
    rw [lookup_store] at hx'
    split at hx'
    · obtain rfl := Option.some.inj hx'
      rw [versionOf_stamped hy] at hv
      obtain rfl := Option.some.inj hv
      exact absurd h.given hfresh
    · exact h.only path' x' hx' hv

/-- What every request keeps is kept by everyone's steps. -/
theorem kept_by_everyone {I : Server → Prop}
    (hkept : ∀ {s s' r a}, Serves s r a s' → I s → I s')
    (hsteps : Relation.ReflTransGen (Program.Step Serves Foreign) s s') (hs : I s) : I s' := by
  refine Program.kept_by_steps (fun s s' hstep => ?_) hsteps hs
  obtain ⟨r, a, hserves⟩ | ⟨l, hserves⟩ := hstep
  · exact hkept hserves
  · exact hkept hserves

end Server

end ReleaseKeeper.Api
