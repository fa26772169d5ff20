import ReleaseKeeper.Api.Client
import ReleaseKeeper.Proofs.Api.Exchanges
import ReleaseKeeper.Proofs.Metadata
import ReleaseKeeper.Proofs.Resource.Identity

/-!
# Objects on their way to a server and back

An object is read with its metadata in typed form, which keeps its name, its version and all that
stands beside the metadata (`readObject_eq_ok`, `at?_readObject`). What was sent once can be read
again, whatever version the server puts into it (`readObject_stamped`).

What a client does about an object falls into two parts: it finds the kind, for which it fetches
listings and nothing else (`fetches_find`), and then makes one request about the object.
-/
namespace ReleaseKeeper.Api

open Typed Typed.Reader

/-! ## Versions -/

def metadataText? (key : String) (x : Json) : Option String :=
  (x.at? ["metadata", key]).bind Json.asStr?

def nameOf (x : Json) : Option String := metadataText? "name" x

def versionOf (x : Json) : Option String := metadataText? "resourceVersion" x

def stamped (version : String) : Json → Json :=
  Json.mapObject (Json.withObject "metadata" (Table.put "resourceVersion" (.str version)))

section
variable {x y : Json} {key v : String} {members : Dict Json}

theorem metadataText?_obj (key : String) (members : Dict Json) :
    metadataText? key (.obj members) =
      ((Json.objectAt "metadata" members).lookup key).bind Json.asStr? := by
  have hlast : Json.at? [key] = Json.get? key := by
    funext m
    rw [Json.at?]
    cases m.get? key <;> rfl
  rw [metadataText?, Json.lookup_objectAt, Json.at?_obj, hlast]

theorem versionOf_stamped (hx : x.asObj?.isSome) : versionOf (stamped v x) = some v := by
  cases x with
  | obj members =>
    have hstamped : stamped v (.obj members) = .obj (Json.withObject "metadata"
      (Table.put "resourceVersion" (.str v)) members) := rfl
    rw [versionOf, hstamped, metadataText?_obj, Json.objectAt_withObject, Table.lookup_put, if_pos rfl]
    rfl
  | _ => cases hx

/-- The last version counts. -/
theorem stamped_stamped (v w : String) (x : Json) : stamped v (stamped w x) = stamped v x := by
  cases x with
  | obj members =>
    have hputs : Table.put "resourceVersion" (.str v) ∘ Table.put "resourceVersion" (.str w) =
        Table.put "resourceVersion" (Json.str v) := funext fun fields => Table.put_put ..
    change Json.obj (Json.withObject "metadata" _ (Json.withObject "metadata" _ members)) =
      .obj (Json.withObject "metadata" _ members)
    rw [Json.withObject_withObject, hputs]
  | _ => rfl

/-- A version changes nothing beside the metadata. -/
theorem at?_stamped (hkey : key ≠ "metadata") (path : List String) :
    (stamped v x).at? (key :: path) = x.at? (key :: path) := by
  cases x with
  | obj members =>
    have hstamped : stamped v (.obj members) = .obj (Json.withObject "metadata"
      (Table.put "resourceVersion" (.str v)) members) := rfl
    rw [hstamped, Json.at?_obj, Json.at?_obj, Json.lookup_withObject_ne _ _ hkey]
  | _ => rfl

end

/-! ## Metadata in typed form -/

section
variable {x y : Json} {m : Metadata}

theorem text_of_known? {fields : Dict Json} {name : String} {s? : Option String}
    (h : known? fields name text = .ok s?) : s? = (fields.lookup name).bind Json.asStr? := by
  obtain ⟨s??, hfield, hend⟩ := bind_eq_ok.1 h
  obtain rfl : s??.join = s? := Except.ok.inj hend
  rw [field?] at hfield
  cases hx : fields.lookup name with
  | none =>
    rw [hx] at hfield
    obtain rfl := Except.ok.inj hfield
    rfl
  | some x =>
    rw [hx] at hfield
    cases x with
    | null =>
      obtain rfl := Except.ok.inj hfield
      rfl
    | str s =>
      obtain rfl := Except.ok.inj hfield
      rfl
    | _ => cases hfield

/-- Metadata that is written tells name and version. -/
theorem texts_toJson (m : Metadata) (members : Dict Json) :
    nameOf (.obj (Table.put "metadata" m.toJson members)) = m.name ∧
      versionOf (.obj (Table.put "metadata" m.toJson members)) = m.resourceVersion := by
  have hjson : m.toJson = .obj (Json.keptMembers m.members) := rfl
  have hat : Json.objectAt "metadata" (Table.put "metadata" m.toJson members) =
      Json.keptMembers m.members :=
    Json.objectAt_of_lookup (by rw [Table.lookup_put, if_pos rfl, hjson])
  rw [nameOf, versionOf, metadataText?_obj, metadataText?_obj, hat,
    Json.lookup_keptMembers m.members_nodup, Json.lookup_keptMembers m.members_nodup]
  constructor
  · cases hname : m.name <;> simp [Metadata.members, List.lookup_cons, hname, Json.asStr?]
  · cases hversion : m.resourceVersion <;>
      simp [Metadata.members, List.lookup_cons, hversion, Json.asStr?]

/-- **An object that is read** keeps all its members, its metadata in typed form. -/
theorem readObject_eq_ok (h : Client.readObject x = .ok y) : ∃ members, ∃ m : Metadata,
    x = .obj members ∧ y = .obj (Table.put "metadata" m.toJson members) ∧ m.Storable ∧
      m.name = nameOf x ∧ m.resourceVersion = versionOf x := by
  cases x with
  | obj members =>
    obtain ⟨m?, hfield, hend⟩ := bind_eq_ok.1 h
    obtain rfl := Except.ok.inj hend
    rw [field?] at hfield
    rw [nameOf, versionOf, metadataText?_obj, metadataText?_obj]
    cases hx : members.lookup "metadata" with
    | none =>
      rw [hx] at hfield
      obtain rfl := Except.ok.inj hfield
      refine ⟨members, {}, rfl, rfl, ⟨?_, ?_, ?_, ?_, ?_⟩, ?_, ?_⟩
      all_goals simp [Json.objectAt, hx]
    | some x =>
      rw [hx] at hfield
      obtain ⟨m, hread, rfl⟩ := map_eq_ok.1 hfield
      cases x with
      | obj fields =>
        obtain ⟨-, -, -, -, -, -, -, -, -, hname, -, -, hversion, -⟩ :=
          Metadata.ofJson_obj_iff.1 hread
        rw [Json.objectAt_of_lookup hx]
        exact ⟨members, m, rfl, rfl, Metadata.storable_of_ofJson hread, text_of_known? hname,
          text_of_known? hversion⟩
      | _ => cases hread
  | _ => cases h

theorem nameOf_readObject (h : Client.readObject x = .ok y) : nameOf y = nameOf x := by
  obtain ⟨members, m, -, rfl, -, hname, -⟩ := readObject_eq_ok h
  rw [(texts_toJson m members).1, hname]

theorem versionOf_readObject (h : Client.readObject x = .ok y) : versionOf y = versionOf x := by
  obtain ⟨members, m, -, rfl, -, -, hversion⟩ := readObject_eq_ok h
  rw [(texts_toJson m members).2, hversion]

/-- Reading an object changes nothing beside the metadata. -/
theorem at?_readObject (h : Client.readObject x = .ok y) {key : String} (hkey : key ≠ "metadata")
    (path : List String) : y.at? (key :: path) = x.at? (key :: path) := by
  obtain ⟨members, m, rfl, rfl, -⟩ := readObject_eq_ok h
  rw [Json.at?_obj, Json.at?_obj, Table.lookup_put, if_neg hkey]

/-- **What was sent can be read again**, whatever version the server gives it. -/
theorem readObject_stamped (h : Client.readObject x = .ok y) (v : String) :
    ∃ z, Client.readObject (stamped v y) = .ok z := by
  obtain ⟨members, m, -, rfl, hstorable, -⟩ := readObject_eq_ok h
  have hjson : m.toJson = .obj (Json.keptMembers m.members) := rfl
  have hat : Json.objectAt "metadata" (Table.put "metadata" m.toJson members) =
      Json.keptMembers m.members :=
    Json.objectAt_of_lookup (by rw [Table.lookup_put, if_pos rfl, hjson])
  have hstamped : stamped v (.obj (Table.put "metadata" m.toJson members)) =
      .obj (Table.put "metadata" (.obj (Table.put "resourceVersion" (.str v)
        (Json.keptMembers m.members))) (Table.put "metadata" m.toJson members)) := by
    rw [← hat]
    rfl
  have hfield : field? (Table.put "metadata" (.obj (Table.put "resourceVersion" (.str v)
      (Json.keptMembers m.members))) (Table.put "metadata" m.toJson members)) "metadata"
      Metadata.ofJson = .ok (some (Metadata.coarse { m with resourceVersion := some v })) :=
    field?_eq_some (by rw [Table.lookup_put, if_pos rfl]) (hstorable.ofJson_versioned v)
  rw [hstamped, Client.readObject, hfield]
  exact ⟨_, rfl⟩

end

/-! ## Resources on their way -/

namespace Client

variable {r live : Resource} {object : Json}

theorem sent_iff : sent r = .ok object ↔ readObject r.toJson = .ok object := mapError_eq_ok

theorem nameOf_toJson (r : Resource) : nameOf r.toJson = r.textAt? ["metadata", "name"] := by
  rw [nameOf, Resource.toJson, metadataText?_obj, ← Resource.textAt?_metadata]

theorem eq_name_of_sent {name : String} (h : sent r = .ok object)
    (hname : nameOf object = some name) : r.name = name := by
  rw [nameOf_readObject (sent_iff.1 h), nameOf_toJson] at hname
  rw [Resource.name, hname]
  rfl

/-- What is received is a resource that has a name. -/
theorem eq_of_received (h : received object = .ok live) :
    object = live.toJson ∧ nameOf object ≠ none := by
  cases object with
  | obj members =>
    rw [received, Resource.ofJson] at h
    split at h
    · cases h
    · split at h
      · cases h
      · next hname =>
        obtain rfl := Except.ok.inj h
        refine ⟨rfl, fun hnone => hname ?_⟩
        rw [Resource.name, ← nameOf_toJson, Resource.toJson, hnone]
        rfl
  | _ => cases h

end Client

/-! ## Finding kinds -/

section
variable {α β : Type}

/-- A program that fetches and does nothing else. -/
def Fetches (p : Steps α) : Prop := p.Ensures (fun r => r.method = .get) fun _ => True

theorem fetches_bind {p : Steps α} {f : α → Steps β} (hp : Fetches p) (hf : ∀ x, Fetches (f x)) :
    Fetches (p.bind f) :=
  hp.bind fun x _ => hf x

theorem fetches_except (x : Except ServerError α) : Fetches (liftM x : Exchange α).run := by
  cases x <;> trivial

theorem fetches_exchange_bind {q : Exchange α} {g : α → Exchange β} (hq : Fetches q.run)
    (hg : ∀ x, Fetches (g x).run) : Fetches (q >>= g).run := by
  refine fetches_bind hq ?_
  rintro (e | x)
  · trivial
  · exact hg x

theorem fetches_fetch (read : Reader α) {r : Request} (hr : r.method = .get) :
    Fetches (fetch read r).run := by
  refine fetches_exchange_bind ⟨hr, fun _ => trivial⟩ fun a => ?_
  refine fetches_exchange_bind (fetches_except a.accepted) fun body => ?_
  exact fetches_except (decode read body)

theorem fetches_mapM {f : α → Exchange β} (hf : ∀ x, Fetches (f x).run) (xs : List α) :
    Fetches (xs.mapM f).run := by
  suffices hloop : ∀ (xs : List α) (ys : List β), Fetches (List.mapM.loop f xs ys).run from hloop xs []
  intro xs
  induction xs with
  | nil => exact fun ys => trivial
  | cons x xs ih =>
    intro ys
    rw [List.mapM.loop]
    exact fetches_exchange_bind (hf x) fun y => ih (y :: ys)

end

namespace Discovery

theorem fetches_ask (shape : Shape) (path : String) : Fetches (ask shape path).run := by
  cases hto : Request.to .get path with
  | error e =>
    have hask : (ask shape path).run = .done (.error e) := by
      rw [ask, hto]
      rfl
    rw [hask]
    trivial
  | ok r =>
    have hask : (ask shape path).run = (fetch (shaped shape) r).run := by
      rw [ask, hto]
      rfl
    rw [hask]
    exact fetches_fetch _ (Request.to_eq_ok hto).1

theorem fetches_askVersions (versions : List (String × String)) :
    Fetches (askVersions versions).run := by
  rw [askVersions]
  split
  · trivial
  · refine fetches_mapM (fun (version, path) => ?_) versions
    exact fetches_exchange_bind (fetches_ask _ path) fun _ => trivial

theorem fetches_askCore : Fetches askCore.run :=
  fetches_exchange_bind (fetches_ask _ _) fun _ => fetches_askVersions _

theorem fetches_versionsOf (group : String) : Fetches (versionsOf group).run := by
  refine fetches_exchange_bind (fetches_ask _ _) fun listing => ?_
  refine fetches_exchange_bind (fetches_mapM (fun _ => fetches_askVersions _) _) fun found => ?_
  split
  · exact fetches_askCore
  · trivial

theorem fetches_find (apiVersion kind : String) : Fetches (find apiVersion kind).run :=
  fetches_exchange_bind (fetches_versionsOf _) fun _ => trivial

end Discovery

namespace Client

variable {σ α β : Type} {world : Program.World Request (fun _ => Response) σ} {s s' : σ}
  {t : Program.Trace Request fun _ => Response} {known known' : KnownKinds}

/-- What finding a kind comes to that was not known, and what is known from then on. -/
def remembered (apiVersion kind : String) (known : KnownKinds) :
    Except ServerError (Option ServedKind) → Except Error (Option ServedKind) × KnownKinds
  | .error e => (.error (discoveryFailed e), known)
  | .ok none => (.ok none, known)
  | .ok (some k) => (.ok (some k), ((apiVersion, kind), k) :: known)

section
variable {apiVersion kind : String}

theorem find_of_known {k : ServedKind} (h : known.lookup (apiVersion, kind) = some k) :
    (find apiVersion kind).run known = .done (.ok (some k), known) := by
  have hget : ∀ f : KnownKinds → Client (Option ServedKind),
      ExceptT.run (get >>= f) known = (f known).run known := fun f => rfl
  rw [find, hget, h]
  rfl

/-- A kind that is not known is looked up at the server. -/
theorem find_of_unknown (h : known.lookup (apiVersion, kind) = none) :
    (find apiVersion kind).run known = (Discovery.find apiVersion kind).run.bind fun x =>
      .done (remembered apiVersion kind known x) := by
  have hget : ∀ f : KnownKinds → Client (Option ServedKind),
      ExceptT.run (get >>= f) known = (f known).run known := fun f => rfl
  rw [find, hget, h]
  refine (Program.bind_assoc ..).trans (congrArg (Program.bind _) (funext ?_))
  rintro (e | _ | k) <;> rfl

end

/-- Finding a kind asks for listings, unless the kind is known. -/
theorem fetches_find (apiVersion kind : String) (known : KnownKinds) :
    Fetches ((find apiVersion kind).run known) := by
  cases h : known.lookup (apiVersion, kind) with
  | some k =>
    rw [find_of_known h]
    trivial
  | none =>
    rw [find_of_unknown h]
    exact fetches_bind (Discovery.fetches_find _ _) fun _ => trivial

section
variable {apiVersion kind : String} {x : Except Error (Option ServedKind)}

/-- Finding a kind comes to what is known of it, or to what is told and remembered. -/
theorem find_cases (h : Program.Runs world ((find apiVersion kind).run known) s t (x, known') s') :
    (∃ k, known.lookup (apiVersion, kind) = some k ∧ (x, known') = (.ok (some k), known)) ∨
      known.lookup (apiVersion, kind) = none ∧
        ∃ told, (x, known') = remembered apiVersion kind known told := by
  cases hlookup : known.lookup (apiVersion, kind) with
  | some k =>
    rw [find_of_known hlookup] at h
    exact .inl ⟨k, rfl, (Program.runs_done_iff.1 h).2.1⟩
  | none =>
    rw [find_of_unknown hlookup] at h
    obtain ⟨told, -, htold⟩ := Program.runs_bind_done.1 h
    exact .inr ⟨rfl, told, htold⟩

/-- A kind cannot be found only where the server does not tell what it serves. -/
theorem error_of_find {e : Error}
    (h : Program.Runs world ((find apiVersion kind).run known) s t (.error e, known') s') :
    ∃ cause, e = discoveryFailed cause := by
  obtain ⟨k, -, ⟨⟩⟩ | ⟨-, cause | _ | k, htold⟩ := find_cases h
  · obtain ⟨⟨⟩, -⟩ := Prod.mk.inj htold
    exact ⟨cause, rfl⟩
  · cases (Prod.mk.inj htold).1
  · cases (Prod.mk.inj htold).1

/-- A kind that was found is known from then on. -/
theorem known_of_find {k : ServedKind}
    (h : Program.Runs world ((find apiVersion kind).run known) s t (.ok (some k), known') s') :
    known'.lookup (apiVersion, kind) = some k := by
  obtain ⟨k', hlookup, ⟨⟩⟩ | ⟨-, cause | _ | k', htold⟩ := find_cases h
  · exact hlookup
  · cases (Prod.mk.inj htold).1
  · cases (Prod.mk.inj htold).1
  · obtain ⟨⟨⟩, rfl⟩ := Prod.mk.inj htold
    exact List.lookup_cons_self

/-- What is known stays known. -/
theorem lookup_of_find {name : String × String} {k : ServedKind} (hknown : known.lookup name = some k)
    (h : Program.Runs world ((find apiVersion kind).run known) s t (x, known') s') :
    known'.lookup name = some k := by
  obtain ⟨k', -, ⟨⟩⟩ | ⟨hlookup, cause | _ | k', htold⟩ := find_cases h
  · exact hknown
  · obtain ⟨-, rfl⟩ := Prod.mk.inj htold
    exact hknown
  · obtain ⟨-, rfl⟩ := Prod.mk.inj htold
    exact hknown
  · obtain ⟨-, rfl⟩ := Prod.mk.inj htold
    have hne : (name == (apiVersion, kind)) = false := beq_eq_false_iff_ne.2 fun heq => by
      rw [heq, hlookup] at hknown
      cases hknown
    rw [List.lookup_cons, hne, hknown]

end

/-! ## One part after another -/

/-- A client goes on with the second part, knowing more kinds, if the first came to a result. -/
theorem runs_bind {q : Client α} {g : α → Client β} {y : Except Error β × KnownKinds} :
    Program.Runs world ((q >>= g).run known) s t y s' ↔
      (∃ e known', y = (.error e, known') ∧
        Program.Runs world (q.run known) s t (.error e, known') s') ∨
      ∃ a known' t₁ s₁ t₂, t = t₁ ++ t₂ ∧ Program.Runs world (q.run known) s t₁ (.ok a, known') s₁ ∧
        Program.Runs world ((g a).run known') s₁ t₂ y s' := by
  refine Program.runs_bind_iff.trans ?_
  constructor
  · rintro ⟨t₁, ⟨e | a, known'⟩, s₁, t₂, rfl, hq, hg⟩
    · obtain ⟨rfl, rfl, rfl⟩ := Program.runs_done_iff.1 hg
      rw [List.append_nil]
      exact .inl ⟨e, known', rfl, hq⟩
    · exact .inr ⟨a, known', t₁, s₁, t₂, rfl, hq, hg⟩
  · rintro (⟨e, known', rfl, hq⟩ | ⟨a, known', t₁, s₁, t₂, rfl, hq, hg⟩)
    · exact ⟨t, (.error e, known'), s', [], (List.append_nil t).symm, hq, .done _ _⟩
    · exact ⟨t₁, (.ok a, known'), s₁, t₂, rfl, hq, hg⟩

end Client

end ReleaseKeeper.Api
