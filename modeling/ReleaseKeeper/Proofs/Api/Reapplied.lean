import ReleaseKeeper.Proofs.Api.Operations
import ReleaseKeeper.Proofs.Api.Plain
import ReleaseKeeper.Proofs.Api.Replies

/-!
# Resources that are applied twice

A server files objects as they are sent (`Files`). A resource that was applied to it successfully is found
there when it is applied again, but with its metadata in typed form, and what was lost on the way is merged
into it anew. So the second application writes nothing exactly if the resource is plain and, where the
first one created it, keeps its tag (`lost_metadata_is_written_again`). A member of the metadata that is
null, as in the output of common tools, is written again and again (`null_written_again`).
-/
namespace ReleaseKeeper.Api

open Typed Json

/-- How a server that files every object as it was sent deals with requests to fetch, create and replace
one. -/
inductive Files : Program.World Request (fun _ => Response) (Dict Json)
  /-- What is fetched is the object under the path. -/
  | fetched {s : Dict Json} {r : Request} {a : Response} {x : Json} (method : r.method = .get)
    (stored : s.lookup r.path = some x) (answered : a.accepted = .ok x) : Files s r a s
  /-- Where there is none, the request is refused, or answered with a listing, which has no name. -/
  | absent {s : Dict Json} {r : Request} {a : Response} (method : r.method = .get)
    (missing : s.lookup r.path = none) (unnamed : ∀ body, a.accepted = .ok body → nameOf body = none) :
    Files s r a s
  | created {s : Dict Json} {r : Request} {a : Response} {x : Json} {name : String}
    (method : r.method = .post) (content : r.content = some ⟨wholeObject, x⟩)
    (named : nameOf x = some name) (answered : a.accepted = .ok x) :
    Files s r a (Table.put (r.path ++ "/" ++ name) x s)
  | replaced {s : Dict Json} {r : Request} {a : Response} {x : Json} (method : r.method = .put)
    (content : r.content = some ⟨wholeObject, x⟩) (answered : a.accepted = .ok x) :
    Files s r a (Table.put r.path x s)
  /-- A request that is refused changes nothing. -/
  | refused {s : Dict Json} {r : Request} {a : Response} {e : ServerError} (method : r.method ≠ .get)
    (answered : a.accepted = .error e) : Files s r a s

section
variable {s s' : Dict Json} {r : Request} {a : Response} {x : Json}

theorem Files.of_get (h : Files s r a s') (method : r.method = .get) :
    s' = s ∧ (∀ x, s.lookup r.path = some x → a.accepted = .ok x) ∧
      (s.lookup r.path = none → ∀ body, a.accepted = .ok body → nameOf body = none) := by
  cases h with
  | fetched _ stored answered =>
    refine ⟨rfl, fun x hx => ?_, fun hnone => ?_⟩
    · rw [answered, ← stored.symm.trans hx |> Option.some.inj]
    · cases hnone.symm.trans stored
  | absent _ missing unnamed =>
    refine ⟨rfl, fun x hx => ?_, fun _ => unnamed⟩
    cases missing.symm.trans hx
  | created hm => exact absurd (hm.symm.trans method) (by decide)
  | replaced hm => exact absurd (hm.symm.trans method) (by decide)
  | refused hm => exact absurd method hm

theorem Files.of_post (h : Files s r a s') (method : r.method = .post)
    (content : r.content = some ⟨wholeObject, x⟩) {body : Json} (answered : a.accepted = .ok body) :
    ∃ name, nameOf x = some name ∧ s' = Table.put (r.path ++ "/" ++ name) x s := by
  cases h with
  | created _ hcontent named =>
    cases content.symm.trans hcontent
    exact ⟨_, named, rfl⟩
  | fetched hm => exact absurd (hm.symm.trans method) (by decide)
  | absent hm => exact absurd (hm.symm.trans method) (by decide)
  | replaced hm => exact absurd (hm.symm.trans method) (by decide)
  | refused _ hrefused => cases hrefused.symm.trans answered

theorem Files.of_put (h : Files s r a s') (method : r.method = .put)
    (content : r.content = some ⟨wholeObject, x⟩) {body : Json} (answered : a.accepted = .ok body) :
    s' = Table.put r.path x s := by
  cases h with
  | replaced _ hcontent =>
    cases content.symm.trans hcontent
    rfl
  | fetched hm => exact absurd (hm.symm.trans method) (by decide)
  | absent hm => exact absurd (hm.symm.trans method) (by decide)
  | created hm => exact absurd (hm.symm.trans method) (by decide)
  | refused _ hrefused => cases hrefused.symm.trans answered

/-- What only fetches leaves the server as it is. -/
theorem files_of_fetches {α : Type} {p : Steps α} (hp : Fetches p)
    {t : Program.Trace Request fun _ => Response} {y : α} (h : Program.Runs Files p s t y s') :
    s' = s := by
  induction h with
  | done => rfl
  | call answered _ ih => exact (ih (hp.2 _)).trans (answered.of_get hp.1).1

end

namespace Client

variable {r live : Resource} {k : ServedKind} {known known' : KnownKinds}
  {s s' : Dict Json} {t : Program.Trace Request fun _ => Response} {object : Json}
  {q : Request}

def pathOf (k : ServedKind) (r : Resource) : String :=
  (objects k r.namespaceName).path ++ "/" ++ r.name

/-- A path without marks, which nothing is cut off. -/
def Unmarked (path : String) : Prop := ∀ c ∈ path.toList, isPathChar c = true

/-- A resource has a place at a server: its path has no marks, and what is filed under the path is of the
same namespace. -/
structure Placed (k : ServedKind) (r : Resource) (s : Dict Json) : Prop where
  unmarked : Unmarked (pathOf k r)
  filed : ∀ live : Resource, s.lookup (pathOf k r) = some live.toJson →
    (objects k live.namespaceName).path = (objects k r.namespaceName).path

/-! ## Requests and their paths -/

theorem member_of_name {c : Collection Json} {name : String} (hname : name ≠ "") :
    c.member name = .ok (c.path ++ "/" ++ name) := by
  rw [Collection.member, if_neg hname]
  rfl

theorem requestToGet_of_unmarked (hpath : Unmarked (pathOf k r)) (hname : r.name ≠ "") :
    requestToGet r.key k = .ok { method := .get, path := pathOf k r } :=
  mapError_eq_ok.2 (bind_eq_ok.2 ⟨pathOf k r, member_of_name hname, Request.to_get hpath⟩)

theorem requestToCreate_eq_ok (hpath : Unmarked (pathOf k r)) (h : requestToCreate r k = .ok q) :
    ∃ object, sent r = .ok object ∧ q.method = .post ∧ q.content = some ⟨wholeObject, object⟩ ∧
      q.path = (objects k r.namespaceName).path := by
  obtain ⟨object, hsent, hbuilt⟩ := bind_eq_ok.1 h
  have hto := mapError_eq_ok.1 hbuilt
  obtain ⟨hmethod, hcontent⟩ := Request.to_eq_ok hto
  refine ⟨object, hsent, hmethod, hcontent, Request.path_of_to (fun c hc => hpath c ?_) hto⟩
  rw [pathOf, String.toList_append, String.toList_append]
  exact List.mem_append_left _ (List.mem_append_left _ hc)

theorem requestToUpdate_eq_ok (hpath : Unmarked (pathOf k r)) (hname : r.name ≠ "")
    (h : requestToUpdate r k = .ok q) :
    ∃ object, sent r = .ok object ∧ q.method = .put ∧ q.content = some ⟨wholeObject, object⟩ ∧
      q.path = pathOf k r := by
  obtain ⟨object, hsent, hbuilt⟩ := bind_eq_ok.1 h
  obtain ⟨path, hmember, hto⟩ := bind_eq_ok.1 (mapError_eq_ok.1 hbuilt)
  obtain rfl : pathOf k r = path := Except.ok.inj ((member_of_name hname).symm.trans hmember)
  obtain ⟨hmethod, hcontent⟩ := Request.to_eq_ok hto
  exact ⟨object, hsent, hmethod, hcontent, Request.path_of_to hpath hto⟩

/-! ## What is found at a place -/

/-- A client knows the kind of a resource and finds a live object at its place. -/
structure Finds (r live : Resource) (known : KnownKinds) (s : Dict Json) : Prop where
  valid : Resource.ofJson live.toJson = .ok live
  stored : ∃ k x, known.lookup (r.apiVersion, r.kind) = some k ∧ Unmarked (pathOf k r) ∧
    s.lookup (pathOf k r) = some x ∧ readObject x = .ok live.toJson

/-- **What is found is fetched**, and nothing but that happens. -/
theorem Finds.fetched (h : Finds r live known s) (hname : r.name ≠ "")
    {x : Except Error (Option Resource)}
    (hrun : Program.Runs Files ((getObject r.key).run known) s t (x, known') s') :
    x = .ok (some live) ∧ known' = known ∧ s' = s ∧ ∀ e ∈ t, e.1.method = .get := by
  obtain ⟨hvalid, k, y, hknown, hpath, hstored, hread⟩ := h
  obtain ⟨reply, hreplied, rfl⟩ := runs_getObject.1 hrun
  have hrequest := requestToGet_of_unmarked hpath hname
  obtain ⟨rfl, ⟨cause, hunbuilt, -⟩ | ⟨q, a, hbuilt, hsent, rfl, rfl⟩⟩ := hreplied.of_known hknown
  · cases hrequest.symm.trans hunbuilt
  · obtain rfl := Except.ok.inj (hrequest.symm.trans hbuilt)
    obtain ⟨rfl, hfetched, -⟩ := Files.of_get hsent rfl
    have hread' := Response.as_eq_ok.2 ⟨y, hfetched y hstored, hread⟩
    refine ⟨fetchedAs_eq_some.2 ⟨_, hread', hvalid⟩, rfl, rfl, ?_⟩
    exact List.forall_mem_singleton.2 rfl

/-- An update that succeeds replaces an object. -/
theorem put_of_updated {y : Except Error Unit}
    (hrun : Program.Runs Files ((updateObject r).run known) s t (y, known') s') (hy : y = .ok ()) :
    ∃ e ∈ t, e.1.method = .put := by
  obtain ⟨reply, hreplied, rfl⟩ := runs_updateObject.1 hrun
  obtain ⟨a, rfl, -⟩ := Reply.answered_of_result hy nofun
  cases hreplied with
  | @answered _ _ q _ _ _ _ _ hbuilt _ =>
    obtain ⟨object, -, hreplacing⟩ := bind_eq_ok.1 hbuilt
    exact ⟨⟨q, a⟩, List.mem_append_right _ List.mem_cons_self,
      (Collection.replacing_eq_ok (mapError_eq_ok.1 hreplacing)).1⟩

/-- **An application over what is found** writes nothing exactly if there is nothing to merge, and else
replaces the object. -/
theorem applied_over (h : Finds r live known s) (hname : r.name ≠ "")
    {y : Except Error Manifest.Applied}
    (hrun : Program.Runs Files ((ofOperation (Manifest.apply r)).run known) s t (y, known') s') :
    (y = .ok .unchanged ↔ (r.mergeInto live).1 = false) ∧
      (y = .ok .unchanged → s' = s ∧ ∀ e ∈ t, e.1.method = .get) ∧
      ∀ b, y = .ok b → b ≠ .unchanged → ∃ e ∈ t, e.1.method = .put := by
  obtain ⟨e, hget, rfl⟩ | ⟨live?, known₁, t₁, s₁, t₂, rfl, hget, hrest⟩ := runs_apply_cases hrun
  · cases (h.fetched hname hget).1
  · obtain ⟨⟨⟩, rfl, rfl, hquiet⟩ := h.fetched hname hget
    obtain ⟨⟨⟩, -⟩ | ⟨_, ⟨⟩, ⟨hunchanged, rfl, rfl, -, rfl⟩ | ⟨hchanged, x, hupdate, rfl⟩⟩ := hrest
    · rw [List.append_nil]
      refine ⟨⟨fun _ => hunchanged, fun _ => rfl⟩, fun _ => ⟨rfl, hquiet⟩, fun b hb hne => ?_⟩
      exact absurd (Except.ok.inj hb).symm hne
    · have hne : x.map (fun _ => Manifest.Applied.updated) ≠ .ok .unchanged := by
        cases x <;> exact nofun
      refine ⟨⟨fun hy => absurd hy hne, fun hunchanged => ?_⟩, fun hy => absurd hy hne, fun b hb _ => ?_⟩
      · rw [hchanged] at hunchanged
        cases hunchanged
      · obtain ⟨_, hx, -⟩ := map_eq_ok.1 hb
        obtain ⟨e, he, hput⟩ := put_of_updated hupdate hx
        exact ⟨e, List.mem_append_right _ he, hput⟩

/-! ## What is left of an application -/

/-- What was fetched is found from then on. -/
theorem finds_of_fetched (hname : r.name ≠ "")
    (hplaced : ∀ k, known'.lookup (r.apiVersion, r.kind) = some k → Placed k r s)
    (hrun : Program.Runs Files ((getObject r.key).run known) s t (.ok (some live), known') s') :
    s' = s ∧ Finds r live known' s := by
  obtain ⟨reply, hreplied, hresult⟩ := runs_getObject.1 hrun
  obtain ⟨a, rfl, hfetched⟩ := Reply.answered_of_result hresult.symm nofun
  cases hreplied with
  | @answered t₁ k q _ _ s₁ _ hfind hbuilt hsent =>
    obtain rfl := files_of_fetches (fetches_find _ _ _) hfind
    have hknown := known_of_find hfind
    have hpath := (hplaced k hknown).unmarked
    obtain rfl := Except.ok.inj ((requestToGet_of_unmarked hpath hname).symm.trans hbuilt)
    obtain ⟨rfl, hstored, hmissing⟩ := Files.of_get hsent rfl
    obtain ⟨object, has, hreceived⟩ := fetchedAs_eq_some.1 hfetched
    obtain ⟨body, haccepted, hread⟩ := Response.as_eq_ok.1 has
    obtain ⟨rfl, hnamed⟩ := eq_of_received hreceived
    refine ⟨rfl, hreceived, k, ?_⟩
    cases hlookup : s'.lookup (pathOf k r) with
    | none =>
      rw [nameOf_readObject hread] at hnamed
      exact absurd (hmissing hlookup body haccepted) hnamed
    | some x =>
      obtain rfl := Except.ok.inj ((hstored x hlookup).symm.trans haccepted)
      exact ⟨x, hknown, hpath, rfl, hread⟩

/-- What is sent for a resource is received as one. -/
theorem received_of_sent (hvalid : Resource.ofJson r.toJson = .ok r) (hsent : sent r = .ok object) :
    ∃ live : Resource, object = live.toJson ∧ Resource.ofJson live.toJson = .ok live := by
  obtain ⟨-, -, hname⟩ := Resource.ofJson_toJson_iff.1 hvalid
  obtain ⟨m, hread, rfl⟩ := (readObject_iff (Resource.lookup_metadata hname)).1 (sent_iff.1 hsent)
  exact ⟨⟨_⟩, rfl, received_put hvalid hread⟩

/-- What was sent and stored at the place of a resource is found there. -/
theorem finds_of_stored {made : Resource} (hvalid : Resource.ofJson made.toJson = .ok made)
    (hsent : sent made = .ok object) (hknown : known.lookup (r.apiVersion, r.kind) = some k)
    (hpath : Unmarked (pathOf k r)) :
    ∃ live, readObject made.toJson = .ok live.toJson ∧
      Finds r live known (Table.put (pathOf k r) object s) := by
  obtain ⟨live, rfl, hlive⟩ := received_of_sent hvalid hsent
  have hread := sent_iff.1 hsent
  refine ⟨live, hread, hlive, k, live.toJson, hknown, hpath, ?_, readObject_readObject hread⟩
  rw [Table.lookup_put, if_pos rfl]

theorem finds_of_created (hvalid : Resource.ofJson r.toJson = .ok r)
    (hplaced : ∀ k, known'.lookup (r.apiVersion, r.kind) = some k → Unmarked (pathOf k r))
    (hrun : Program.Runs Files ((createObject r.tag).run known) s t (.ok (), known') s') :
    ∃ live, readObject r.tag.toJson = .ok live.toJson ∧ Finds r live known' s' := by
  obtain ⟨hapi, hkind, hns, hname⟩ := Resource.key_eq_iff.1 r.key_tag
  obtain ⟨reply, hreplied, hresult⟩ := runs_createObject.1 hrun
  obtain ⟨a, rfl, hwritten⟩ := Reply.answered_of_result hresult.symm (by rintro ⟨⟩)
  cases hreplied with
  | @answered t₁ k q _ _ s₁ _ hfind hbuilt hsent =>
    have hknown := known_of_find hfind
    rw [hapi, hkind] at hknown
    have hpath := hplaced k hknown
    have htagged : pathOf k r.tag = pathOf k r := by rw [pathOf, pathOf, hns, hname]
    obtain ⟨object, hobject, hmethod, hcontent, hplace⟩ :=
      requestToCreate_eq_ok (by rwa [htagged]) hbuilt
    obtain ⟨body, haccepted⟩ := accepted_of_writtenAs hwritten
    obtain ⟨name, hnamed, rfl⟩ := Files.of_post hsent hmethod hcontent haccepted
    have hstored : q.path ++ "/" ++ name = pathOf k r := by
      rw [hplace, hns, ← eq_name_of_sent hobject hnamed, hname, pathOf]
    rw [hstored]
    have hmade := Resource.ofJson_toJson_congr hapi hkind hname hvalid
    exact finds_of_stored hmade hobject hknown hpath

/-- What a resource is merged into stays at its place. -/
theorem pathOf_mergeInto (hr : r.Ordered) (hname : r.name ≠ "") (hlive : live.name ≠ "")
    (hfiled : (objects k live.namespaceName).path = (objects k r.namespaceName).path) :
    pathOf k (r.mergeInto live).2 = pathOf k r := by
  rw [pathOf, pathOf, Resource.name_mergeInto hr hname hlive]
  obtain h | ⟨-, h⟩ := Resource.namespaceName_mergeInto hr hname hlive
  · rw [h]
  · rw [h, hfiled]

theorem finds_of_updated (hwf : r.toJson.WellFormed) (hvalid : Resource.ofJson r.toJson = .ok r)
    (hlive : live.name ≠ "") (hknown : known.lookup (r.apiVersion, r.kind) = some k)
    (hpath : Unmarked (pathOf k r))
    (hfiled : (objects k live.namespaceName).path = (objects k r.namespaceName).path)
    (hrun : Program.Runs Files ((updateObject (r.mergeInto live).2).run known) s t (.ok (), known') s') :
    ∃ live', readObject (r.mergeInto live).2.toJson = .ok live'.toJson ∧ Finds r live' known' s' := by
  have hr := Resource.Ordered.of_wellFormed hwf
  obtain ⟨hapi, hkind, hname⟩ := Resource.ofJson_toJson_iff.1 hvalid
  have hapi' : (r.mergeInto live).2.apiVersion = r.apiVersion :=
    (Resource.apiVersion_mergeInto hr).resolve_right fun h => hapi h.1
  have hkind' : (r.mergeInto live).2.kind = r.kind :=
    (Resource.kind_mergeInto hr).resolve_right fun h => hkind h.1
  have hname' := Resource.name_mergeInto hr hname hlive
  have hplace := pathOf_mergeInto hr hname hlive hfiled
  obtain ⟨reply, hreplied, hresult⟩ := runs_updateObject.1 hrun
  obtain ⟨a, rfl, hwritten⟩ := Reply.answered_of_result hresult.symm nofun
  obtain ⟨rfl, ⟨_, -, ⟨⟩⟩ | ⟨q, _, hbuilt, hsent, -, ⟨⟩⟩⟩ :=
    hreplied.of_known (by rwa [hapi', hkind'])
  obtain ⟨object, hobject, hmethod, hcontent, hpath'⟩ :=
    requestToUpdate_eq_ok (by rwa [hplace]) (by rwa [hname']) hbuilt
  obtain ⟨body, haccepted⟩ := accepted_of_writtenAs hwritten
  rw [Files.of_put hsent hmethod hcontent haccepted, hpath', hplace]
  have hmade := Resource.ofJson_toJson_congr hapi' hkind' hname' hvalid
  exact finds_of_stored hmade hobject hknown hpath

/-- What is read of an object is of its identity. -/
theorem key_of_read {x : Json} (hread : readObject x = .ok live.toJson) (hname : live.name ≠ "") :
    ∃ filed : Resource, x = filed.toJson ∧ live.key = filed.key := by
  obtain ⟨members, -, rfl, -⟩ := readObject_eq_ok hread
  refine ⟨⟨members⟩, rfl, key_of_readObject (r := ⟨members⟩) ?_ hread⟩
  rwa [Resource.name, ← nameOf_toJson, Resource.toJson, ← nameOf_readObject hread, nameOf_toJson,
    ← Resource.name]

/-- **What an application leaves** is found from then on. There is nothing to merge into it exactly if the
resource is plain and, where it was created, keeps its tag. -/
theorem found_after_apply (hwf : r.toJson.WellFormed) (hvalid : Resource.ofJson r.toJson = .ok r)
    {a : Manifest.Applied}
    (hplaced : ∀ k, known'.lookup (r.apiVersion, r.kind) = some k → Placed k r s)
    (hrun : Program.Runs Files ((ofOperation (Manifest.apply r)).run known) s t (.ok a, known') s') :
    ∃ live, Finds r live known' s' ∧
      ((r.mergeInto live).1 = false ↔ r.Plain ∧ (a = .created → r.KeepsTag)) := by
  obtain ⟨-, -, hname⟩ := Resource.ofJson_toJson_iff.1 hvalid
  obtain ⟨e, -, ⟨⟩⟩ | ⟨live?, known₁, t₁, s₁, t₂, rfl, hget, hrest⟩ := runs_apply_cases hrun
  obtain ⟨rfl, x, hcreate, hx⟩ | ⟨live, rfl, ⟨hunchanged, rfl, hy, rfl, rfl⟩ | ⟨-, x, hupdate, hx⟩⟩ := hrest
  · -- created
    obtain ⟨_, rfl, rfl⟩ := map_eq_ok.1 hx.symm
    obtain ⟨live, hread, hfinds⟩ :=
      finds_of_created hvalid (fun k hk => (hplaced k hk).unmarked) hcreate
    exact ⟨live, hfinds, (unchanged_of_created hwf hvalid hread).trans (by simp)⟩
  · -- unchanged
    obtain rfl := Except.ok.inj hy
    obtain ⟨rfl, hfinds⟩ := finds_of_fetched hname hplaced hget
    obtain ⟨_, _, -, -, -, hread⟩ := hfinds.stored
    refine ⟨live, hfinds, fun _ => ⟨plain_of_unchanged hwf hname hread hunchanged, nofun⟩, fun _ => ?_⟩
    exact hunchanged
  · -- updated
    obtain ⟨_, rfl, rfl⟩ := map_eq_ok.1 hx.symm
    obtain ⟨_, hreplied, -⟩ := runs_updateObject.1 hupdate
    obtain ⟨rfl, hlive, k, stored, hknown, hpath, hlookup, hread⟩ :=
      finds_of_fetched hname (fun k hk => hplaced k (hreplied.lookup hk)) hget
    obtain ⟨-, -, hnamed⟩ := Resource.ofJson_toJson_iff.1 hlive
    obtain ⟨filed, rfl, hkey⟩ := key_of_read hread hnamed
    obtain ⟨-, -, hns, -⟩ := Resource.key_eq_iff.1 hkey
    have hfiled := (hplaced k (hreplied.lookup hknown)).filed filed hlookup
    rw [← hns] at hfiled
    obtain ⟨live', hread', hfinds⟩ := finds_of_updated hwf hvalid hnamed hknown hpath hfiled hupdate
    exact ⟨live', hfinds, (unchanged_of_updated hwf hvalid hread hnamed hread').trans (by simp)⟩

/-- **What is lost of the metadata is written again.** A resource is received as it was sent exactly if it
is plain. Applied twice, with nothing in between, it is replaced the second time unless it is plain and keeps
the tag that it was created with. -/
theorem lost_metadata_is_written_again (hwf : r.toJson.WellFormed)
    (hvalid : Resource.ofJson r.toJson = .ok r) :
    (∀ object, sent r = .ok object →
      ∃ r', received object = .ok r' ∧ ((r' == r) = true ↔ r.Plain)) ∧
    ∀ {known s t₁ a known₁ s₁},
      Program.Runs Files ((ofOperation (Manifest.apply r)).run known) s t₁ (.ok a, known₁) s₁ →
      (∀ k, known₁.lookup (r.apiVersion, r.kind) = some k → Placed k r s) →
      ∀ {t₂ y known₂ s₂},
        Program.Runs Files ((ofOperation (Manifest.apply r)).run known₁) s₁ t₂ (y, known₂) s₂ →
        (y = .ok .unchanged ↔ r.Plain ∧ (a = .created → r.KeepsTag)) ∧
          (y = .ok .unchanged → s₂ = s₁ ∧ ∀ e ∈ t₂, e.1.method = .get) ∧
          ∀ b, y = .ok b → b ≠ .unchanged → ∃ e ∈ t₂, e.1.method = .put := by
  refine ⟨fun object hsent => received_sent hwf hvalid hsent, fun hfirst hplaced _ y _ _ hsecond => ?_⟩
  obtain ⟨-, -, hname⟩ := Resource.ofJson_toJson_iff.1 hvalid
  obtain ⟨live, hfinds, hiff⟩ := found_after_apply hwf hvalid hplaced hfirst
  obtain ⟨hunchanged, hrest⟩ := applied_over hfinds hname hsecond
  exact ⟨hunchanged.trans hiff, hrest⟩

/-! ## A server in memory -/

namespace Filing

/-- What is answered where nothing is filed. -/
def absence : Response :=
  ⟨404, .obj [("code", .int 404), ("reason", .str "NotFound"), ("status", .str "Failure")]⟩

/-- Files objects as they are sent. -/
def handle : Program.Handler Request (fun _ => Response) (Dict Json) := fun q s =>
  match q.method, q.content with
  | .get, _ => (((s.lookup q.path).map (⟨200, ·⟩)).getD absence, s)
  | .post, some ⟨"application/json", x⟩ =>
    match nameOf x with
    | some name => (⟨201, x⟩, Table.put (q.path ++ "/" ++ name) x s)
    | none => (⟨422, .null⟩, s)
  | .put, some ⟨"application/json", x⟩ => (⟨200, x⟩, Table.put q.path x s)
  | _, _ => (⟨405, .null⟩, s)

theorem files_handle {q : Request} {a : Response} (h : handle.world s q a s') : Files s q a s' := by
  obtain ⟨method, path, parameters, content⟩ := q
  unfold Program.Handler.world handle at h
  split at h
  · next hget =>
    obtain ⟨rfl, rfl⟩ := Prod.mk.inj h
    cases hlookup : s.lookup path with
    | none => exact .absent hget hlookup nofun
    | some x => exact .fetched hget hlookup rfl
  · next x hpost hcontent =>
    split at h
    · next name hname =>
      obtain ⟨rfl, rfl⟩ := Prod.mk.inj h
      exact .created hpost hcontent hname rfl
    · obtain ⟨rfl, rfl⟩ := Prod.mk.inj h
      exact .refused (e := .refused (Response.plainStatus ⟨422, .null⟩))
        (fun hget => absurd (hpost.symm.trans hget) (by decide)) rfl
  · next x hput hcontent =>
    obtain ⟨rfl, rfl⟩ := Prod.mk.inj h
    exact .replaced hput hcontent rfl
  · next hother _ _ =>
    obtain ⟨rfl, rfl⟩ := Prod.mk.inj h
    exact .refused (e := .refused (Response.plainStatus ⟨405, .null⟩))
      (fun hget => hother hget) rfl

def settings (more : Dict Json) : Resource := ⟨[("apiVersion", .str "v1"), ("kind", .str "ConfigMap"),
  ("metadata", .obj (more ++ [("name", .str "settings"), ("namespace", .str "n")]))]⟩

def configMaps : KnownKinds :=
  [(("v1", "ConfigMap"), ⟨"", "v1", "ConfigMap", "configmaps", true⟩)]

/-- An application of a resource by a client that knows of settings. -/
def applying (r : Resource) : Steps (Except Error Manifest.Applied × KnownKinds) :=
  (ofOperation (Manifest.apply r)).run configMaps

/-- What is filed after a first application. -/
def filed (r : Resource) : Dict Json := (Program.run handle (applying r) []).2

theorem runs_applying (r : Resource) (s : Dict Json) :
    Program.Runs Files (applying r) s (Program.calls handle (applying r) s)
      ((Program.run handle (applying r) s).1.1, (Program.run handle (applying r) s).1.2)
      (Program.run handle (applying r) s).2 :=
  (Program.runs_handler handle (applying r) s).mono files_handle

/-- Settings without more are plain, and stay as they are. -/
theorem settings_settle :
    (settings []).toJson.WellFormed ∧ Resource.ofJson (settings []).toJson = .ok (settings []) ∧
      (Program.run handle (applying (settings [])) []).1 = (.ok .created, configMaps) ∧
      (∀ k, configMaps.lookup ((settings []).apiVersion, (settings []).kind) = some k →
        Placed k (settings []) []) ∧
      (settings []).Plain ∧ (settings []).KeepsTag ∧
      (Program.run handle (applying (settings [])) (filed (settings []))).1.1 = .ok .unchanged ∧
      (Program.run handle (applying (settings [])) (filed (settings []))).2 = filed (settings []) := by
  have hwf : (settings []).toJson.WellFormed := by
    simp [settings, Resource.toJson, WellFormed, WellFormedMembers, Table.Sorted]
    decide
  have hvalid : Resource.ofJson (settings []).toJson = .ok (settings []) :=
    Resource.ofJson_toJson_iff.2 (by decide)
  have hplaced : ∀ k, configMaps.lookup ((settings []).apiVersion, (settings []).kind) = some k →
      Placed k (settings []) [] := by
    rw [show (settings []).apiVersion = "v1" by decide, show (settings []).kind = "ConfigMap" by decide]
    rintro k ⟨⟩
    exact ⟨List.all_eq_true.1 (by decide +kernel), fun _ h => by cases h⟩
  have hfirst : (Program.run handle (applying (settings [])) []).1 = (.ok .created, configMaps) := by
    decide +kernel
  have hrun := runs_applying (settings []) []
  simp only [hfirst] at hrun
  obtain ⟨hreceived, hagain⟩ := lost_metadata_is_written_again hwf hvalid
  have hplain : (settings []).Plain := by
    obtain ⟨r', hr', hiff⟩ := hreceived (settings []).toJson rfl
    obtain rfl := Except.ok.inj (hvalid.symm.trans hr')
    exact hiff.1 (same_refl hwf)
  have hkeeps : (settings []).KeepsTag := by
    rintro x ⟨⟩
  obtain ⟨hunchanged, hquiet, -⟩ :=
    hagain hrun hplaced (runs_applying (settings []) (filed (settings [])))
  have hsecond := hunchanged.2 ⟨hplain, fun _ => hkeeps⟩
  exact ⟨hwf, hvalid, hfirst, hplaced, hplain, hkeeps, hsecond, (hquiet hsecond).1⟩

def nulled : Resource := settings [("creationTimestamp", .null)]

/-- **A member that is null is lost, so it is written again.** In a cluster in memory it is not. -/
theorem null_written_again :
    ((sent nulled >>= received).map (· == nulled)) = .ok false ∧
      (Program.run handle (applying nulled) []).1 = (.ok .created, configMaps) ∧
      (Program.run handle (applying nulled) (filed nulled)).1 = (.ok .updated, configMaps) ∧
      (Program.calls handle (applying nulled) (filed nulled)).map (·.1.method) = [.get, .put] ∧
      (Rehearsal.run (Manifest.apply nulled) {}).1 = .ok .created ∧
      (Rehearsal.run (Manifest.apply nulled) (Rehearsal.run (Manifest.apply nulled) {}).2).1 =
        .ok .unchanged := by
  decide +kernel

end Filing

end Client

end ReleaseKeeper.Api
