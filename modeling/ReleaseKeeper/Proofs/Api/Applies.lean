import ReleaseKeeper.Proofs.Api.Replies
import ReleaseKeeper.Proofs.Api.Server
import ReleaseKeeper.Proofs.Cluster.Tags
import ReleaseKeeper.Proofs.Manifest.Apply

/-!
# Resources applied while others write

Any number of parties apply resources through a server, request by request, while foreign clients
create, replace and delete the same objects. The calls of an operation are answered by requests, each
with the kinds that are known by then, so parties may share what they know (`Client.Answers`).

An update carries the version of the object that was fetched, and the server replaces an object of
that version only; as nothing else is ever of that version, the merge goes into the very object that
it was made from, and no write of another party in between is lost (`applies_lose_nothing`). What the
merge itself replaces is another matter: a payload is replaced whole, with the entries that others have
added to it (`entry_of_payload_lost`).
-/
namespace ReleaseKeeper.Json

/-! ## What a desired value leaves alone -/

/-- A desired value sets what is at the end of a path, or something that is no object above it. -/
def Mentions (desired : Json) (path : List String) : Prop :=
  ∃ q, q <+: path ∧ ∃ x, desired.at? q = some x ∧ (q = path ∨ x.asObj? = none)

/-- A path leads into a payload that a desired value sets. -/
def InPayload (desired : Json) (path : List String) : Prop :=
  ∃ q, q <+: path ∧ q.getLast? = some payloadKey ∧ (desired.at? q).isSome

theorem at?_append (p q : List String) : ∀ x : Json, x.at? (p ++ q) = (x.at? p).bind (at? q) := by
  induction p with
  | nil => exact fun x => rfl
  | cons key p ih =>
    intro x
    rw [List.cons_append, at?, at?]
    cases x.get? key with
    | none => rfl
    | some y => exact ih y

/-- Nothing is set behind a key that is not desired. -/
theorem untouched_of_lookup {desired : Dict Json} {key : String} (h : desired.lookup key = none)
    (path : List String) :
    ¬ Mentions (.obj desired) (key :: path) ∧ ¬ InPayload (.obj desired) (key :: path) := by
  have hnone : ∀ k q, k :: q <+: key :: path → (Json.obj desired).at? (k :: q) = none := by
    intro k q hq
    obtain ⟨rfl, -⟩ := List.cons_prefix_cons.1 hq
    rw [at?_obj, h, Option.bind_none]
  constructor
  · rintro ⟨_ | ⟨k, q⟩, hq, x, hx, hend⟩
    · obtain rfl := Option.some.inj hx
      obtain hend | hend := hend <;> cases hend
    · cases (hnone k q hq).symm.trans hx
  · rintro ⟨_ | ⟨k, q⟩, hq, hlast, hset⟩
    · cases hlast
    · rw [hnone k q hq] at hset
      cases hset

/-- **What others have set survives a merge** wherever the desired value neither mentions it nor sets
the payload that it is in. -/
theorem at?_merged_foreign {desired live : Dict Json} {path : List String} {y : Json}
    (hd : (Json.obj desired).WellFormed) (hy : (Json.obj live).at? path = some y)
    (hmentions : ¬ Mentions (.obj desired) path) (hpayload : ¬ InPayload (.obj desired) path) :
    (Json.obj (mergeMembers desired live).2).at? path = some y := by
  have hout : (Json.obj desired).at? path = none := by
    cases hx : (Json.obj desired).at? path with
    | none => rfl
    | some x => exact absurd ⟨path, List.prefix_refl _, x, hx, .inl rfl⟩ hmentions
  rw [at?_merged_outside hd (fun q hq hreplaced => ?_) hout, hy]
  obtain ⟨x, hx, hlast | hleaf | hlive⟩ := hreplaced
  · exact hpayload ⟨q, hq, hlast, by rw [hx]; rfl⟩
  · exact hmentions ⟨q, hq, x, hx, .inr hleaf⟩
  · -- the live value goes on behind this point, so it is an object there
    obtain ⟨rest, rfl⟩ := hq
    cases rest with
    | nil =>
      rw [List.append_nil] at hout
      cases hout.symm.trans hx
    | cons key rest =>
      rw [at?_append] at hy
      obtain ⟨z, hz, hy⟩ := Option.bind_eq_some_iff.1 hy
      rw [hz, Option.bind_some] at hlive
      rw [at?, get?, hlive] at hy
      cases hy

end ReleaseKeeper.Json

namespace ReleaseKeeper.Api

open Typed
open Program (Move Event movesOf Among)
open Relation (ReflTransGen)

/-! ## Operations as programs of requests -/

namespace Client

variable {α σ : Type}

/-- A program of requests that answers the calls of another one, each with some kinds known. -/
inductive Answers : Program Call Call.Answer α → Steps (α × KnownKinds) → Prop
  | done (x : α) (known : KnownKinds) : Answers (.done x) (.done (x, known))
  | call {c : Call} {next : c.Answer → Program Call Call.Answer α} (known : KnownKinds)
    {rest : c.Answer × KnownKinds → Steps (α × KnownKinds)}
    (later : ∀ a, Answers (next a.1) (rest a)) :
    Answers (.call c next) (Program.bind (answer c known) rest)

/-- A client that keeps to itself what it knows answers the calls of an operation. -/
theorem answers_ofOperation (op : Operation α) (known : KnownKinds) :
    Answers op.run ((ofOperation op).run known) := by
  have hinterpret : ∀ (p : Program Call Call.Answer (Except Error α)) (known : KnownKinds),
      Answers p (Program.interpret answer p known) := by
    intro p
    induction p with
    | done x => exact .done x
    | call c next ih => exact fun known => .call known fun a => ih a.1 a.2
  exact hinterpret op.run known

/-- What calls are answered where requests are. -/
def Asked (world : Program.World Request (fun _ => Response) σ) :
    Program.World Call Call.Answer σ :=
  fun s c a s' => ∃ known known' t, Program.Runs world (answer c known) s t (a, known') s'

/-- A run by requests is a run by calls. -/
theorem Answers.runs {world : Program.World Request (fun _ => Response) σ}
    {p : Program Call Call.Answer α} {q : Steps (α × KnownKinds)} (h : Answers p q) {s s' : σ}
    {t : Program.Trace Request fun _ => Response} {x : α} {known : KnownKinds}
    (hrun : Program.Runs world q s t (x, known) s') :
    ∃ t', Program.Runs (Asked world) p s t' x s' := by
  induction h generalizing s t with
  | done y k =>
    obtain ⟨-, hx, rfl⟩ := Program.runs_done_iff.1 hrun
    obtain ⟨rfl, -⟩ := Prod.mk.inj hx
    exact ⟨[], .done _ _⟩
  | @call c next k rest later ih =>
    obtain ⟨t₁, ⟨a, k'⟩, s₁, t₂, rfl, hcall, hrest⟩ := Program.runs_bind_iff.1 hrun
    obtain ⟨t', hlater⟩ := ih (a, k') hrest
    have hasked : Asked world s c a s₁ := ⟨k, k', t₁, hcall⟩
    exact ⟨⟨c, a⟩ :: t', .call hasked hlater⟩

end Client

/-! ## Calls among others -/

namespace Client

/-- A resource that is created where there was none, its metadata in typed form. -/
def Creates (r : Resource) (m : Requested) : Prop :=
  ∃ k object version, sent r = .ok object ∧ (objects k r.namespaceName).creating object = .ok m.call ∧
    m.before.objects.lookup (m.call.path ++ "/" ++ r.name) = none ∧ version ∉ m.before.given ∧
    m.after = m.before.store (m.call.path ++ "/" ++ r.name) version object

/-- An object that is fetched under a key, and what it is received as. -/
def Fetched (key : ResourceKey) (g : Requested) (stored : Json) (live : Resource) : Prop :=
  ∃ k object, (objects k key.namespaceName).getting key.name = .ok g.call ∧
    g.before.objects.lookup g.call.path = some stored ∧ readObject stored = .ok object ∧
    received object = .ok live

/-- A resource that replaces a stored object, its metadata in typed form. -/
def Replaces (r : Resource) (path : String) (old : Json) (m : Requested) : Prop :=
  ∃ object version, sent r = .ok object ∧ m.call.method = .put ∧ m.call.path = path ∧
    m.before.objects.lookup path = some old ∧ version ∉ m.before.given ∧
    m.after = m.before.store path version object

variable {α : Type} {s s' : Server} {ms ms' : List Requested} {r : Resource}

/-- A program that only fetches leaves the server to others. -/
theorem quiet_of_fetches {p : Steps α} (hp : Fetches p) {t : Program.Trace Request fun _ => Response}
    {x : α} (hrun : Program.Runs (Among Serves Foreign) p (s, ms) t x (s', ms')) :
    ReflTransGen (Program.Step Serves Foreign) s s' ∧
      ∃ quiet, ms' = ms ++ quiet ∧ ∀ m ∈ quiet, m.after = m.before := by
  obtain ⟨hsteps, quiet, hms, rfl, hmoves⟩ := Program.runs_among hrun
  refine ⟨hsteps, quiet, hms, fun m hm => ((hmoves m hm).of_get ?_).1⟩
  exact (hp.of_runs hrun).1 ⟨m.call, m.answer⟩ (List.mem_map_of_mem hm)

/-- **Fetching** changes nothing, and the version of what was fetched keeps telling it. -/
theorem asked_get {key : ResourceKey} {live? : Except Error (Option Resource)} (hs : s.Consistent)
    (h : Asked (Among Serves Foreign) (s, ms) (.get key) live? (s', ms')) :
    ∃ quiet, ms' = ms ++ quiet ∧ (∀ m ∈ quiet, m.after = m.before) ∧
      ∀ live, live? = .ok (some live) → ∃ g ∈ quiet, ∃ old version, Fetched key g old live ∧
        versionOf old = some version ∧ s'.Tells version g.call.path old := by
  obtain ⟨known, known', t, hrun⟩ := h
  obtain ⟨reply, hreplied, rfl⟩ := runs_getObject.1 hrun
  obtain ⟨found, t₁, ⟨s₁, ms₁⟩, hfind, hrest⟩ := hreplied.cases
  obtain ⟨hsteps, quiet, rfl, hquiet⟩ := quiet_of_fetches (fetches_find _ _ _) hfind
  have hs₁ : s₁.Consistent := Server.kept_by_everyone (fun h hs => hs.serves h) hsteps hs
  obtain ⟨hend, hunanswered⟩ | ⟨k, q, a, hbuilt, ⟨s₂, hserved, hlater, hnoted⟩, rfl⟩ := hrest
  · obtain ⟨rfl, rfl⟩ := Prod.mk.inj hend
    refine ⟨quiet, rfl, hquiet, fun live hlive => ?_⟩
    obtain ⟨a, ha, -⟩ := Reply.answered_of_result hlive nofun
    exact absurd ha (hunanswered a)
  · have hbuilt := mapError_eq_ok.1 hbuilt
    have hmethod := Collection.getting_eq_ok hbuilt
    obtain ⟨rfl, hanswer⟩ := hserved.of_get hmethod
    obtain rfl : ms' = ms ++ quiet ++ [⟨q, a, s₂, s₂⟩] := hnoted
    refine ⟨quiet ++ [⟨q, a, s₂, s₂⟩], List.append_assoc .., ?_, fun live hlive => ?_⟩
    · exact List.forall_mem_append.2 ⟨hquiet, by simp⟩
    · obtain ⟨object, hz, hlive⟩ := fetchedAs_eq_some.1 hlive
      obtain ⟨body, haccepted, hread⟩ := Response.as_eq_ok.1 hz
      obtain ⟨hstored, habsent⟩ := hanswer body haccepted
      cases hlookup : s₂.objects.lookup q.path with
      | none =>
        have hname := (eq_of_received hlive).2
        rw [nameOf_readObject hread] at hname
        exact absurd (habsent hlookup) hname
      | some old =>
        obtain rfl : body = old := hstored old hlookup
        obtain ⟨version, hversion, htells⟩ := hs₁.tells hlookup
        have htells' : s'.Tells version q.path body := Server.kept_by_everyone
          (I := fun s => s.Tells version q.path body) (fun h ht => ht.serves h) hlater htells
        exact ⟨_, List.mem_append_right _ List.mem_cons_self, body, version,
          ⟨k, object, hbuilt, hlookup, hread, hlive⟩, hversion, htells'⟩

/-- Writing a resource is one request behind others that only fetch, unless it fails before. -/
theorem asked_write {built : ServedKind → Json → Except ServerError Request}
    {known known' : KnownKinds} {t : Program.Trace Request fun _ => Response} {y : Except Error Unit}
    {absent : Error}
    (h : ∃ reply, Replied (Among Serves Foreign) r.apiVersion r.kind
        (fun k => do
          let object ← sent r
          (built k object).mapError (objectFailed r.key)) known (s, ms) t reply known' (s', ms') ∧
      y = reply.result (.error absent) (writtenAs r.key)) :
    ∃ quiet, (∀ m ∈ quiet, m.after = m.before) ∧
      ((ms' = ms ++ quiet ∧ ∃ e, y = .error e) ∨
      ∃ k object m, ReflTransGen (Program.Step Serves Foreign) s m.before ∧
        ms' = ms ++ quiet ++ [m] ∧ sent r = .ok object ∧ built k object = .ok m.call ∧
        Serves m.before m.call m.answer m.after ∧ y = writtenAs r.key m.answer) := by
  obtain ⟨reply, hreplied, rfl⟩ := h
  obtain ⟨found, t₁, ⟨s₁, ms₁⟩, hfind, hrest⟩ := hreplied.cases
  obtain ⟨hsteps, quiet, rfl, hquiet⟩ := quiet_of_fetches (fetches_find _ _ _) hfind
  obtain ⟨hend, hunanswered⟩ | ⟨k, q, a, hbuilt, ⟨s₂, hserved, -, hnoted⟩, rfl⟩ := hrest
  · obtain ⟨rfl, rfl⟩ := Prod.mk.inj hend
    refine ⟨quiet, hquiet, .inl ⟨rfl, ?_⟩⟩
    cases hresult : reply.result (.error absent) (writtenAs r.key) with
    | error e => exact ⟨e, rfl⟩
    | ok x =>
      obtain ⟨a, ha, -⟩ := Reply.answered_of_result hresult nofun
      exact absurd ha (hunanswered a)
  · obtain ⟨object, hsent, hbuilt⟩ := bind_eq_ok.1 hbuilt
    refine ⟨quiet, hquiet, .inr ⟨k, object, ⟨q, a, s₁, s₂⟩, ?_⟩⟩
    exact ⟨hsteps, hnoted, hsent, mapError_eq_ok.1 hbuilt, hserved, rfl⟩

/-- What was sent and is stored now is read from the answer. -/
theorem written_of_stored {object : Json} {a : Response} {version : String} {key : ResourceKey}
    (hsent : sent r = .ok object) (ha : a.accepted = .ok (stamped version object)) :
    writtenAs key a = .ok () := by
  obtain ⟨z, hz⟩ := readObject_stamped (sent_iff.1 hsent) version
  rw [writtenAs, Response.as_eq_ok.2 ⟨_, ha, hz⟩]
  rfl

/-- **Creating** a resource puts it where there was none, or changes nothing and fails. -/
theorem asked_create {y : Except Error Unit}
    (h : Asked (Among Serves Foreign) (s, ms) (.create r) y (s', ms')) :
    ∃ quiet, (∀ m ∈ quiet, m.after = m.before) ∧
      ((ms' = ms ++ quiet ∧ ∃ e, y = .error e) ∨
        ∃ m, ms' = ms ++ quiet ++ [m] ∧ y = .ok () ∧ Creates r m) := by
  obtain ⟨known, known', t, hrun⟩ := h
  obtain ⟨quiet, hquiet, hfailed | ⟨k, object, m, -, rfl, hsent, hbuilt, hserved, hy⟩⟩ :=
    asked_write (runs_createObject.1 hrun)
  · exact ⟨quiet, hquiet, .inl hfailed⟩
  · obtain ⟨hmethod, hcontent⟩ := Request.to_eq_ok hbuilt
    obtain ⟨hsame, e, hrefused⟩ | ⟨name, version, hnamed, habsent, hfresh, hanswered, hstored⟩ :=
      hserved.of_post hmethod hcontent
    · refine ⟨quiet ++ [m], List.forall_mem_append.2 ⟨hquiet, by simpa using hsame⟩, .inl ?_⟩
      exact ⟨List.append_assoc .., _, hy.trans (writtenAs_of_refused hrefused)⟩
    · obtain rfl := eq_name_of_sent hsent hnamed
      refine ⟨quiet, hquiet, .inr ⟨m, rfl, hy.trans (written_of_stored hsent hanswered), ?_⟩⟩
      exact ⟨k, object, version, hsent, hbuilt, habsent, hfresh, hstored⟩

/-- **Updating** an object that a version tells replaces that object, or changes nothing and fails. -/
theorem asked_update {version path : String} {old : Json} (htells : s.Tells version path old)
    (hversion : versionOf r.toJson = some version) {y : Except Error Unit}
    (h : Asked (Among Serves Foreign) (s, ms) (.update r) y (s', ms')) :
    ∃ quiet, (∀ m ∈ quiet, m.after = m.before) ∧
      ((ms' = ms ++ quiet ∧ ∃ e, y = .error e) ∨
        ∃ m, ms' = ms ++ quiet ++ [m] ∧ y = .ok () ∧ Replaces r path old m) := by
  obtain ⟨known, known', t, hrun⟩ := h
  obtain ⟨quiet, hquiet, hfailed | ⟨k, object, m, hsteps, rfl, hsent, hbuilt, hserved, hy⟩⟩ :=
    asked_write (runs_updateObject.1 hrun)
  · exact ⟨quiet, hquiet, .inl hfailed⟩
  · obtain ⟨hmethod, hcontent⟩ := Collection.replacing_eq_ok hbuilt
    obtain ⟨hsame, e, hrefused⟩ |
        ⟨stored, given, hstored, hcurrent, hfresh, hanswered, hafter⟩ :=
      hserved.of_put hmethod hcontent
    · refine ⟨quiet ++ [m], List.forall_mem_append.2 ⟨hquiet, by simpa using hsame⟩, .inl ?_⟩
      exact ⟨List.append_assoc .., _, hy.trans (writtenAs_of_refused hrefused)⟩
    · -- the body is of the version that was fetched, so what it replaces is what was fetched
      have hsentversion : versionOf object = some version := by
        rw [versionOf_readObject (sent_iff.1 hsent), hversion]
      have htells' : m.before.Tells version path old := Server.kept_by_everyone
        (I := fun s => s.Tells version path old) (fun h ht => ht.serves h) hsteps htells
      obtain ⟨hpath, rfl⟩ := htells'.only _ _ hstored (hcurrent version hsentversion)
      rw [hpath] at hstored hafter
      refine ⟨quiet, hquiet, .inr ⟨m, rfl, hy.trans (written_of_stored hsent hanswered), ?_⟩⟩
      exact ⟨object, given, hsent, hmethod, hpath, hstored, hfresh, hafter⟩

/-! ## An application among others -/

/-- A merge keeps the version of the live object if the desired resource sets none. -/
theorem versionOf_mergeInto (hr : r.toJson.WellFormed) (hname : r.name ≠ "")
    (hnone : r.toJson.at? ["metadata", "resourceVersion"] = none) (live : Resource) :
    versionOf (r.mergeInto live).2.toJson = versionOf live.toJson := by
  have hr' : r.Ordered := .of_wellFormed hr
  obtain ⟨d, hd⟩ := Resource.metadata_of_name hname
  have htells : Json.tells "resourceVersion" (r.members.lookup "metadata") = none := by
    rw [Resource.toJson, Json.at?_obj, hd, Option.bind_some, Json.at?_obj] at hnone
    cases hlast : d.lookup "resourceVersion" with
    | none => simp [hd, Json.tells, Json.asObj?, hlast]
    | some x =>
      rw [hlast] at hnone
      cases hnone
  rw [versionOf, versionOf, Resource.toJson, Resource.toJson, metadataText?_obj, metadataText?_obj]
  refine (Json.text_objectAt_merged "resourceVersion" (Table.keys_nodup hr'.members) (by decide)
    (Table.keys_nodup hr'.metadata)).trans ?_
  rw [htells]
  rfl

/-- What the requests of an application did, by what it came to. -/
inductive Went (r : Resource) : List Requested → Except Error Manifest.Applied → Prop
  | created {quiet : List Requested} {m : Requested} (looked : ∀ m' ∈ quiet, m'.after = m'.before)
    (creates : Creates r.tag m) : Went r (quiet ++ [m]) (.ok .created)
  | updated {quiet : List Requested} {g m : Requested} {old : Json} {live : Resource}
    (looked : ∀ m' ∈ quiet, m'.after = m'.before) (before : g ∈ quiet)
    (fetched : Fetched r.key g old live) (replaces : Replaces (r.mergeInto live).2 g.call.path old m) :
    Went r (quiet ++ [m]) (.ok .updated)
  | nothing {quiet : List Requested} {x : Except Error Manifest.Applied}
    (looked : ∀ m' ∈ quiet, m'.after = m'.before) (outcome : x = .ok .unchanged ∨ ∃ e, x = .error e) :
    Went r quiet x

/-- **One application among others** goes one of these ways. -/
theorem went_of_runs {t : Program.Trace Call Call.Answer} {x : Except Error Manifest.Applied}
    (hs : s.Consistent) (hr : r.toJson.WellFormed)
    (hnone : r.toJson.at? ["metadata", "resourceVersion"] = none)
    (hrun : Operation.Runs (Asked (Among Serves Foreign)) (Manifest.apply r) (s, []) t x (s', ms)) :
    Went r ms x := by
  generalize hend : (s', ms) = final at hrun
  cases Manifest.application_of_runs hrun with
  | unread looked =>
    obtain rfl := hend
    obtain ⟨quiet, rfl, hquiet, -⟩ := asked_get hs looked
    exact .nothing hquiet (.inr ⟨_, rfl⟩)
  | @creating s₁ _ a looked wrote =>
    obtain ⟨s₁, ms₁⟩ := s₁
    obtain rfl := hend
    obtain ⟨quiet, rfl, hquiet, -⟩ := asked_get hs looked
    obtain ⟨more, hmore, ⟨rfl, e, rfl⟩ | ⟨m, rfl, rfl, hcreates⟩⟩ := asked_create wrote
    · exact .nothing (List.forall_mem_append.2 ⟨hquiet, hmore⟩) (.inr ⟨e, rfl⟩)
    · exact .created (List.forall_mem_append.2 ⟨hquiet, hmore⟩) hcreates
  | keeping looked =>
    obtain rfl := hend
    obtain ⟨quiet, rfl, hquiet, -⟩ := asked_get hs looked
    exact .nothing hquiet (.inl rfl)
  | @updating live s₁ _ a looked differs wrote =>
    obtain ⟨s₁, ms₁⟩ := s₁
    obtain rfl := hend
    obtain ⟨quiet, rfl, hquiet, hfetched⟩ := asked_get hs looked
    obtain ⟨g, hg, old, version, hold, hversion, htells⟩ := hfetched live rfl
    have hname : r.name ≠ "" := by
      obtain ⟨k, object, hbuilt, -⟩ := hold
      exact Collection.name_ne_of_getting hbuilt
    have hmerged : versionOf (r.mergeInto live).2.toJson = some version := by
      obtain ⟨k, object, -, -, hread, hreceived⟩ := hold
      rw [versionOf_mergeInto hr hname hnone, ← (eq_of_received hreceived).1,
        versionOf_readObject hread, hversion]
    obtain ⟨more, hmore, ⟨rfl, e, rfl⟩ | ⟨m, rfl, rfl, hreplaces⟩⟩ :=
      asked_update htells hmerged wrote
    · exact .nothing (List.forall_mem_append.2 ⟨hquiet, hmore⟩) (.inr ⟨e, rfl⟩)
    · exact .updated (List.forall_mem_append.2 ⟨hquiet, hmore⟩) (List.mem_append_left _ hg) hold
        hreplaces

/-- **What others have set survives an update** beside the metadata, wherever the desired resource
neither mentions it nor sets the payload that it is in. -/
theorem survives_update {k : ResourceKey} {g m : Requested} {old : Json} {live : Resource}
    {place key : String} {path : List String} {y : Json} (hr : r.toJson.WellFormed)
    (hfetched : Fetched k g old live) (hreplaces : Replaces (r.mergeInto live).2 place old m)
    (hkey : key ≠ "metadata") (hy : old.at? (key :: path) = some y)
    (hmentions : ¬ Json.Mentions r.toJson (key :: path))
    (hpayload : ¬ Json.InPayload r.toJson (key :: path)) :
    ∃ stored, m.after.objects.lookup place = some stored ∧ stored.at? (key :: path) = some y := by
  obtain ⟨_, fetched, -, -, hread, hreceived⟩ := hfetched
  obtain ⟨object, version, hsent, -, -, -, -, hafter⟩ := hreplaces
  have hlive : live.toJson.at? (key :: path) = some y := by
    rw [← (eq_of_received hreceived).1, at?_readObject hread hkey, hy]
  refine ⟨stamped version object, ?_, ?_⟩
  · rw [hafter, Server.lookup_store, if_pos rfl]
  · rw [at?_stamped hkey, at?_readObject (sent_iff.1 hsent) hkey]
    exact Json.at?_merged_foreign hr hlive hmentions hpayload

/-! ## One object that is applied and changed -/

namespace Settings

def known : KnownKinds := [(("v1", "ConfigMap"), ⟨"", "v1", "ConfigMap", "configmaps", true⟩)]

def path : String := "/api/v1/namespaces/n/configmaps/settings"

def config (fields : Dict Json) : Resource where
  members := ("apiVersion", .str "v1") :: fields ++ [("kind", .str "ConfigMap"),
    ("metadata", .obj [("name", .str "settings"), ("namespace", .str "n")])]

def payload : Dict Json := [("data", .obj [("a", .str "1")])]

/-- A payload that has another entry. -/
def larger : Dict Json := [("data", .obj [("a", .str "0"), ("b", .str "2")])]

/-- A field beside the payload. -/
def aside : Dict Json := [("immutable", .bool true)]

/-- The object as it is stored. -/
def stored (version : String) (fields : Dict Json) : Json := stamped version (config fields).toJson

def server (version : String) (given : List String) (fields : Dict Json) : Server where
  objects := [(path, stored version fields)]
  given := version :: given

def getting : Request := { method := .get, path := path }

def putting (version : String) (fields : Dict Json) : Request where
  method := .put
  path := path
  parameters := ["fieldManager=serving-operator"]
  content := some ⟨wholeObject, stored version fields⟩

variable {version version' : String} {given : List String} {fields fields' : Dict Json}

theorem lookup_server {p : String} {x : Json}
    (h : (server version given fields).objects.lookup p = some x) :
    p = path ∧ x = stored version fields := by
  rw [server, List.lookup_cons] at h
  split at h
  · next hp => exact ⟨beq_iff_eq.1 hp, (Option.some.inj h).symm⟩
  · cases h

theorem versionOf_stored : versionOf (stored version fields) = some version := versionOf_stamped rfl

theorem consistent_server : (server version given fields).Consistent where
  versioned p x hx := by
    obtain ⟨-, rfl⟩ := lookup_server hx
    exact ⟨version, List.mem_cons_self, versionOf_stored⟩
  distinct p q x y hx hy _ := (lookup_server hx).1.trans (lookup_server hy).1.symm

theorem fetched : Serves (server version given fields) getting ⟨200, stored version fields⟩
    (server version given fields) := by
  have hlookup : (server version given fields).objects.lookup getting.path =
      some (stored version fields) := rfl
  refine .fetched rfl rfl (fun x hx => Option.some.inj (hlookup.symm.trans hx)) fun habsent => ?_
  cases hlookup.symm.trans habsent

theorem replaced (hfresh : version' ∉ version :: given) :
    Serves (server version given fields) (putting version fields') ⟨200, stored version' fields'⟩
      (server version' (version :: given) fields') := by
  have hstamped : stored version' fields' = stamped version' (stored version fields') :=
    (stamped_stamped ..).symm
  have hstored : server version' (version :: given) fields' =
      (server version given fields).store path version' (stored version fields') := by
    rw [Server.store, ← hstamped]
    rfl
  rw [hstored, hstamped]
  refine .replaced rfl rfl rfl rfl (fun v hv => ?_) hfresh rfl
  rw [versionOf_stored] at hv
  obtain rfl := Option.some.inj hv
  exact versionOf_stored

end Settings

/-- **Applications lose no update.** Parties make requests of a server in any order, and foreign
clients in between. When one of them has applied a resource that sets no version, it made one request
that changed something at most, the last one. If it reports that it has created the resource, it has
put it where there was none. If it reports an update, it has fetched an object before and has replaced
that very object, as it was fetched, by the merge; so what others have set beside the metadata is
there still, unless the resource mentions it or sets the payload that it is in. Otherwise it has
changed nothing. -/
theorem applies_lose_nothing {ι : Type} [DecidableEq ι]
    {ps qs : ι → Steps (Except Error Manifest.Applied × KnownKinds)}
    {h : List (Event ι Request (fun _ => Response) (Request × Response) Server)} {j : ι}
    {x : Except Error Manifest.Applied} {known : KnownKinds} (hs : s.Consistent)
    (hr : r.toJson.WellFormed) (hnone : r.toJson.at? ["metadata", "resourceVersion"] = none)
    (hp : Answers (Manifest.apply r).run (ps j))
    (hrun : Program.Interleaved Serves Foreign ps s h qs s') (hdone : qs j = .done (x, known)) :
    (x = .ok .created → ∃ quiet m, movesOf j h = quiet ++ [m] ∧
      (∀ m' ∈ quiet, m'.after = m'.before) ∧ Creates r.tag m) ∧
    (x = .ok .updated → ∃ quiet m g old live, movesOf j h = quiet ++ [m] ∧
      (∀ m' ∈ quiet, m'.after = m'.before) ∧ g ∈ quiet ∧ Fetched r.key g old live ∧
      Replaces (r.mergeInto live).2 g.call.path old m ∧
      ∀ key path y, key ≠ "metadata" → old.at? (key :: path) = some y →
        ¬ Json.Mentions r.toJson (key :: path) → ¬ Json.InPayload r.toJson (key :: path) →
        ∃ stored, m.after.objects.lookup g.call.path = some stored ∧
          stored.at? (key :: path) = some y) ∧
    (x = .ok .unchanged ∨ (∃ e, x = .error e) → ∀ m ∈ movesOf j h, m.after = m.before) := by
  obtain ⟨s₀, t, hsteps, hparty⟩ := hrun.runs hdone []
  have hs₀ : s₀.Consistent := Server.kept_by_everyone (fun h hs => hs.serves h) hsteps hs
  obtain ⟨t', hcalls⟩ := hp.runs hparty
  rw [List.nil_append] at hcalls
  have hwent : Went r (movesOf j h) x := went_of_runs hs₀ hr hnone hcalls
  generalize movesOf j h = ms at hwent
  cases hwent with
  | created looked creates =>
    exact ⟨fun _ => ⟨_, _, rfl, looked, creates⟩, by simp, by simp⟩
  | updated looked before fetched replaces =>
    refine ⟨by simp, fun _ => ?_, by simp⟩
    exact ⟨_, _, _, _, _, rfl, looked, before, fetched, replaces,
      fun key path y => survives_update hr fetched replaces⟩
  | nothing looked outcome =>
    refine ⟨?_, ?_, fun _ => looked⟩
    · rintro rfl
      simp at outcome
    · rintro rfl
      simp at outcome

section

open Settings

/-- Someone else sets a payload before the object is applied without one, and it is there still. -/
theorem applies_lose_nothing_payload :
    ∃ (ps : Unit → Steps (Except Error Manifest.Applied × KnownKinds))
      (h : List (Event Unit Request (fun _ => Response) (Request × Response) Server)),
      (server "1" [] []).Consistent ∧ (config aside).toJson.WellFormed ∧
      (config aside).toJson.at? ["metadata", "resourceVersion"] = none ∧
      Answers (Manifest.apply (config aside)).run (ps ()) ∧
      Program.Interleaved Serves Foreign ps (server "1" [] []) h
        (fun _ => .done (.ok .updated, known)) (server "3" ["2", "1"] (payload ++ aside)) ∧
      ∃ m ∈ movesOf () h, ∃ x, m.after.objects.lookup path = some x ∧
        x.at? ["data", "a"] = some (.str "1") := by
  let ps : Unit → Steps (Except Error Manifest.Applied × KnownKinds) :=
    fun _ => (ofOperation (Manifest.apply (config aside))).run known
  let g : Requested := ⟨getting, ⟨200, stored "2" payload⟩, server "2" ["1"] payload,
    server "2" ["1"] payload⟩
  let p : Requested := ⟨putting "2" (payload ++ aside), ⟨200, stored "3" (payload ++ aside)⟩,
    server "2" ["1"] payload, server "3" ["2", "1"] (payload ++ aside)⟩
  have hchanged : Serves (server "1" [] []) (putting "1" payload) ⟨200, stored "2" payload⟩
      (server "2" ["1"] payload) := replaced (by decide)
  have hfetched : Serves g.before g.call g.answer g.after := fetched
  have hmerged : Serves p.before p.call p.answer p.after := replaced (by decide)
  let h : List (Event Unit Request (fun _ => Response) (Request × Response) Server) :=
    [.foreign (putting "1" payload, ⟨200, stored "2" payload⟩) (server "1" [] [])
      (server "2" ["1"] payload), .own () g, .own () p]
  have hrun : Program.Interleaved Serves Foreign ps (server "1" [] []) h
      (fun _ => .done (.ok .updated, known)) (server "3" ["2", "1"] (payload ++ aside)) :=
    .foreign hchanged (.only (c := getting) rfl hfetched
      (.only (c := putting "2" (payload ++ aside)) rfl hmerged (.rest _ _)))
  have hp : Answers (Manifest.apply (config aside)).run (ps ()) := answers_ofOperation _ _
  have hr : (config aside).toJson.WellFormed := by
    simp only [config, aside, Resource.toJson, List.cons_append, List.nil_append, Json.WellFormed,
      Json.WellFormedMembers, Table.Sorted]
    decide
  obtain ⟨-, hupdated, -⟩ :=
    applies_lose_nothing (j := ()) consistent_server hr rfl hp hrun rfl
  obtain ⟨quiet, m, g', old, live, hmoves, -, hg, ⟨_, _, -, hold, -⟩, -, hsurvives⟩ := hupdated rfl
  have hmoves : [g] ++ [p] = quiet ++ [m] := hmoves
  obtain ⟨rfl, hm⟩ := List.append_inj' hmoves rfl
  obtain rfl := List.singleton_inj.1 hm
  obtain rfl := List.mem_singleton.1 hg
  obtain ⟨-, rfl⟩ := lookup_server hold
  have hlookup : (config aside).members.lookup "data" = none := rfl
  obtain ⟨hmentions, hpayload⟩ :=
    Json.untouched_of_lookup hlookup ["a"]
  have hlast : p ∈ movesOf () h := List.mem_cons_of_mem _ List.mem_cons_self
  refine ⟨ps, h, consistent_server, hr, rfl, hp, hrun, p, hlast, ?_⟩
  exact hsurvives "data" ["a"] (.str "1") (by decide) rfl hmentions hpayload

/-- **A payload is replaced whole.** Someone else changes the payload of an object and adds an entry
to it; the object is applied with a payload that does not have the entry. It is updated, and the entry
is gone, though the resource does not mention it. -/
theorem entry_of_payload_lost :
    ∃ h, (server "1" [] payload).Consistent ∧ (config payload).toJson.WellFormed ∧
      (config payload).toJson.at? ["metadata", "resourceVersion"] = none ∧
      Program.Interleaved Serves Foreign
        (fun _ : Unit => (ofOperation (Manifest.apply (config payload))).run known)
        (server "1" [] payload) h (fun _ => .done (.ok .updated, known))
        (server "3" ["2", "1"] payload) ∧
      .foreign (putting "1" larger, ⟨200, stored "2" larger⟩) (server "1" [] payload)
        (server "2" ["1"] larger) ∈ h ∧
      (stored "2" larger).at? ["data", "b"] = some (.str "2") ∧
      (config payload).toJson.at? ["data", "b"] = none ∧
      (stored "3" payload).at? ["data", "b"] = none := by
  have hadded : Serves (server "1" [] payload) (putting "1" larger) ⟨200, stored "2" larger⟩
      (server "2" ["1"] larger) := replaced (by decide)
  have hforeign : Foreign (putting "1" larger, ⟨200, stored "2" larger⟩) (server "1" [] payload)
      (server "2" ["1"] larger) := hadded
  have hfetched : Serves (server "2" ["1"] larger) getting ⟨200, stored "2" larger⟩
      (server "2" ["1"] larger) := fetched
  have hmerged : Serves (server "2" ["1"] larger) (putting "2" payload) ⟨200, stored "3" payload⟩
      (server "3" ["2", "1"] payload) := replaced (by decide)
  have hr : (config payload).toJson.WellFormed := by
    simp only [config, payload, Resource.toJson, List.cons_append, List.nil_append, Json.WellFormed,
      Json.WellFormedMembers, Table.Sorted]
    decide
  have hrun : Program.Interleaved Serves Foreign
      (fun _ : Unit => (ofOperation (Manifest.apply (config payload))).run known)
      (server "1" [] payload) _ (fun _ => .done (.ok .updated, known))
      (server "3" ["2", "1"] payload) :=
    .foreign hforeign (.only (c := getting) rfl hfetched
      (.only (c := putting "2" payload) rfl hmerged (.rest _ _)))
  exact ⟨_, consistent_server, hr, rfl, hrun, List.mem_cons_self, rfl, rfl, rfl⟩

end

end Client

end ReleaseKeeper.Api
