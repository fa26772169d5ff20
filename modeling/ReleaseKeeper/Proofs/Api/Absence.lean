import ReleaseKeeper.Manifest.Delete
import ReleaseKeeper.Proofs.Api.Operations
import ReleaseKeeper.Proofs.Api.Replies

/-!
# How absence and conflicts are told

A request that is refused fails by the code of its status, which tells absence and conflicts from all
else. Where an object is fetched it goes by the reason of the status instead: only what is refused as
`NotFound` counts as absent (`absence_goes_by_reason`). An answer of code 404 that tells no reason, as one
whose body is no status, is an error there, at which an application stops and with which a deletion ends
(`absent_without_reason`).
-/
namespace ReleaseKeeper.Api

open Typed

variable {σ α : Type}

/-! ## Refusals -/

theorem decode_ne_refused {read : Reader α} {body : Json} {status : ServerStatus} :
    decode read body ≠ .error (.refused status) := by
  rw [decode]
  intro h
  cases hread : read body <;> rw [hread] at h <;> cases h

theorem Response.as_eq_refused {read : Reader α} {a : Response} {status : ServerStatus} :
    a.as read = .error (.refused status) ↔ a.accepted = .error (.refused status) := by
  rw [Response.as]
  cases a.accepted with
  | error e => simp [Except.bind]
  | ok body => exact ⟨fun h => absurd h decode_ne_refused, fun h => by cases h⟩

theorem Response.outcome_eq_refused {read : Reader α} {a : Response} {status : ServerStatus} :
    a.outcome read = .error (.refused status) ↔ a.accepted = .error (.refused status) := by
  rw [Response.outcome]
  cases a.accepted with
  | error e => simp [Except.bind]
  | ok body =>
    refine ⟨fun h => ?_, fun h => by cases h⟩
    simp only [Except.bind] at h
    split at h
    · exact absurd h decode_ne_refused
    · cases hread : decode read body with
      | ok x => rw [hread] at h; cases h
      | error e =>
        rw [hread] at h
        obtain rfl := Except.error.inj h
        exact absurd hread decode_ne_refused

/-- The request was refused with a status of some kind. -/
def Reply.Refused (reply : Reply) (P : ServerStatus → Prop) : Prop :=
  ∃ status, reply.status? = some status ∧ P status

theorem Reply.refused_answered {a : Response} {P : ServerStatus → Prop} :
    (answered a).Refused P ↔ ∃ status, a.accepted = .error (.refused status) ∧ P status := by
  constructor
  · rintro ⟨status, hstatus, h⟩
    obtain ⟨_, ⟨⟩, haccepted⟩ := Reply.status?_eq_some.1 hstatus
    exact ⟨status, haccepted, h⟩
  · rintro ⟨status, haccepted, h⟩
    exact ⟨status, Reply.status?_eq_some.2 ⟨a, rfl, haccepted⟩, h⟩

namespace Client

variable {world : Program.World Request (fun _ => Response) σ} {apiVersion kind : String}
  {known known' : KnownKinds} {s s' : σ} {t : Program.Trace Request fun _ => Response}
  {key : ResourceKey} {a : Response} {reply : Reply} {status : ServerStatus}

/-- A refused request fails by the code of its status. -/
structure FailsAs (key : ResourceKey) (status : ServerStatus) (x : Except Error α) : Prop where
  notFound : status.code = 404 → x = .error (.notFound key.kind key.describe)
  conflict : status.code = 409 → x = .error (.conflict key.kind key.describe status.message)
  other : status.code ≠ 404 → status.code ≠ 409 → x = .error (.server (.refused status))

theorem failsAs_objectFailed (key : ResourceKey) (status : ServerStatus) :
    FailsAs key status (.error (objectFailed key (.refused status)) : Except Error α) := by
  refine ⟨fun h => ?_, fun h => ?_, fun h h' => ?_⟩ <;> simp [objectFailed, *]

theorem isNotFound_objectFailed {e : ServerError} :
    (objectFailed key e).isNotFound = true ↔ ∃ status, e = .refused status ∧ status.code = 404 := by
  cases e with
  | broken => simp [objectFailed, Error.isNotFound]
  | refused status =>
    by_cases h : status.code = 404
    · simp [objectFailed, h, Error.isNotFound]
    · by_cases h' : status.code = 409 <;> simp [objectFailed, h, h', Error.isNotFound]

theorem objectFailed_eq_notFound {e : ServerError} :
    objectFailed key e = .notFound key.kind key.describe ↔
      ∃ status, e = .refused status ∧ status.code = 404 := by
  constructor
  · intro h
    exact isNotFound_objectFailed.1 (congrArg Error.isNotFound h)
  · rintro ⟨status, rfl, h⟩
    simp [objectFailed, h]

theorem fetchedAs_of_refused (h : a.accepted = .error (.refused status)) :
    fetchedAs key a = if status.reason = "NotFound" then .ok none
      else .error (objectFailed key (.refused status)) := by
  rw [fetchedAs, Response.as_of_refused h, Collection.unlessAbsent]
  split <;> rfl

theorem deletedAs_of_refused (h : a.accepted = .error (.refused status)) :
    deletedAs key a = .error (objectFailed key (.refused status)) := by
  rw [deletedAs, Response.outcome_eq_refused.2 h]
  rfl

/-- A refusal comes out as the answer is read. -/
theorem failsAs_of_refused {absent : Except Error α} {read : Response → Except Error α}
    (hread : ∀ a, a.accepted = .error (.refused status) →
      read a = .error (objectFailed key (.refused status)))
    (h : reply.status? = some status) : FailsAs key status (reply.result absent read) := by
  obtain ⟨a, rfl, haccepted⟩ := Reply.status?_eq_some.1 h
  have hresult : (Reply.answered a).result absent read = read a := rfl
  rw [hresult, hread a haccepted]
  exact failsAs_objectFailed key status

/-! ## Fetching -/

/-- An object counts as absent that is refused as `NotFound`. -/
theorem fetchedAs_eq_none :
    fetchedAs key a = .ok none ↔
      ∃ status, a.accepted = .error (.refused status) ∧ status.reason = "NotFound" := by
  constructor
  · intro h
    rw [fetchedAs] at h
    cases hread : a.as readObject with
    | ok object =>
      rw [hread] at h
      obtain ⟨live, -, hlive⟩ := map_eq_ok.1 h
      cases hlive
    | error e =>
      cases e with
      | broken => rw [hread] at h; cases h
      | refused status =>
        have haccepted := Response.as_eq_refused.1 hread
        refine ⟨status, haccepted, ?_⟩
        by_contra hreason
        rw [hread, Collection.unlessAbsent, if_neg hreason] at h
        cases h
  · rintro ⟨status, haccepted, hreason⟩
    rw [fetchedAs_of_refused haccepted, if_pos hreason]

theorem isNotFound_of_received {object : Json} {e : Error} (h : received object = .error e) :
    e.isNotFound = false := by
  rw [received] at h
  unfold Resource.ofJson at h
  split at h
  · simp only at h
    split_ifs at h <;> (obtain rfl := Except.error.inj h; rfl)
  · obtain rfl := Except.error.inj h
    rfl

/-- Fetching fails with an error about absence where another reason is given for it. -/
theorem fetchedAs_isNotFound :
    (∃ e, fetchedAs key a = .error e ∧ e.isNotFound = true) ↔
      ∃ status, a.accepted = .error (.refused status) ∧
        status.code = 404 ∧ status.reason ≠ "NotFound" := by
  constructor
  · rintro ⟨e, h, he⟩
    rw [fetchedAs] at h
    cases hread : a.as readObject with
    | ok object =>
      have hreceived : (received object).map some = .error e := by rwa [hread] at h
      cases hobject : received object with
      | ok live => rw [hobject] at hreceived; cases hreceived
      | error e' =>
        rw [hobject] at hreceived
        obtain rfl := Except.error.inj hreceived
        rw [isNotFound_of_received hobject] at he
        cases he
    | error cause =>
      cases cause with
      | broken =>
        rw [hread] at h
        obtain rfl := Except.error.inj h
        cases he
      | refused status =>
        rw [hread, Collection.unlessAbsent] at h
        split_ifs at h with hreason
        · cases h
        · obtain rfl := Except.error.inj h
          obtain ⟨_, ⟨⟩, hcode⟩ := isNotFound_objectFailed.1 he
          exact ⟨status, Response.as_eq_refused.1 hread, hcode, hreason⟩
  · rintro ⟨status, haccepted, hcode, hreason⟩
    rw [fetchedAs_of_refused haccepted, if_neg hreason]
    exact ⟨_, rfl, isNotFound_objectFailed.2 ⟨status, rfl, hcode⟩⟩

theorem result_get_eq_none {reply : Reply} :
    reply.result (.ok none) (fetchedAs key) = .ok none ↔
      reply = .unserved ∨ reply.Refused fun status => status.reason = "NotFound" := by
  cases reply with
  | undiscovered | unsent =>
    refine ⟨nofun, ?_⟩
    rintro (⟨⟨⟩⟩ | ⟨_, ⟨⟩, -⟩)
  | unserved => exact ⟨fun _ => .inl rfl, fun _ => rfl⟩
  | answered a =>
    have hresult : (Reply.answered a).result (.ok none) (fetchedAs key) = fetchedAs key a := rfl
    rw [hresult, fetchedAs_eq_none, Reply.refused_answered]
    simp

/-- What is refused for another reason than `NotFound` fails by its code. -/
theorem failsAs_get (h : reply.status? = some status) (hreason : status.reason ≠ "NotFound") :
    FailsAs key status (reply.result (.ok none) (fetchedAs key)) := by
  refine failsAs_of_refused (fun a ha => ?_) h
  rw [fetchedAs_of_refused ha, if_neg hreason]

theorem isNotFound_of_requestToGet {k : ServedKind} {e : Error} (h : requestToGet key k = .error e) :
    e.isNotFound = false := by
  rw [requestToGet] at h
  cases hbuilt : (objects k key.namespaceName).getting key.name with
  | ok q => rw [hbuilt] at h; cases h
  | error cause =>
    obtain ⟨detail, rfl⟩ := Collection.getting_eq_error hbuilt
    rw [hbuilt] at h
    obtain rfl := Except.error.inj h
    rfl

/-- Looking an object up fails with an error about absence where another reason is given for it. -/
theorem result_get_isNotFound
    (h : Replied world key.apiVersion key.kind (requestToGet key) known s t reply known' s') :
    (∃ e, reply.result (.ok none) (fetchedAs key) = .error e ∧ e.isNotFound = true) ↔
      reply.Refused fun status => status.code = 404 ∧ status.reason ≠ "NotFound" := by
  cases h with
  | undiscovered =>
    refine ⟨?_, ?_⟩
    · rintro ⟨_, ⟨⟩, ⟨⟩⟩
    · rintro ⟨_, ⟨⟩, -⟩
  | unserved =>
    refine ⟨?_, ?_⟩
    · rintro ⟨_, ⟨⟩, -⟩
    · rintro ⟨_, ⟨⟩, -⟩
  | unsent _ hbuilt =>
    refine ⟨?_, ?_⟩
    · rintro ⟨_, ⟨⟩, he⟩
      rw [isNotFound_of_requestToGet hbuilt] at he
      cases he
    · rintro ⟨_, ⟨⟩, -⟩
  | answered => exact fetchedAs_isNotFound.trans Reply.refused_answered.symm

/-! ## Deleting -/

theorem deletedAs_eq_notFound :
    deletedAs key a = .error (.notFound key.kind key.describe) ↔
      ∃ status, a.accepted = .error (.refused status) ∧ status.code = 404 := by
  rw [deletedAs]
  constructor
  · intro h
    cases houtcome : a.outcome readObject with
    | ok => rw [houtcome] at h; cases h
    | error e =>
      rw [houtcome] at h
      obtain ⟨status, rfl, hcode⟩ := objectFailed_eq_notFound.1 (Except.error.inj h)
      exact ⟨status, Response.outcome_eq_refused.1 houtcome, hcode⟩
  · rintro ⟨status, haccepted, hcode⟩
    rw [Response.outcome_eq_refused.2 haccepted]
    exact congrArg Except.error (objectFailed_eq_notFound.2 ⟨status, rfl, hcode⟩)

/-- An object that is to be deleted counts as absent by the code alone. -/
theorem result_delete_eq_notFound
    (h : Replied world key.apiVersion key.kind (requestToDelete key) known s t reply known' s') :
    reply.result (.error (.notFound key.kind key.describe)) (deletedAs key) =
        .error (.notFound key.kind key.describe) ↔
      reply = .unserved ∨ reply.Refused fun status => status.code = 404 := by
  cases h with
  | undiscovered =>
    refine ⟨nofun, ?_⟩
    rintro (⟨⟨⟩⟩ | ⟨_, ⟨⟩, -⟩)
  | unserved => exact ⟨fun _ => .inl rfl, fun _ => rfl⟩
  | @unsent _ k _ _ _ _ hbuilt =>
    refine ⟨fun h => ?_, ?_⟩
    · rw [requestToDelete] at hbuilt
      cases hdeleting : (objects k key.namespaceName).deleting key.name with
      | ok q => rw [hdeleting] at hbuilt; cases hbuilt
      | error cause =>
        obtain ⟨detail, rfl⟩ := Collection.deleting_eq_error hdeleting
        rw [hdeleting] at hbuilt
        obtain rfl := Except.error.inj hbuilt
        cases h
    · rintro (⟨⟨⟩⟩ | ⟨_, ⟨⟩, -⟩)
  | answered =>
    refine deletedAs_eq_notFound.trans (Reply.refused_answered.symm.trans ?_)
    simp

/-! ## Releases -/

/-- An application goes on to create what counts as absent, and stops where its look-up fails. -/
theorem runs_apply_reply {r : Resource} {y : Except Error Manifest.Applied}
    (h : Program.Runs world ((ofOperation (Manifest.apply r)).run known) s t (y, known') s') :
    ∃ reply known₁ t₁ s₁ t₂, t = t₁ ++ t₂ ∧
      Replied world r.key.apiVersion r.key.kind (requestToGet r.key) known s t₁ reply known₁ s₁ ∧
      (∀ e, reply.result (.ok none) (fetchedAs r.key) = .error e →
        y = .error e ∧ t₂ = [] ∧ s' = s₁) ∧
      (reply.result (.ok none) (fetchedAs r.key) = .ok none → ∃ x,
        Program.Runs world ((createObject r.tag).run known₁) s₁ t₂ (x, known') s' ∧
          y = x.map fun _ => .created) := by
  obtain ⟨e, hget, rfl⟩ | ⟨live?, known₁, t₁, s₁, t₂, rfl, hget, hrest⟩ := runs_apply_cases h
  · obtain ⟨reply, hreplied, hresult⟩ := runs_getObject.1 hget
    refine ⟨reply, _, t, s', [], (List.append_nil t).symm, hreplied, fun e' he' => ?_, fun hnone => ?_⟩
    · obtain rfl := Except.error.inj (hresult.trans he')
      exact ⟨rfl, rfl, rfl⟩
    · cases hresult.trans hnone
  · obtain ⟨reply, hreplied, hresult⟩ := runs_getObject.1 hget
    refine ⟨reply, known₁, t₁, s₁, t₂, rfl, hreplied, fun e' he' => ?_, fun hnone => ?_⟩
    · cases hresult.trans he'
    · obtain rfl := Except.ok.inj (hresult.trans hnone)
      obtain ⟨-, hcreate⟩ | ⟨_, ⟨⟩, -⟩ := hrest
      exact hcreate

/-- A deletion ends with an error about absence only where its look-up does. -/
theorem runs_delete_reply {r : Resource} {y : Except Error Manifest.Deleted}
    (h : Program.Runs world ((ofOperation (Manifest.delete r)).run known) s t (y, known') s') :
    ∃ reply known₁ t₁ s₁ t₂, t = t₁ ++ t₂ ∧
      Replied world r.key.apiVersion r.key.kind (requestToGet r.key) known s t₁ reply known₁ s₁ ∧
      ((∃ e, y = .error e ∧ e.isNotFound = true) ↔
        ∃ e, reply.result (.ok none) (fetchedAs r.key) = .error e ∧ e.isNotFound = true) := by
  rw [Manifest.delete, Operation.get, runs_ofOperation_bind] at h
  obtain ⟨e, _, ⟨⟩, hget⟩ | ⟨live?, known₁, t₁, s₁, t₂, rfl, hget, hrest⟩ := h
  · obtain ⟨reply, hreplied, hresult⟩ := runs_getObject.1 (runs_ofOperation_ask.1 hget)
    refine ⟨reply, _, t, s', [], (List.append_nil t).symm, hreplied, ?_⟩
    simp only [← hresult, Except.error.injEq]
  · obtain ⟨reply, hreplied, hresult⟩ := runs_getObject.1 (runs_ofOperation_ask.1 hget)
    refine ⟨reply, known₁, t₁, s₁, t₂, rfl, hreplied, ?_⟩
    rw [← hresult]
    refine ⟨?_, by rintro ⟨_, ⟨⟩, -⟩⟩
    rintro ⟨e, rfl, he⟩
    cases live? with
    | none => cases (Program.runs_done_iff.1 hrest).2.1
    | some live =>
      by_cases htagged : live.isTagged = true
      · simp only [htagged, not_true_eq_false, if_false] at hrest
        obtain ⟨_, _, -, hdelete⟩ | ⟨x, _, _, _, _, -, -, hend⟩ := runs_ofOperation_bind.1 hrest
        · obtain ⟨_, -, ⟨⟩⟩ := runs_ofOperation_outcome.1 hdelete
        · cases x with
          | ok => cases (Program.runs_done_iff.1 hend).2.1
          | error cause =>
            -- an error about absence is not passed on
            by_cases hcause : cause.isNotFound = true
            · simp only [hcause, if_true] at hend
              cases (Program.runs_done_iff.1 hend).2.1
            · simp only [hcause] at hend
              obtain ⟨⟩ := (Program.runs_done_iff.1 hend).2.1
              exact absurd he hcause
      · simp only [htagged] at hrest
        cases (Program.runs_done_iff.1 hrest).2.1

/-! ## What a client makes of refusals -/

/-- How refusals are taken where a server answers: by the code of the status, but where an object is
fetched by its reason. -/
structure TakesRefusals (world : Program.World Request (fun _ => Response) σ) : Prop where
  /-- What is not served or refused as `NotFound` is absent; else the code tells the error. -/
  get : ∀ {key known s t x known' s'},
    Program.Runs world ((perform (.get key)).run known) s t (x, known') s' → ∃ reply,
      Replied world key.apiVersion key.kind (requestToGet key) known s t reply known' s' ∧
      (x = .ok none ↔ reply = .unserved ∨ reply.Refused fun status => status.reason = "NotFound") ∧
      ∀ status, reply.status? = some status → status.reason ≠ "NotFound" → FailsAs key status x
  create : ∀ {r known s t x known' s'},
    Program.Runs world ((perform (.create r)).run known) s t (x, known') s' → ∃ reply,
      Replied world r.apiVersion r.kind (requestToCreate r) known s t reply known' s' ∧
      ∀ status, reply.status? = some status → FailsAs r.key status x
  update : ∀ {r known s t x known' s'},
    Program.Runs world ((perform (.update r)).run known) s t (x, known') s' → ∃ reply,
      Replied world r.apiVersion r.kind (requestToUpdate r) known s t reply known' s' ∧
      ∀ status, reply.status? = some status → FailsAs r.key status x
  /-- What is not served or refused with code 404 is absent. -/
  delete : ∀ {key known s t x known' s'},
    Program.Runs world ((perform (.delete key)).run known) s t (x, known') s' → ∃ reply,
      Replied world key.apiVersion key.kind (requestToDelete key) known s t reply known' s' ∧
      (x = .error (.notFound key.kind key.describe) ↔
        reply = .unserved ∨ reply.Refused fun status => status.code = 404) ∧
      ∀ status, reply.status? = some status → FailsAs key status x
  /-- A deletion ends with an error about absence if the look-up is refused with code 404 for another
  reason than `NotFound`, and in no other case. -/
  deleteOf : ∀ {r known s t y known' s'},
    Program.Runs world ((ofOperation (Manifest.delete r)).run known) s t (y, known') s' →
      ∃ reply known₁ t₁ s₁ t₂, t = t₁ ++ t₂ ∧
        Replied world r.key.apiVersion r.key.kind (requestToGet r.key) known s t₁ reply known₁ s₁ ∧
        ((∃ e, y = .error e ∧ e.isNotFound = true) ↔
          reply.Refused fun status => status.code = 404 ∧ status.reason ≠ "NotFound")
  /-- An application creates what is absent to the look-up. It ends there, and nothing more is sent, if
  the look-up is refused with code 404 for another reason. -/
  applyOf : ∀ {r known s t y known' s'},
    Program.Runs world ((ofOperation (Manifest.apply r)).run known) s t (y, known') s' →
      ∃ reply known₁ t₁ s₁ t₂, t = t₁ ++ t₂ ∧
        Replied world r.key.apiVersion r.key.kind (requestToGet r.key) known s t₁ reply known₁ s₁ ∧
        (reply = .unserved ∨ (reply.Refused fun status => status.reason = "NotFound") → ∃ x,
          Program.Runs world ((perform (.create r.tag)).run known₁) s₁ t₂ (x, known') s' ∧
            y = x.map fun _ => .created) ∧
        ((reply.Refused fun status => status.code = 404 ∧ status.reason ≠ "NotFound") →
          y = .error (.notFound r.key.kind r.key.describe) ∧ t₂ = [])

/-- **Absence and conflicts go by the code, but absence of what is fetched by the reason**, whatever a
server answers to listings and requests. -/
theorem absence_goes_by_reason (world : Program.World Request (fun _ => Response) σ) :
    TakesRefusals world where
  get h := by
    obtain ⟨reply, hreplied, rfl⟩ := runs_getObject.1 h
    exact ⟨reply, hreplied, result_get_eq_none, fun _ => failsAs_get⟩
  create h := by
    obtain ⟨reply, hreplied, rfl⟩ := runs_createObject.1 h
    exact ⟨reply, hreplied, fun _ => failsAs_of_refused fun _ => writtenAs_of_refused⟩
  update h := by
    obtain ⟨reply, hreplied, rfl⟩ := runs_updateObject.1 h
    exact ⟨reply, hreplied, fun _ => failsAs_of_refused fun _ => writtenAs_of_refused⟩
  delete h := by
    obtain ⟨reply, hreplied, rfl⟩ := runs_deleteObject.1 h
    exact ⟨reply, hreplied, result_delete_eq_notFound hreplied,
      fun _ => failsAs_of_refused fun _ => deletedAs_of_refused⟩
  deleteOf h := by
    obtain ⟨reply, known₁, t₁, s₁, t₂, ht, hreplied, hy⟩ := runs_delete_reply h
    exact ⟨reply, known₁, t₁, s₁, t₂, ht, hreplied, hy.trans (result_get_isNotFound hreplied)⟩
  applyOf h := by
    obtain ⟨reply, known₁, t₁, s₁, t₂, ht, hreplied, hfailed, hcreated⟩ := runs_apply_reply h
    refine ⟨reply, known₁, t₁, s₁, t₂, ht, hreplied, fun h => hcreated (result_get_eq_none.2 h), ?_⟩
    rintro ⟨status, hstatus, hcode, hreason⟩
    obtain ⟨hy, ht₂, -⟩ := hfailed _ ((failsAs_get hstatus hreason).notFound hcode)
    exact ⟨hy, ht₂⟩

namespace Bare

/-- A server that answers all requests in plain text. -/
def handle : Program.Handler Request (fun _ => Response) Unit :=
  fun _ s => (⟨404, .str "404 page not found"⟩, s)

def settings : Resource := ⟨[("apiVersion", .str "v1"), ("kind", .str "ConfigMap"),
  ("metadata", .obj [("name", .str "settings"), ("namespace", .str "n")])]⟩

def configMaps : KnownKinds :=
  [(("v1", "ConfigMap"), ⟨"", "v1", "ConfigMap", "configmaps", true⟩)]

/-- What the answer of the server means. -/
def refusal : ServerStatus := (⟨404, .str "404 page not found"⟩ : Response).plainStatus

/-- **What the server does not have is no absent object.** Its answer has the code 404; the object is
looked up in vain, and so it is neither found absent nor deleted nor created. -/
theorem absent_without_reason :
    Program.calls handle ((perform (.get settings.key)).run configMaps) () =
        [⟨⟨.get, "/api/v1/namespaces/n/configmaps/settings", [], none⟩,
          ⟨404, .str "404 page not found"⟩⟩] ∧
      (⟨404, .str "404 page not found"⟩ : Response).accepted = .error (.refused refusal) ∧
      refusal.code = 404 ∧
      ((Program.run handle ((perform (.get settings.key)).run configMaps) ()).1.1.map fun _ => ()) =
        .error (.notFound "ConfigMap" settings.key.describe) ∧
      (Program.run handle ((ofOperation (Manifest.delete settings)).run configMaps) ()).1.1 =
        .error (.notFound "ConfigMap" settings.key.describe) ∧
      (Program.run handle ((ofOperation (Manifest.apply settings)).run configMaps) ()).1.1 =
        .error (.notFound "ConfigMap" settings.key.describe) :=
  ⟨rfl, rfl, rfl, by decide +kernel, by decide +kernel, by decide +kernel⟩

end Bare

end Client

end ReleaseKeeper.Api
