import ReleaseKeeper.Proofs.Api.Objects

/-!
# What becomes of a request about an object

A client finds the kind of an object, builds the request and sends it, and may be stopped at each of these
steps (`Reply`, `Client.Replied`). What a call then comes to depends on nothing but the reply
(`runs_getObject`, `runs_createObject`, `runs_updateObject`, `runs_deleteObject`).
-/
namespace ReleaseKeeper.Api

variable {σ α β : Type}

/-- What became of a request about an object. -/
inductive Reply where
  /-- The server did not tell what it serves. -/
  | undiscovered (cause : ServerError)
  /-- The kind is not served. -/
  | unserved
  /-- There was nothing that could be sent. -/
  | unsent (cause : Error)
  | answered (a : Response)

namespace Reply

/-- The status that a request was refused with. -/
def status? : Reply → Option ServerStatus
  | answered a => match a.accepted with
    | .error (.refused status) => some status
    | _ => none
  | _ => none

/-- What a call comes to, which goes by the answer if there is one. -/
def result (absent : Except Error α) (read : Response → Except Error α) : Reply → Except Error α
  | undiscovered cause => .error (Client.discoveryFailed cause)
  | unserved => absent
  | unsent cause => .error cause
  | answered a => read a

theorem answered_of_result {absent : Except Error α} {read : Response → Except Error α} {x : α}
    {reply : Reply} (h : reply.result absent read = .ok x) (habsent : absent ≠ .ok x) :
    ∃ a, reply = answered a ∧ read a = .ok x := by
  cases reply with
  | undiscovered | unsent => cases h
  | unserved => exact absurd h habsent
  | answered a => exact ⟨a, rfl, h⟩

theorem status?_eq_some {reply : Reply} {status : ServerStatus} :
    reply.status? = some status ↔ ∃ a, reply = answered a ∧ a.accepted = .error (.refused status) := by
  cases reply with
  | answered a =>
    rw [status?]
    constructor
    · intro h
      split at h
      · next haccepted =>
        obtain rfl := Option.some.inj h
        exact ⟨a, rfl, haccepted⟩
      · cases h
    · rintro ⟨_, ⟨⟩, haccepted⟩
      rw [haccepted]
  | _ => exact ⟨nofun, nofun⟩

end Reply

namespace Client

variable {world : Program.World Request (fun _ => Response) σ} {apiVersion kind : String}
  {known known' : KnownKinds} {s s' : σ} {t : Program.Trace Request fun _ => Response}

/-- A request about an object of a kind can be made with a reply. -/
inductive Replied (world : Program.World Request (fun _ => Response) σ) (apiVersion kind : String)
    (built : ServedKind → Except Error Request) (known : KnownKinds) (s : σ) :
    (Program.Trace Request fun _ => Response) → Reply → KnownKinds → σ → Prop
  | undiscovered {t : Program.Trace Request fun _ => Response} {cause : ServerError}
    {known' : KnownKinds} {s' : σ} (find : Program.Runs world ((find apiVersion kind).run known) s t
      (.error (discoveryFailed cause), known') s') :
    Replied world apiVersion kind built known s t (.undiscovered cause) known' s'
  | unserved {t : Program.Trace Request fun _ => Response} {known' : KnownKinds} {s' : σ}
    (find : Program.Runs world ((find apiVersion kind).run known) s t (.ok none, known') s') :
    Replied world apiVersion kind built known s t .unserved known' s'
  | unsent {t : Program.Trace Request fun _ => Response} {k : ServedKind} {cause : Error}
    {known' : KnownKinds} {s' : σ}
    (find : Program.Runs world ((find apiVersion kind).run known) s t (.ok (some k), known') s')
    (unbuilt : built k = .error cause) :
    Replied world apiVersion kind built known s t (.unsent cause) known' s'
  | answered {t : Program.Trace Request fun _ => Response} {k : ServedKind} {q : Request}
    {a : Response} {known' : KnownKinds} {s₁ s' : σ}
    (find : Program.Runs world ((find apiVersion kind).run known) s t (.ok (some k), known') s₁)
    (built_eq : built k = .ok q) (sent : world s₁ q a s') :
    Replied world apiVersion kind built known s (t ++ [⟨q, a⟩]) (.answered a) known' s'

/-- A request is made behind finding the kind, or it is not made. -/
theorem Replied.cases {built : ServedKind → Except Error Request} {reply : Reply}
    (h : Replied world apiVersion kind built known s t reply known' s') :
    ∃ found t₁ s₁, Program.Runs world ((find apiVersion kind).run known) s t₁ found s₁ ∧
      ((s' = s₁ ∧ ∀ a, reply ≠ .answered a) ∨
      ∃ k q a, built k = .ok q ∧ world s₁ q a s' ∧ reply = .answered a) := by
  cases h with
  | undiscovered find => exact ⟨_, _, _, find, .inl ⟨rfl, nofun⟩⟩
  | unserved find => exact ⟨_, _, _, find, .inl ⟨rfl, nofun⟩⟩
  | unsent find => exact ⟨_, _, _, find, .inl ⟨rfl, nofun⟩⟩
  | answered find built_eq sent => exact ⟨_, _, _, find, .inr ⟨_, _, _, built_eq, sent, rfl⟩⟩

/-- What is known stays known. -/
theorem Replied.lookup {built : ServedKind → Except Error Request} {reply : Reply}
    {name : String × String} {k : ServedKind} (hknown : known.lookup name = some k)
    (h : Replied world apiVersion kind built known s t reply known' s') :
    known'.lookup name = some k := by
  cases h with
  | undiscovered find | unserved find | unsent find | answered find => exact lookup_of_find hknown find

/-- Where the kind is known, nothing but the request is made. -/
theorem Replied.of_known {built : ServedKind → Except Error Request} {reply : Reply} {k : ServedKind}
    (hknown : known.lookup (apiVersion, kind) = some k)
    (h : Replied world apiVersion kind built known s t reply known' s') :
    known' = known ∧ ((∃ cause, built k = .error cause ∧ reply = .unsent cause) ∨
      ∃ q a, built k = .ok q ∧ world s q a s' ∧ t = [⟨q, a⟩] ∧ reply = .answered a) := by
  have hdone := find_of_known hknown
  cases h with
  | undiscovered find | unserved find =>
    rw [hdone] at find
    cases (Program.runs_done_iff.1 find).2.1
  | unsent find unbuilt =>
    rw [hdone] at find
    obtain ⟨-, ⟨⟩, -⟩ := Program.runs_done_iff.1 find
    exact ⟨rfl, .inl ⟨_, unbuilt, rfl⟩⟩
  | answered find built_eq sent =>
    rw [hdone] at find
    obtain ⟨rfl, ⟨⟩, rfl⟩ := Program.runs_done_iff.1 find
    exact ⟨rfl, .inr ⟨_, _, built_eq, sent, rfl, rfl⟩⟩

/-- What follows on finding a kind is one request whose answer alone counts. -/
structure Requests (about : Option ServedKind → Client α) (built : ServedKind → Except Error Request)
    (absent : Except Error α) (read : Response → Except Error α) : Prop where
  unserved : ∀ known, (about none).run known = .done (absent, known)
  served : ∀ k known, (about (some k)).run known =
    (sending (built k) read).bind fun x => .done (x, known)

/-- **A call that makes one request** comes to what its reply is read as. -/
theorem Requests.runs_iff {about : Option ServedKind → Client α}
    {built : ServedKind → Except Error Request} {absent : Except Error α}
    {read : Response → Except Error α} (h : Requests about built absent read) {x : Except Error α} :
    Program.Runs world ((find apiVersion kind >>= about).run known) s t (x, known') s' ↔
      ∃ reply, Replied world apiVersion kind built known s t reply known' s' ∧
        x = reply.result absent read := by
  rw [runs_bind]
  constructor
  · rintro (⟨e, _, ⟨⟩, hfind⟩ | ⟨k?, _, t₁, s₁, t₂, rfl, hfind, hrest⟩)
    · obtain ⟨cause, rfl⟩ := error_of_find hfind
      exact ⟨_, .undiscovered hfind, rfl⟩
    · cases k? with
      | none =>
        rw [h.unserved] at hrest
        obtain ⟨rfl, ⟨⟩, rfl⟩ := Program.runs_done_iff.1 hrest
        rw [List.append_nil]
        exact ⟨_, .unserved hfind, rfl⟩
      | some k =>
        rw [h.served, Program.runs_bind_done] at hrest
        obtain ⟨y, hrun, ⟨⟩⟩ := hrest
        obtain ⟨e, hbuilt, rfl, rfl, rfl⟩ | ⟨q, a, hbuilt, rfl, hsent, rfl⟩ := runs_sending.1 hrun
        · rw [List.append_nil]
          exact ⟨_, .unsent hfind hbuilt, rfl⟩
        · exact ⟨_, .answered hfind hbuilt hsent, rfl⟩
  · rintro ⟨reply, hreplied, rfl⟩
    cases hreplied with
    | undiscovered hfind => exact .inl ⟨_, _, rfl, hfind⟩
    | unserved hfind =>
      refine .inr ⟨none, known', t, s', [], (List.append_nil t).symm, hfind, ?_⟩
      rw [h.unserved]
      exact .done _ _
    | @unsent _ k cause _ _ hfind hbuilt =>
      refine .inr ⟨some k, known', t, s', [], (List.append_nil t).symm, hfind, ?_⟩
      rw [h.served, Program.runs_bind_done]
      exact ⟨_, runs_sending.2 (.inl ⟨cause, hbuilt, rfl, rfl, rfl⟩), rfl⟩
    | @answered t₁ k q a _ s₁ _ hfind hbuilt hsent =>
      refine .inr ⟨some k, known', t₁, s₁, _, rfl, hfind, ?_⟩
      rw [h.served, Program.runs_bind_done]
      exact ⟨_, runs_sending.2 (.inr ⟨q, a, hbuilt, rfl, hsent, rfl⟩), rfl⟩

theorem run_exchange {e : Exchange α} {built : Except ServerError Request}
    {result : Response → Except ServerError α} (h : e.run = sending built result)
    (failure : ServerError → Error) (known : KnownKinds) :
    (exchange failure e).run known =
      (sending (built.mapError failure) fun a => (result a).mapError failure).bind
        fun x => .done (x, known) := by
  have hrun : (exchange failure e).run known =
    e.run.bind fun x => .done (x.mapError failure, known) := rfl
  rw [hrun, h]
  cases built <;> rfl

/-- Nothing but the result is touched behind a request. -/
theorem run_bind_sending {q : Client α} {g : α → Client β} {built : Except Error Request}
    {result : Response → Except Error α} {h : α → Except Error β} {known : KnownKinds}
    (hq : q.run known = (sending built result).bind fun x => .done (x, known))
    (hg : ∀ a, (g a).run known = .done (h a, known)) :
    (q >>= g).run known =
      (sending built fun a => (result a).bind h).bind fun x => .done (x, known) := by
  have hrun : (q >>= g).run known =
    (q.run known).bind fun x => (ExceptT.bindCont g x.1).run x.2 := rfl
  rw [hrun, hq]
  cases built with
  | error e => rfl
  | ok r =>
    refine congrArg (Program.call r) (funext fun a => ?_)
    change (ExceptT.bindCont g (result a)).run known = .done ((result a).bind h, known)
    cases result a with
    | error e => rfl
    | ok x => exact hg x

theorem run_findServed_bind (apiVersion kind : String) (g : ServedKind → Client α)
    (known : KnownKinds) : (findServed apiVersion kind >>= g).run known = (find apiVersion kind >>= fun
      | none => throw (.unknownKind apiVersion kind)
      | some k => g k).run known := by
  refine (Program.bind_assoc ..).trans (congrArg (Program.bind _) (funext ?_))
  rintro ⟨_ | _ | k, known⟩ <;> rfl

/-! ## Fetching -/

def requestToGet (key : ResourceKey) (k : ServedKind) : Except Error Request :=
  ((objects k key.namespaceName).getting key.name).mapError (objectFailed key)

/-- What the answer is read as when an object is fetched. -/
def fetchedAs (key : ResourceKey) (a : Response) : Except Error (Option Resource) :=
  ((Collection.unlessAbsent (a.as readObject)).mapError (objectFailed key)).bind fun
    | none => .ok none
    | some object => (received object).map some

theorem fetchedAs_eq_some {key : ResourceKey} {a : Response} {live : Resource} :
    fetchedAs key a = .ok (some live) ↔
      ∃ object, a.as readObject = .ok object ∧ received object = .ok live := by
  rw [fetchedAs]
  cases hread : a.as readObject with
  | ok object =>
    have hreceived : (received object).map some = .ok (some live) ↔ received object = .ok live := by
      simp [map_eq_ok]
    refine hreceived.trans ⟨fun h => ⟨object, rfl, h⟩, ?_⟩
    rintro ⟨_, ⟨⟩, h⟩
    exact h
  | error e =>
    cases e with
    | broken => exact ⟨nofun, by simp⟩
    | refused status =>
      rw [Collection.unlessAbsent]
      split
      · exact ⟨nofun, by simp⟩
      · exact ⟨nofun, by simp⟩

theorem runs_getObject {key : ResourceKey} {x : Except Error (Option Resource)} :
    Program.Runs world ((getObject key).run known) s t (x, known') s' ↔
      ∃ reply, Replied world key.apiVersion key.kind (requestToGet key) known s t reply known' s' ∧
        x = reply.result (.ok none) (fetchedAs key) := by
  refine Requests.runs_iff ⟨fun known => rfl, fun k known => ?_⟩
  refine run_bind_sending (run_exchange Collection.run_get? _ _) ?_
  rintro (_ | object)
  · rfl
  · change (do return some (← (liftM (received object) : Client Resource)) : Client _).run known =
      .done ((received object).map some, known)
    cases received object <;> rfl

/-! ## Writing -/

def requestToCreate (r : Resource) (k : ServedKind) : Except Error Request := do
  let object ← sent r
  ((objects k r.namespaceName).creating object).mapError (objectFailed r.key)

def requestToUpdate (r : Resource) (k : ServedKind) : Except Error Request := do
  let object ← sent r
  ((objects k r.namespaceName).replacing r.name object).mapError (objectFailed r.key)

/-- What the answer is read as when an object is written. -/
def writtenAs (key : ResourceKey) (a : Response) : Except Error Unit :=
  ((a.as readObject).map fun _ => ()).mapError (objectFailed key)

theorem writtenAs_of_refused {key : ResourceKey} {a : Response} {e : ServerError}
    (h : a.accepted = .error e) : writtenAs key a = .error (objectFailed key e) := by
  rw [writtenAs, Response.as_of_refused h]
  rfl

/-- What is taken for written was accepted. -/
theorem accepted_of_writtenAs {key : ResourceKey} {a : Response} (h : writtenAs key a = .ok ()) :
    ∃ body, a.accepted = .ok body := by
  obtain ⟨_, has, -⟩ := map_eq_ok.1 (mapError_eq_ok.1 h)
  obtain ⟨body, haccepted, -⟩ := Response.as_eq_ok.1 has
  exact ⟨body, haccepted⟩

theorem runs_writing {r : Resource} {request : ServedKind → Json → Exchange Unit}
    {built : ServedKind → Json → Except ServerError Request}
    (hrequest : ∀ k object, (request k object).run =
      sending (built k object) fun a => (a.as readObject).map fun _ => ()) {x : Except Error Unit} :
    Program.Runs world ((do
        let k ← findServed r.apiVersion r.kind
        let object ← sent r
        exchange (objectFailed r.key) (request k object) : Client Unit).run known) s t (x, known') s' ↔
      ∃ reply, Replied world r.apiVersion r.kind
          (fun k => do
            let object ← sent r
            (built k object).mapError (objectFailed r.key)) known s t reply known' s' ∧
        x = reply.result (.error (.unknownKind r.apiVersion r.kind)) (writtenAs r.key) := by
  rw [run_findServed_bind]
  refine Requests.runs_iff ⟨fun known => rfl, fun k known => ?_⟩
  cases sent r with
  | error e => rfl
  | ok object => exact run_exchange (hrequest k object) _ _

theorem runs_createObject {r : Resource} {x : Except Error Unit} :
    Program.Runs world ((createObject r).run known) s t (x, known') s' ↔
      ∃ reply, Replied world r.apiVersion r.kind (requestToCreate r) known s t reply known' s' ∧
        x = reply.result (.error (.unknownKind r.apiVersion r.kind)) (writtenAs r.key) :=
  runs_writing fun _ _ => Collection.run_create

theorem runs_updateObject {r : Resource} {x : Except Error Unit} :
    Program.Runs world ((updateObject r).run known) s t (x, known') s' ↔
      ∃ reply, Replied world r.apiVersion r.kind (requestToUpdate r) known s t reply known' s' ∧
        x = reply.result (.error (.unknownKind r.apiVersion r.kind)) (writtenAs r.key) :=
  runs_writing fun _ _ => Collection.run_replace

/-! ## Deleting -/

def requestToDelete (key : ResourceKey) (k : ServedKind) : Except Error Request :=
  ((objects k key.namespaceName).deleting key.name).mapError (objectFailed key)

/-- What the answer is read as when an object is deleted. -/
def deletedAs (key : ResourceKey) (a : Response) : Except Error Unit :=
  (a.outcome readObject).mapError (objectFailed key)

theorem runs_deleteObject {key : ResourceKey} {x : Except Error Unit} :
    Program.Runs world ((deleteObject key).run known) s t (x, known') s' ↔
      ∃ reply, Replied world key.apiVersion key.kind (requestToDelete key) known s t reply known' s' ∧
        x = reply.result (.error (.notFound key.kind key.describe)) (deletedAs key) :=
  Requests.runs_iff ⟨fun _ => rfl, fun _ known => run_exchange Collection.run_delete _ known⟩

end Client

end ReleaseKeeper.Api
