import ReleaseKeeper.Api.Collection
import ReleaseKeeper.Proofs.Program.Runs
import ReleaseKeeper.Proofs.Readers

/-!
# Runs of exchanges

An operation on a collection fails before it sends anything, as its request cannot be built, or it
sends one request and comes to what the answer is read as (`sending`, `runs_sending`).
-/
namespace ReleaseKeeper.Api

open Typed

variable {σ α β : Type} {world : Program.World Request (fun _ => Response) σ} {s s' : σ}
  {t : Program.Trace Request fun _ => Response}

/-- What an answer is read as. -/
def Response.as (read : Reader α) (a : Response) : Except ServerError α :=
  a.accepted.bind (decode read)

theorem Response.as_of_accepted {read : Reader α} {a : Response} {body : Json}
    (h : a.accepted = .ok body) : a.as read = decode read body := by
  rw [Response.as, h]
  rfl

theorem Response.as_of_refused {read : Reader α} {a : Response} {e : ServerError}
    (h : a.accepted = .error e) : a.as read = .error e := by
  rw [Response.as, h]
  rfl

theorem decode_eq_ok {read : Reader α} {body : Json} {x : α} :
    decode read body = .ok x ↔ read body = .ok x := by
  rw [decode]
  cases read body with
  | error fault => exact ⟨nofun, nofun⟩
  | ok y => exact ⟨fun h => congrArg Except.ok (Except.ok.inj h), fun h => by rw [h]; rfl⟩

/-- What the answer to a deletion is read as, which is a status or an object. -/
def Response.outcome (read : Reader α) (a : Response) : Except ServerError Unit :=
  a.accepted.bind fun body =>
    if body.getStr? "kind" = some "Status" then
      decode (fun x => outcomeStatus (x.asObj?.getD [])) body
    else (decode read body).map fun _ => ()

theorem Response.as_eq_ok {read : Reader α} {a : Response} {x : α} :
    a.as read = .ok x ↔ ∃ body, a.accepted = .ok body ∧ read body = .ok x := by
  constructor
  · intro h
    cases haccepted : a.accepted with
    | error e => cases (as_of_refused haccepted).symm.trans h
    | ok body => exact ⟨body, rfl, decode_eq_ok.1 ((as_of_accepted haccepted).symm.trans h)⟩
  · rintro ⟨body, haccepted, hread⟩
    rw [as_of_accepted haccepted, decode_eq_ok, hread]

def Collection.getting (c : Collection α) (name : String) : Except ServerError Request := do
  Request.to .get (← c.member name)

def Collection.merging (c : Collection α) (name : String) (change : Json) :
    Except ServerError Request := do
  Request.to .patch (← c.member name) [managed] (some ⟨mergePatch, change⟩)

def Collection.creating (c : Collection α) (object : Json) : Except ServerError Request :=
  Request.to .post c.path [managed] (some ⟨wholeObject, object⟩)

def Collection.replacing (c : Collection α) (name : String) (object : Json) :
    Except ServerError Request := do
  Request.to .put (← c.member name) [managed] (some ⟨wholeObject, object⟩)

def Collection.deleting (c : Collection α) (name : String) : Except ServerError Request := do
  Request.to .delete (← c.member name) [] (some ⟨wholeObject, deletion⟩)

/-- A request does what it was built for. -/
theorem Request.to_eq_ok {method : Method} {path : String} {parameters : List String}
    {content : Option Content} {r : Request} (h : Request.to method path parameters content = .ok r) :
    r.method = method ∧ r.content = content := by
  unfold Request.to at h
  simp only at h
  split at h
  · obtain rfl := Except.ok.inj h
    exact ⟨rfl, rfl⟩
  · cases h

/-- What cannot be built was not refused by anyone. -/
theorem Request.to_eq_error {method : Method} {path : String} {parameters : List String}
    {content : Option Content} {e : ServerError}
    (h : Request.to method path parameters content = .error e) : ∃ detail, e = .broken detail := by
  unfold Request.to at h
  simp only at h
  split at h
  · cases h
  · exact ⟨_, (Except.error.inj h).symm⟩

theorem isPathChar_ne {c : Char} (h : isPathChar c = true) : c ≠ '?' ∧ c ≠ '#' := by
  constructor
  · rintro rfl
    exact absurd h (by decide)
  · rintro rfl
    exact absurd h (by decide)

theorem splitTarget_append {path : List Char} (hpath : ∀ c ∈ path, isPathChar c = true)
    (rest : List Char) : splitTarget (path ++ '?' :: rest) = (path, rest.takeWhile (· ≠ '#')) := by
  have htake : (path ++ '?' :: rest).takeWhile (· ≠ '#') = path ++ '?' :: rest.takeWhile (· ≠ '#') := by
    rw [List.takeWhile_append_of_pos, List.takeWhile_cons_of_pos (by decide)]
    intro c hc
    simpa using (isPathChar_ne (hpath c hc)).2
  have hcut : ∀ {path : List Char}, (∀ c ∈ path, isPathChar c = true) → ∀ rest,
      Text.cutFirst '?' (path ++ '?' :: rest) = some (path, rest) := by
    intro path hpath rest
    induction path with
    | nil => rfl
    | cons c path ih =>
      obtain ⟨hc, hpath⟩ := List.forall_mem_cons.1 hpath
      rw [List.cons_append, Text.cutFirst, if_neg (isPathChar_ne hc).1, ih hpath]
      rfl
  rw [splitTarget, htake, hcut hpath]
  rfl

/-- A path without marks is the path of the request. -/
theorem Request.path_of_to {method : Method} {path : String} {parameters : List String}
    {content : Option Content} {r : Request} (hpath : ∀ c ∈ path.toList, isPathChar c = true)
    (h : Request.to method path parameters content = .ok r) : r.path = path := by
  unfold Request.to at h
  have htarget : (path ++ "?" ++ "&".intercalate parameters).toList =
      path.toList ++ '?' :: ("&".intercalate parameters).toList := by simp
  simp only [htarget, splitTarget_append hpath] at h
  split at h
  · obtain rfl := Except.ok.inj h
    exact String.ofList_toList
  · cases h

/-- A request to a path without marks can be built. -/
theorem Request.to_get {path : String} (hpath : ∀ c ∈ path.toList, isPathChar c = true) :
    Request.to .get path = .ok { method := .get, path } := by
  unfold Request.to
  have htarget : (path ++ "?" ++ "&".intercalate []).toList = path.toList ++ '?' :: [] := by simp
  have hall : path.toList.all isPathChar = true := List.all_eq_true.2 hpath
  simp only [htarget, splitTarget_append hpath]
  simp [hall, Text.pieces]

/-- A request to a member that cannot be built was not refused by anyone. -/
theorem Collection.request_eq_error {c : Collection α} {name : String} {method : Method}
    {parameters : List String} {content : Option Content} {e : ServerError}
    (h : (do Request.to method (← c.member name) parameters content) = .error e) :
    ∃ detail, e = .broken detail := by
  unfold member at h
  split at h
  · exact ⟨_, (Except.error.inj h).symm⟩
  · exact Request.to_eq_error h

theorem Collection.getting_eq_error {c : Collection α} {name : String} {e : ServerError}
    (h : c.getting name = .error e) : ∃ detail, e = .broken detail :=
  request_eq_error h

theorem Collection.deleting_eq_error {c : Collection α} {name : String} {e : ServerError}
    (h : c.deleting name = .error e) : ∃ detail, e = .broken detail :=
  request_eq_error h

theorem Collection.getting_eq_ok {c : Collection α} {name : String} {r : Request}
    (h : c.getting name = .ok r) : r.method = .get := by
  obtain ⟨path, -, hto⟩ := bind_eq_ok.1 h
  exact (Request.to_eq_ok hto).1

/-- Members have names. -/
theorem Collection.name_ne_of_getting {c : Collection α} {name : String} {r : Request}
    (h : c.getting name = .ok r) : name ≠ "" := by
  rintro rfl
  cases h

theorem Collection.merging_eq_ok {c : Collection α} {name : String} {change : Json} {r : Request}
    (h : c.merging name change = .ok r) :
    r.method = .patch ∧ r.content = some ⟨mergePatch, change⟩ := by
  obtain ⟨path, -, hto⟩ := bind_eq_ok.1 h
  exact Request.to_eq_ok hto

theorem Collection.replacing_eq_ok {c : Collection α} {name : String} {object : Json} {r : Request}
    (h : c.replacing name object = .ok r) :
    r.method = .put ∧ r.content = some ⟨wholeObject, object⟩ := by
  obtain ⟨path, -, hto⟩ := bind_eq_ok.1 h
  exact Request.to_eq_ok hto

theorem run_fetch (read : Reader α) (r : Request) :
    (fetch read r).run = .call r fun a => .done (a.as read) := by
  refine congrArg (Program.call r) (funext fun a => ?_)
  change ((do decode read (← (liftM a.accepted : Exchange Json))) : Exchange α).run =
    .done (a.accepted.bind (decode read))
  cases a.accepted with
  | error e => rfl
  | ok body =>
    change ((liftM (decode read body) : Exchange α)).run = .done (decode read body)
    cases decode read body <;> rfl

/-- A request whose answer is only looked at. -/
theorem run_fetch_done (read : Reader α) (r : Request) :
    (do let _ ← fetch read r : Exchange Unit).run =
      .call r fun a => .done ((a.as read).map fun _ => ()) := by
  have hrun : (do let _ ← fetch read r : Exchange Unit).run =
    (fetch read r).run.bind (ExceptT.bindCont fun _ => (pure () : Exchange Unit)) := rfl
  rw [hrun, run_fetch]
  refine congrArg (Program.call r) (funext fun a => ?_)
  rw [Program.bind]
  cases a.as read <;> rfl

theorem run_fetchOutcome (read : Reader α) (r : Request) :
    (fetchOutcome read r).run = .call r fun a => .done (a.outcome read) := by
  refine congrArg (Program.call r) (funext fun a => ?_)
  rw [Response.outcome]
  change ((do
    let body ← (liftM a.accepted : Exchange Json)
    if body.getStr? "kind" = some "Status" then
      liftM (decode (fun x => outcomeStatus (x.asObj?.getD [])) body)
    else
      let _ ← (liftM (decode read body) : Exchange α)) : Exchange Unit).run = _
  cases a.accepted with
  | error e => rfl
  | ok body =>
    change ((if body.getStr? "kind" = some "Status" then
        liftM (decode (fun x => outcomeStatus (x.asObj?.getD [])) body)
      else do
        let _ ← (liftM (decode read body) : Exchange α)) : Exchange Unit).run = .done (ite ..)
    split
    · cases decode (fun x => outcomeStatus (x.asObj?.getD [])) body <;> rfl
    · cases decode read body <;> rfl

/-- One request, if it can be built, and what is made of its answer. -/
def sending {ε : Type} (built : Except ε Request) (result : Response → Except ε α) :
    Steps (Except ε α) :=
  match built with
  | .error e => .done (.error e)
  | .ok r => .call r fun a => .done (result a)

/-- **One request.** It is sent if it can be built, and something is made of its answer. -/
theorem runs_sending {ε : Type} {built : Except ε Request} {result : Response → Except ε α}
    {x : Except ε α} :
    Program.Runs world (sending built result) s t x s' ↔
      (∃ e, built = .error e ∧ t = [] ∧ x = .error e ∧ s' = s) ∨
      ∃ r a, built = .ok r ∧ t = [⟨r, a⟩] ∧ world s r a s' ∧ x = result a := by
  cases built with
  | error e =>
    rw [sending, Program.runs_done_iff]
    simp
  | ok r =>
    rw [sending, Program.runs_call_done]
    simp

/-- A request that is sent if it can be built. -/
theorem run_request {built : Except ServerError Request} {f : Request → Exchange α}
    {result : Response → Except ServerError α}
    (hf : ∀ r, (f r).run = .call r fun a => .done (result a)) :
    (do f (← (liftM built : Exchange Request)) : Exchange α).run = sending built result := by
  cases built with
  | error e => rfl
  | ok r => exact hf r

namespace Collection

variable {c : Collection α} {name : String}

theorem run_get : (c.get name).run = sending (c.getting name) fun a => a.as c.read := by
  have hget : c.get name =
      (do fetch c.read (← (liftM (c.getting name) : Exchange Request)) : Exchange α) := by
    unfold get getting
    cases c.member name <;> rfl
  rw [hget]
  exact run_request (run_fetch c.read)

theorem runs_get {x : Except ServerError α} :
    Program.Runs world (c.get name).run s t x s' ↔
      (∃ e, c.getting name = .error e ∧ t = [] ∧ x = .error e ∧ s' = s) ∨
      ∃ r a, c.getting name = .ok r ∧ t = [⟨r, a⟩] ∧ world s r a s' ∧ x = a.as c.read := by
  rw [run_get]
  exact runs_sending

/-- What a member that may be absent is read as. -/
def unlessAbsent : Except ServerError α → Except ServerError (Option α)
  | .ok x => .ok (some x)
  | .error (.refused s) => if s.reason = "NotFound" then .ok none else .error (.refused s)
  | .error e => .error e

theorem run_get?_bind :
    (c.get? name).run = (c.get name).run.bind fun y => .done (unlessAbsent y) := by
  have hend : ∀ y : Except ServerError α, (match y with
      | .ok x => .done (.ok (some x))
      | .error (.refused s) =>
        .done (if s.reason = "NotFound" then .ok none else .error (.refused s))
      | .error e => .done (.error e) : Steps (Except ServerError (Option α))) =
        .done (unlessAbsent y) := by
    rintro ((_ | _) | _) <;> rfl
  exact congrArg (Program.bind (c.get name).run) (funext hend)

theorem runs_get? {x : Except ServerError (Option α)} :
    Program.Runs world (c.get? name).run s t x s' ↔
      ∃ y, Program.Runs world (c.get name).run s t y s' ∧ x = unlessAbsent y := by
  rw [run_get?_bind]
  exact Program.runs_bind_done

/-- A member that may be absent is fetched like others. -/
theorem run_get? :
    (c.get? name).run = sending (c.getting name) fun a => unlessAbsent (a.as c.read) := by
  rw [run_get?_bind, run_get]
  cases hbuilt : c.getting name with
  | error e =>
    obtain ⟨detail, rfl⟩ := getting_eq_error hbuilt
    rfl
  | ok r => rfl

theorem run_merge {change : Json} : (c.merge name change).run =
    sending (c.merging name change) fun a => (a.as c.read).map fun _ => () := by
  have hmerge : c.merge name change = (do
      let request ← (liftM (c.merging name change) : Exchange Request)
      let _ ← fetch c.read request : Exchange Unit) := by
    unfold merge merging
    cases c.member name <;> rfl
  rw [hmerge]
  exact run_request (run_fetch_done c.read)

theorem runs_merge {change : Json} {x : Except ServerError Unit} :
    Program.Runs world (c.merge name change).run s t x s' ↔
      (∃ e, c.merging name change = .error e ∧ t = [] ∧ x = .error e ∧ s' = s) ∨
      ∃ r a, c.merging name change = .ok r ∧ t = [⟨r, a⟩] ∧ world s r a s' ∧
        x = (a.as c.read).map fun _ => () := by
  rw [run_merge]
  exact runs_sending

theorem run_replace {object : Json} : (c.replace name object).run =
    sending (c.replacing name object) fun a => (a.as c.read).map fun _ => () := by
  have hreplace : c.replace name object = (do
      let request ← (liftM (c.replacing name object) : Exchange Request)
      let _ ← fetch c.read request : Exchange Unit) := by
    unfold replace replacing
    cases c.member name <;> rfl
  rw [hreplace]
  exact run_request (run_fetch_done c.read)

theorem run_create {object : Json} : (c.create object).run =
    sending (c.creating object) fun a => (a.as c.read).map fun _ => () :=
  run_request (run_fetch_done c.read)

theorem run_delete : (c.delete name).run =
    sending (c.deleting name) fun a => a.outcome c.read := by
  have hdelete : c.delete name =
      (do fetchOutcome c.read (← (liftM (c.deleting name) : Exchange Request)) : Exchange Unit) := by
    unfold delete deleting
    cases c.member name <;> rfl
  rw [hdelete]
  exact run_request (run_fetchOutcome c.read)

end Collection

end ReleaseKeeper.Api
