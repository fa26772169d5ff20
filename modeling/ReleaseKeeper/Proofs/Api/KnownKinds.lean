import ReleaseKeeper.Proofs.Api.Objects

/-!
# Kinds that are remembered

A client that has found a kind asks the server no more about it. Where a server serves more and more
kinds and moves none of them, that changes nothing but the listings that are asked for: every call gets
the answer that it gets from a client that remembers nothing, by the same requests about objects, and
leaves the server in the same state (`remembering_changes_nothing`).

The reason is an invariant: what is remembered of a kind is what the server serves at the time
(`Current`). A call looks up one kind at most (`Call.kind?`), and what it does with it does not depend on
what else is remembered (`Looks`, `Heedless`).
-/
namespace ReleaseKeeper

/-- API version and kind that a call has to find at the server. -/
def Call.kind? : Call → Option (String × String)
  | .get key | .delete key => some (key.apiVersion, key.kind)
  | .create r | .update r => some (r.apiVersion, r.kind)
  | .list apiVersion kind _ | .kindExists apiVersion kind => some (apiVersion, kind)
  | _ => none

namespace Api.Client

variable {α β σ : Type} {apiVersion kind : String}

/-! ## What a call remembers -/

/-- A client that pays no heed to the kinds that are known. -/
def Heedless (c : Client α) : Prop :=
  ∃ p : Steps (Except Error α), ∀ known, c.run known = p.bind fun x => .done (x, known)

/-- A client that finds a kind and pays no heed to others. -/
def Looks (apiVersion kind : String) (c : Client α) : Prop :=
  ∃ rest : Except Error (Option ServedKind) → Steps (Except Error α), ∀ known,
    c.run known = ((find apiVersion kind).run known).bind fun x =>
      (rest x.1).bind fun y => .done (y, x.2)

theorem heedless_except (x : Except Error α) : Heedless (liftM x : Client α) :=
  ⟨.done x, fun _ => by cases x <;> rfl⟩

theorem heedless_exchange (failure : ServerError → Error) (e : Exchange α) :
    Heedless (exchange failure e) := by
  refine ⟨e.run.bind fun x => .done (x.mapError failure), fun known => ?_⟩
  rw [Program.bind_assoc]
  rfl

/-- What follows on an outcome. -/
def followed (g : α → Steps (Except Error β)) : Except Error α → Steps (Except Error β)
  | .ok a => g a
  | .error e => .done (.error e)

theorem run_bind_of_heedless {q : Client α} {g : α → Client β} {p : α → Steps (Except Error β)}
    (hg : ∀ a known, (g a).run known = (p a).bind fun x => .done (x, known)) (known : KnownKinds) :
    (q >>= g).run known =
      (q.run known).bind fun x => (followed p x.1).bind fun y => .done (y, x.2) := by
  refine congrArg (Program.bind (q.run known)) (funext ?_)
  rintro ⟨_ | a, known⟩
  · rfl
  · exact hg a known

theorem Heedless.bind {q : Client α} {g : α → Client β} (hq : Heedless q)
    (hg : ∀ a, Heedless (g a)) : Heedless (q >>= g) := by
  obtain ⟨p, hp⟩ := hq
  choose r hr using hg
  refine ⟨p.bind (followed r), fun known => ?_⟩
  rw [run_bind_of_heedless hr, hp, Program.bind_assoc, Program.bind_assoc]
  rfl

theorem looks_find : Looks apiVersion kind (find apiVersion kind) :=
  ⟨.done, fun _ => (Program.bind_done _).symm⟩

theorem Looks.bind {q : Client α} {g : α → Client β} (hq : Looks apiVersion kind q)
    (hg : ∀ a, Heedless (g a)) : Looks apiVersion kind (q >>= g) := by
  obtain ⟨rest, hrest⟩ := hq
  choose r hr using hg
  refine ⟨fun x => (rest x).bind (followed r), fun known => ?_⟩
  rw [run_bind_of_heedless hr, hrest, Program.bind_assoc]
  refine congrArg (Program.bind _) (funext fun x => ?_)
  rw [Program.bind_assoc, Program.bind_assoc]
  rfl

theorem heedless_pure (x : α) : Heedless (pure x) := heedless_except (.ok x)

theorem heedless_throw (e : Error) : Heedless (throw e : Client α) := heedless_except (.error e)

theorem heedless_mapM {f : α → Client β} (hf : ∀ x, Heedless (f x)) (xs : List α) :
    Heedless (xs.mapM f) := by
  suffices hloop : ∀ (xs : List α) (ys : List β), Heedless (List.mapM.loop f xs ys) from hloop xs []
  intro xs
  induction xs with
  | nil => exact fun ys => heedless_pure _
  | cons x xs ih => exact fun ys => (hf x).bind fun y => ih (y :: ys)

theorem looks_findServed : Looks apiVersion kind (findServed apiVersion kind) := by
  refine looks_find.bind ?_
  rintro (_ | k)
  · exact heedless_throw _
  · exact heedless_pure k

/-- Writing a resource looks up its kind. -/
theorem looks_writing {r : Resource} {failure : ServerError → Error}
    (request : ServedKind → Json → Exchange Unit) :
    Looks r.apiVersion r.kind (do
      let k ← findServed r.apiVersion r.kind
      let object ← sent r
      exchange failure (request k object) : Client Unit) :=
  looks_findServed.bind fun _ => (heedless_except _).bind fun _ => heedless_exchange _ _

/-- **A call looks up the kind that it is about** and no other. -/
theorem looks_perform {c : Call} (h : c.kind? = some (apiVersion, kind)) :
    Looks apiVersion kind (perform c) := by
  cases c with
  | get key =>
    cases h
    refine looks_find.bind ?_
    rintro (_ | k)
    · exact heedless_pure none
    · refine (heedless_exchange _ _).bind ?_
      rintro (_ | object)
      · exact heedless_pure none
      · exact (heedless_except _).bind fun live => heedless_pure (some live)
  | create r =>
    cases h
    exact looks_writing _
  | update r =>
    cases h
    exact looks_writing _
  | delete key =>
    cases h
    refine looks_find.bind ?_
    rintro (_ | k)
    · exact heedless_throw _
    · exact heedless_exchange _ _
  | list apiVersion kind ns =>
    cases h
    exact looks_findServed.bind fun k => (heedless_exchange _ _).bind fun objects =>
      heedless_mapM (fun object => heedless_except _) objects
  | kindExists apiVersion kind =>
    cases h
    exact looks_find.bind fun k? => heedless_pure k?.isSome
  | _ => cases h

theorem heedless_perform {c : Call} (h : c.kind? = none) : Heedless (perform c) := by
  cases c with
  | get | create | update | delete | list | kindExists => cases h
  | detect | hook => exact heedless_pure ()
  | _ => exact heedless_exchange _ _

/-! ## Servers that serve more and more -/

/-- What is particular to a served kind. -/
structure Place where
  /-- The name of the kind in paths. -/
  plural : String
  isNamespaced : Bool
deriving DecidableEq, Repr

def Place.served (apiVersion kind : String) (p : Place) : ServedKind where
  group := (groupVersion apiVersion).1
  apiVersion := Discovery.joined (groupVersion apiVersion).1 (groupVersion apiVersion).2
  kind
  plural := p.plural
  isNamespaced := p.isNamespaced

/-- The place of each kind that is served in a state. -/
abbrev Places (σ : Type) := σ → String → String → Option Place

/-- A kind as it is served in a state. -/
def Places.kind? (places : Places σ) (s : σ) (apiVersion kind : String) : Option ServedKind :=
  (places s apiVersion kind).map (Place.served apiVersion kind)

section
variable {handle : Program.Handler Request (fun _ => Response) σ} {places : Places σ} {s : σ}
  {known : KnownKinds}

/-- A server always tells what it serves, which changes nothing. -/
def Tells (handle : Program.Handler Request (fun _ => Response) σ) (places : Places σ) : Prop :=
  ∀ s apiVersion kind, Program.run handle (Discovery.find apiVersion kind).run s =
    (.ok (places.kind? s apiVersion kind), s)

/-- What is served stays served, and where it was. -/
def Grows (places : Places σ) (f : σ → σ) : Prop :=
  ∀ s apiVersion kind p, places s apiVersion kind = some p → places (f s) apiVersion kind = some p

/-- What is known is what is served. -/
def Current (places : Places σ) (s : σ) (known : KnownKinds) : Prop :=
  ∀ apiVersion kind k, known.lookup (apiVersion, kind) = some k →
    places.kind? s apiVersion kind = some k

theorem current_nil : Current places s [] := by
  rintro apiVersion kind k ⟨⟩

/-- **What is known stays true** while more is served. -/
theorem Current.grows {f : σ → σ} (h : Current places s known) (hf : Grows places f) :
    Current places (f s) known := by
  intro apiVersion kind k hk
  obtain ⟨p, hp, rfl⟩ := Option.map_eq_some_iff.1 (h apiVersion kind k hk)
  exact Option.map_eq_some_iff.2 ⟨p, hf s apiVersion kind p hp, rfl⟩

/-- The requests by which a call learns what is served, if it has to. -/
def listings (handle : Program.Handler Request (fun _ => Response) σ) (c : Call) (s : σ) :
    Program.Trace Request fun _ => Response :=
  match c.kind? with
  | some (apiVersion, kind) => Program.calls handle (Discovery.find apiVersion kind).run s
  | none => []

/-- Whether a call is about a kind that is known. -/
def isKnown (known : KnownKinds) (c : Call) : Bool :=
  (c.kind?.bind fun name => known.lookup name).isSome

theorem run_find (htells : Tells handle places) (hcurrent : Current places s known)
    (apiVersion kind : String) :
    ∃ known', Program.run handle ((find apiVersion kind).run known) s =
        ((.ok (places.kind? s apiVersion kind), known'), s) ∧
      Program.calls handle ((find apiVersion kind).run known) s =
        (if (known.lookup (apiVersion, kind)).isSome then []
          else Program.calls handle (Discovery.find apiVersion kind).run s) ∧
      ∀ name, known'.lookup name = if some (apiVersion, kind) = some name then
        places.kind? s apiVersion kind else known.lookup name := by
  cases hlookup : known.lookup (apiVersion, kind) with
  | some k =>
    rw [find_of_known hlookup, hcurrent apiVersion kind k hlookup]
    refine ⟨known, rfl, rfl, fun name => ?_⟩
    split
    · next h => rw [← Option.some.inj h, hlookup]
    · rfl
  | none =>
    rw [find_of_unknown hlookup, Program.run_bind, Program.calls_bind, htells s apiVersion kind]
    cases hserved : places.kind? s apiVersion kind with
    | none =>
      refine ⟨known, rfl, List.append_nil _, fun name => ?_⟩
      split
      · next h => rw [← Option.some.inj h, hlookup]
      · rfl
    | some k =>
      refine ⟨((apiVersion, kind), k) :: known, rfl, List.append_nil _, fun name => ?_⟩
      by_cases hname : (apiVersion, kind) = name
      · simp [hname]
      · have hne : ¬ name == (apiVersion, kind) := by simpa using Ne.symm hname
        simp [List.lookup_cons, hname, hne]

/-- **A call does the same** whatever is known, but for the listings it asks for; and it gets to know what
is served under the kind that it looks up. -/
theorem run_answer (htells : Tells handle places) (c : Call) (s : σ) :
    ∃ p : Steps c.Answer, ∀ known, Current places s known →
      ∃ known', Program.run handle (answer c known) s =
          (((Program.run handle p s).1, known'), (Program.run handle p s).2) ∧
        Program.calls handle (answer c known) s =
          (if isKnown known c then [] else listings handle c s) ++ Program.calls handle p s ∧
        ∀ name, known'.lookup name =
          if c.kind? = some name then places.kind? s name.1 name.2 else known.lookup name := by
  cases hkind : c.kind? with
  | none =>
    obtain ⟨p, hp⟩ := heedless_perform hkind
    refine ⟨p, fun known _ => ⟨known, ?_⟩⟩
    have hanswer : answer c known = p.bind fun x => .done (x, known) := hp known
    rw [hanswer, Program.run_bind, Program.calls_bind]
    refine ⟨rfl, ?_, fun name => rfl⟩
    simp [isKnown, listings, hkind, Program.calls]
  | some name =>
    obtain ⟨apiVersion, kind⟩ := name
    obtain ⟨rest, hrest⟩ := looks_perform hkind
    refine ⟨rest (.ok (places.kind? s apiVersion kind)), fun known hcurrent => ?_⟩
    obtain ⟨known', hrun, hcalls, hknown'⟩ := run_find htells hcurrent apiVersion kind
    have hanswer : answer c known = ((find apiVersion kind).run known).bind fun x =>
      (rest x.1).bind fun y => .done (y, x.2) := hrest known
    rw [hanswer, Program.run_bind, Program.calls_bind, hrun, hcalls, Program.run_bind,
      Program.calls_bind]
    have hisKnown : isKnown known c = (known.lookup (apiVersion, kind)).isSome := by
      rw [isKnown, hkind]
      rfl
    refine ⟨known', rfl, ?_, fun name => ?_⟩
    · rw [hisKnown, listings, hkind]
      simp only [Program.calls, List.append_nil]
    · rw [hknown' name]
      split
      · next h => rw [← Option.some.inj h]
      · rfl

/-! ## Calls one after another -/

/-- What happens to a server. -/
inductive Turn (σ : Type) where
  /-- The client makes a call. -/
  | call (c : Call)
  /-- Others change the server. -/
  | change (f : σ → σ)

/-- A call as it went. -/
structure Visit (σ : Type) where
  call : Call
  /-- The kinds that were known in front of the call. -/
  knew : KnownKinds
  before : σ
  answer : call.Answer
  requests : Program.Trace Request fun _ => Response
  /-- The kinds that are known behind the call. -/
  knows : KnownKinds
  after : σ

/-- A call of a client that knows some kinds. -/
def visit (handle : Program.Handler Request (fun _ => Response) σ) (c : Call) (known : KnownKinds)
    (s : σ) : Visit σ where
  call := c
  knew := known
  before := s
  answer := (Program.run handle (Client.answer c known) s).1.1
  requests := Program.calls handle (Client.answer c known) s
  knows := (Program.run handle (Client.answer c known) s).1.2
  after := (Program.run handle (Client.answer c known) s).2

/-- The calls of a client, which takes some of the kinds it knows from one to the next. -/
def visits (handle : Program.Handler Request (fun _ => Response) σ)
    (keep : KnownKinds → KnownKinds) : List (Turn σ) → KnownKinds → σ → List (Visit σ)
  | [], _, _ => []
  | .call c :: turns, known, s =>
    let v := visit handle c known s
    v :: visits handle keep turns (keep v.knows) v.after
  | .change f :: turns, known, s => visits handle keep turns known (f s)

/-- One call as two clients make it, the second of which knows no kinds. -/
structure Alike (handle : Program.Handler Request (fun _ => Response) σ) (places : Places σ)
    (v fresh : Visit σ) : Prop where
  ignorant : fresh.knew = []
  before : v.before = fresh.before
  answer : (⟨v.call, v.answer⟩ : (c : Call) × c.Answer) = ⟨fresh.call, fresh.answer⟩
  /-- Beside the listings, the requests are the same. -/
  requests : ∃ others, fresh.requests = listings handle v.call v.before ++ others ∧
    v.requests = (if isKnown v.knew v.call then [] else listings handle v.call v.before) ++ others
  after : v.after = fresh.after
  /-- The kind of the call is known from then on if it is served, and others as they were. -/
  knows : ∀ apiVersion kind, v.knows.lookup (apiVersion, kind) =
    if v.call.kind? = some (apiVersion, kind) then places.kind? v.before apiVersion kind
    else v.knew.lookup (apiVersion, kind)

theorem visit_alike (htells : Tells handle places) (hcurrent : Current places s known) (c : Call) :
    Alike handle places (visit handle c known s) (visit handle c [] s) := by
  obtain ⟨p, hp⟩ := run_answer htells c s
  obtain ⟨known', hrun, hcalls, hknown'⟩ := hp known hcurrent
  obtain ⟨fresh', hfresh, hfreshCalls, -⟩ := hp [] current_nil
  have hignorant : isKnown [] c = false := by
    rw [isKnown]
    cases c.kind? <;> rfl
  rw [hignorant] at hfreshCalls
  refine ⟨rfl, rfl, ?_, ⟨Program.calls handle p s, hfreshCalls, hcalls⟩, ?_, fun a k => ?_⟩
  · simp [visit, hrun, hfresh]
  · simp [visit, hrun, hfresh]
  · simpa [visit, hrun] using hknown' (a, k)

/-- What is known behind a call is served then. -/
theorem current_visit (htells : Tells handle places)
    (hgrows : ∀ r, Grows places fun s => (handle r s).2) (hcurrent : Current places s known) (c : Call) :
    Current places (visit handle c known s).after (visit handle c known s).knows := by
  have hknows := (visit_alike htells hcurrent c).knows
  have hbefore : Current places s (visit handle c known s).knows := by
    intro apiVersion kind k hk
    rw [hknows] at hk
    split at hk
    · exact hk
    · exact hcurrent apiVersion kind k hk
  exact Program.run_keeps (I := fun s' => Current places s' (visit handle c known s).knows)
    (fun r s' hs' => hs'.grows (hgrows r)) hbefore

/-- **Remembering kinds changes nothing** at a server that always tells what it serves, never stops
serving a kind and never moves one. Call for call, a client that remembers what it found and one that
forgets it are answered alike, by the same requests beside the listings, and leave the same state. A kind
is remembered for the API version and the kind it was found under, once it is served; and nowhere is
anything remembered of a kind that could not be found. -/
theorem remembering_changes_nothing (htells : Tells handle places)
    (hgrows : ∀ r, Grows places fun s => (handle r s).2) (turns : List (Turn σ))
    (hothers : ∀ f, .change f ∈ turns → Grows places f) (s : σ) :
    List.Forall₂ (Alike handle places) (visits handle id turns [] s)
        (visits handle (fun _ => []) turns [] s) ∧
      ∀ {τ : Type} (broken : Program.Handler Request (fun _ => Response) τ) (s : τ) (c : Call) known,
        ∀ apiVersion kind e, c.kind? = some (apiVersion, kind) →
          (Program.run broken (Discovery.find apiVersion kind).run s).1 = .error e →
          (visit broken c known s).knows = known := by
  constructor
  · -- What is known by the one is what is served at every turn; the other never knows anything.
    suffices h : ∀ known, Current places s known → List.Forall₂ (Alike handle places)
        (visits handle id turns known s) (visits handle (fun _ => []) turns [] s) from
      h [] current_nil
    induction turns generalizing s with
    | nil => exact fun known _ => .nil
    | cons turn turns ih =>
      have hlater : ∀ f, .change f ∈ turns → Grows places f := fun f hf =>
        hothers f (List.mem_cons_of_mem _ hf)
      intro known hcurrent
      cases turn with
      | change f => exact ih hlater (f s) known (hcurrent.grows (hothers f List.mem_cons_self))
      | call c =>
        have halike := visit_alike htells hcurrent c
        refine .cons halike ?_
        have hrest := ih hlater _ _ (current_visit htells hgrows hcurrent c)
        rwa [halike.after] at hrest ⊢
  · intro τ broken s c known apiVersion kind e hkind hfailed
    obtain ⟨rest, hrest⟩ := looks_perform hkind
    have hanswer : answer c known = ((find apiVersion kind).run known).bind fun x =>
      (rest x.1).bind fun y => .done (y, x.2) := hrest known
    have hfind : (Program.run broken ((find apiVersion kind).run known) s).1.2 = known := by
      cases hlookup : known.lookup (apiVersion, kind) with
      | some k => rw [find_of_known hlookup]; rfl
      | none =>
        rw [find_of_unknown hlookup, Program.run_bind, hfailed]
        rfl
    rw [visit, hanswer, Program.run_bind, Program.run_bind]
    exact hfind

end

/-! ## A definition that is created between calls -/

namespace Growing

def extensions : String := "apiextensions.k8s.io"

def caching : String := "caching.internal.knative.dev"

/-- A group with one version, as the server lists it. -/
def group (name version : String) : Json := .obj [
  ("name", .str name),
  ("versions", .arr [.obj [
    ("groupVersion", .str (name ++ "/" ++ version)), ("version", .str version)]])]

def kinds (apiVersion : String) (entries : List Json) : Json := .obj [
  ("groupVersion", .str apiVersion), ("resources", .arr entries)]

def entry (kind plural : String) (isNamespaced : Bool) : Json := .obj [
  ("kind", .str kind), ("name", .str plural), ("namespaced", .bool isNamespaced)]

def groups (defined : Bool) : Json := .obj [("groups", .arr (
  group extensions "v1" :: if defined then [group caching "v1alpha1"] else []))]

/-- What is under a path. -/
def listing (defined : Bool) : String → Json
  | "/apis" => groups defined
  | "/api" => .obj [("versions", .arr [.str "v1"])]
  | "/api/v1" => kinds "v1" []
  | "/apis/apiextensions.k8s.io/v1" =>
    kinds "apiextensions.k8s.io/v1" [entry "CustomResourceDefinition" "customresourcedefinitions" false]
  | "/apis/caching.internal.knative.dev/v1alpha1" =>
    kinds "caching.internal.knative.dev/v1alpha1" [entry "Image" "images" true]
  | _ => .null

/-- A server of definitions, which serves images from when anything was created. -/
def handle : Program.Handler Request (fun _ => Response) Bool := fun r defined =>
  match r.content with
  | none => (⟨200, listing defined r.path⟩, defined)
  | some content => (⟨201, content.body⟩, defined || r.method = .post)

def versions (defined : Bool) (name : String) : Discovery.Versions :=
  if name = extensions then [("v1", [⟨extensions, extensions ++ "/v1", "CustomResourceDefinition",
    "customresourcedefinitions", false⟩])]
  else if defined ∧ name = caching then
    [("v1alpha1", [⟨caching, caching ++ "/v1alpha1", "Image", "images", true⟩])]
  else if name = "" then [("v1", [])]
  else []

/-- Where definitions and images are served. -/
def places : Places Bool := fun defined apiVersion kind =>
  if groupVersion apiVersion = (extensions, "v1") ∧ kind = "CustomResourceDefinition" then
    some ⟨"customresourcedefinitions", false⟩
  else if defined ∧ groupVersion apiVersion = (caching, "v1alpha1") ∧ kind = "Image" then
    some ⟨"images", true⟩
  else none

/-- What a client is told of the versions of a group. -/
def told (name : String) (defined : Bool) : Except ServerError Discovery.Versions × Bool :=
  Program.run handle (Discovery.versionsOf name).run defined

theorem told_known : ∀ name ∈ [extensions, caching, ""], ∀ defined,
    told name defined = (.ok (versions defined name), defined) := by
  decide +kernel

theorem name_of_group {defined : Bool} {g : Json}
    (hg : g ∈ Discovery.listOf "groups" (groups defined)) :
    Discovery.textOf "name" g = extensions ∨ Discovery.textOf "name" g = caching := by
  cases defined
  · obtain rfl := List.mem_singleton.1 hg
    exact .inl rfl
  · obtain rfl | hg := List.mem_cons.1 hg
    · exact .inl rfl
    · obtain rfl := List.mem_singleton.1 hg
      exact .inr rfl

theorem told_eq (name : String) (defined : Bool) :
    told name defined = (.ok (versions defined name), defined) := by
  by_cases hname : name ∈ [extensions, caching, ""]
  · exact told_known name hname defined
  · simp only [List.mem_cons, List.not_mem_nil, or_false, not_or] at hname
    obtain ⟨hextensions, hcaching, hcore⟩ := hname
    have hgroups : Program.run handle (Discovery.ask Discovery.groupsShape "/apis").run defined =
        (.ok (groups defined), defined) := by
      cases defined <;> rfl
    have hnone : (Discovery.listOf "groups" (groups defined)).filter
        (fun g => Discovery.textOf "name" g = name) = [] := by
      refine List.filter_eq_nil_iff.2 fun g hg hfits => ?_
      obtain h | h := name_of_group hg
      · exact hextensions ((of_decide_eq_true hfits).symm.trans h)
      · exact hcaching ((of_decide_eq_true hfits).symm.trans h)
    rw [told, Discovery.versionsOf, Program.run_bind_of_ok hgroups, hnone, versions,
      if_neg hextensions, if_neg fun h => hcaching h.2, if_neg hcore]
    have hmapM : Program.run handle (([] : List Json).mapM Discovery.askGroup).run defined =
      (.ok [], defined) := rfl
    rw [Program.run_bind_of_ok hmapM, if_neg hcore]
    rfl

/-- A listing with one kind of one version has no other. -/
theorem find?_versions (version version' kind : String) (k : ServedKind) :
    ((([(version, [k])] : Discovery.Versions).lookup version').getD []).find?
      (fun x => x.kind = kind) = if version' = version ∧ kind = k.kind then some k else none := by
  by_cases hversion : version' = version
  · by_cases hkind : k.kind = kind
    · simp [hversion, hkind]
    · simp [hversion, hkind, Ne.symm hkind]
  · have hne : (version' == version) = false := beq_false_of_ne hversion
    simp [List.lookup_cons, hversion, hne]

theorem find?_eq (defined : Bool) (apiVersion kind : String) :
    (((versions defined (groupVersion apiVersion).1).lookup (groupVersion apiVersion).2).getD []).find?
      (fun k => k.kind = kind) = places.kind? defined apiVersion kind := by
  have hserved : Place.served apiVersion kind = fun p => ⟨(groupVersion apiVersion).1,
      Discovery.joined (groupVersion apiVersion).1 (groupVersion apiVersion).2, kind, p.plural,
      p.isNamespaced⟩ := rfl
  rw [Places.kind?, places, hserved]
  generalize groupVersion apiVersion = gv
  obtain ⟨name, version⟩ := gv
  have hdistinct : extensions ≠ caching := by decide
  rw [versions]
  by_cases hextensions : name = extensions
  · subst hextensions
    rw [if_pos rfl, find?_versions]
    by_cases h : version = "v1" ∧ kind = "CustomResourceDefinition"
    · obtain ⟨rfl, rfl⟩ := h
      rfl
    · simp [h, hdistinct]
  by_cases hcaching : defined ∧ name = caching
  · obtain ⟨hdefined, rfl⟩ := hcaching
    rw [if_neg hextensions, if_pos ⟨hdefined, rfl⟩, find?_versions]
    by_cases h : version = "v1alpha1" ∧ kind = "Image"
    · obtain ⟨rfl, rfl⟩ := h
      simp [hdefined, hextensions]
      rfl
    · simp [h, hextensions]
  · have hneither : ¬ (defined ∧ (name = caching ∧ version = "v1alpha1") ∧ kind = "Image") :=
      fun h => hcaching ⟨h.1, h.2.1.1⟩
    have hnothing : (if name = "" then [("v1", [])] else [] : Discovery.Versions).lookup version = none ∨
        (if name = "" then [("v1", [])] else [] : Discovery.Versions).lookup version = some [] := by
      split_ifs
      · rw [List.lookup_cons]
        split
        · exact .inr rfl
        · exact .inl rfl
      · exact .inl rfl
    rw [if_neg hextensions, if_neg hcaching]
    obtain h | h := hnothing <;> simp [h, hextensions, hneither]

theorem tells : Tells handle places := by
  intro defined apiVersion kind
  rw [← find?_eq]
  exact Program.run_bind_of_ok (told_eq _ defined)

theorem grows (r : Request) : Grows places fun defined => (handle r defined).2 := by
  intro defined apiVersion kind p hp
  have hmore : defined = true → (handle r defined).2 = true := by
    rintro rfl
    rw [handle]
    split <;> rfl
  unfold places at hp ⊢
  split_ifs at hp ⊢ <;> simp_all

def image : Resource := ⟨[("apiVersion", .str "caching.internal.knative.dev/v1alpha1"),
  ("kind", .str "Image"), ("metadata", .obj [("name", .str "queue"), ("namespace", .str "n")])]⟩

/-- The definition of cached images. -/
def definition : Resource := ⟨[("apiVersion", .str "apiextensions.k8s.io/v1"),
  ("kind", .str "CustomResourceDefinition"),
  ("metadata", .obj [("name", .str "images.caching.internal.knative.dev")])]⟩

/-- Images are looked for before and after their definition was created. -/
def turns : List (Turn Bool) := [.call (.kindExists image.apiVersion image.kind),
  .call (.create definition), .change id, .call (.kindExists image.apiVersion image.kind),
  .call (.create image)]

/-- How many requests each call took. -/
def counts (keep : KnownKinds → KnownKinds) : List (String × Nat) :=
  (visits handle keep turns [] false).map fun v => (v.call.describe, v.requests.length)

/-- Images are found from when they were defined, and then are not looked up again. -/
theorem defined_between_calls :
    Tells handle places ∧ (∀ r, Grows places fun defined => (handle r defined).2) ∧
      (∀ f, .change f ∈ turns → Grows places f) ∧
      List.Forall₂ (Alike handle places) (visits handle id turns [] false)
        (visits handle (fun _ => []) turns [] false) ∧
      counts id = [
        ("kind_exists caching.internal.knative.dev/v1alpha1 Image", 1),
        ("create CustomResourceDefinition images.caching.internal.knative.dev", 3),
        ("kind_exists caching.internal.knative.dev/v1alpha1 Image", 2),
        ("create Image n/queue", 1)] ∧
      counts (fun _ => []) = [
        ("kind_exists caching.internal.knative.dev/v1alpha1 Image", 1),
        ("create CustomResourceDefinition images.caching.internal.knative.dev", 3),
        ("kind_exists caching.internal.knative.dev/v1alpha1 Image", 2),
        ("create Image n/queue", 3)] := by
  have hothers : ∀ f, .change f ∈ turns → Grows places f := by
    intro f hf
    obtain rfl : f = id := by simpa [turns] using hf
    exact fun _ _ _ _ hp => hp
  exact ⟨tells, grows, hothers, (remembering_changes_nothing tells grows turns hothers false).1,
    by decide +kernel, by decide +kernel⟩

end Growing

end Api.Client

end ReleaseKeeper
