import ReleaseKeeper.Api.Instances
import ReleaseKeeper.Proofs.Api.Exchanges
import ReleaseKeeper.Proofs.Instance.Json
import ReleaseKeeper.Proofs.Program.Interleaving

/-!
# Finalizers that several controllers edit

A finalizer is added or removed in two requests: one fetches the instance, the other writes the whole
list back. What a call goes through is one of three things (`Went`): it writes nothing and fails, it
finds its finalizer there already, or it writes the list that it read with its own edit applied.

So the operator's own finalizer is there as the call that wrote last wants it, and never twice; the
finalizers of others are what that call had read of them (`finalizers_written`). An edit that someone
else makes in between is undone (`edit_in_between_lost`).
-/
namespace ReleaseKeeper.Api.Instances

open Typed Typed.Reader
open Program (Move Event movesOf)
open Relation (ReflTransGen)

/-! ## Finalizers of a stored instance -/

def finalizersOf (x : Json) : List String :=
  (((x.get? "metadata").bind fun m => (m.get? "finalizers").bind Json.asArr?).getD []).filterMap
    Json.asStr?

/-- Items that are read as texts are texts. -/
theorem filterMap_of_items : ∀ {xs : List Json} {ys : List String},
    items text xs = .ok ys → xs.filterMap Json.asStr? = ys
  | [], _, h => Except.ok.inj h
  | x :: xs, _, h => by
    obtain ⟨y, hy, h⟩ := bind_eq_ok.1 h
    obtain ⟨ys, hys, h⟩ := bind_eq_ok.1 h
    obtain rfl := Except.ok.inj h
    cases x with
    | str s =>
      obtain rfl := Except.ok.inj hy
      have hs : (Json.str s).asStr? = some s := rfl
      rw [List.filterMap_cons_some hs, filterMap_of_items hys]
    | _ => cases hy

/-- An instance is read with its finalizers. -/
theorem finalizers_of_ofJson {x : Json} {i : Instance} (hx : x.asObj?.isSome)
    (h : Instance.ofJson x = .ok i) : i.finalizers = finalizersOf x := by
  cases x with
  | obj fields =>
    obtain ⟨m, hm, hread⟩ := of_field?_eq_some (Instance.ofJson_obj_iff.1 h).1
    have hmetadata : (Json.obj fields).get? "metadata" = some m := hm
    cases m with
    | obj members =>
      obtain ⟨-, -, -, -, hfinalizers, -⟩ := Metadata.ofJson_obj_iff.1 hread
      obtain ⟨y??, hfield, hend⟩ := bind_eq_ok.1 hfinalizers
      have hjoin : y??.join = i.metadata.finalizers := Except.ok.inj hend
      rw [finalizersOf, hmetadata, Option.bind_some, Instance.finalizers, ← hjoin, Json.get?,
        Json.asObj?, Option.bind_some]
      rw [field?] at hfield
      cases hlist : members.lookup "finalizers" with
      | none =>
        rw [hlist] at hfield
        obtain rfl := Except.ok.inj hfield
        rfl
      | some x =>
        rw [hlist] at hfield
        cases x with
        | null =>
          obtain rfl := Except.ok.inj hfield
          rfl
        | arr xs =>
          obtain ⟨_, hoption, rfl⟩ := map_eq_ok.1 hfield
          obtain ⟨ys, hitems, rfl⟩ := map_eq_ok.1 hoption
          exact (filterMap_of_items hitems).symm
        | _ => cases hfield
    | _ => cases hread
  | _ => cases hx

theorem filterMap_asStr?_map (fs : List String) : (fs.map Json.str).filterMap Json.asStr? = fs := by
  rw [List.filterMap_map]
  exact List.filterMap_some

/-- A change of finalizers replaces all of them. -/
theorem finalizersOf_change (finalizers : List String) (x : Json) :
    finalizersOf ((finalizersChange finalizers).patch x) = finalizers := by
  have hlist : finalizersOf ((finalizersChange finalizers).patch x) =
      (finalizers.map Json.str).filterMap Json.asStr? := by
    simp [finalizersChange, Json.patch, Json.patchMembers, Json.isNull, finalizersOf, Json.get?,
      Json.asObj?, Json.asArr?, Table.lookup_put]
  rw [hlist, filterMap_asStr?_map]

/-! ## Edits -/

/-- What someone wants of a finalizer. -/
inductive Edit where
  | add
  | remove
deriving DecidableEq

namespace Edit

/-- The finalizers after an edit. -/
def onto : Edit → String → List String → List String
  | add, f, fs => if f ∈ fs then fs else fs ++ [f]
  | remove, f, fs => fs.filter (· != f)

/-- The operator's call for an edit. -/
def call : Edit → String → String → String → Exchange Unit
  | add => addFinalizer
  | remove => removeFinalizer

variable {e : Edit} {f g : String} {fs : List String}

theorem mem_onto : f ∈ e.onto f fs ↔ e = add := by
  cases e with
  | add =>
    rw [onto]
    split
    · next h => simp [h]
    · simp
  | remove => simp [onto]

theorem mem_onto_of_ne (h : g ≠ f) : g ∈ e.onto f fs ↔ g ∈ fs := by
  cases e with
  | add =>
    rw [onto]
    split
    · rfl
    · simp [h]
  | remove => simp [onto, h]

/-- An edit leaves a finalizer there twice only if it was there twice. -/
theorem count_onto_le : (e.onto f fs).count f ≤ max 1 (fs.count f) := by
  cases e with
  | add =>
    rw [onto]
    split
    · exact Nat.le_max_right _ _
    · next h => simp [List.count_eq_zero.2 h]
  | remove =>
    have hnone : f ∉ fs.filter (· != f) := by simp
    rw [onto, List.count_eq_zero.2 hnone]
    exact Nat.zero_le _

theorem count_onto_of_ne (h : g ≠ f) : (e.onto f fs).count g = fs.count g := by
  cases e with
  | add =>
    rw [onto]
    split
    · rfl
    · simp [List.count_append, Ne.symm h]
  | remove => rw [onto, List.count_filter (by simpa using h)]

end Edit

def others (o : String) (fs : List String) : List String := fs.filter (· != o)

theorem others_onto {e : Edit} {o : String} {fs : List String} :
    others o (e.onto o fs) = others o fs := by
  cases e with
  | add =>
    rw [Edit.onto]
    split
    · rfl
    · simp [others]
  | remove => simp [others, Edit.onto]

theorem others_onto_of_ne {e : Edit} {f o : String} {fs : List String} (h : f ≠ o) :
    others o (e.onto f fs) = e.onto f (others o fs) := by
  cases e with
  | add =>
    have hmem : f ∈ others o fs ↔ f ∈ fs := by simp [others, h]
    rw [Edit.onto, Edit.onto]
    by_cases hf : f ∈ fs
    · rw [if_pos hf, if_pos (hmem.2 hf)]
    · rw [if_neg hf, if_neg (mt hmem.1 hf)]
      simp [others, h]
  | remove =>
    simp only [Edit.onto, others, List.filter_filter, Bool.and_comm]

/-! ## The server and other controllers -/

/-- How an API server deals with the requests about one stored instance. It may change other parts of
the instance by itself, and what it answers to a change may get lost. -/
inductive Holds : Program.World Request (fun _ => Response) Json
  /-- A request that is refused changes nothing; the instance is there. -/
  | refused {x : Json} {r : Request} {a : Response} {status : ServerStatus}
    (answered : a.accepted = .error (.refused status)) (there : status.reason ≠ "NotFound") :
    Holds x r a x
  | fetched {x : Json} {r : Request} {a : Response} (method : r.method = .get)
    (answered : a.accepted = .ok x) : Holds x r a x
  /-- The change is merged into the instance at once, its lists replaced. -/
  | merged {x x' : Json} {r : Request} {a : Response} {change : Json} (method : r.method = .patch)
    (content : r.content = some ⟨mergePatch, change⟩) (object : x'.asObj?.isSome)
    (written : finalizersOf x' = finalizersOf (change.patch x)) : Holds x r a x'

/-- What other controllers do to a stored instance: each adds and removes finalizers of its own, which
are not the operator's, and may change anything else. -/
def Edits (o : String) (l : Edit × String) (x x' : Json) : Prop :=
  l.2 ≠ o ∧ x'.asObj?.isSome ∧ finalizersOf x' = l.1.onto l.2 (finalizersOf x)

variable {o ns name : String} {x x' : Json}

theorem Holds.fetched_of_get {r : Request} {a : Response} (h : Holds x r a x')
    (method : r.method = .get) : x' = x ∧ (a.accepted = .ok x ∨
      ∃ status, a.accepted = .error (.refused status) ∧ status.reason ≠ "NotFound") := by
  cases h with
  | refused answered there => exact ⟨rfl, .inr ⟨_, answered, there⟩⟩
  | fetched _ answered => exact ⟨rfl, .inl answered⟩
  | merged hpatch =>
    rw [method] at hpatch
    cases hpatch

theorem Holds.merged_of_patch {r : Request} {a : Response} {fs : List String} (h : Holds x r a x')
    (method : r.method = .patch) (content : r.content = some ⟨mergePatch, finalizersChange fs⟩) :
    (x' = x ∧ ∃ e, a.accepted = .error e) ∨ finalizersOf x' = fs := by
  cases h with
  | refused answered => exact .inl ⟨rfl, _, answered⟩
  | fetched hget =>
    rw [method] at hget
    cases hget
  | @merged _ _ _ _ change _ hcontent _ written =>
    have hchange : finalizersChange fs = change := by
      have hsent := content.symm.trans hcontent
      simpa using hsent
    rw [written, ← hchange]
    exact .inr (finalizersOf_change fs x)

/-- A stored instance stays an object. -/
theorem object_kept (h : Program.Step Holds (Edits o) x x') (hx : x.asObj?.isSome) :
    x'.asObj?.isSome := by
  obtain ⟨r, a, hheld⟩ | ⟨l, -, hobject, -⟩ := h
  · cases hheld with
    | refused => exact hx
    | fetched => exact hx
    | merged _ _ object => exact object
  · exact hobject

/-! ## What a call goes through -/

/-- What a call goes through: its requests with the states around them, and its outcome. -/
inductive Went (o : String) : Edit → List (Move Request (fun _ => Response) Json) →
    Except ServerError Unit → Prop
  /-- It failed and has written nothing. -/
  | failed {e : Edit} {ms : List (Move Request (fun _ => Response) Json)} {error : ServerError}
    (same : ∀ m ∈ ms, m.after = m.before) : Went o e ms (.error error)
  /-- The finalizer was there already. -/
  | found {g : Move Request (fun _ => Response) Json} (same : g.after = g.before)
    (there : o ∈ finalizersOf g.before) : Went o .add [g] (.ok ())
  /-- It wrote what it had read with its own edit. -/
  | wrote {e : Edit} {g p : Move Request (fun _ => Response) Json} {outcome : Except ServerError Unit}
    (same : g.after = g.before)
    (written : finalizersOf p.after = e.onto o (finalizersOf g.before)) : Went o e [g, p] outcome

section
variable {s s' : Json} {t : Program.Trace Request fun _ => Response}
  {ms ms' : List (Move Request (fun _ => Response) Json)} {outcome : Except ServerError Unit}

/-- Finalizers that were read and edited are written back. -/
theorem went_put {e : Edit} {fs : List String} {g : Move Request (fun _ => Response) Json}
    (same : g.after = g.before) (hfs : fs = e.onto o (finalizersOf g.before))
    (h : Program.Runs (Program.Among Holds (Edits o)) (putFinalizers ns name fs).run (s, [g]) t
      outcome (s', ms')) : Went o e ms' outcome := by
  obtain ⟨error, -, -, rfl, hend⟩ | ⟨r, a, hbuilt, -, ⟨s₁, hheld, -, hnoted⟩, rfl⟩ :=
    Collection.runs_merge.1 h
  · obtain rfl : ms' = [g] := congrArg Prod.snd hend
    exact .failed (by simpa using same)
  · obtain rfl : ms' = [g, ⟨r, a, s, s₁⟩] := hnoted
    obtain ⟨method, content⟩ := Collection.merging_eq_ok hbuilt
    obtain ⟨rfl, error, hrefused⟩ | hwritten := hheld.merged_of_patch method content
    · rw [Response.as_of_refused hrefused]
      exact .failed (by simpa using same)
    · exact .wrote same (hwritten.trans hfs)

/-- An instance was fetched, with the finalizers that are stored, or it was not. -/
theorem went_get (hs : s.asObj?.isSome) {y : Except ServerError Instance}
    (h : Program.Runs (Program.Among Holds (Edits o)) ((collection (some ns)).get name).run (s, []) t y
      (s', ms')) : (∀ m ∈ ms', m.after = m.before) ∧
      ((∃ error, y = .error error ∧ Collection.unlessAbsent y = .error error) ∨
        ∃ g i, ms' = [g] ∧ y = .ok i ∧ i.finalizers = finalizersOf g.before) := by
  obtain ⟨error, hbuilt, -, rfl, hend⟩ | ⟨r, a, hbuilt, -, ⟨s₁, hheld, -, hnoted⟩, rfl⟩ :=
    Collection.runs_get.1 h
  · obtain rfl : ms' = [] := congrArg Prod.snd hend
    obtain ⟨detail, rfl⟩ := Collection.getting_eq_error hbuilt
    exact ⟨by simp, .inl ⟨_, rfl, rfl⟩⟩
  · obtain rfl : ms' = [⟨r, a, s, s₁⟩] := hnoted
    obtain ⟨rfl, hfetched | ⟨status, hrefused, hreason⟩⟩ :=
      hheld.fetched_of_get (Collection.getting_eq_ok hbuilt)
    · have has : a.as (collection (some ns)).read = decode Instance.ofJson s₁ :=
        Response.as_of_accepted hfetched
      refine ⟨by simp, ?_⟩
      rw [has, decode]
      cases hread : Instance.ofJson s₁ with
      | error fault => exact .inl ⟨_, rfl, rfl⟩
      | ok i => exact .inr ⟨_, i, rfl, rfl, finalizers_of_ofJson hs hread⟩
    · rw [Response.as_of_refused hrefused]
      exact ⟨by simp, .inl ⟨_, rfl, if_neg hreason⟩⟩

/-- **What a call goes through**, whatever others do in between. -/
theorem went_call (hs : s.asObj?.isSome) {e : Edit}
    (h : Program.Runs (Program.Among Holds (Edits o)) (e.call ns name o).run (s, []) t outcome
      (s', ms')) : Went o e ms' outcome := by
  cases e with
  | add =>
    obtain ⟨error, rfl, hget⟩ | ⟨i, t₁, ⟨s₁, ms₁⟩, t₂, -, hget, hrest⟩ := Program.runs_attempt_bind.1 h
    · obtain ⟨hsame, -⟩ := went_get hs hget
      exact .failed hsame
    · obtain ⟨hsame, ⟨_, ⟨⟩, -⟩ | ⟨g, _, rfl, ⟨⟩, hread⟩⟩ := went_get hs hget
      have hg : g.after = g.before := hsame g List.mem_cons_self
      by_cases hthere : o ∈ finalizersOf g.before
      · rw [hread, if_pos (by simpa using hthere)] at hrest
        obtain ⟨-, rfl, hend⟩ := Program.runs_done_iff.1 hrest
        obtain rfl : ms' = [g] := congrArg Prod.snd hend
        exact .found hg hthere
      · rw [hread, if_neg (by simpa using hthere)] at hrest
        exact went_put hg (if_neg hthere).symm hrest
  | remove =>
    obtain ⟨error, rfl, hget⟩ | ⟨i?, t₁, ⟨s₁, ms₁⟩, t₂, -, hget, hrest⟩ :=
      Program.runs_attempt_bind.1 h
    · obtain ⟨y, hget, -⟩ := Collection.runs_get?.1 hget
      obtain ⟨hsame, -⟩ := went_get hs hget
      exact .failed hsame
    · obtain ⟨y, hget, hy⟩ := Collection.runs_get?.1 hget
      obtain ⟨hsame, ⟨error, -, herror⟩ | ⟨g, i, rfl, rfl, hread⟩⟩ := went_get hs hget
      · cases hy.trans herror
      · obtain rfl := Except.ok.inj hy
        have hg : g.after = g.before := hsame g List.mem_cons_self
        have hfs : i.finalizers.filter (· != o) = Edit.remove.onto o (finalizersOf g.before) := by
          rw [hread]
          rfl
        exact went_put hg hfs hrest

end

/-! ## Histories of calls and edits -/

section
variable {ι : Type} [DecidableEq ι] {j : ι} {e : Edit} {outcome : Except ServerError Unit}
  {h front back : List (Event ι Request (fun _ => Response) (Edit × String) Json)}
  {m : Move Request (fun _ => Response) Json}

/-- The edits of others, in order. -/
def editsOf (h : List (Event ι Request (fun _ => Response) (Edit × String) Json)) :
    List (Edit × String) :=
  h.filterMap fun
    | .foreign l _ _ => some l
    | .own .. => none

/-- Some finalizers after the edits of others. -/
def edited (h : List (Event ι Request (fun _ => Response) (Edit × String) Json))
    (fs : List String) : List String :=
  (editsOf h).foldl (fun fs l => l.1.onto l.2 fs) fs

/-- Whenever a call changes the finalizers, nobody else has edited them since it has read them. -/
def Undisturbed (h : List (Event ι Request (fun _ => Response) (Edit × String) Json)) : Prop :=
  ∀ front j g mid p back, h = front ++ .own j g :: (mid ++ .own j p :: back) →
    finalizersOf p.after ≠ finalizersOf p.before → editsOf mid = []

/-- A request of a call changes nothing, or it writes what the call has read with its edit. -/
theorem own_written (hwent : Went o e (movesOf j h) outcome) (hh : h = front ++ .own j m :: back) :
    m.after = m.before ∨ ∃ front' g mid, front = front' ++ .own j g :: mid ∧
      finalizersOf m.after = e.onto o (finalizersOf g.before) := by
  have hmoves : movesOf j h = movesOf j front ++ m :: movesOf j back := by
    rw [hh, Program.movesOf_append, Program.movesOf_own]
  rw [hmoves] at hwent
  generalize hfront : movesOf j front = fetched at hwent
  generalize movesOf j back = later at hwent
  generalize hms : fetched ++ m :: later = ms at hwent
  cases hwent with
  | failed same => exact .inl (same m (by simp [← hms]))
  | found same =>
    cases fetched with
    | nil =>
      obtain ⟨rfl, -⟩ := List.cons.inj hms
      exact .inl same
    | cons => simp at hms
  | @wrote _ g p _ same written =>
    rcases fetched with _ | ⟨g', _ | ⟨_, fetched⟩⟩
    · obtain ⟨rfl, -⟩ := List.cons.inj hms
      exact .inl same
    · obtain ⟨rfl, hlast⟩ := List.cons.inj hms
      obtain ⟨rfl, -⟩ := List.cons.inj hlast
      have hfront : movesOf j front = [] ++ [g'] := hfront
      obtain ⟨front', mid, hsplit, -⟩ := Program.split_of_movesOf hfront
      exact .inr ⟨front', g', mid, hsplit, written⟩
    · simp at hms

/-- Behind the last request of a completed call the finalizer is as the call wants it. -/
theorem completed (hwent : Went o e (movesOf j h) (.ok ())) :
    ∃ front m back, h = front ++ .own j m :: back ∧ movesOf j back = [] ∧
      (o ∈ finalizersOf m.after ↔ e = .add) := by
  generalize hms : movesOf j h = ms at hwent
  generalize hok : (Except.ok () : Except ServerError Unit) = result at hwent
  cases hwent with
  | failed => cases hok
  | @found g same there =>
    have hms : movesOf j h = [] ++ [g] := hms
    obtain ⟨front, back, hh, -, hback⟩ := Program.split_of_movesOf hms
    exact ⟨front, g, back, hh, hback, by simp [same, there]⟩
  | @wrote _ g p _ same written =>
    have hms : movesOf j h = [g] ++ [p] := hms
    obtain ⟨front, back, hh, -, hback⟩ := Program.split_of_movesOf hms
    exact ⟨front, p, back, hh, hback, by rw [written, Edit.mem_onto]⟩

omit [DecidableEq ι] in
theorem edited_append (h h' : List (Event ι Request (fun _ => Response) (Edit × String) Json))
    (fs : List String) : edited (h ++ h') fs = edited h' (edited h fs) := by
  rw [edited, editsOf, List.filterMap_append, List.foldl_append]
  rfl

/-! ## Every history -/

variable {edit : ι → Edit} {qs : ι → Program Request (fun _ => Response) (Except ServerError Unit)}

/-- What a call goes through in a history of all of them. -/
theorem went_of_interleaved (hx : x.asObj?.isSome)
    (hrun : Program.Interleaved Holds (Edits o) (fun j => ((edit j).call ns name o).run) x h qs x')
    (hdone : qs j = .done outcome) : Went o (edit j) (movesOf j h) outcome := by
  obtain ⟨s₀, t, hsteps, hruns⟩ := hrun.runs hdone []
  rw [List.nil_append] at hruns
  have hs₀ : s₀.asObj?.isSome := Program.kept_by_steps (I := fun y => y.asObj?.isSome)
    (fun _ _ => object_kept) hsteps hx
  exact went_call hs₀ hruns

section
variable (hchain : Program.Chained Holds (Edits o) x h x')
  (hwent : ∀ j, ∃ outcome, Went o (edit j) (movesOf j h) outcome)
include hchain hwent

/-- The operator's finalizer does not get there twice. -/
theorem count_history : (finalizersOf x').count o ≤ max 1 ((finalizersOf x).count o) := by
  refine Program.chained_induction
    (I := fun _ y => (finalizersOf y).count o ≤ max 1 ((finalizersOf x).count o)) hchain
    (Nat.le_max_right _ _) fun front e back hh hcan hearlier hnow => ?_
  cases e with
  | own j m =>
    change (finalizersOf m.after).count o ≤ _
    obtain ⟨outcome, hj⟩ := hwent j
    obtain hsame | ⟨front', g, mid, hfront, hwritten⟩ := own_written hj hh
    · rw [hsame]
      exact hnow
    · have hread : (finalizersOf g.before).count o ≤ _ := hearlier _ _ _ hfront
      have hadded : (finalizersOf m.after).count o ≤ max 1 ((finalizersOf g.before).count o) := by
        rw [hwritten]
        exact Edit.count_onto_le
      omega
  | foreign l y y' =>
    obtain ⟨hne, -, hedited⟩ := hcan
    change (finalizersOf y').count o ≤ _
    rw [hedited, Edit.count_onto_of_ne (Ne.symm hne)]
    exact hnow

/-- The finalizers of others are as they edit them, as long as no call is disturbed. -/
theorem others_history (hundisturbed : Undisturbed h) :
    others o (finalizersOf x') = edited h (others o (finalizersOf x)) := by
  refine Program.chained_induction
    (I := fun front y => others o (finalizersOf y) = edited front (others o (finalizersOf x))) hchain
    rfl fun front e back hh hcan hearlier hnow => ?_
  rw [edited_append]
  cases e with
  | own j m =>
    change others o (finalizersOf m.after) = edited front _
    obtain ⟨outcome, hj⟩ := hwent j
    obtain hsame | ⟨front', g, mid, hfront, hwritten⟩ := own_written hj hh
    · rw [hsame]
      exact hnow
    · by_cases hkept : finalizersOf m.after = finalizersOf m.before
      · rw [hkept]
        exact hnow
      · have hquiet : editsOf mid = [] :=
          hundisturbed front' j g mid m back (by rw [hh, hfront]; simp) hkept
        have hread : others o (finalizersOf g.before) = _ := hearlier _ _ _ hfront
        have hmid : edited (.own j g :: mid) (edited front' (others o (finalizersOf x))) =
            edited front' (others o (finalizersOf x)) := by
          have hown : editsOf (.own j g :: mid) = editsOf mid := rfl
          rw [edited, hown, hquiet]
          rfl
        rw [hwritten, others_onto, hread, hfront, edited_append, hmid]
  | foreign l y y' =>
    obtain ⟨hne, -, hedited⟩ := hcan
    change others o (finalizersOf y') = l.1.onto l.2 (edited front _)
    rw [hedited, others_onto_of_ne hne]
    exact congrArg _ hnow

end

/-- The finalizer stays as a call wants it until a call that wants the opposite changes it. -/
theorem mem_kept {x₁ : Json} (hchain : Program.Chained Holds (Edits o) x₁ back x')
    (hwent : ∀ j, ∃ outcome, Went o (edit j) (movesOf j h) outcome) (hh : h = front ++ back)
    (hstart : o ∈ finalizersOf x₁ ↔ e = .add)
    (hunopposed : ∀ i m, .own i m ∈ back → edit i ≠ e → finalizersOf m.after = finalizersOf m.before) :
    o ∈ finalizersOf x' ↔ e = .add := by
  refine Program.chained_induction (I := fun _ y => o ∈ finalizersOf y ↔ e = .add) hchain hstart
    fun front' event back' hback hcan _ hnow => ?_
  cases event with
  | own i m =>
    change o ∈ finalizersOf m.after ↔ e = .add
    by_cases hwish : edit i = e
    · obtain ⟨outcome, hi⟩ := hwent i
      have hsplit : h = (front ++ front') ++ .own i m :: back' := by rw [hh, hback, List.append_assoc]
      obtain hsame | ⟨_, g, _, -, hwritten⟩ := own_written hi hsplit
      · rw [hsame]
        exact hnow
      · rw [hwritten, Edit.mem_onto, hwish]
    · rw [hunopposed i m (by simp [hback]) hwish]
      exact hnow
  | foreign l y y' =>
    obtain ⟨hne, -, hedited⟩ := hcan
    change o ∈ finalizersOf y' ↔ e = .add
    rw [hedited, Edit.mem_onto_of_ne (Ne.symm hne)]
    exact hnow

variable (edit) in
/-- **Finalizers under concurrent edits.** Once all calls have come to an end the operator's finalizer
is there at most once, unless it was there more often. It is there or not as any completed call wants
it, unless a call that wants the opposite has changed it since. What a call writes holds exactly
those finalizers of others that it has read; so these are as the others edit them, unless an edit
falls between a call's two requests. -/
theorem finalizers_written (hx : x.asObj?.isSome)
    (hrun : Program.Interleaved Holds (Edits o) (fun j => ((edit j).call ns name o).run) x h qs x')
    (hdone : ∀ j, ∃ outcome, qs j = .done outcome) :
    (finalizersOf x').count o ≤ max 1 ((finalizersOf x).count o) ∧
    (∀ j, qs j = .done (.ok ()) → ∃ front m back, h = front ++ .own j m :: back ∧
      movesOf j back = [] ∧
      ((∀ i m', .own i m' ∈ back → edit i ≠ edit j →
          finalizersOf m'.after = finalizersOf m'.before) →
        (o ∈ finalizersOf x' ↔ edit j = .add))) ∧
    (∀ front j m back, h = front ++ .own j m :: back → m.after = m.before ∨ ∃ g, .own j g ∈ front ∧
      others o (finalizersOf m.after) = others o (finalizersOf g.before)) ∧
    (Undisturbed h → others o (finalizersOf x') = edited h (others o (finalizersOf x))) := by
  have hchain := hrun.chained
  have hwent : ∀ j, ∃ outcome, Went o (edit j) (movesOf j h) outcome := fun j => by
    obtain ⟨outcome, hj⟩ := hdone j
    exact ⟨outcome, went_of_interleaved hx hrun hj⟩
  refine ⟨count_history hchain hwent, fun j hj => ?_, fun front j m back hh => ?_,
    others_history hchain hwent⟩
  · obtain ⟨front, m, back, hh, hlast, hthere⟩ := completed (went_of_interleaved hx hrun hj)
    have hsplit : h = (front ++ [.own j m]) ++ back := by simp [hh]
    have hlater : Program.Chained Holds (Edits o) m.after back x' := by
      rw [hh] at hchain
      obtain ⟨_, -, -, -, hlater⟩ := Program.chained_append.1 hchain
      exact hlater
    exact ⟨front, m, back, hh, hlast, mem_kept hlater hwent hsplit hthere⟩
  · obtain ⟨outcome, hj⟩ := hwent j
    obtain hsame | ⟨front', g, mid, hfront, hwritten⟩ := own_written hj hh
    · exact .inl hsame
    · exact .inr ⟨g, by simp [hfront], by rw [hwritten, others_onto]⟩

end

namespace Shared

/-- A stored instance with some finalizers. -/
def object (finalizers : List String) : Json := .obj [
  ("metadata", .obj [("finalizers", .arr (finalizers.map .str)), ("name", .str "serving"),
    ("namespace", .str "n")]),
  ("spec", .obj [])]

def fetching : Request where
  method := .get
  path := "/apis/operator.knative.dev/v1alpha1/namespaces/n/knativeservings/serving"

def writing (finalizers : List String) : Request where
  method := .patch
  path := "/apis/operator.knative.dev/v1alpha1/namespaces/n/knativeservings/serving"
  parameters := ["fieldManager=serving-operator"]
  content := some ⟨mergePatch, finalizersChange finalizers⟩

theorem fetched (fs : List String) : Holds (object fs) fetching ⟨200, object fs⟩ (object fs) :=
  .fetched rfl rfl

theorem finalizersOf_object (fs : List String) : finalizersOf (object fs) = fs :=
  filterMap_asStr?_map fs

theorem written (fs gs : List String) :
    Holds (object fs) (writing gs) ⟨200, object gs⟩ (object gs) := by
  have hgs : finalizersOf (object gs) = finalizersOf ((finalizersChange gs).patch (object fs)) := by
    rw [finalizersOf_object, finalizersOf_change]
  exact .merged rfl rfl rfl hgs

end Shared

/-- The operator adds its finalizer, and someone else adds another one afterwards. -/
theorem finalizers_written_added :
    let o := Instance.finalizer
    ∃ h qs, (Shared.object ["a"]).asObj?.isSome ∧
      Program.Interleaved Holds (Edits o) (fun _ : Unit => (Edit.add.call "n" "serving" o).run)
        (Shared.object ["a"]) h qs (Shared.object ["a", o, "b"]) ∧
      (∀ j, qs j = .done (.ok ())) ∧ Undisturbed h ∧
      o ∈ finalizersOf (Shared.object ["a", o, "b"]) ∧
      others o (finalizersOf (Shared.object ["a", o, "b"])) = ["a", "b"] := by
  intro o
  let g : Move Request (fun _ => Response) Json :=
    ⟨Shared.fetching, ⟨200, Shared.object ["a"]⟩, Shared.object ["a"], Shared.object ["a"]⟩
  let p : Move Request (fun _ => Response) Json :=
    ⟨Shared.writing ["a", o], ⟨200, Shared.object ["a", o]⟩, Shared.object ["a"],
      Shared.object ["a", o]⟩
  let h : List (Event Unit Request (fun _ => Response) (Edit × String) Json) :=
    [.own () g, .own () p, .foreign (.add, "b") (Shared.object ["a", o]) (Shared.object ["a", o, "b"])]
  have hrun : Program.Interleaved Holds (Edits o)
      (fun _ : Unit => (Edit.add.call "n" "serving" o).run) (Shared.object ["a"]) h
      (fun _ => .done (.ok ())) (Shared.object ["a", o, "b"]) := by
    refine .only rfl (Shared.fetched _) (.only rfl (Shared.written _ _) (.foreign ?_ (.rest _ _)))
    exact ⟨by decide, rfl, by decide⟩
  have hundisturbed : Undisturbed h := by
    rintro front j g' mid p' back hh -
    have hthree : front.length + mid.length + back.length + 2 = 3 := by
      have hlength := congrArg List.length hh
      simp only [h, List.length_append, List.length_cons, List.length_nil] at hlength
      omega
    cases mid with
    | nil => rfl
    | cons e mid =>
      rw [List.length_cons] at hthree
      obtain rfl : front = [] := List.eq_nil_of_length_eq_zero (by omega)
      obtain rfl : mid = [] := List.eq_nil_of_length_eq_zero (by omega)
      simp [h] at hh
  have hx : (Shared.object ["a"]).asObj?.isSome := rfl
  obtain ⟨-, hthere, -, hothers⟩ :=
    finalizers_written (fun _ => .add) hx hrun fun _ => ⟨_, rfl⟩
  obtain ⟨front, m, back, hh, hlast, hthere⟩ := hthere () rfl
  refine ⟨h, _, hx, hrun, fun _ => rfl, hundisturbed, ?_, ?_⟩
  · exact (hthere fun _ _ _ hopposed => absurd rfl hopposed).2 rfl
  · rw [hothers hundisturbed]
    decide

/-- **An edit in between is lost.** The operator removes its finalizer. Someone else adds one after it
has fetched the instance and before it writes; when all is done the other finalizer is gone, though
nobody has removed it. -/
theorem edit_in_between_lost :
    let o := Instance.finalizer
    ∃ h qs, Program.Interleaved Holds (Edits o)
        (fun _ : Unit => (Edit.remove.call "n" "serving" o).run)
        (Shared.object ["a", o]) h qs (Shared.object ["a"]) ∧
      (∀ j, qs j = .done (.ok ())) ∧ editsOf h = [(.add, "b")] ∧
      "b" ∉ finalizersOf (Shared.object ["a"]) := by
  intro o
  have hadded : Edits o (.add, "b") (Shared.object ["a", o]) (Shared.object ["a", o, "b"]) :=
    ⟨by decide, rfl, by decide⟩
  have hwritten := Shared.written ["a", o, "b"] ["a"]
  have hrun : Program.Interleaved Holds (Edits o)
      (fun _ : Unit => (Edit.remove.call "n" "serving" o).run) (Shared.object ["a", o]) _
      (fun _ => .done (.ok ())) (Shared.object ["a"]) :=
    .only rfl (Shared.fetched ["a", o]) (.foreign hadded (.only rfl hwritten (.rest _ _)))
  exact ⟨_, _, hrun, fun _ => rfl, rfl, by decide⟩

end ReleaseKeeper.Api.Instances
