import ReleaseKeeper.Proofs.Cluster.Rehearsal
import ReleaseKeeper.Proofs.Instance.Generation
import ReleaseKeeper.Proofs.Reconcile.Addresses
import ReleaseKeeper.Proofs.Reconcile.Stages

/-!
# Rounds of reconciling

An operator reconciles one instance after another, whatever its calls are answered and whatever
happens in between (`Rounds`). It keeps nothing from one round to the next but the generations that
it has seen, and these are what the rounds asked for: a live instance to be observed, one whose
deletion was completed to be forgotten (`Rounds.seen_eq`).

So a round is refused exactly if another one ran the stages for a greater generation under the same
key, and no deletion of that key was completed since (`Rounds.refused_iff`). Hence generations never
go backwards (`generations_never_fall`).
-/
namespace ReleaseKeeper

open Generations (accepted seenAfter)

/-- One time that an instance was reconciled: the generations that were seen before, the calls that
were made, and what it came to. -/
structure Round where
  subject : Instance
  seen : Generations
  calls : Program.Trace Call Call.Answer
  outcome : Except Error Action

namespace Round

def key (r : Round) : String := r.subject.key

/-- The generation of the instance; one that has none counts as not yet changed. -/
def generation (r : Round) : Int := r.subject.metadata.generation.getD 0

/-- The instance is live, and its generation is one to run the stages for. -/
def Ran (r : Round) : Prop :=
  r.subject.isDeleting = false ∧ ∃ found, r.seen.observe r.key r.generation = .ok found

/-- The instance is live, but its generation is refused. -/
def Refused (r : Round) : Prop :=
  r.subject.isDeleting = false ∧ ∃ e, r.seen.observe r.key r.generation = .error e

/-- The deletion of the instance was completed. -/
def Completed (r : Round) : Prop := r.subject.isDeleting = true ∧ ∃ action, r.outcome = .ok action

/-- What the round asks of the generations that were seen. -/
def requests (r : Round) : List Generations.Request :=
  if r.subject.isDeleting then if r.outcome.toBool then [.forget r.key] else []
  else [.observe r.key r.generation]

end Round

/-- Rounds that one operator makes one after another, the last one first, and the generations that
it has seen then. -/
inductive Rounds {σ : Type} (ctx : Context) (world : Program.World Call Call.Answer σ) :
    List Round → Generations → Prop
  | start : Rounds ctx world [] []
  | next {rounds : List Round} {seen : Generations} (before : Rounds ctx world rounds seen)
    {now : Timestamp} {i : Instance} {s s' : σ} {t : Program.Trace Call Call.Answer}
    {x : Except Error Action × Generations}
    (reconciled : Program.Runs world (reconcile ctx now i seen) s t x s') :
    Rounds ctx world (⟨i, seen, t, x.1⟩ :: rounds) x.2

/-- Of some rounds, the last one first, one ran the stages for a key, and no deletion of the key was
completed since. -/
def RanSince (key : String) (rounds : List Round) (r : Round) : Prop :=
  ∃ between before, rounds = between ++ r :: before ∧ r.Ran ∧ r.key = key ∧
    ∀ q ∈ between, q.Completed → q.key ≠ key

variable {σ : Type} {world : Program.World Call Call.Answer σ} {ctx : Context} {now : Timestamp}
  {rounds : List Round} {seen : Generations} {key : String} {r q : Round}

/-! ## One round -/

theorem Round.ran_or_refused (h : r.subject.isDeleting = false) : r.Ran ∨ r.Refused := by
  cases hseen : r.seen.observe r.key r.generation with
  | ok found => exact .inl ⟨h, found, hseen⟩
  | error e => exact .inr ⟨h, e, hseen⟩

theorem Round.not_refused_of_ran (h : r.Ran) : ¬ r.Refused := by
  rintro ⟨-, e, he⟩
  obtain ⟨-, found, hfound⟩ := h
  cases hfound.symm.trans he

theorem Round.not_completed_of_live (h : r.subject.isDeleting = false) : ¬ r.Completed := by
  rintro ⟨hdeleting, -⟩
  cases h.symm.trans hdeleting

section
variable {i : Instance} {s s' : σ} {t : Program.Trace Call Call.Answer}
  {x : Except Error Action × Generations}

/-- What is seen after a round is what the round asked for. -/
theorem seen_reconcile (h : Program.Runs world (reconcile ctx now i seen) s t x s') :
    x.2 = (Round.requests ⟨i, seen, t, x.1⟩).foldr (fun request seen => seen.after request)
      seen := by
  rw [Round.requests]
  cases hdeleting : i.isDeleting with
  | true =>
    rw [reconcile, if_pos hdeleting] at h
    obtain ⟨t₁, y, s₁, t₂, rfl, -, hend⟩ := Program.runs_bind_iff.1 h
    cases y <;> obtain ⟨rfl, rfl, rfl⟩ := Program.runs_done_iff.1 hend <;> rfl
  | false =>
    rw [reconcile, if_neg (Bool.eq_false_iff.1 hdeleting)] at h
    cases hseen : seen.observe i.key (i.metadata.generation.getD 0) with
    | error e =>
      rw [hseen] at h
      obtain ⟨rfl, rfl, rfl⟩ := Program.runs_done_iff.1 h
      exact (Generations.after_of_refused hseen).symm
    | ok found =>
      obtain ⟨change, seen'⟩ := found
      rw [hseen] at h
      obtain ⟨t₁, y, s₁, t₂, rfl, -, hend⟩ := Program.runs_bind_iff.1 h
      obtain ⟨rfl, rfl, rfl⟩ := Program.runs_done_iff.1 hend
      exact (Generations.after_of_accepted hseen).symm

/-- A round that is refused makes no call, and tells which generation was seen. -/
theorem refused_reconcile (h : Program.Runs world (reconcile ctx now i seen) s t x s')
    (hrefused : Round.Refused ⟨i, seen, t, x.1⟩) :
    t = [] ∧ ∃ last, x.1 = .error (.staleGeneration i.key (i.metadata.generation.getD 0) last) := by
  obtain ⟨hlive, e, he⟩ := hrefused
  have hseen : seen.observe i.key (i.metadata.generation.getD 0) = .error e := he
  have hlive : i.isDeleting = false := hlive
  rw [reconcile, if_neg (Bool.eq_false_iff.1 hlive), hseen] at h
  obtain ⟨rfl, rfl, rfl⟩ := Program.runs_done_iff.1 h
  obtain ⟨last, -, -, rfl⟩ := Generations.observe_eq_error_iff.1 hseen
  exact ⟨rfl, last, rfl⟩

/-- A round that is not refused makes the calls of the stages. -/
theorem ran_reconcile (h : Program.Runs world (reconcile ctx now i seen) s t x s')
    (hran : Round.Ran ⟨i, seen, t, x.1⟩) :
    ∃ y, Operation.Runs world ((Pass.start i ctx.manifest).runAll ctx now) s t y s' := by
  obtain ⟨hlive, found, hseen⟩ := hran
  obtain ⟨change, seen'⟩ := found
  obtain ⟨y, hall, -⟩ := runs_reconcile_live hlive hseen h
  exact ⟨y, hall⟩

end

/-! ## One round after another -/

/-- **What is seen after some rounds is what they asked for.** -/
theorem Rounds.seen_eq (h : Rounds ctx world rounds seen) :
    seen = seenAfter (rounds.flatMap Round.requests) := by
  induction h with
  | start => rfl
  | next before reconciled ih =>
    rw [List.flatMap_cons, Generations.seenAfter_append, ← ih, seen_reconcile reconciled]

/-- The rounds before one of them. -/
theorem Rounds.before {front : List Round} :
    ∀ {rounds : List Round} {seen : Generations} {back : List Round}, Rounds ctx world rounds seen →
      rounds = back ++ r :: front → Rounds ctx world front r.seen := by
  intro rounds seen back h
  induction h generalizing back with
  | start => simp
  | next before reconciled ih =>
    intro heq
    cases back with
    | nil =>
      obtain ⟨rfl, rfl⟩ := List.cons.inj heq
      exact before
    | cons last back => exact ih (List.cons.inj heq).2

/-- What ran since a key was released, with one more round. -/
theorem ranSince_cons : RanSince key (q :: rounds) r ↔
    (q = r ∧ r.Ran ∧ r.key = key) ∨ (RanSince key rounds r ∧ (q.Completed → q.key ≠ key)) := by
  constructor
  · rintro ⟨_ | ⟨p, between⟩, before, heq, hran, hkey, hbetween⟩
    · exact .inl ⟨(List.cons.inj heq).1, hran, hkey⟩
    · obtain ⟨rfl, rfl⟩ := List.cons.inj heq
      obtain ⟨hq, hbetween⟩ := List.forall_mem_cons.1 hbetween
      exact .inr ⟨⟨between, before, rfl, hran, hkey, hbetween⟩, hq⟩
  · rintro (⟨rfl, hran, hkey⟩ | ⟨⟨between, before, rfl, hran, hkey, hbetween⟩, hq⟩)
    · exact ⟨[], rounds, rfl, hran, hkey, by simp⟩
    · exact ⟨q :: between, before, rfl, hran, hkey, List.forall_mem_cons.2 ⟨hq, hbetween⟩⟩

/-- What one more round adds to the generations that are accepted, and what it takes away. -/
theorem mem_accepted_requests {earlier : List Generations.Request} {g : Int}
    (hseen : q.seen = seenAfter earlier) :
    g ∈ accepted key (q.requests ++ earlier) ↔
      (q.Ran ∧ q.key = key ∧ q.generation = g) ∨
        (g ∈ accepted key earlier ∧ (q.Completed → q.key ≠ key)) := by
  rw [Round.requests]
  cases hdeleting : q.subject.isDeleting with
  | true =>
    have hran : ¬ q.Ran := fun h => by cases hdeleting.symm.trans h.1
    cases houtcome : q.outcome with
    | error e =>
      have hcompleted : ¬ q.Completed := by
        rintro ⟨-, action, hdone⟩
        cases houtcome.symm.trans hdone
      simp [Except.toBool, hran, hcompleted]
    | ok action =>
      have hcompleted : q.Completed := ⟨hdeleting, action, houtcome⟩
      by_cases hkey : q.key = key <;> simp [Except.toBool, accepted, hran, hcompleted, hkey]
  | false =>
    have hcompleted := Round.not_completed_of_live hdeleting
    have hran : q.Ran ↔ ((seenAfter earlier).observe q.key q.generation).toBool = true := by
      rw [← hseen, Round.Ran]
      cases q.seen.observe q.key q.generation <;> simp [Except.toBool, hdeleting]
    simp only [Bool.false_eq_true, if_false, List.singleton_append, accepted]
    split
    · next haccepted => simp [haccepted, hran.2 haccepted.2, hcompleted, eq_comm]
    · next hother =>
      have hnone : ¬ (q.Ran ∧ q.key = key ∧ q.generation = g) := by
        rintro ⟨hq, hkey, -⟩
        exact hother ⟨hkey, hran.1 hq⟩
      simp [hnone, hcompleted]

/-- **The generations that are accepted are those that ran** since the key was released. -/
theorem Rounds.mem_accepted {g : Int} (h : Rounds ctx world rounds seen) :
    g ∈ accepted key (rounds.flatMap Round.requests) ↔
      ∃ r, RanSince key rounds r ∧ r.generation = g := by
  induction h with
  | start => simp [accepted, RanSince]
  | next before reconciled ih =>
    rw [List.flatMap_cons, mem_accepted_requests before.seen_eq, ih]
    simp only [ranSince_cons]
    constructor
    · rintro (⟨hran, hkey, rfl⟩ | ⟨⟨r, hr, rfl⟩, hq⟩)
      · exact ⟨_, .inl ⟨rfl, hran, hkey⟩, rfl⟩
      · exact ⟨r, .inr ⟨hr, hq⟩, rfl⟩
    · rintro ⟨r, ⟨rfl, hran, hkey⟩ | ⟨hr, hq⟩, rfl⟩
      · exact .inl ⟨hran, hkey, rfl⟩
      · exact .inr ⟨⟨r, hr, rfl⟩, hq⟩

/-- **A live instance is refused exactly if the stages ran for a greater generation** under its key,
and no deletion of the key was completed since. -/
theorem Rounds.refused_iff {back front : List Round} (h : Rounds ctx world rounds seen)
    (hrounds : rounds = back ++ r :: front) (hlive : r.subject.isDeleting = false) :
    r.Refused ↔ ∃ q, RanSince r.key front q ∧ r.generation < q.generation := by
  have hbefore := h.before hrounds
  have hrefused : r.Refused ↔ ∃ e, (seenAfter (front.flatMap Round.requests)).observe r.key
      r.generation = .error e := by
    rw [Round.Refused, ← hbefore.seen_eq]
    simp [hlive]
  rw [hrefused, Generations.refused_iff]
  simp only [hbefore.mem_accepted]
  constructor
  · rintro ⟨g, ⟨q, hq, rfl⟩, hlt⟩
    exact ⟨q, hq, hlt⟩
  · rintro ⟨q, hq, hlt⟩
    exact ⟨_, ⟨q, hq, rfl⟩, hlt⟩

/-- Every round was made by reconciling its instance, given what had been seen. -/
theorem Rounds.reconciled {back front : List Round} (h : Rounds ctx world rounds seen)
    (hrounds : rounds = back ++ r :: front) :
    ∃ now s s' x, r.outcome = x.1 ∧
      Program.Runs world (reconcile ctx now r.subject r.seen) s r.calls x s' := by
  induction h generalizing back with
  | start => simp at hrounds
  | next before reconciled ih =>
    cases back with
    | nil =>
      obtain ⟨rfl, rfl⟩ := List.cons.inj hrounds
      exact ⟨_, _, _, _, rfl, reconciled⟩
    | cons last back => exact ih (List.cons.inj hrounds).2

/-- **Generations never go backwards.** After any requests, what is seen of a key is the greatest
generation that was accepted since the key was forgotten; a smaller one is refused and changes
nothing, any other is recorded for its key alone and is told apart by what was recorded before. In
any rounds a live instance is taken through the stages exactly if these did not run for a greater
generation since the last completed deletion of its key, and is refused else, without any call. -/
theorem generations_never_fall (h : Rounds ctx world rounds seen) :
    (∀ (requests : List Generations.Request) (key : String) (generation : Int),
      let seen := seenAfter requests
      let seen' := seenAfter (.observe key generation :: requests)
      seen.last? key = (accepted key requests).max? ∧
      (∀ e, seen.observe key generation = .error e ↔ ∃ last,
        seen.last? key = some last ∧ generation < last ∧
          e = .staleGeneration key generation last) ∧
      (∀ e, seen.observe key generation = .error e → ∀ j, seen'.last? j = seen.last? j) ∧
      ∀ change after, seen.observe key generation = .ok (change, after) →
        (∀ j, seen'.last? j = if j = key then some generation else seen.last? j) ∧
        (change = .resync ↔ seen.last? key = some generation) ∧
        (change = .creation ↔ seen.last? key = none ∧ generation ≤ 1) ∧
        (change = .edit ↔ seen.last? key ≠ some generation ∧
          ¬ (seen.last? key = none ∧ generation ≤ 1))) ∧
    ∀ back r front, rounds = back ++ r :: front → r.subject.isDeleting = false →
      (r.Ran ↔ ∀ q, RanSince r.key front q → q.generation ≤ r.generation) ∧
      (r.Ran → ∃ now s s' y,
        Operation.Runs world ((Pass.start r.subject ctx.manifest).runAll ctx now) s r.calls y s') ∧
      (¬ r.Ran → r.calls = [] ∧
        ∃ last, r.outcome = .error (.staleGeneration r.key r.generation last)) := by
  refine ⟨fun requests key generation => ⟨Generations.last?_seenAfter key requests,
    fun e => Generations.observe_eq_error_iff, fun e he j => ?_, fun change after hok => ?_⟩,
    fun back r front hrounds hlive => ?_⟩
  · rw [seenAfter, Generations.after_of_refused he]
  · obtain ⟨-, -, hresync, hcreation⟩ := Generations.observe_ok hok
    have hedit : change = .edit ↔ ¬ change = .resync ∧ ¬ change = .creation := by
      cases change <;> simp
    refine ⟨fun j => ?_, hresync, hcreation, by rw [hedit, hresync, hcreation]⟩
    rw [seenAfter, Generations.after_of_accepted hok]
    exact Generations.last?_observe_ok hok j
  · obtain ⟨now, s, s', x, houtcome, hrun⟩ := h.reconciled hrounds
    have hrefused := h.refused_iff hrounds hlive
    have hran : r.Ran ↔ ¬ r.Refused :=
      ⟨Round.not_refused_of_ran, (Round.ran_or_refused hlive).resolve_right⟩
    refine ⟨?_, fun hr => ?_, fun hr => ?_⟩
    · rw [hran, hrefused]
      simp only [not_exists, not_and, Int.not_lt]
    · obtain ⟨y, hall⟩ := ran_reconcile hrun hr
      exact ⟨now, s, s', y, hall⟩
    · have hr : r.Refused := (Round.ran_or_refused hlive).resolve_left hr
      obtain ⟨hcalls, last, hlast⟩ := refused_reconcile hrun hr
      exact ⟨hcalls, last, houtcome.trans hlast⟩

/-! ## Rounds against a rehearsal -/

namespace Incarnation

open Rehearsal (answer)

def serving (uid : String) (generation : Int) : Instance where
  metadata := {
    finalizers := some [Instance.finalizer], generation := some generation, name := some "serving"
    namespaceName := some "n", uid := some uid }
  spec := {}

def pass (i : Instance) (seen : Generations) (w : Rehearsal) :
    (Except Error Action × Generations) × Rehearsal :=
  Program.run answer (reconcile Domain.context Timestamp.epoch i seen) w

def round (i : Instance) (seen : Generations) (w : Rehearsal) : Round :=
  ⟨i, seen, Program.calls answer (reconcile Domain.context Timestamp.epoch i seen) w,
    (pass i seen w).1.1⟩

theorem rounds_next (h : Rounds Domain.context Rehearsal.world rounds seen) (i : Instance)
    (w : Rehearsal) :
    Rounds Domain.context Rehearsal.world (round i seen w :: rounds) (pass i seen w).1.2 :=
  h.next (Program.runs_handler answer _ w)

def cluster (i : Instance) : Rehearsal := { instances := InstanceStore.put i [] }

end Incarnation

open Incarnation in
/-- A replay of the first generation is refused behind the second one. -/
theorem generations_never_fall_replay :
    let second := round (serving "u" 2) [] (cluster (serving "u" 2))
    let done := pass (serving "u" 2) [] (cluster (serving "u" 2))
    let replay := round (serving "u" 1) done.1.2 done.2
    Rounds Domain.context Rehearsal.world [replay, second]
        (pass (serving "u" 1) done.1.2 done.2).1.2 ∧
      second.Ran ∧ ¬ replay.Ran ∧ replay.calls = [] := by
  intro second done replay
  have h : Rounds Domain.context Rehearsal.world [replay, second] _ :=
    rounds_next (rounds_next .start (serving "u" 2) _) (serving "u" 1) _
  have hsecond : second.Ran := ⟨rfl, _, rfl⟩
  obtain ⟨hran, -, hrefused⟩ := (generations_never_fall h).2 [] replay [second] rfl rfl
  have hsince : RanSince replay.key [second] second := ⟨[], [], rfl, hsecond, rfl, by simp⟩
  have hreplay : ¬ replay.Ran := fun hr => by
    have hle : (2 : Int) ≤ 1 := hran.1 hr second hsince
    omega
  exact ⟨h, hsecond, hreplay, (hrefused hreplay).1⟩

end ReleaseKeeper
