import ReleaseKeeper.Proofs.Reconcile.Rounds

/-!
# Rounds of instances that are created anew

An instance that is deleted can be created again under the same key: another incarnation, with a uid
of its own, whose generations begin anew. What was seen of the one before is forgotten when a round
completes its deletion, and by nothing else. So only replays are refused as long as every other
incarnation was torn down to the end (`Released`); an incarnation that went without that, because
its last round failed or there was none, leaves its generations to the next one, which is refused
until it has caught up with them (`replays_refused`, `recreated_refused`).
-/
namespace ReleaseKeeper

/-- The uid of the instance, the same in all rounds of one incarnation. -/
def Round.uid (r : Round) : Option String := r.subject.metadata.uid

/-- Of some rounds, the last one first, each that found another incarnation live under a key is
followed by one that completed a deletion of the key. -/
def Released (key : String) (uid : Option String) (rounds : List Round) : Prop :=
  ∀ between q before, rounds = between ++ q :: before → q.subject.isDeleting = false →
    q.key = key → q.uid ≠ uid → ∃ p ∈ between, p.Completed ∧ p.key = key

variable {σ : Type} {world : Program.World Call Call.Answer σ} {ctx : Context}
  {rounds back front : List Round} {seen : Generations} {key : String} {uid : Option String}
  {r q : Round}

/-! ## Which incarnation ran -/

theorem RanSince.key_eq (h : RanSince key rounds q) : q.key = key := by
  obtain ⟨between, before, -, -, hkey, -⟩ := h
  exact hkey

theorem RanSince.mem (h : RanSince key rounds q) : q ∈ rounds := by
  obtain ⟨between, before, rfl, -⟩ := h
  simp

/-- What ran since its key was released is the incarnation that all others made way for. -/
theorem RanSince.uid_eq (h : RanSince key rounds q) (hreleased : Released key uid rounds) :
    q.uid = uid := by
  obtain ⟨between, before, heq, hran, hkey, hbetween⟩ := h
  by_contra hother
  obtain ⟨p, hp, hcompleted, hpkey⟩ := hreleased between q before heq hran.1 hkey hother
  exact hbetween p hp hcompleted hpkey

/-- A completed deletion makes way for any incarnation. -/
theorem released_of_completed (hcompleted : r.Completed) (hkey : r.key = key) :
    Released key uid (r :: rounds) := by
  rintro (_ | ⟨p, between⟩) q before heq hlive - -
  · obtain ⟨rfl, -⟩ := List.cons.inj heq
    exact absurd hcompleted (Round.not_completed_of_live hlive)
  · obtain ⟨rfl, -⟩ := List.cons.inj heq
    exact ⟨r, List.mem_cons_self, hcompleted, hkey⟩

/-! ## Which rounds are refused -/

/-- **A live instance is refused exactly if a greater generation ran under its key** and no deletion
of the key was completed since, by whichever incarnation. If every other incarnation made way by a
completed deletion, then only a replay is refused: one whose own incarnation ran at a greater
generation; and an incarnation that is new is not. -/
theorem replays_refused (h : Rounds ctx world rounds seen) (hrounds : rounds = back ++ r :: front)
    (hlive : r.subject.isDeleting = false) :
    (r.Refused ↔ ∃ q, RanSince r.key front q ∧ r.generation < q.generation) ∧
    (r.Refused → r.calls = [] ∧
      ∃ last, r.outcome = .error (.staleGeneration r.key r.generation last)) ∧
    (Released r.key r.uid front →
      (r.Refused ↔ ∃ q, RanSince r.key front q ∧ q.uid = r.uid ∧ r.generation < q.generation) ∧
      ((∀ q ∈ front, q.key = r.key → q.uid ≠ r.uid) → r.Ran)) := by
  have hrefused := h.refused_iff hrounds hlive
  obtain ⟨now, s, s', x, houtcome, hrun⟩ := h.reconciled hrounds
  refine ⟨hrefused, fun hr => ?_, fun hreleased => ?_⟩
  · obtain ⟨hcalls, last, hlast⟩ := refused_reconcile hrun hr
    exact ⟨hcalls, last, houtcome.trans hlast⟩
  · have hreplay : r.Refused ↔
        ∃ q, RanSince r.key front q ∧ q.uid = r.uid ∧ r.generation < q.generation := by
      rw [hrefused]
      constructor
      · rintro ⟨q, hq, hlt⟩
        exact ⟨q, hq, hq.uid_eq hreleased, hlt⟩
      · rintro ⟨q, hq, -, hlt⟩
        exact ⟨q, hq, hlt⟩
    refine ⟨hreplay, fun hnew => (Round.ran_or_refused hlive).resolve_right fun hr => ?_⟩
    obtain ⟨q, hq, huid, -⟩ := hreplay.1 hr
    exact hnew q hq.mem hq.key_eq huid

namespace Incarnation

def leaving (i : Instance) : Instance :=
  { i with metadata := { i.metadata with deletionTimestamp := some Timestamp.epoch } }

/-- A cluster with an instance whose release is not answered. -/
def cutOff (i : Instance) : Rehearsal :=
  { cluster i with
    outages := [{ verb := "remove_finalizer", error := .internal "client" "connection reset"
                  times := some 1 }] }

def third : Round := round (serving "old" 3) [] (cluster (serving "old" 3))

/-- What is seen after it. -/
def seenThird : Generations := (pass (serving "old" 3) [] (cluster (serving "old" 3))).1.2

/-- Its deletion, from some cluster on. -/
def deletion (w : Rehearsal) : Round := round (leaving (serving "old" 3)) seenThird w

/-- What is seen after that. -/
def seenDeletion (w : Rehearsal) : Generations := (pass (leaving (serving "old" 3)) seenThird w).1.2

/-- Another incarnation behind it, at its first generation. -/
def first (w : Rehearsal) : Round :=
  round (serving "new" 1) (seenDeletion w) (cluster (serving "new" 1))

theorem rounds_first (w : Rehearsal) : ∃ seen,
    Rounds Domain.context Rehearsal.world [first w, deletion w, third] seen :=
  ⟨_, rounds_next (rounds_next (rounds_next .start _ _) _ w) _ _⟩

theorem uid_ne_first (w : Rehearsal) : ∀ q ∈ [deletion w, third], q.uid ≠ (first w).uid := by
  have hne : some "old" ≠ some "new" := by decide
  exact List.forall_mem_cons.2 ⟨hne, List.forall_mem_singleton.2 hne⟩

end Incarnation

open Incarnation

/-- Behind a completed deletion the first generation of another incarnation is taken through the
stages, whatever generation the one before had come to. -/
theorem replays_refused_first :
    let torn := deletion (cluster (leaving (serving "old" 3)))
    let new := first (cluster (leaving (serving "old" 3)))
    (∃ seen, Rounds Domain.context Rehearsal.world [new, torn, third] seen) ∧ torn.Completed ∧
      Released new.key new.uid [torn, third] ∧ new.generation < third.generation ∧ new.Ran := by
  intro torn new
  obtain ⟨seen, h⟩ := rounds_first (cluster (leaving (serving "old" 3)))
  have hcompleted : torn.Completed := ⟨rfl, .awaitChange, rfl⟩
  have hreleased : Released new.key new.uid [torn, third] := released_of_completed hcompleted rfl
  have hrounds : [new, torn, third] = [] ++ new :: [torn, third] := rfl
  obtain ⟨-, -, hrest⟩ := replays_refused h hrounds rfl
  have hlt : (1 : Int) < 3 := by decide
  exact ⟨⟨seen, h⟩, hcompleted, hreleased, hlt,
    (hrest hreleased).2 fun q hq _ => uid_ne_first _ q hq⟩

/-- If the release of an instance is not answered, then the first generation of the next incarnation
is refused for what the one before had come to. -/
theorem recreated_refused :
    let cut := deletion (cutOff (leaving (serving "old" 3)))
    let new := first (cutOff (leaving (serving "old" 3)))
    (∃ seen, Rounds Domain.context Rehearsal.world [new, cut, third] seen) ∧
      (∀ q ∈ [cut, third], q.uid ≠ new.uid) ∧ new.generation = 1 ∧
      new.Refused ∧ new.outcome = .error (.staleGeneration "n/serving" 1 3) :=
  ⟨rounds_first _, uid_ne_first _, rfl, ⟨rfl, _, rfl⟩, rfl⟩

end ReleaseKeeper
