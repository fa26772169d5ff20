import Mathlib.Logic.Function.Basic
import Mathlib.Logic.Relation
import ReleaseKeeper.Proofs.Program.Runs

/-!
# Programs among others

Parties that share a state run one program each. They make their calls in any order, and others change
the state in between (`Interleaved`). What one party goes through is a run of its program in a world
where after every call the others make any number of steps (`Among`), so all that is known about runs
applies to it (`Interleaved.runs`). Such a run notes the calls of the party with the states around
them, and what every step keeps holds from its beginning to its end (`runs_among`).
-/
namespace ReleaseKeeper.Program

open Relation (ReflTransGen)

/-- A call that was answered, with the states in front of it and behind it. -/
structure Move (Call : Type) (Answer : Call → Type) (σ : Type) where
  call : Call
  answer : Answer call
  before : σ
  after : σ

/-- What happens to a state that parties share. -/
inductive Event (ι Call : Type) (Answer : Call → Type) (L σ : Type) where
  /-- A call of a party. -/
  | own (party : ι) (move : Move Call Answer σ)
  /-- A change that others make. -/
  | foreign (label : L) (before after : σ)

variable {ι Call : Type} {Answer : Call → Type} {L α σ : Type}

namespace Event

def before : Event ι Call Answer L σ → σ
  | own _ move => move.before
  | foreign _ s _ => s

def after : Event ι Call Answer L σ → σ
  | own _ move => move.after
  | foreign _ _ s => s

/-- The call of a party, if the event is one. -/
def moveOf? [DecidableEq ι] (j : ι) : Event ι Call Answer L σ → Option (Move Call Answer σ)
  | own i move => if i = j then some move else none
  | foreign .. => none

/-- Whether a party or someone else could do that. -/
def Can (world : World Call Answer σ) (env : L → σ → σ → Prop) : Event ι Call Answer L σ → Prop
  | own _ move => world move.before move.call move.answer move.after
  | foreign l s s' => env l s s'

end Event

/-- The calls of a party, in order. -/
def movesOf [DecidableEq ι] (j : ι) (h : List (Event ι Call Answer L σ)) : List (Move Call Answer σ) :=
  h.filterMap (Event.moveOf? j)

/-- Each event begins in the state that the one in front of it leaves. -/
def Chained (world : World Call Answer σ) (env : L → σ → σ → Prop) :
    σ → List (Event ι Call Answer L σ) → σ → Prop
  | s, [], s' => s' = s
  | s, e :: h, s' => e.before = s ∧ e.Can world env ∧ Chained world env e.after h s'

/-- Parties make their calls in some order, and others step in between. -/
inductive Interleaved [DecidableEq ι] (world : World Call Answer σ) (env : L → σ → σ → Prop) :
    (ι → Program Call Answer α) → σ → List (Event ι Call Answer L σ) →
      (ι → Program Call Answer α) → σ → Prop
  | rest (ps : ι → Program Call Answer α) (s : σ) : Interleaved world env ps s [] ps s
  | own {ps qs : ι → Program Call Answer α} {j : ι} {c : Call}
    {next : Answer c → Program Call Answer α} {a : Answer c} {s s₁ s' : σ}
    {h : List (Event ι Call Answer L σ)} (turn : ps j = .call c next) (answered : world s c a s₁)
    (later : Interleaved world env (Function.update ps j (next a)) s₁ h qs s') :
    Interleaved world env ps s (.own j ⟨c, a, s, s₁⟩ :: h) qs s'
  | foreign {ps qs : ι → Program Call Answer α} {l : L} {s s₁ s' : σ}
    {h : List (Event ι Call Answer L σ)} (changed : env l s s₁)
    (later : Interleaved world env ps s₁ h qs s') :
    Interleaved world env ps s (.foreign l s s₁ :: h) qs s'

/-- A party that is the only one makes its next call. -/
theorem Interleaved.only {world : World Call Answer σ} {env : L → σ → σ → Prop}
    {p : Program Call Answer α} {qs : Unit → Program Call Answer α} {c : Call}
    {next : Answer c → Program Call Answer α} {a : Answer c} {s s₁ s' : σ}
    {h : List (Event Unit Call Answer L σ)} (turn : p = .call c next)
    (answered : world s c a s₁) (later : Interleaved world env (fun _ => next a) s₁ h qs s') :
    Interleaved world env (fun _ => p) s (.own () ⟨c, a, s, s₁⟩ :: h) qs s' := by
  have hnext : Function.update (fun _ : Unit => p) () (next a) = fun _ => next a :=
    funext fun _ => Function.update_self ..
  rw [← hnext] at later
  exact .own turn answered later

/-- Someone does something. -/
def Step (world : World Call Answer σ) (env : L → σ → σ → Prop) (s s' : σ) : Prop :=
  (∃ c a, world s c a s') ∨ ∃ l, env l s s'

/-- The world as one party sees it: its calls are noted, and after each of them others step. -/
def Among (world : World Call Answer σ) (env : L → σ → σ → Prop) :
    World Call Answer (σ × List (Move Call Answer σ)) :=
  fun s c a s' => ∃ s₁, world s.1 c a s₁ ∧ ReflTransGen (Step world env) s₁ s'.1 ∧
    s'.2 = s.2 ++ [⟨c, a, s.1, s₁⟩]

variable {world : World Call Answer σ} {env : L → σ → σ → Prop} {s s' : σ}
  {h : List (Event ι Call Answer L σ)} {ms ms' : List (Move Call Answer σ)}

/-! ## What a party goes through -/

theorem movesOf_append [DecidableEq ι] (j : ι) (h h' : List (Event ι Call Answer L σ)) :
    movesOf j (h ++ h') = movesOf j h ++ movesOf j h' :=
  List.filterMap_append

theorem movesOf_own [DecidableEq ι] (j : ι) (m : Move Call Answer σ)
    (h : List (Event ι Call Answer L σ)) : movesOf j (.own j m :: h) = m :: movesOf j h := by
  simp [movesOf, Event.moveOf?]

theorem movesOf_own_of_ne [DecidableEq ι] {i j : ι} (hij : i ≠ j) (m : Move Call Answer σ)
    (h : List (Event ι Call Answer L σ)) : movesOf j (.own i m :: h) = movesOf j h := by
  simp [movesOf, Event.moveOf?, hij]

/-- Around a move of a party the history comes apart as the moves of the party do. -/
theorem split_of_movesOf [DecidableEq ι] {j : ι} {m : Move Call Answer σ} :
    ∀ {h : List (Event ι Call Answer L σ)} {ms : List (Move Call Answer σ)},
      movesOf j h = ms ++ m :: ms' → ∃ front back, h = front ++ .own j m :: back ∧
        movesOf j front = ms ∧ movesOf j back = ms'
  | [], ms, hms => by cases ms <;> cases hms
  | .foreign l s s' :: h, ms, hms => by
    obtain ⟨front, back, rfl, hfront, hback⟩ := split_of_movesOf (h := h) hms
    exact ⟨.foreign l s s' :: front, back, rfl, hfront, hback⟩
  | .own i first :: h, ms, hms => by
    by_cases hij : i = j
    · subst hij
      rw [movesOf_own] at hms
      cases ms with
      | nil =>
        obtain ⟨rfl, hback⟩ := List.cons.inj hms
        exact ⟨[], h, rfl, rfl, hback⟩
      | cons m' ms =>
        obtain ⟨rfl, hrest⟩ := List.cons.inj hms
        obtain ⟨front, back, rfl, hfront, hback⟩ := split_of_movesOf hrest
        exact ⟨.own i first :: front, back, rfl, by rw [movesOf_own, hfront], hback⟩
    · rw [movesOf_own_of_ne hij] at hms
      obtain ⟨front, back, rfl, hfront, hback⟩ := split_of_movesOf hms
      exact ⟨.own i first :: front, back, rfl, by rw [movesOf_own_of_ne hij, hfront], hback⟩

/-- **What a party goes through** is a run of its program with others stepping in between. -/
theorem Interleaved.runs [DecidableEq ι] {ps qs : ι → Program Call Answer α}
    (hrun : Interleaved world env ps s h qs s') {j : ι} {x : α} (hdone : qs j = .done x)
    (ms : List (Move Call Answer σ)) :
    ∃ s₀ t, ReflTransGen (Step world env) s s₀ ∧
      Runs (Among world env) (ps j) (s₀, ms) t x (s', ms ++ movesOf j h) := by
  induction hrun generalizing ms with
  | rest ps s =>
    rw [hdone, movesOf, List.filterMap_nil, List.append_nil]
    exact ⟨s, [], .refl, .done _ _⟩
  | @own ps qs i c next a s s₁ s' h turn answered later ih =>
    by_cases hij : i = j
    · -- the steps of others up to the next call belong to this one
      subst hij
      obtain ⟨s₀, t, hsteps, hruns⟩ := ih hdone (ms ++ [⟨c, a, s, s₁⟩])
      rw [Function.update_self, List.append_assoc] at hruns
      rw [turn, movesOf_own]
      refine ⟨s, ⟨c, a⟩ :: t, .refl, .call ?_ hruns⟩
      exact ⟨s₁, answered, hsteps, rfl⟩
    · obtain ⟨s₀, t, hsteps, hruns⟩ := ih hdone ms
      rw [Function.update_of_ne (Ne.symm hij)] at hruns
      rw [movesOf_own_of_ne hij]
      exact ⟨s₀, t, hsteps.head (.inl ⟨c, a, answered⟩), hruns⟩
  | @foreign ps qs l s s₁ s' h changed later ih =>
    obtain ⟨s₀, t, hsteps, hruns⟩ := ih hdone ms
    exact ⟨s₀, t, hsteps.head (.inr ⟨l, changed⟩), hruns⟩

/-- A run among others leads from state to state, and notes its calls with what they did. -/
theorem runs_among {p : Program Call Answer α} {t : Trace Call Answer} {x : α}
    (hrun : Runs (Among world env) p (s, ms) t x (s', ms')) :
    ReflTransGen (Step world env) s s' ∧ ∃ new, ms' = ms ++ new ∧
      new.map (fun m => (⟨m.call, m.answer⟩ : (c : Call) × Answer c)) = t ∧
      ∀ m ∈ new, world m.before m.call m.answer m.after := by
  generalize hfirst : (s, ms) = first at hrun
  generalize hlast : (s', ms') = last at hrun
  induction hrun generalizing s ms with
  | done x mid =>
    obtain ⟨rfl, rfl⟩ := Prod.mk.inj (hfirst.trans hlast.symm)
    exact ⟨.refl, [], by simp⟩
  | @call c next a mid mid' last t x answered _ ih =>
    subst hfirst
    obtain ⟨s₁, hcall, hsteps, hnoted⟩ := answered
    obtain ⟨hlater, new, rfl, rfl, hnew⟩ := ih rfl hlast
    refine ⟨(hsteps.trans hlater).head (.inl ⟨c, a, hcall⟩), ⟨c, a, s, s₁⟩ :: new, ?_, rfl, ?_⟩
    · rw [hnoted, List.append_assoc]
      rfl
    · exact List.forall_mem_cons.2 ⟨hcall, hnew⟩

/-- What every step keeps is kept by any number of them. -/
theorem kept_by_steps {I : σ → Prop} (hkept : ∀ s s', Step world env s s' → I s → I s')
    (hsteps : ReflTransGen (Step world env) s s') (hs : I s) : I s' := by
  induction hsteps with
  | refl => exact hs
  | tail _ hstep ih => exact hkept _ _ hstep ih

/-! ## What happens to the state -/

theorem Interleaved.chained [DecidableEq ι] {ps qs : ι → Program Call Answer α}
    (hrun : Interleaved world env ps s h qs s') : Chained world env s h s' := by
  induction hrun with
  | rest ps s => exact rfl
  | own turn answered later ih => exact ⟨rfl, answered, ih⟩
  | foreign changed later ih => exact ⟨rfl, changed, ih⟩

theorem chained_append {h' : List (Event ι Call Answer L σ)} :
    Chained world env s (h ++ h') s' ↔ ∃ s₁, Chained world env s h s₁ ∧ Chained world env s₁ h' s' := by
  induction h generalizing s with
  | nil => simp [Chained]
  | cons e h ih =>
    simp only [List.cons_append, Chained, ih]
    constructor
    · rintro ⟨hs, hcan, s₁, hfront, hback⟩
      exact ⟨s₁, ⟨hs, hcan, hfront⟩, hback⟩
    · rintro ⟨s₁, ⟨hs, hcan, hfront⟩, hback⟩
      exact ⟨hs, hcan, s₁, hfront, hback⟩

/-- **What holds of the beginning holds of the whole history** if every event keeps it, given that it
held in front of the event and of all earlier ones. -/
theorem chained_induction {I : List (Event ι Call Answer L σ) → σ → Prop}
    (hchain : Chained world env s h s') (hbegin : I [] s)
    (hkept : ∀ front e back, h = front ++ e :: back → e.Can world env →
      (∀ front' e' back', front = front' ++ e' :: back' → I front' e'.before) →
      I front e.before → I (front ++ [e]) e.after) : I h s' := by
  suffices hrest : ∀ back front s₁, h = front ++ back → Chained world env s₁ back s' →
      (∀ front' e' back', front = front' ++ e' :: back' → I front' e'.before) → I front s₁ → I h s' by
    exact hrest h [] s rfl hchain (by simp) hbegin
  intro back
  induction back with
  | nil =>
    rintro front s₁ hh rfl - hfront
    rwa [hh, List.append_nil]
  | cons e back ih =>
    rintro front _ hh ⟨rfl, hcan, hlater⟩ hearlier hfront
    have hnow : I (front ++ [e]) e.after := hkept front e back hh hcan hearlier hfront
    refine ih (front ++ [e]) e.after (by simp [hh]) hlater ?_ hnow
    intro front' e' back' hsplit
    obtain rfl | ⟨back', last, rfl⟩ := List.eq_nil_or_concat back'
    · obtain ⟨rfl, he⟩ := List.append_inj' hsplit rfl
      obtain rfl := List.singleton_inj.1 he
      exact hfront
    · have hsplit : front ++ [e] = (front' ++ e' :: back') ++ [last] := by
        rw [hsplit, List.concat_eq_append, List.append_assoc, List.cons_append]
      exact hearlier front' e' back' (List.append_inj' hsplit rfl).1

end ReleaseKeeper.Program
