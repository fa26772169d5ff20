import ReleaseKeeper.Call

/-!
# Runs of programs

`Program.Runs world p s t x s'` says that `p`, begun in the state `s`, can make the calls of the trace
`t`, come to `x` and leave the state `s'`; the world says which answers a call can get in a state. A
handler is a world in which every call has one answer (`runs_iff`), so what holds of all runs holds
of what the operator does against the cluster in memory, and equally under any pattern of failures.
Runs of compound programs come apart by one equivalence for each way of building them.

`Program.Ensures` speaks about programs without running them: which calls they can make and what
they can come to, whatever they are answered.
-/
namespace ReleaseKeeper

namespace Program

variable {Call : Type} {Answer : Call → Type} {α β σ : Type}

/-- Which answers a call can get in a state, and what state that leaves. -/
abbrev World (Call : Type) (Answer : Call → Type) (σ : Type) :=
  σ → (c : Call) → Answer c → σ → Prop

/-- Calls with the answers they got, in order. -/
abbrev Trace (Call : Type) (Answer : Call → Type) := List ((c : Call) × Answer c)

/-- The world in which calls are answered by a handler. -/
def Handler.world (handle : Handler Call Answer σ) : World Call Answer σ :=
  fun s c a s' => handle c s = (a, s')

/-- A program can be run from a state with some calls to a result and another state. -/
inductive Runs (world : World Call Answer σ) :
    Program Call Answer α → σ → Trace Call Answer → α → σ → Prop
  | done (x : α) (s : σ) : Runs world (.done x) s [] x s
  | call {c : Call} {next : Answer c → Program Call Answer α} {a : Answer c} {s s₁ s₂ : σ}
      {t : Trace Call Answer} {x : α} (answered : world s c a s₁)
      (rest : Runs world (next a) s₁ t x s₂) : Runs world (.call c next) s (⟨c, a⟩ :: t) x s₂

/-- A property of all calls a program can make and of all it can come to. -/
def Ensures (P : Call → Prop) (Q : α → Prop) : Program Call Answer α → Prop
  | .done x => Q x
  | .call c next => P c ∧ ∀ a, (next a).Ensures P Q

section
variable {world : World Call Answer σ} {p : Program Call Answer α} {f : α → Program Call Answer β}
  {s s' : σ} {t : Trace Call Answer}

theorem runs_done_iff {x y : α} : Runs world (.done x) s t y s' ↔ t = [] ∧ y = x ∧ s' = s := by
  constructor
  · rintro ⟨⟩
    exact ⟨rfl, rfl, rfl⟩
  · rintro ⟨rfl, rfl, rfl⟩
    exact .done _ _

theorem runs_call_iff {c : Call} {next : Answer c → Program Call Answer α} {x : α} :
    Runs world (.call c next) s t x s' ↔
      ∃ a s₁ t', t = ⟨c, a⟩ :: t' ∧ world s c a s₁ ∧ Runs world (next a) s₁ t' x s' := by
  constructor
  · rintro (_ | ⟨answered, rest⟩)
    exact ⟨_, _, _, rfl, answered, rest⟩
  · rintro ⟨a, s₁, t', rfl, answered, rest⟩
    exact .call answered rest

theorem runs_ask_iff {c : Call} {a : Answer c} :
    Runs world (ask c) s t a s' ↔ t = [⟨c, a⟩] ∧ world s c a s' := by
  rw [ask, runs_call_iff]
  constructor
  · rintro ⟨b, s₁, t', rfl, answered, rest⟩
    obtain ⟨rfl, rfl, rfl⟩ := runs_done_iff.1 rest
    exact ⟨rfl, answered⟩
  · rintro ⟨rfl, answered⟩
    exact ⟨a, s', [], rfl, answered, .done _ _⟩

/-- A program of one call. -/
theorem runs_call_done {c : Call} {g : Answer c → α} {x : α} :
    Runs world (.call c fun a => .done (g a)) s t x s' ↔
      ∃ a, t = [⟨c, a⟩] ∧ world s c a s' ∧ x = g a := by
  rw [runs_call_iff]
  constructor
  · rintro ⟨a, s₁, t', rfl, answered, rest⟩
    obtain ⟨rfl, rfl, rfl⟩ := runs_done_iff.1 rest
    exact ⟨a, rfl, answered, rfl⟩
  · rintro ⟨a, rfl, answered, rfl⟩
    exact ⟨a, s', [], rfl, answered, .done _ _⟩

theorem runs_bind_iff {y : β} :
    Runs world (p.bind f) s t y s' ↔
      ∃ t₁ x s₁ t₂, t = t₁ ++ t₂ ∧ Runs world p s t₁ x s₁ ∧ Runs world (f x) s₁ t₂ y s' := by
  constructor
  · intro h
    induction p generalizing s t with
    | done x => exact ⟨[], x, s, t, rfl, .done x s, h⟩
    | call c next ih =>
      obtain ⟨a, s₁, t', rfl, answered, rest⟩ := runs_call_iff.1 h
      obtain ⟨t₁, x, s₂, t₂, rfl, hp, hf⟩ := ih a rest
      exact ⟨⟨c, a⟩ :: t₁, x, s₂, t₂, rfl, .call answered hp, hf⟩
  · rintro ⟨t₁, x, s₁, t₂, rfl, hp, hf⟩
    induction hp with
    | done x s => exact hf
    | call answered _ ih => exact .call answered (ih hf)

/-- A program whose result is only made something else of. -/
theorem runs_bind_done {g : α → β} {y : β} :
    Runs world (p.bind fun x => .done (g x)) s t y s' ↔ ∃ x, Runs world p s t x s' ∧ y = g x := by
  rw [runs_bind_iff]
  constructor
  · rintro ⟨t₁, x, s₁, t₂, rfl, hp, hend⟩
    obtain ⟨rfl, rfl, rfl⟩ := runs_done_iff.1 hend
    rw [List.append_nil]
    exact ⟨x, hp, rfl⟩
  · rintro ⟨x, hp, rfl⟩
    exact ⟨t, x, s', [], (List.append_nil t).symm, hp, .done _ _⟩

/-- A program that may fail goes on with the second part exactly if the first came to a result. -/
theorem runs_attempt_bind {ε : Type} {q : ExceptT ε (Program Call Answer) α}
    {g : α → ExceptT ε (Program Call Answer) β} {y : Except ε β} :
    Runs world (q >>= g).run s t y s' ↔
      (∃ e, y = .error e ∧ Runs world q.run s t (.error e) s') ∨
      ∃ x t₁ s₁ t₂, t = t₁ ++ t₂ ∧ Runs world q.run s t₁ (.ok x) s₁ ∧
        Runs world (g x).run s₁ t₂ y s' := by
  refine runs_bind_iff.trans ?_
  constructor
  · rintro ⟨t₁, x, s₁, t₂, rfl, hq, hg⟩
    cases x with
    | error e =>
      obtain ⟨rfl, rfl, rfl⟩ := runs_done_iff.1 hg
      rw [List.append_nil]
      exact .inl ⟨e, rfl, hq⟩
    | ok x => exact .inr ⟨x, t₁, s₁, t₂, rfl, hq, hg⟩
  · rintro (⟨e, rfl, hq⟩ | ⟨x, t₁, s₁, t₂, rfl, hq, hg⟩)
    · exact ⟨t, .error e, s', [], by simp, hq, .done _ _⟩
    · exact ⟨t₁, .ok x, s₁, t₂, rfl, hq, hg⟩

end

section
variable {handle : Handler Call Answer σ} {p : Program Call Answer α} {s s' : σ}
  {t : Trace Call Answer} {x : α}

theorem calls_bind (handle : Handler Call Answer σ) (p : Program Call Answer α)
    (f : α → Program Call Answer β) (s : σ) :
    calls handle (p.bind f) s =
      calls handle p s ++ calls handle (f (run handle p s).1) (run handle p s).2 := by
  induction p generalizing s with
  | done x => rfl
  | call c next ih => simp [bind, calls, run, ih]

/-- A program that may fail goes on with what its first part came to. -/
theorem run_bind_of_ok {ε : Type} {q : ExceptT ε (Program Call Answer) α}
    {g : α → ExceptT ε (Program Call Answer) β} {a : α}
    (h : run handle q.run s = (.ok a, s')) :
    run handle (q >>= g).run s = run handle (g a).run s' := by
  have hrun : run handle (q >>= g).run s =
      run handle (ExceptT.bindCont g (run handle q.run s).1) (run handle q.run s).2 := run_bind ..
  rw [hrun, h]
  rfl

/-- What every call keeps is kept by a program. -/
theorem run_keeps {I : σ → Prop} (hkept : ∀ c s, I s → I (handle c s).2) (hs : I s) :
    I (run handle p s).2 := by
  induction p generalizing s with
  | done x => exact hs
  | call c next ih => exact ih _ (hkept c s hs)

theorem runs_handler (handle : Handler Call Answer σ) (p : Program Call Answer α) (s : σ) :
    Runs handle.world p s (calls handle p s) (run handle p s).1 (run handle p s).2 := by
  induction p generalizing s with
  | done x => exact .done x s
  | call c next ih => exact .call rfl (ih _ _)

/-- **Against a handler a program has one run.** -/
theorem runs_iff :
    Runs handle.world p s t x s' ↔ t = calls handle p s ∧ run handle p s = (x, s') := by
  constructor
  · intro h
    induction h with
    | done x s => exact ⟨rfl, rfl⟩
    | @call c next a s s₁ s₂ t x answered _ ih =>
      obtain ⟨rfl, hrun⟩ := ih
      have hc : handle c s = (a, s₁) := answered
      constructor
      · simp only [calls, hc]
      · simpa only [run, hc] using hrun
  · rintro ⟨rfl, hrun⟩
    have h := runs_handler handle p s
    rwa [hrun] at h

/-- What runs in a world runs in one that allows more. -/
theorem Runs.mono {world' : World Call Answer σ} {x : α}
    (hworld : ∀ {s c a s'}, world s c a s' → world' s c a s') (h : Runs world p s t x s') :
    Runs world' p s t x s' := by
  induction h with
  | done x s => exact .done x s
  | call answered _ ih => exact .call (hworld answered) ih

theorem runs_unique {s'' : σ} {t' : Trace Call Answer} {y : α} (h : Runs handle.world p s t x s')
    (h' : Runs handle.world p s t' y s'') : t = t' ∧ x = y ∧ s' = s'' := by
  obtain ⟨rfl, hrun⟩ := runs_iff.1 h
  obtain ⟨rfl, hrun'⟩ := runs_iff.1 h'
  exact ⟨rfl, Prod.mk.inj (hrun.symm.trans hrun')⟩

end

/-! ## Calls and results of every run -/

section
variable {P P' : Call → Prop} {Q Q' : α → Prop} {p : Program Call Answer α}

theorem Ensures.mono (h : p.Ensures P Q) (hP : ∀ c, P c → P' c) (hQ : ∀ x, Q x → Q' x) :
    p.Ensures P' Q' := by
  induction p with
  | done x => exact hQ x h
  | call c next ih => exact ⟨hP c h.1, fun a => ih a (h.2 a)⟩

theorem Ensures.bind {R : β → Prop} {f : α → Program Call Answer β} (h : p.Ensures P Q)
    (hf : ∀ x, Q x → (f x).Ensures P R) : (p.bind f).Ensures P R := by
  induction p with
  | done x => exact hf x h
  | call c next ih => exact ⟨h.1, fun a => ih a (h.2 a)⟩

theorem Ensures.of_runs {world : World Call Answer σ} {s s' : σ} {t : Trace Call Answer} {x : α}
    (h : p.Ensures P Q) (hrun : Runs world p s t x s') : (∀ e ∈ t, P e.1) ∧ Q x := by
  induction hrun with
  | done x s => exact ⟨by simp, h⟩
  | call _ _ ih =>
    obtain ⟨hcalls, hx⟩ := ih (h.2 _)
    exact ⟨List.forall_mem_cons.2 ⟨h.1, hcalls⟩, hx⟩

end

end Program

/-! ## Operations -/

/-- A call that is about the cluster, not about instances. -/
def Call.OnCluster : Call → Prop
  | .patchStatus .. | .addFinalizer .. | .removeFinalizer .. | .listInstances | .getInstance ..
  | .createInstance _ => False
  | _ => True

/-- A call that writes no object of the cluster. -/
def Call.KeepsObjects : Call → Prop
  | .create _ | .update _ | .delete _ => False
  | _ => True

namespace Operation

open Program (World Trace)

variable {α β σ : Type} {world : World Call Call.Answer σ} {s s' : σ}
  {t : Trace Call Call.Answer}

/-- An operation can be run from a state with some calls to an outcome and another state. -/
def Runs (world : World Call Call.Answer σ) (op : Operation α) (s : σ)
    (t : Trace Call Call.Answer) (x : Except Error α) (s' : σ) : Prop :=
  Program.Runs world op.run s t x s'

theorem runs_pure {x : α} {y : Except Error α} :
    Runs world (pure x) s t y s' ↔ t = [] ∧ y = .ok x ∧ s' = s :=
  Program.runs_done_iff

theorem runs_throw {e : Error} {y : Except Error α} :
    Runs world (throw e) s t y s' ↔ t = [] ∧ y = .error e ∧ s' = s :=
  Program.runs_done_iff

theorem runs_ask {c : Call} {a : c.Answer} :
    Runs world (ask c) s t a s' ↔ t = [⟨c, a⟩] ∧ world s c a s' :=
  Program.runs_ask_iff

/-- An operation goes on with the second part exactly if the first came to a result. -/
theorem runs_bind {op : Operation α} {f : α → Operation β} {y : Except Error β} :
    Runs world (op >>= f) s t y s' ↔
      (∃ e, y = .error e ∧ Runs world op s t (.error e) s') ∨
      ∃ x t₁ s₁ t₂, t = t₁ ++ t₂ ∧ Runs world op s t₁ (.ok x) s₁ ∧ Runs world (f x) s₁ t₂ y s' :=
  Program.runs_attempt_bind

/-- Behind an operation that comes to one result and leaves one state there is the second part. -/
theorem runs_bind_of {op : Operation α} {f : α → Operation β} {y : Except Error β} {a : α} {s₁ : σ}
    (hop : ∀ {t x s₂}, Runs world op s t x s₂ → x = .ok a ∧ s₂ = s₁)
    (h : Runs world (op >>= f) s t y s') : ∃ t₁, Runs world (f a) s₁ t₁ y s' := by
  obtain ⟨e, rfl, hrun⟩ | ⟨x, t₁, s₂, t₂, rfl, hrun, hnext⟩ := runs_bind.1 h
  · cases (hop hrun).1
  · obtain ⟨hx, rfl⟩ := hop hrun
    obtain rfl := Except.ok.inj hx
    exact ⟨t₂, hnext⟩

/-- An operation that begins with a call ends there if the call fails, and else goes on with the
value of the call. -/
theorem runs_ask_bind {c : Call} {f : c.Value → Operation β} {y : Except Error β} :
    Runs world (ask c >>= f) s t y s' ↔
      (∃ e, t = [⟨c, .error e⟩] ∧ world s c (.error e) s' ∧ y = .error e) ∨
      ∃ v s₁ t₁, t = ⟨c, .ok v⟩ :: t₁ ∧ world s c (.ok v) s₁ ∧ Runs world (f v) s₁ t₁ y s' := by
  rw [runs_bind]
  constructor
  · rintro (⟨e, rfl, hask⟩ | ⟨v, t₁, s₁, t₂, rfl, hask, hnext⟩)
    · obtain ⟨rfl, answered⟩ := runs_ask.1 hask
      exact .inl ⟨e, rfl, answered, rfl⟩
    · obtain ⟨rfl, answered⟩ := runs_ask.1 hask
      exact .inr ⟨v, s₁, t₂, rfl, answered, hnext⟩
  · rintro (⟨e, rfl, answered, rfl⟩ | ⟨v, s₁, t₁, rfl, answered, hnext⟩)
    · exact .inl ⟨e, rfl, runs_ask.2 ⟨rfl, answered⟩⟩
    · exact .inr ⟨v, _, s₁, t₁, rfl, runs_ask.2 ⟨rfl, answered⟩, hnext⟩

/-- An operation that is one call, whose value is turned into something else. -/
theorem runs_ask_map {c : Call} {g : c.Value → β} {y : Except Error β} :
    Runs world (ask c >>= fun v => pure (g v)) s t y s' ↔
      ∃ a : c.Answer, t = [⟨c, a⟩] ∧ world s c a s' ∧ y = a.map g := by
  rw [runs_ask_bind]
  constructor
  · rintro (⟨e, rfl, answered, rfl⟩ | ⟨v, s₁, t₁, rfl, answered, hend⟩)
    · exact ⟨_, rfl, answered, rfl⟩
    · obtain ⟨rfl, rfl, rfl⟩ := runs_pure.1 hend
      exact ⟨_, rfl, answered, rfl⟩
  · rintro ⟨e | v, rfl, answered, rfl⟩
    · exact .inl ⟨e, rfl, answered, rfl⟩
    · exact .inr ⟨v, s', [], rfl, answered, runs_pure.2 ⟨rfl, rfl, rfl⟩⟩

theorem runs_lift {p : Steps α} {y : Except Error α} :
    Runs world (ExceptT.lift p) s t y s' ↔ ∃ x, y = .ok x ∧ Program.Runs world p s t x s' := by
  refine Program.runs_bind_iff.trans ?_
  constructor
  · rintro ⟨t₁, x, s₁, t₂, rfl, hp, hx⟩
    obtain ⟨rfl, rfl, rfl⟩ := Program.runs_done_iff.1 hx
    exact ⟨x, rfl, by simpa using hp⟩
  · rintro ⟨x, rfl, hp⟩
    exact ⟨t, x, s', [], by simp, hp, .done _ _⟩

theorem runs_lift_bind {p : Steps α} {f : α → Operation β} {y : Except Error β} :
    Runs world (ExceptT.lift p >>= f) s t y s' ↔
      ∃ x t₁ s₁ t₂, t = t₁ ++ t₂ ∧ Program.Runs world p s t₁ x s₁ ∧ Runs world (f x) s₁ t₂ y s' := by
  rw [runs_bind]
  constructor
  · rintro (⟨e, -, hp⟩ | ⟨x, t₁, s₁, t₂, rfl, hp, hf⟩)
    · obtain ⟨x, hx, -⟩ := runs_lift.1 hp
      cases hx
    · obtain ⟨x, ⟨⟩, hp⟩ := runs_lift.1 hp
      exact ⟨x, t₁, s₁, t₂, rfl, hp, hf⟩
  · rintro ⟨x, t₁, s₁, t₂, rfl, hp, hf⟩
    exact .inr ⟨x, t₁, s₁, t₂, rfl, runs_lift.2 ⟨x, rfl, hp⟩, hf⟩

/-- An operation whose error is handled always goes on. -/
theorem runs_outcome_bind {op : Operation α} {f : Except Error α → Operation β}
    {y : Except Error β} :
    Runs world (op.outcome >>= f) s t y s' ↔
      ∃ x t₁ s₁ t₂, t = t₁ ++ t₂ ∧ Runs world op s t₁ x s₁ ∧ Runs world (f x) s₁ t₂ y s' :=
  runs_lift_bind

/-- The same of a single call. -/
theorem runs_ask_outcome_bind {c : Call} {f : c.Answer → Operation β} {y : Except Error β} :
    Runs world ((ask c).outcome >>= f) s t y s' ↔
      ∃ a s₁ t₁, t = ⟨c, a⟩ :: t₁ ∧ world s c a s₁ ∧ Runs world (f a) s₁ t₁ y s' := by
  rw [runs_outcome_bind]
  constructor
  · rintro ⟨a, t₁, s₁, t₂, rfl, hask, hnext⟩
    obtain ⟨rfl, answered⟩ := runs_ask.1 hask
    exact ⟨a, s₁, t₂, rfl, answered, hnext⟩
  · rintro ⟨a, s₁, t₁, rfl, answered, hnext⟩
    exact ⟨a, _, s₁, t₁, rfl, runs_ask.2 ⟨rfl, answered⟩, hnext⟩

theorem runs_except {x y : Except Error α} :
    Runs world (liftM x) s t y s' ↔ t = [] ∧ y = x ∧ s' = s :=
  Program.runs_done_iff

/-! ## Calls of operations -/

/-- A property of all calls an operation can make and of all results it can come to. -/
def Ensures (P : Call → Prop) (Q : α → Prop) (op : Operation α) : Prop :=
  op.run.Ensures P fun x => ∀ a, x = .ok a → Q a

section
variable {P : Call → Prop} {Q : α → Prop} {R : β → Prop} {op : Operation α}

theorem ensures_pure {x : α} (h : Q x) : Ensures P Q (pure x) := by
  rintro a ⟨⟩
  exact h

theorem ensures_throw {e : Error} : Ensures P Q (throw e) := by
  rintro a ⟨⟩

theorem ensures_except {x : Except Error α} (h : ∀ a, x = .ok a → Q a) :
    Ensures P Q (liftM x) :=
  h

theorem ensures_ask {c : Call} (hc : P c) : Ensures P (fun _ => True) (ask c) :=
  ⟨hc, fun _ _ _ => trivial⟩

theorem ensures_bind {f : α → Operation β} (h : Ensures P Q op)
    (hf : ∀ a, Q a → Ensures P R (f a)) : Ensures P R (op >>= f) := by
  refine Program.Ensures.bind h ?_
  rintro (e | a) hx
  · rintro b ⟨⟩
  · exact hf a (hx a rfl)

theorem ensures_lift {p : Steps α} (h : p.Ensures P Q) : Ensures P Q (ExceptT.lift p) := by
  refine Program.Ensures.bind h fun a ha => ?_
  rintro b ⟨⟩
  exact ha

theorem ensures_outcome (h : Ensures P Q op) :
    Ensures P (fun x => ∀ a, x = .ok a → Q a) op.outcome :=
  ensures_lift h

theorem Ensures.of_runs {x : Except Error α} (h : Ensures P Q op) (hrun : Runs world op s t x s') :
    (∀ e ∈ t, P e.1) ∧ ∀ a, x = .ok a → Q a :=
  Program.Ensures.of_runs h hrun

end

end Operation

end ReleaseKeeper
