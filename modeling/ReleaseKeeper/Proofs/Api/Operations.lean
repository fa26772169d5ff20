import ReleaseKeeper.Manifest.Apply
import ReleaseKeeper.Proofs.Api.Objects

/-!
# Operations by requests

Every call of an operation is answered by requests, so an operation in two parts becomes a client in two
parts (`ofOperation_bind`), and what is known of single calls applies to the parts.
-/
namespace ReleaseKeeper

variable {σ α β : Type}

theorem Program.interpret_bind {Call Call' : Type} {Answer : Call → Type} {Answer' : Call' → Type}
    (f : (c : Call) → StateT σ (Program Call' Answer') (Answer c)) (p : Program Call Answer α)
    (g : α → Program Call Answer β) (s : σ) :
    interpret f (p.bind g) s = Program.bind (interpret f p s) fun x => interpret f (g x.1) x.2 := by
  induction p generalizing s with
  | done x => rfl
  | call c next ih => simp [bind, interpret, bind_assoc, ih]

namespace Api.Client

variable {world : Program.World Request (fun _ => Response) σ} {known known' : KnownKinds} {s s' : σ}
  {t : Program.Trace Request fun _ => Response}

theorem ofOperation_bind (op : Operation α) (f : α → Operation β) (known : KnownKinds) :
    (ofOperation (op >>= f)).run known = (ofOperation op >>= fun a => ofOperation (f a)).run known := by
  refine (Program.interpret_bind answer op.run (ExceptT.bindCont f) known).trans ?_
  refine congrArg (Program.bind ((ofOperation op).run known)) (funext ?_)
  rintro ⟨_ | a, known⟩ <;> rfl

theorem ofOperation_ask (c : Call) (known : KnownKinds) :
    (ofOperation (Operation.ask c)).run known = (perform c).run known :=
  Program.bind_done _

/-- The client goes on where the error of an operation is handled. -/
theorem ofOperation_outcome (op : Operation α) (known : KnownKinds) :
    (ofOperation op.outcome).run known =
      ((ofOperation op).run known).bind fun x => .done (.ok x.1, x.2) :=
  Program.interpret_bind answer op.run (fun x : Except Error α => .done (.ok x : Except Error _)) known

/-- **An operation in two parts** comes apart into calls and what follows on them. -/
theorem runs_ofOperation_bind {op : Operation α} {f : α → Operation β}
    {y : Except Error β × KnownKinds} :
    Program.Runs world ((ofOperation (op >>= f)).run known) s t y s' ↔
      (∃ e known', y = (.error e, known') ∧
        Program.Runs world ((ofOperation op).run known) s t (.error e, known') s') ∨
      ∃ a known' t₁ s₁ t₂, t = t₁ ++ t₂ ∧
        Program.Runs world ((ofOperation op).run known) s t₁ (.ok a, known') s₁ ∧
        Program.Runs world ((ofOperation (f a)).run known') s₁ t₂ y s' := by
  rw [ofOperation_bind]
  exact runs_bind

theorem runs_ofOperation_ask {c : Call} {y : c.Answer × KnownKinds} :
    Program.Runs world ((ofOperation (Operation.ask c)).run known) s t y s' ↔
      Program.Runs world ((perform c).run known) s t y s' := by
  rw [ofOperation_ask]

/-- An operation that ends with a call comes to what is made of its answer. -/
theorem runs_ofOperation_last {c : Call} {f : c.Value → Operation α} {g : c.Value → α}
    (hf : ∀ v, f v = pure (g v)) {y : Except Error α} :
    Program.Runs world ((ofOperation (Operation.ask c >>= f)).run known) s t (y, known') s' ↔
      ∃ x, Program.Runs world ((perform c).run known) s t (x, known') s' ∧ y = x.map g := by
  rw [runs_ofOperation_bind]
  simp only [runs_ofOperation_ask, hf]
  constructor
  · rintro (⟨e, _, ⟨⟩, h⟩ | ⟨v, _, t₁, s₁, t₂, rfl, h, hend⟩)
    · exact ⟨.error e, h, rfl⟩
    · obtain ⟨rfl, ⟨⟩, rfl⟩ := Program.runs_done_iff.1 hend
      rw [List.append_nil]
      exact ⟨.ok v, h, rfl⟩
  · rintro ⟨e | v, h, rfl⟩
    · exact .inl ⟨e, known', rfl, h⟩
    · exact .inr ⟨v, known', t, s', [], (List.append_nil t).symm, h, .done _ _⟩

theorem runs_ofOperation_outcome {op : Operation α} {y : Except Error (Except Error α) × KnownKinds} :
    Program.Runs world ((ofOperation op.outcome).run known) s t y s' ↔
      ∃ x, Program.Runs world ((ofOperation op).run known) s t x s' ∧ y = (.ok x.1, x.2) := by
  rw [ofOperation_outcome]
  exact Program.runs_bind_done

/-- **An application** looks the resource up, and then creates it, merges into it, or has nothing to do. -/
theorem runs_apply_cases {r : Resource} {y : Except Error Manifest.Applied}
    (h : Program.Runs world ((ofOperation (Manifest.apply r)).run known) s t (y, known') s') :
    (∃ e, Program.Runs world ((getObject r.key).run known) s t (.error e, known') s' ∧ y = .error e) ∨
      ∃ live? known₁ t₁ s₁ t₂, t = t₁ ++ t₂ ∧
        Program.Runs world ((getObject r.key).run known) s t₁ (.ok live?, known₁) s₁ ∧
        ((live? = none ∧ ∃ x, Program.Runs world ((createObject r.tag).run known₁) s₁ t₂ (x, known') s' ∧
            y = x.map fun _ => .created) ∨
        ∃ live, live? = some live ∧
          ((r.mergeInto live).1 = false ∧ t₂ = [] ∧ y = .ok .unchanged ∧ known' = known₁ ∧ s' = s₁ ∨
          (r.mergeInto live).1 = true ∧ ∃ x, Program.Runs world
            ((updateObject (r.mergeInto live).2).run known₁) s₁ t₂ (x, known') s' ∧
              y = x.map fun _ => .updated)) := by
  rw [Manifest.apply, Operation.get, runs_ofOperation_bind] at h
  obtain ⟨e, _, ⟨⟩, hget⟩ | ⟨live?, known₁, t₁, s₁, t₂, rfl, hget, hrest⟩ := h
  · exact .inl ⟨e, runs_ofOperation_ask.1 hget, rfl⟩
  · refine .inr ⟨live?, known₁, t₁, s₁, t₂, rfl, runs_ofOperation_ask.1 hget, ?_⟩
    cases live? with
    | none => exact .inl ⟨rfl, (runs_ofOperation_last fun _ => rfl).1 hrest⟩
    | some live =>
      refine .inr ⟨live, rfl, ?_⟩
      cases hchanged : (r.mergeInto live).1 with
      | true =>
        simp only [hchanged, if_true] at hrest
        exact .inr ⟨rfl, (runs_ofOperation_last fun _ => rfl).1 hrest⟩
      | false =>
        simp only [hchanged] at hrest
        obtain ⟨ht, hy, hs⟩ := Program.runs_done_iff.1 hrest
        obtain ⟨rfl, rfl⟩ := Prod.mk.inj hy
        exact .inl ⟨rfl, ht, rfl, rfl, hs⟩

end Api.Client

end ReleaseKeeper
