import ReleaseKeeper.Cluster.Rehearsal
import ReleaseKeeper.Proofs.Program.Runs

/-!
# What a rehearsal answers

Every call is noted, and then fails by an outage or is answered by cluster and store (`world_cases`).
From this follows, call by call, what a call that came to an answer did to the cluster: a call that
fails and a call that only asks leave it as it was. Without outages, what is about the cluster comes
to what the cluster alone makes of it (`run_congr`).
-/
namespace ReleaseKeeper

namespace Rehearsal

/-- A rehearsal as a world that programs run in. -/
abbrev world : Program.World Call Call.Answer Rehearsal := Program.Handler.world answer

/-- The rehearsal with a call noted. -/
def noted (w : Rehearsal) (c : Call) (outages : List Outage) : Rehearsal :=
  { w with outages, journal := w.journal ++ [c] }

/-- Nothing is planned to fail. -/
structure Calm (w : Rehearsal) : Prop where
  outages : w.outages = []
  failures : w.cluster.failures = []

/-- No call is planned to fail as if something were not there. -/
def Honest (w : Rehearsal) : Prop := ∀ o ∈ w.outages, o.error.isNotFound = false

variable {w w' : Rehearsal} {c : Call} {a : c.Answer}

/-- A call fails by an outage, which leaves everything as it was, or is answered. -/
theorem world_cases (h : world w c a w') :
    ∃ outages, (∃ e, a = .error e ∧ w' = w.noted c outages) ∨
      (w.noted c outages).perform c = (a, w') := by
  simp only [world, Program.Handler.world, answer] at h
  generalize Outage.strike c w.outages = struck at h
  obtain ⟨_ | e, outages⟩ := struck
  · exact ⟨outages, .inr h⟩
  · obtain ⟨rfl, rfl⟩ := Prod.mk.inj h
    exact ⟨outages, .inl ⟨e, rfl, rfl⟩⟩

/-- Without outages a call is answered. -/
theorem world_of_calm (hw : w.outages = []) (h : world w c a w') :
    (w.noted c []).perform c = (a, w') := by
  simpa [world, Program.Handler.world, answer, Outage.strike, hw, noted] using h

theorem perform_cluster (hc : c.KeepsObjects) (w : Rehearsal) : (w.perform c).2.cluster = w.cluster := by
  have hkeep : ∀ store : Except Error InstanceStore, (w.keepInstances store).2.cluster = w.cluster := by
    rintro (_ | _) <;> rfl
  cases c with
  | create | update | delete => exact hc.elim
  | patchStatus | addFinalizer | removeFinalizer | createInstance => exact hkeep _
  | _ => rfl

/-- A call that writes no object leaves the cluster as it is. -/
theorem world_keeps (hc : c.KeepsObjects) (h : world w c a w') : w'.cluster = w.cluster := by
  obtain ⟨outages, ⟨e, rfl, rfl⟩ | h⟩ := world_cases h
  · rfl
  · have hkept := perform_cluster hc (w.noted c outages)
    rw [h] at hkept
    exact hkept

/-- What writes no object leaves the cluster as it is. -/
theorem runs_keeps {α : Type} {p : Operation.Steps α} {Q : α → Prop} {x : α}
    {t : Program.Trace Call Call.Answer} (h : p.Ensures Call.KeepsObjects Q)
    (hrun : Program.Runs world p w t x w') : w'.cluster = w.cluster := by
  induction hrun with
  | done x s => rfl
  | call answered _ ih =>
    obtain ⟨hc, hnext⟩ := h
    rw [ih (hnext _), world_keeps hc answered]

theorem perform_outages (c : Call) (w : Rehearsal) : (w.perform c).2.outages = w.outages := by
  have hkeepCluster : ∀ changed, (w.keepCluster changed).2.outages = w.outages := by
    rintro (_ | _) <;> rfl
  have hkeepInstances : ∀ changed, (w.keepInstances changed).2.outages = w.outages := by
    rintro (_ | _) <;> rfl
  cases c with
  | create | update | delete => exact hkeepCluster _
  | patchStatus | addFinalizer | removeFinalizer | createInstance => exact hkeepInstances _
  | _ => rfl

/-- Outages do not come up by themselves. -/
theorem world_outages (hw : w.outages = []) (h : world w c a w') : w'.outages = [] := by
  have hkept := perform_outages c (w.noted c [])
  rwa [world_of_calm hw h] at hkept

theorem runs_outages {α : Type} {p : Operation.Steps α} {x : α}
    {t : Program.Trace Call Call.Answer} (hw : w.outages = [])
    (hrun : Program.Runs world p w t x w') : w'.outages = [] := by
  induction hrun with
  | done x s => exact hw
  | call answered _ ih => exact ih (world_outages hw answered)

/-- What is about the cluster is answered by the cluster alone. -/
theorem perform_congr {v v' : Rehearsal} (hc : c.OnCluster) (h : v.cluster = v'.cluster) :
    (v.perform c).1 = (v'.perform c).1 ∧ (v.perform c).2.cluster = (v'.perform c).2.cluster := by
  have hkeep : ∀ changed, (v.keepCluster changed).1 = (v'.keepCluster changed).1 ∧
      (v.keepCluster changed).2.cluster = (v'.keepCluster changed).2.cluster := by
    rintro (_ | _)
    · exact ⟨rfl, h⟩
    · exact ⟨rfl, rfl⟩
  cases c with
  | create | update | delete =>
    simp only [perform, ← h]
    exact hkeep _
  | get | list | kindExists => simp only [perform, h, and_self]
  | detect | hook => exact ⟨rfl, h⟩
  | _ => exact hc.elim

/-- Without outages, what is about the cluster comes to what the cluster makes of it. -/
theorem run_congr {α : Type} {p : Operation.Steps α} {Q : α → Prop}
    (h : p.Ensures Call.OnCluster Q) : ∀ {w w' : Rehearsal}, w.cluster = w'.cluster →
    w.outages = [] → w'.outages = [] → (Program.run answer p w).1 = (Program.run answer p w').1 := by
  induction p with
  | done x => exact fun _ _ _ => rfl
  | call c next ih =>
    intro w w' hcluster hw hw'
    obtain ⟨hc, hnext⟩ := h
    have hv : world w c ((w.noted c []).perform c).1 ((w.noted c []).perform c).2 := by
      simp [world, Program.Handler.world, answer, Outage.strike, hw, noted]
    have hv' : world w' c ((w'.noted c []).perform c).1 ((w'.noted c []).perform c).2 := by
      simp [world, Program.Handler.world, answer, Outage.strike, hw', noted]
    have hnoted : (w.noted c []).cluster = (w'.noted c []).cluster := hcluster
    obtain ⟨hanswer, hafter⟩ := perform_congr hc hnoted
    have hrun : ∀ {v v' : Rehearsal} {a}, world v c a v' →
        Program.run answer (.call c next) v = Program.run answer (next a) v' := by
      rintro v v' a answered
      have hanswered : answer c v = (a, v') := answered
      simp only [Program.run, hanswered]
    rw [hrun hv, hrun hv', hanswer]
    exact ih _ (hnext _) hafter (world_outages hw hv) (world_outages hw' hv')

theorem world_get {key : ResourceKey} {a : Call.Answer (.get key)} (h : world w (.get key) a w') :
    w'.cluster = w.cluster ∧ ((∃ e, a = .error e) ∨ a = .ok (w.cluster.object? key)) := by
  refine ⟨world_keeps (c := .get key) trivial h, ?_⟩
  obtain ⟨outages, ⟨e, rfl, -⟩ | h⟩ := world_cases h
  · exact .inl ⟨e, rfl⟩
  · exact .inr (congrArg Prod.fst h).symm

/-- Without outages a look tells what is there, and nothing happens but that it is noted. -/
theorem world_get_eq {key : ResourceKey} {a : Call.Answer (.get key)} (hw : w.outages = [])
    (h : world w (.get key) a w') :
    a = .ok (w.cluster.object? key) ∧ w' = w.noted (.get key) [] := by
  obtain ⟨rfl, rfl⟩ := Prod.mk.inj (world_of_calm hw h)
  exact ⟨rfl, rfl⟩

theorem keepCluster_cases {changed : Except Error Cluster} {x : Except Error Unit}
    (h : w.keepCluster changed = (x, w')) :
    (∃ e, x = .error e ∧ w' = w) ∨
      ∃ cluster, changed = .ok cluster ∧ x = .ok () ∧ w' = { w with cluster } := by
  cases changed with
  | error e =>
    obtain ⟨rfl, rfl⟩ := Prod.mk.inj h
    exact .inl ⟨e, rfl, rfl⟩
  | ok cluster =>
    obtain ⟨rfl, rfl⟩ := Prod.mk.inj h
    exact .inr ⟨cluster, rfl, rfl, rfl⟩

theorem keepCluster_ok_iff {changed : Except Error Cluster} :
    (w.keepCluster changed).1 = .ok () ↔ ∃ cluster, changed = .ok cluster := by
  cases changed <;> simp [keepCluster]

end Rehearsal

namespace Cluster

variable {r : Resource} {c c' : Cluster}

theorem create_ok_iff : c.create r = .ok c' ↔
    c.failures.lookup r.key = none ∧ c.object? r.key = none ∧ c.store (.create r.key) r = c' := by
  simp only [create, permit]
  cases c.failures.lookup r.key with
  | some detail => simp [bind, Except.bind]
  | none =>
    cases c.object? r.key with
    | some live => simp [bind, Except.bind, throw, throwThe, MonadExceptOf.throw]
    | none => simp [bind, Except.bind, pure, Except.pure]

theorem update_ok_iff : c.update r = .ok c' ↔
    c.failures.lookup r.key = none ∧ (c.object? r.key).isSome ∧ c.store (.update r.key) r = c' := by
  simp only [update, permit]
  cases c.failures.lookup r.key with
  | some detail => simp [bind, Except.bind]
  | none =>
    cases c.object? r.key with
    | none => simp [bind, Except.bind, throw, throwThe, MonadExceptOf.throw]
    | some live => simp [bind, Except.bind, pure, Except.pure]

theorem delete_ok_iff {key : ResourceKey} : c.delete key = .ok c' ↔
    c.failures.lookup key = none ∧ (c.object? key).isSome ∧
      { c with objects := Table.drop key c.objects, writes := c.writes ++ [.delete key] } = c' := by
  simp only [delete, permit]
  cases c.failures.lookup key with
  | some detail => simp [bind, Except.bind]
  | none =>
    cases c.object? key with
    | none => simp [bind, Except.bind, throw, throwThe, MonadExceptOf.throw]
    | some live => simp [bind, Except.bind, pure, Except.pure]

end Cluster

namespace Rehearsal

variable {w w' : Rehearsal}

theorem world_create {r : Resource} {a : Call.Answer (.create r)} (h : world w (.create r) a w') :
    (∃ e, a = .error e ∧ w'.cluster = w.cluster) ∨
      a = .ok () ∧ w'.cluster = w.cluster.store (.create r.key) r := by
  obtain ⟨outages, ⟨e, rfl, rfl⟩ | h⟩ := world_cases h
  · exact .inl ⟨e, rfl, rfl⟩
  · obtain ⟨e, rfl, rfl⟩ | ⟨cluster, hok, rfl, rfl⟩ := keepCluster_cases h
    · exact .inl ⟨e, rfl, rfl⟩
    · exact .inr ⟨rfl, (Cluster.create_ok_iff.1 hok).2.2.symm⟩

theorem world_update {r : Resource} {a : Call.Answer (.update r)} (h : world w (.update r) a w') :
    (∃ e, a = .error e ∧ w'.cluster = w.cluster) ∨
      a = .ok () ∧ w'.cluster = w.cluster.store (.update r.key) r := by
  obtain ⟨outages, ⟨e, rfl, rfl⟩ | h⟩ := world_cases h
  · exact .inl ⟨e, rfl, rfl⟩
  · obtain ⟨e, rfl, rfl⟩ | ⟨cluster, hok, rfl, rfl⟩ := keepCluster_cases h
    · exact .inl ⟨e, rfl, rfl⟩
    · exact .inr ⟨rfl, (Cluster.update_ok_iff.1 hok).2.2.symm⟩

theorem world_delete {key : ResourceKey} {a : Call.Answer (.delete key)}
    (h : world w (.delete key) a w') :
    (∃ e, a = .error e ∧ w'.cluster = w.cluster) ∨
      a = .ok () ∧ ∀ j, w'.cluster.object? j = if j = key then none else w.cluster.object? j := by
  obtain ⟨outages, ⟨e, rfl, rfl⟩ | h⟩ := world_cases h
  · exact .inl ⟨e, rfl, rfl⟩
  · obtain ⟨e, rfl, rfl⟩ | ⟨cluster, hok, rfl, rfl⟩ := keepCluster_cases h
    · exact .inl ⟨e, rfl, rfl⟩
    · obtain ⟨-, -, rfl⟩ := Cluster.delete_ok_iff.1 hok
      exact .inr ⟨rfl, fun j => Table.lookup_drop key j w.cluster.objects⟩

/-! ## Honest -/

/-- A call fails as one of the outages says, and no new one comes up. -/
theorem strike_errors {P : Error → Prop} (c : Call) : ∀ {outages : List Outage},
    (∀ o ∈ outages, P o.error) →
    (∀ e, (Outage.strike c outages).1 = some e → P e) ∧
      ∀ o ∈ (Outage.strike c outages).2, P o.error
  | [], _ => by simp [Outage.strike]
  | o :: rest, h => by
    obtain ⟨ho, hrest⟩ := List.forall_mem_cons.1 h
    obtain ⟨herror, hleft⟩ := strike_errors c hrest
    rw [Outage.strike]
    split
    · refine ⟨?_, List.forall_mem_append.2 ⟨?_, hrest⟩⟩
      · rintro e ⟨⟩
        exact ho
      · rw [Outage.rest]
        split
        · exact List.forall_mem_singleton.2 ho
        · split
          · simp
          · exact List.forall_mem_singleton.2 ho
    · exact ⟨herror, List.forall_mem_cons.2 ⟨ho, hleft⟩⟩

theorem Calm.honest (hw : w.Calm) : w.Honest := by
  rintro o ho
  rw [hw.outages] at ho
  cases ho

/-- Where no outage is dishonest, a call is answered or fails otherwise than by not finding. -/
theorem world_honest {c : Call} {a : c.Answer} (hw : w.Honest) (h : world w c a w') :
    w'.Honest ∧ ∃ outages, (∃ e, a = .error e ∧ e.isNotFound = false ∧ w' = w.noted c outages) ∨
      (w.noted c outages).perform c = (a, w') := by
  obtain ⟨herror, hleft⟩ := strike_errors (P := fun e => e.isNotFound = false) c hw
  simp only [world, Program.Handler.world, answer] at h
  generalize Outage.strike c w.outages = struck at h herror hleft
  obtain ⟨_ | e, outages⟩ := struck
  · have hkept := perform_outages c (w.noted c outages)
    change (w.noted c outages).perform c = (a, w') at h
    rw [h] at hkept
    refine ⟨?_, outages, .inr h⟩
    rw [Honest, show w'.outages = outages from hkept]
    exact hleft
  · obtain ⟨rfl, rfl⟩ := Prod.mk.inj h
    exact ⟨hleft, outages, .inl ⟨e, rfl, herror e rfl, rfl⟩⟩

theorem runs_honest {α : Type} {p : Operation.Steps α} {x : α}
    {t : Program.Trace Call Call.Answer} (hw : w.Honest) (hrun : Program.Runs world p w t x w') :
    w'.Honest := by
  induction hrun with
  | done x s => exact hw
  | call answered _ ih => exact ih (world_honest hw answered).1

/-- Where no outage is dishonest, an object is gone after its deletion unless that failed, not
finding it being no failure. -/
theorem world_delete_honest {key : ResourceKey} {a : Call.Answer (.delete key)} (hw : w.Honest)
    (h : world w (.delete key) a w') (ha : ∀ e, a = .error e → e.isNotFound = true) (j : ResourceKey) :
    w'.cluster.object? j = if j = key then none else w.cluster.object? j := by
  obtain ⟨-, outages, ⟨e, rfl, hfound, -⟩ | hdone⟩ := world_honest hw h
  · rw [ha e rfl] at hfound
    cases hfound
  · simp only [perform, noted, Cluster.delete, Cluster.permit] at hdone
    cases hrefused : w.cluster.failures.lookup key with
    | some detail =>
      simp only [hrefused] at hdone
      obtain ⟨rfl, -⟩ := Prod.mk.inj hdone
      cases ha _ rfl
    | none =>
      simp only [hrefused] at hdone
      cases hlive : w.cluster.object? key with
      | none =>
        simp only [hlive, Option.isNone_none, if_true] at hdone
        obtain ⟨-, rfl⟩ := Prod.mk.inj hdone
        split
        · next hj => rw [hj]; exact hlive
        · rfl
      | some live =>
        simp only [hlive, Option.isNone_some] at hdone
        obtain ⟨-, rfl⟩ := Prod.mk.inj hdone
        exact Table.lookup_drop key j w.cluster.objects

/-- The instances of the store are listed. -/
theorem world_listInstances {a : Call.Answer .listInstances} (h : world w .listInstances a w') :
    w'.cluster = w.cluster ∧ ((∃ e, a = .error e) ∨ a = .ok (w.instances.map (·.2))) := by
  refine ⟨world_keeps (c := .listInstances) trivial h, ?_⟩
  obtain ⟨outages, ⟨e, rfl, -⟩ | h⟩ := world_cases h
  · exact .inl ⟨e, rfl⟩
  · exact .inr (congrArg Prod.fst h).symm

/-! ## Calm -/

/-- No call plans a failure. -/
theorem world_calm {c : Call} {a : c.Answer} (hw : w.Calm) (h : world w c a w') : w'.Calm := by
  refine ⟨world_outages hw.outages h, ?_⟩
  have hkeep : ∀ {changed : Except Error Cluster},
      (∀ cluster, changed = .ok cluster → cluster.failures = w.cluster.failures) →
      ((w.noted c []).keepCluster changed).2.cluster.failures = w.cluster.failures := by
    intro changed hchanged
    cases changed with
    | error e => rfl
    | ok cluster => exact hchanged cluster rfl
  have hw' : w' = ((w.noted c []).perform c).2 := by rw [world_of_calm hw.outages h]
  rw [hw', ← hw.failures]
  cases c with
  | create r => exact hkeep fun cluster hok => (Cluster.create_ok_iff.1 hok).2.2 ▸ rfl
  | update r => exact hkeep fun cluster hok => (Cluster.update_ok_iff.1 hok).2.2 ▸ rfl
  | delete key => exact hkeep fun cluster hok => (Cluster.delete_ok_iff.1 hok).2.2 ▸ rfl
  | _ => rw [perform_cluster (by exact trivial)]; rfl

theorem runs_calm {α : Type} {p : Operation.Steps α} {x : α}
    {t : Program.Trace Call Call.Answer} (hw : w.Calm) (hrun : Program.Runs world p w t x w') :
    w'.Calm := by
  induction hrun with
  | done x s => exact hw
  | call answered _ ih => exact ih (world_calm hw answered)

/-- What holds of every answer where nothing is planned to fail holds of all answers of a run. -/
theorem forall_calm {P : (c : Call) × c.Answer → Prop}
    (hP : ∀ {w w' : Rehearsal} {c : Call} {a : c.Answer}, w.Calm → world w c a w' → P ⟨c, a⟩)
    {α : Type} {p : Operation.Steps α} {x : α} {t : Program.Trace Call Call.Answer} (hw : w.Calm)
    (hrun : Program.Runs world p w t x w') : ∀ e ∈ t, P e := by
  induction hrun with
  | done x s => simp
  | call answered _ ih =>
    exact List.forall_mem_cons.2 ⟨hP hw answered, ih (world_calm hw answered)⟩

/-- Where nothing is planned to fail, an object is looked up as it is. -/
theorem world_get_calm {key : ResourceKey} {a : Call.Answer (.get key)} (hw : w.Calm)
    (h : world w (.get key) a w') : w'.cluster = w.cluster ∧ a = .ok (w.cluster.object? key) :=
  ⟨world_keeps (c := .get key) trivial h, (congrArg Prod.fst (world_of_calm hw.outages h)).symm⟩

/-- Where nothing is planned to fail, an object is gone after its deletion, which fails only because
it was gone before. -/
theorem world_delete_calm {key : ResourceKey} {a : Call.Answer (.delete key)} (hw : w.Calm)
    (h : world w (.delete key) a w') :
    (∀ j, w'.cluster.object? j = if j = key then none else w.cluster.object? j) ∧
      (a = .ok () ∨ w.cluster.object? key = none ∧ ∃ e, a = .error e ∧ e.isNotFound = true) := by
  have hdone := world_of_calm hw.outages h
  simp only [perform, noted, Cluster.delete, Cluster.permit, hw.failures, List.lookup_nil] at hdone
  cases hlive : w.cluster.object? key with
  | none =>
    simp only [hlive, Option.isNone_none, if_true] at hdone
    obtain ⟨rfl, rfl⟩ := Prod.mk.inj hdone
    refine ⟨fun j => ?_, .inr ⟨rfl, _, rfl, rfl⟩⟩
    split
    · next hj => rw [hj, hlive]
    · rfl
  | some live =>
    simp only [hlive, Option.isNone_some] at hdone
    obtain ⟨rfl, rfl⟩ := Prod.mk.inj hdone
    exact ⟨fun j => Table.lookup_drop key j w.cluster.objects, .inl rfl⟩

end Rehearsal

end ReleaseKeeper
