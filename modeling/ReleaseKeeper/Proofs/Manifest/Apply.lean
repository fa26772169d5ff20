import ReleaseKeeper.Proofs.Cluster.Members
import ReleaseKeeper.Proofs.Cluster.Rehearsal
import ReleaseKeeper.Proofs.Manifest.Order

/-!
# Applying a release to a cluster

The calls that apply a resource come to what `Cluster.applied` says, or to an error that leaves the
cluster as it was (`runs_apply`); those that apply a release come to the fold of that, up to the
first resource that fails (`runs_applyEach`). Where nothing is planned to fail nothing fails
(`apply_calm`), and where everything is held already every call only looks (`applyEach_held`).

Together: applying a release brings the cluster to hold all of it, and doing so again writes nothing
(`applyAll_converges`).
-/
namespace ReleaseKeeper

namespace Manifest

open Operation Rehearsal

variable {w w' : Rehearsal} {t : Program.Trace Call Call.Answer}

theorem Applicable.applyOrder {m : Manifest} (hm : m.Applicable) : m.applyOrder.Applicable where
  keys_nodup := ((applyOrder_perm m).map _).nodup_iff.2 hm.keys_nodup
  each r hr := hm.each r (mem_applyOrder.1 hr)

/-! ## One resource -/

/-- How the application of a resource can go: one call that looks, and at most one that writes. -/
inductive Application {σ : Type} (world : Program.World Call Call.Answer σ) (r : Resource) (s : σ) :
    Program.Trace Call Call.Answer → Except Error Applied → σ → Prop
  | unread {e : Error} {s' : σ} (looked : world s (.get r.key) (.error e) s') :
    Application world r s [⟨.get r.key, .error e⟩] (.error e) s'
  | creating {s₁ s' : σ} {a : Except Error Unit} (looked : world s (.get r.key) (.ok none) s₁)
    (wrote : world s₁ (.create r.tag) a s') :
    Application world r s [⟨.get r.key, .ok none⟩, ⟨.create r.tag, a⟩] (a.map fun _ => .created) s'
  | keeping {live : Resource} {s' : σ} (looked : world s (.get r.key) (.ok (some live)) s')
    (same : (r.mergeInto live).1 = false) :
    Application world r s [⟨.get r.key, .ok (some live)⟩] (.ok .unchanged) s'
  | updating {live : Resource} {s₁ s' : σ} {a : Except Error Unit}
    (looked : world s (.get r.key) (.ok (some live)) s₁) (differs : (r.mergeInto live).1 = true)
    (wrote : world s₁ (.update (r.mergeInto live).2) a s') :
    Application world r s
      [⟨.get r.key, .ok (some live)⟩, ⟨.update (r.mergeInto live).2, a⟩]
      (a.map fun _ => .updated) s'

/-- **Every application goes one of these ways.** -/
theorem application_of_runs {σ : Type} {world : Program.World Call Call.Answer σ} {s s' : σ}
    {r : Resource} {x : Except Error Applied} (h : Runs world (Manifest.apply r) s t x s') :
    Application world r s t x s' := by
  obtain ⟨e, rfl, looked, rfl⟩ | ⟨live?, s₁, t₁, rfl, looked, hnext⟩ := runs_ask_bind.1 h
  · exact .unread looked
  · cases live? with
    | none =>
      obtain ⟨a, rfl, wrote, rfl⟩ := runs_ask_map.1 hnext
      exact .creating looked wrote
    | some live =>
      dsimp only at hnext
      split at hnext
      · next differs =>
        obtain ⟨a, rfl, wrote, rfl⟩ := runs_ask_map.1 hnext
        exact .updating looked differs wrote
      · next same =>
        obtain ⟨rfl, rfl, rfl⟩ := runs_pure.1 hnext
        exact .keeping looked (Bool.eq_false_iff.2 same)

/-- **Applying a resource** comes to what it makes of the cluster, or to an error and nothing. -/
theorem runs_apply {r : Resource} {x : Except Error Applied}
    (h : Runs world (Manifest.apply r) w t x w') :
    (∃ e, x = .error e ∧ w'.cluster = w.cluster) ∨
      ∃ done, x = .ok done ∧ w'.cluster = w.cluster.applied r := by
  cases application_of_runs h with
  | unread looked => exact .inl ⟨_, rfl, (world_get looked).1⟩
  | @creating w₁ _ a looked wrote =>
    obtain ⟨hcluster, hlooked⟩ := world_get looked
    have hlive : w.cluster.object? r.key = none := by simpa [eq_comm] using hlooked
    obtain ⟨e, rfl, hkept⟩ | ⟨rfl, hstore⟩ := world_create wrote
    · exact .inl ⟨e, rfl, by rw [hkept, hcluster]⟩
    · exact .inr ⟨_, rfl, by rw [hstore, hcluster, Cluster.applied, hlive]⟩
  | @keeping live _ looked same =>
    obtain ⟨hcluster, hlooked⟩ := world_get looked
    have hlive : w.cluster.object? r.key = some live := by simpa [eq_comm] using hlooked
    exact .inr ⟨_, rfl, by simp [hcluster, Cluster.applied, hlive, same]⟩
  | @updating live w₁ _ a looked differs wrote =>
    obtain ⟨hcluster, hlooked⟩ := world_get looked
    have hlive : w.cluster.object? r.key = some live := by simpa [eq_comm] using hlooked
    obtain ⟨e, rfl, hkept⟩ | ⟨rfl, hstore⟩ := world_update wrote
    · exact .inl ⟨e, rfl, by rw [hkept, hcluster]⟩
    · exact .inr ⟨_, rfl, by simp [hstore, hcluster, Cluster.applied, hlive, differs]⟩

/-- A resource that was applied is stored, and every member but the metadata is what the merge makes
of it. -/
theorem run_apply_ok {r : Resource} {done : Applied} (hc : w.cluster.Filed) (hr : r.Proper)
    (hdone : (run (Manifest.apply r) w).1 = .ok done) :
    (run (Manifest.apply r) w).2.cluster.Filed ∧ ∃ live,
      (run (Manifest.apply r) w).2.cluster.object? r.key = some live ∧ ∀ key, key ≠ "metadata" →
        live.members.lookup key =
          Json.memberAfter key (r.members.lookup key) (w.cluster.member? r.key key) := by
  have hrun := Program.runs_handler answer (Manifest.apply r).run w
  obtain ⟨e, herror, -⟩ | ⟨-, -, happlied⟩ := runs_apply hrun
  · cases hdone.symm.trans herror
  · have hcluster : (run (Manifest.apply r) w).2.cluster = w.cluster.applied r := happlied
    rw [hcluster]
    exact ⟨Cluster.filed_applied hc hr, Cluster.lookup_applied hc hr⟩

/-- Where nothing is planned to fail, applying a resource does not fail. -/
theorem apply_calm {r : Resource} {x : Except Error Applied} (hw : w.Calm) (hc : w.cluster.Filed)
    (hr : r.Applicable) (h : Runs world (Manifest.apply r) w t x w') :
    (∃ done, x = .ok done) ∧ w'.Calm := by
  have hw₁ : (w.noted (.get r.key) []).Calm := ⟨rfl, hw.failures⟩
  cases application_of_runs h with
  | unread looked => cases (world_get_eq hw.outages looked).1
  | creating looked wrote =>
    obtain ⟨hnone, rfl⟩ := world_get_eq hw.outages looked
    have hok : w.cluster.create r.tag = .ok (w.cluster.store (.create r.tag.key) r.tag) := by
      rw [Cluster.create_ok_iff, hw.failures, Resource.key_tag]
      exact ⟨rfl, (Except.ok.inj hnone).symm, rfl⟩
    have hdone := world_of_calm hw₁.outages wrote
    simp only [perform, noted, hok, keepCluster] at hdone
    obtain ⟨rfl, rfl⟩ := Prod.mk.inj hdone
    exact ⟨⟨_, rfl⟩, rfl, hw.failures⟩
  | keeping looked same =>
    obtain ⟨-, rfl⟩ := world_get_eq hw.outages looked
    exact ⟨⟨_, rfl⟩, hw₁⟩
  | @updating live _ _ _ looked differs wrote =>
    obtain ⟨hsome, rfl⟩ := world_get_eq hw.outages looked
    have hlive : w.cluster.object? r.key = some live := (Except.ok.inj hsome).symm
    have hkey := Resource.key_mergeInto hr.proper.ordered hr.name_ne (hc _ _ hlive)
    have hok : w.cluster.update (r.mergeInto live).2 =
        .ok (w.cluster.store (.update (r.mergeInto live).2.key) (r.mergeInto live).2) := by
      rw [Cluster.update_ok_iff, hw.failures, hkey, hlive]
      exact ⟨rfl, rfl, rfl⟩
    have hdone := world_of_calm hw₁.outages wrote
    simp only [perform, noted, hok, keepCluster] at hdone
    obtain ⟨rfl, rfl⟩ := Prod.mk.inj hdone
    exact ⟨⟨_, rfl⟩, rfl, hw.failures⟩

/-- Where the cluster holds a resource already, applying it only looks. -/
theorem apply_held {r : Resource} {x : Except Error Applied} (hw : w.outages = [])
    (hr : w.cluster.Holds r) (h : Runs world (Manifest.apply r) w t x w') :
    x = .ok .unchanged ∧ w' = { w with journal := w.journal ++ [.get r.key] } := by
  obtain ⟨live, hlive, hflag⟩ := hr
  have hlooked : ∀ {live? : Except Error (Option Resource)} {w₁ : Rehearsal},
      world w (.get r.key) live? w₁ → live? = .ok (some live) ∧ w₁ = w.noted (.get r.key) [] := by
    rw [← hlive]
    exact world_get_eq hw
  cases application_of_runs h with
  | unread looked => cases (hlooked looked).1
  | creating looked => cases (hlooked looked).1
  | keeping looked same =>
    obtain ⟨-, rfl⟩ := hlooked looked
    exact ⟨rfl, by rw [noted, hw]⟩
  | updating looked differs =>
    obtain rfl := Option.some.inj (Except.ok.inj (hlooked looked).1)
    cases hflag.symm.trans differs

/-! ## One resource after another -/

theorem runs_applyEach_cons {σ : Type} {world : Program.World Call Call.Answer σ} {s s' : σ}
    {r : Resource} {rest : List Resource} {x : Except ApplyFailure (List Reference)} :
    Program.Runs world (applyEach (r :: rest)) s t x s' ↔
      (∃ e, x = .error ⟨[], r.key, e⟩ ∧ Runs world (Manifest.apply r) s t (.error e) s') ∨
      ∃ done t₁ s₁ t₂ y, t = t₁ ++ t₂ ∧ Runs world (Manifest.apply r) s t₁ (.ok done) s₁ ∧
        Program.Runs world (applyEach rest) s₁ t₂ y s' ∧
        x = match y with
          | .error f => .error { f with applied := r.reference :: f.applied }
          | .ok applied => .ok (r.reference :: applied) := by
  rw [applyEach]
  refine Program.runs_bind_iff.trans ?_
  constructor
  · rintro ⟨t₁, e | done, s₁, t₂, rfl, hr, hrest⟩
    · obtain ⟨rfl, rfl, rfl⟩ := Program.runs_done_iff.1 hrest
      exact .inl ⟨e, rfl, by rwa [List.append_nil]⟩
    · obtain ⟨t₃, y, s₂, t₄, rfl, hy, hx⟩ := Program.runs_bind_iff.1 hrest
      refine .inr ⟨done, t₁, s₁, t₃, y, ?_⟩
      cases y <;> obtain ⟨rfl, rfl, rfl⟩ := Program.runs_done_iff.1 hx <;>
        exact ⟨by rw [List.append_nil], hr, hy, rfl⟩
  · rintro (⟨e, rfl, hr⟩ | ⟨done, t₁, s₁, t₂, y, rfl, hr, hy, rfl⟩)
    · exact ⟨t, .error e, s', [], by rw [List.append_nil], hr, .done _ _⟩
    · refine ⟨t₁, .ok done, s₁, t₂, rfl, hr, ?_⟩
      refine Program.runs_bind_iff.2 ⟨t₂, y, s', [], by rw [List.append_nil], hy, ?_⟩
      cases y <;> exact .done _ _

/-- **Applying resources one after another** comes to what they make of the cluster together, or
stops at one of them with what those before it made of it. -/
theorem runs_applyEach : ∀ {rs : List Resource} {w w' : Rehearsal}
    {t : Program.Trace Call Call.Answer} {x : Except ApplyFailure (List Reference)},
    Program.Runs world (applyEach rs) w t x w' →
      (x = .ok (rs.map Resource.reference) ∧ w'.cluster = rs.foldl Cluster.applied w.cluster) ∨
      ∃ done r rest e, rs = done ++ r :: rest ∧
        x = .error ⟨done.map Resource.reference, r.key, e⟩ ∧
        w'.cluster = done.foldl Cluster.applied w.cluster
  | [], w, w', t, x, h => by
    obtain ⟨-, rfl, rfl⟩ := Program.runs_done_iff.1 h
    exact .inl ⟨rfl, rfl⟩
  | r :: rest, w, w', t, x, h => by
    obtain ⟨e, rfl, hr⟩ | ⟨done, t₁, w₁, t₂, y, rfl, hr, hrest, rfl⟩ := runs_applyEach_cons.1 h
    · obtain ⟨_, -, hkept⟩ | ⟨_, hok, -⟩ := runs_apply hr
      · exact .inr ⟨[], r, rest, e, rfl, rfl, hkept⟩
      · cases hok
    · obtain ⟨_, herror, -⟩ | ⟨_, -, happlied⟩ := runs_apply hr
      · cases herror
      · obtain ⟨rfl, hall⟩ | ⟨front, r', back, e, rfl, rfl, hfront⟩ := runs_applyEach hrest
        · exact .inl ⟨rfl, by rw [hall, happlied, List.foldl_cons]⟩
        · refine .inr ⟨r :: front, r', back, e, rfl, rfl, ?_⟩
          rw [hfront, happlied, List.foldl_cons]

/-- Where nothing is planned to fail, every resource is applied. -/
theorem applyEach_calm : ∀ {rs : List Resource} {w w' : Rehearsal}
    {t : Program.Trace Call Call.Answer} {x : Except ApplyFailure (List Reference)},
    w.Calm → w.cluster.Filed → (∀ r ∈ rs, r.Applicable) →
    Program.Runs world (applyEach rs) w t x w' → (∃ refs, x = .ok refs) ∧ w'.Calm
  | [], w, w', t, x, hw, _, _, h => by
    obtain ⟨-, rfl, rfl⟩ := Program.runs_done_iff.1 h
    exact ⟨⟨[], rfl⟩, hw⟩
  | r :: rest, w, w', t, x, hw, hc, hrs, h => by
    obtain ⟨hr, hrest⟩ := List.forall_mem_cons.1 hrs
    obtain ⟨e, -, hrun⟩ | ⟨done, t₁, w₁, t₂, y, -, hrun, hruns, rfl⟩ := runs_applyEach_cons.1 h
    · obtain ⟨⟨_, hok⟩, -⟩ := apply_calm hw hc hr hrun
      cases hok
    · have hw₁ := (apply_calm hw hc hr hrun).2
      have hc₁ : w₁.cluster.Filed := by
        obtain ⟨_, herror, -⟩ | ⟨_, -, happlied⟩ := runs_apply hrun
        · cases herror
        · rw [happlied]; exact Cluster.filed_applied hc hr.proper
      obtain ⟨⟨refs, rfl⟩, hw'⟩ := applyEach_calm hw₁ hc₁ hrest hruns
      exact ⟨⟨_, rfl⟩, hw'⟩

/-- Where the cluster holds everything already, every call only looks. -/
theorem applyEach_held : ∀ {rs : List Resource} {w w' : Rehearsal}
    {t : Program.Trace Call Call.Answer} {x : Except ApplyFailure (List Reference)},
    w.outages = [] → (∀ r ∈ rs, w.cluster.Holds r) →
    Program.Runs world (applyEach rs) w t x w' →
    x = .ok (rs.map Resource.reference) ∧
      w' = { w with journal := w.journal ++ rs.map fun r => .get r.key }
  | [], w, w', t, x, _, _, h => by
    obtain ⟨-, rfl, rfl⟩ := Program.runs_done_iff.1 h
    exact ⟨rfl, by simp⟩
  | r :: rest, w, w', t, x, hw, hrs, h => by
    obtain ⟨hr, hrest⟩ := List.forall_mem_cons.1 hrs
    obtain ⟨e, -, hrun⟩ | ⟨done, t₁, w₁, t₂, y, -, hrun, hruns, rfl⟩ := runs_applyEach_cons.1 h
    · cases (apply_held hw hr hrun).1
    · obtain ⟨-, hw₁⟩ := apply_held hw hr hrun
      obtain ⟨rfl, rfl⟩ := applyEach_held (by rw [hw₁]; exact hw) (by rw [hw₁]; exact hrest) hruns
      exact ⟨rfl, by simp [hw₁]⟩

/-! ## Convergence -/

/-- **Applying a release converges.** In a cluster where nothing is planned to fail all of it is
applied. Afterwards the cluster holds every resource and no other object has changed, so applying
the release once more only looks at the objects, and the cluster stays as it is. -/
theorem applyAll_converges {m : Manifest} (hm : m.Applicable) {w : Rehearsal} (hw : w.Calm)
    (hc : w.cluster.Filed) :
    ∃ w₁, Program.run answer (applyAll m) w = (.ok (m.applyOrder.map Resource.reference), w₁) ∧
      (∀ r ∈ m, w₁.cluster.Holds r) ∧
      (∀ key ∉ m.map Resource.key, w₁.cluster.object? key = w.cluster.object? key) ∧
      Program.run answer (applyAll m) w₁ = (.ok (m.applyOrder.map Resource.reference),
        { w₁ with journal := w₁.journal ++ m.applyOrder.map fun r => .get r.key }) := by
  have hm' := hm.applyOrder
  have hrun := Program.runs_handler answer (applyAll m) w
  generalize Program.run answer (applyAll m) w = ran at hrun
  obtain ⟨x, w₁⟩ := ran
  obtain ⟨⟨refs, hok⟩, hw₁⟩ := applyEach_calm hw hc hm'.each hrun
  obtain ⟨hx, hcluster⟩ | ⟨_, _, _, _, -, herror, -⟩ := runs_applyEach hrun
  · have hholds : ∀ r ∈ m.applyOrder, w₁.cluster.Holds r := by
      rw [hcluster]
      exact Cluster.holds_foldl_applied hc hm'
    refine ⟨w₁, by rw [← hx], fun r hr => hholds r (mem_applyOrder.2 hr), ?_, ?_⟩
    · intro key hkey
      rw [hcluster]
      refine Cluster.object?_foldl_applied hc hm'.each fun h => hkey ?_
      exact ((applyOrder_perm m).map _).mem_iff.1 h
    · obtain ⟨hagain, hkept⟩ :=
        applyEach_held hw₁.outages hholds (Program.runs_handler answer (applyAll m) w₁)
      exact Prod.ext hagain hkept
  · rw [hok] at herror
    cases herror

/-- A config map of the release that someone edited gets its value back. -/
theorem applyAll_converges_config :
    let config (value : String) : Resource := ⟨[("apiVersion", .str "v1"),
      ("data", .obj [("a", .str value)]), ("kind", .str "ConfigMap"),
      ("metadata", .obj [("name", .str "c"), ("namespace", .str "n")])]⟩
    let m : Manifest := [config "1"]
    let w : Rehearsal := { cluster := Cluster.insert (config "2") {} }
    m.Applicable ∧ w.Calm ∧ w.cluster.Filed ∧ ¬ w.cluster.Holds (config "1") ∧
      ∃ w₁, Program.run answer (applyAll m) w = (.ok [{
          group := "", version := "v1", kind := "ConfigMap", namespaceName := some "n", name := "c" }],
          w₁) ∧
        w₁.cluster.Holds (config "1") ∧
        (Program.run answer (applyAll m) w₁).2.cluster = w₁.cluster := by
  intro config m w
  have hm : m.Applicable := by
    refine ⟨List.pairwise_singleton _ _, fun r hr => ?_⟩
    obtain rfl := List.mem_singleton.1 hr
    refine ⟨?_, rfl, rfl, fun x hx => ?_⟩
    · simp only [config, Resource.toJson, Json.WellFormed, Json.WellFormedMembers, Table.Sorted]
      decide
    · cases hx
  have hw : w.Calm := ⟨rfl, rfl⟩
  have hc : w.cluster.Filed := Cluster.filed_of_forall (by decide)
  have hnot : ¬ w.cluster.Holds (config "1") := by
    rintro ⟨live, hlive, hflag⟩
    obtain rfl : config "2" = live := Option.some.inj hlive
    cases hflag
  have hrefs : m.applyOrder.map Resource.reference = [{
      group := "", version := "v1", kind := "ConfigMap", namespaceName := some "n", name := "c" }] := by
    decide +kernel
  obtain ⟨w₁, hrun, hholds, -, hagain⟩ := applyAll_converges hm hw hc
  rw [hrefs] at hrun
  exact ⟨hm, hw, hc, hnot, w₁, hrun, hholds _ (List.mem_singleton.2 rfl), by rw [hagain]⟩

end Manifest

end ReleaseKeeper
