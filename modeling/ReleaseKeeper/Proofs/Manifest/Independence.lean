import ReleaseKeeper.Proofs.Manifest.Partial
import ReleaseKeeper.Proofs.Manifest.Tagging

/-!
# Resources can be applied in any order

What an application comes to depends on what is live under the key of its resource, and it writes to
that key alone. So where nothing is planned to fail, resources of different keys do not get in each
other's way: in every order each comes to the same and writes the same, and together they leave the
same objects, but for the stamps of the server, which count the writes (`Manifest.applies_commute`).
-/
namespace ReleaseKeeper.Manifest

open Operation Rehearsal

variable {w : Rehearsal} {rs : List Resource}

/-- One application where nothing is planned to fail. -/
theorem run_apply_calm {r : Resource} (hw : w.Calm) (hc : w.cluster.Filed) (hr : r.Proper) :
    (run (Manifest.apply r) w).2.Calm ∧
      (run (Manifest.apply r) w).2.cluster = w.cluster.applied r := by
  obtain ⟨t, hrun⟩ := runs_run (Manifest.apply r) w
  obtain ⟨done, hdone⟩ := Cluster.outcome_of_calm hw.failures r
  have hcluster := (run_apply_steady hw.outages hc hr).2 done hdone
  refine ⟨⟨runs_outages hw.outages hrun, ?_⟩, hcluster⟩
  rw [hcluster, Cluster.failures_applied, hw.failures]

/-- Where nothing is planned to fail, a series of applications is what the resources make of the
cluster one after another. -/
theorem reapplied_calm (hw : w.Calm) (hc : w.cluster.Filed) (hrs : ∀ r ∈ rs, r.Proper) :
    (w.reapplied rs).Calm ∧ (w.reapplied rs).cluster = rs.foldl Cluster.applied w.cluster := by
  induction rs generalizing w with
  | nil => exact ⟨hw, rfl⟩
  | cons r rest ih =>
    obtain ⟨hr, hrest⟩ := List.forall_mem_cons.1 hrs
    obtain ⟨hw₁, hcluster⟩ := run_apply_calm hw hc hr
    have hc₁ : (run (Manifest.apply r) w).2.cluster.Filed :=
      hcluster ▸ Cluster.filed_applied hc hr
    rw [List.foldl_cons, ← hcluster]
    exact ih hw₁ hc₁ hrest

/-- Behind resources of other keys, a resource comes to what it would have come to before them. -/
theorem run_apply_behind {front : List Resource} {r : Resource} (hw : w.Calm)
    (hc : w.cluster.Filed) (hfront : ∀ d ∈ front, d.Proper) (hr : r.Proper)
    (hkey : r.key ∉ front.map Resource.key) :
    (run (Manifest.apply r) (w.reapplied front)).1 = w.cluster.outcome r := by
  obtain ⟨hcalm, hcluster⟩ := reapplied_calm hw hc hfront
  have hfiled : (w.reapplied front).cluster.Filed :=
    hcluster ▸ Cluster.filed_foldl_applied hc hfront
  rw [(run_apply_steady hcalm.outages hfiled hr).1]
  refine Cluster.outcome_congr ?_ (hcalm.failures.trans hw.failures.symm)
  rw [hcluster]
  exact Cluster.object?_foldl_applied_of_proper hc hfront hkey

/-- The writes of a series of applications, each by what it would have come to alone. -/
theorem writes_reapplied {came : Resource → Applied}
    (hcame : ∀ r, w.cluster.outcome r = .ok (came r)) (hw : w.Calm) (hc : w.cluster.Filed) :
    ∀ rs : List Resource, (∀ r ∈ rs, r.Proper) → (rs.map Resource.key).Nodup →
      (w.reapplied rs).cluster.writes =
        w.cluster.writes ++ rs.flatMap fun r => (came r).writes r.key := by
  intro rs
  induction rs using List.reverseRecOn with
  | nil => exact fun _ _ => (List.append_nil _).symm
  | append_singleton front r ih =>
    intro hrs hkeys
    obtain ⟨hfront, hr⟩ := List.forall_mem_append.1 hrs
    replace hr := List.forall_mem_singleton.1 hr
    rw [List.map_append, List.nodup_append] at hkeys
    obtain ⟨hkeys, -, hdisjoint⟩ := hkeys
    have hkey : r.key ∉ front.map Resource.key := fun hmem =>
      hdisjoint _ hmem _ (List.mem_singleton_self _) rfl
    obtain ⟨hcalm, hcluster⟩ := reapplied_calm hw hc hfront
    have hfiled : (w.reapplied front).cluster.Filed :=
      hcluster ▸ Cluster.filed_foldl_applied hc hfront
    have houtcome : (w.reapplied front).cluster.outcome r = .ok (came r) := by
      rw [← (run_apply_steady hcalm.outages hfiled hr).1, run_apply_behind hw hc hfront hr hkey,
        hcame]
    rw [reapplied_concat, (run_apply_calm hcalm hfiled hr).2,
      Cluster.writes_applied hfiled hr houtcome, ih hfront hkeys, List.flatMap_append,
      List.flatMap_singleton, List.append_assoc]

/-- **Applications of different objects are independent.** Take a cluster in which nothing is planned
to fail, and resources of different keys. Each of them is created, updated or left unchanged, and it is
the same in whatever order they are applied. What is recorded is one write to its own key for each that
is created or updated, and nothing else. The objects that are there in the end do not depend on the
order, but for the server's stamps. -/
theorem applies_commute (hw : w.Calm) (hc : w.cluster.Filed) (hrs : ∀ r ∈ rs, r.Proper)
    (hkeys : (rs.map Resource.key).Nodup) :
    ∃ came : Resource → Applied, ∀ order : List Resource, order.Perm rs →
      (∀ front r, front ++ [r] <+: order →
        (run (Manifest.apply r) (w.reapplied front)).1 = .ok (came r)) ∧
      (w.reapplied order).cluster.writes =
        w.cluster.writes ++ order.flatMap (fun r => (came r).writes r.key) ∧
      ∀ key, SameButStamp ((w.reapplied order).cluster.object? key)
        ((w.reapplied rs).cluster.object? key) := by
  choose came hcame using Cluster.outcome_of_calm hw.failures
  refine ⟨came, fun order horder => ?_⟩
  have horderly : ∀ r ∈ order, r.Proper := fun r hr => hrs r (horder.mem_iff.1 hr)
  have hkeys' : (order.map Resource.key).Nodup := (horder.map _).nodup_iff.2 hkeys
  refine ⟨fun front r hbegins => ?_, writes_reapplied hcame hw hc order horderly hkeys', fun key => ?_⟩
  · obtain ⟨hfront, hr⟩ :=
      List.forall_mem_append.1 fun d hd => horderly d (hbegins.subset hd)
    have hnodup := (hbegins.sublist.map Resource.key).nodup hkeys'
    rw [List.map_append, List.nodup_append] at hnodup
    have hkey : r.key ∉ front.map Resource.key := fun hmem =>
      hnodup.2.2 _ hmem _ (List.mem_singleton_self _) rfl
    rw [run_apply_behind hw hc hfront (List.forall_mem_singleton.1 hr) hkey, hcame]
  · rw [(reapplied_calm hw hc horderly).2, (reapplied_calm hw hc hrs).2]
    exact Cluster.foldl_applied_perm hc hrs hkeys horder

/-! ### Three config maps, in two orders -/

namespace Settings

def config (name value : String) : Resource := ⟨[("apiVersion", .str "v1"),
  ("data", .obj [("a", .str value)]), ("kind", .str "ConfigMap"),
  ("metadata", .obj [("name", .str name), ("namespace", .str "n")])]⟩

def desired : List Resource := [config "fresh" "1", config "edited" "1", config "kept" "1"]

/-- One of them is not there, one was edited, and one is there as it is desired. -/
def installed : Rehearsal where
  cluster := Cluster.insert (config "kept" "1") (Cluster.insert (config "edited" "2") {})

theorem proper : ∀ r ∈ desired, r.Proper := by
  have hvalid : ∀ r ∈ desired, Resource.ofJson r.toJson = .ok r := by
    simp only [desired, List.forall_mem_cons, List.not_mem_nil, false_imp_iff, implies_true, and_true]
    exact ⟨rfl, rfl, rfl⟩
  have hwellFormed : ∀ r ∈ desired, r.toJson.WellFormed := by
    simp only [desired, config, List.forall_mem_cons, List.not_mem_nil, false_imp_iff, implies_true,
      and_true, Resource.toJson, Json.WellFormed, Json.WellFormedMembers, Table.Sorted]
    decide
  exact fun r hr => ⟨.of_wellFormed (hwellFormed r hr), hvalid r hr⟩

end Settings

open Settings in
/-- The last comes first: the same is created and updated, in the other order. -/
theorem applies_commute_reversed :
    installed.Calm ∧ installed.cluster.Filed ∧ (∀ r ∈ desired, r.Proper) ∧
      (desired.map Resource.key).Nodup ∧ desired.reverse.Perm desired ∧
      (installed.reapplied desired).cluster.writes =
        [.create (config "fresh" "1").key, .update (config "edited" "1").key] ∧
      (installed.reapplied desired.reverse).cluster.writes =
        [.update (config "edited" "1").key, .create (config "fresh" "1").key] ∧
      ∀ key, SameButStamp ((installed.reapplied desired.reverse).cluster.object? key)
        ((installed.reapplied desired).cluster.object? key) := by
  have hw : installed.Calm := ⟨rfl, rfl⟩
  have hc : installed.cluster.Filed := Cluster.filed_of_forall (by decide)
  have hkeys : (desired.map Resource.key).Nodup := by decide
  obtain ⟨came, hcame⟩ := applies_commute hw hc proper hkeys
  obtain ⟨houtcomes, hwrites, -⟩ := hcame desired (.refl _)
  obtain ⟨-, hwrites', hobjects⟩ := hcame desired.reverse (List.reverse_perm _)
  have hdone : ∀ front r done, front ++ [r] <+: desired →
      (run (Manifest.apply r) (installed.reapplied front)).1 = .ok done → came r = done :=
    fun front r done hbegins hran => Except.ok.inj ((houtcomes front r hbegins).symm.trans hran)
  have hfresh := hdone [] (config "fresh" "1") .created ⟨_, rfl⟩ (by decide +kernel)
  have hedited := hdone [config "fresh" "1"] (config "edited" "1") .updated ⟨_, rfl⟩
    (by decide +kernel)
  have hkept := hdone [config "fresh" "1", config "edited" "1"] (config "kept" "1") .unchanged
    ⟨_, rfl⟩ (by decide +kernel)
  refine ⟨hw, hc, proper, hkeys, List.reverse_perm _, ?_, ?_, hobjects⟩
  · rw [hwrites, desired]
    simp only [List.flatMap_cons, List.flatMap_nil, hfresh, hedited, hkept]
    rfl
  · rw [hwrites', desired]
    simp only [List.reverse_cons, List.reverse_nil, List.nil_append, List.cons_append,
      List.flatMap_cons, List.flatMap_nil, hfresh, hedited, hkept]
    rfl

end ReleaseKeeper.Manifest
