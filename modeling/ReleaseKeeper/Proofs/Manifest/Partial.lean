import ReleaseKeeper.Proofs.Cluster.Outcomes
import ReleaseKeeper.Proofs.Reconcile.Calls

/-!
# A release that is applied in part

Where nothing but writes to chosen keys fails, applying a release stops at the first resource, in
order, that could not be applied to the cluster by itself (`Manifest.applyEach_steady`). By then
every resource before it was applied, just as it would have been by itself.
-/
namespace ReleaseKeeper.Manifest

open Operation Rehearsal

variable {w w' : Rehearsal} {t : Program.Trace Call Call.Answer}

/-- **Without outages, applying a resource comes to what the cluster says.** -/
theorem apply_steady {r : Resource} {x : Except Error Applied} (hw : w.outages = [])
    (hc : w.cluster.Filed) (hr : r.Proper) (h : Runs world (Manifest.apply r) w t x w') :
    x = w.cluster.outcome r := by
  have hkept : ∀ {changed : Except Error Unit} {f : Unit → Cluster} {v v' : Rehearsal}
      {a : Except Error Unit}, v.keepCluster (changed.map f) = (a, v') → a = changed := by
    rintro (_ | _) f v v' a h <;> exact (congrArg Prod.fst h).symm
  have hw₁ : (w.noted (.get r.key) []).outages = [] := rfl
  rw [Cluster.outcome]
  cases application_of_runs h with
  | unread looked => cases (world_get_eq hw looked).1
  | creating looked wrote =>
    obtain ⟨hnone, rfl⟩ := world_get_eq hw looked
    have hlive : w.cluster.object? r.key = none := (Except.ok.inj hnone).symm
    have hdone := world_of_calm hw₁ wrote
    have hcreated : w.cluster.create r.tag =
        (w.cluster.permit r.key).map fun _ => w.cluster.store (.create r.tag.key) r.tag := by
      rw [Cluster.create_of_absent (by rw [Resource.key_tag, hlive]), Resource.key_tag]
    simp only [perform, noted, hcreated] at hdone
    rw [hlive, hkept hdone]
  | keeping looked same =>
    obtain ⟨hsome, rfl⟩ := world_get_eq hw looked
    rw [← Except.ok.inj hsome]
    dsimp only
    rw [same, if_neg Bool.false_ne_true]
  | @updating live _ _ _ looked differs wrote =>
    obtain ⟨hsome, rfl⟩ := world_get_eq hw looked
    have hlive : w.cluster.object? r.key = some live := (Except.ok.inj hsome).symm
    have hkey := Resource.key_mergeInto hr.ordered hr.name_ne (hc _ _ hlive)
    have hdone := world_of_calm hw₁ wrote
    have hupdated : w.cluster.update (r.mergeInto live).2 = (w.cluster.permit r.key).map
        fun _ => w.cluster.store (.update (r.mergeInto live).2.key) (r.mergeInto live).2 := by
      rw [Cluster.update_of_present (by rw [hkey, hlive]; rfl), hkey]
    simp only [perform, noted, hupdated] at hdone
    rw [hlive]
    dsimp only
    rw [differs, if_pos rfl, hkept hdone]

/-- The same of a run to the end, with what is left of the cluster. -/
theorem run_apply_steady {r : Resource} (hw : w.outages = []) (hc : w.cluster.Filed)
    (hr : r.Proper) : (run (Manifest.apply r) w).1 = w.cluster.outcome r ∧
      ∀ done, w.cluster.outcome r = .ok done →
        (run (Manifest.apply r) w).2.cluster = w.cluster.applied r := by
  have hrun := Program.runs_handler answer (Manifest.apply r).run w
  have houtcome : (run (Manifest.apply r) w).1 = w.cluster.outcome r := apply_steady hw hc hr hrun
  refine ⟨houtcome, fun done hdone => ?_⟩
  obtain ⟨e, herror, -⟩ | ⟨-, -, happlied⟩ := runs_apply hrun
  · rw [← houtcome] at hdone
    cases hdone.symm.trans herror
  · exact happlied

/-- **Applying resources one after another** stops at the first of them that could not be applied by
itself, with those before it applied. -/
theorem applyEach_steady : ∀ {rs : List Resource} {w w' : Rehearsal}
    {t : Program.Trace Call Call.Answer} {x : Except ApplyFailure (List Reference)},
    w.outages = [] → w.cluster.Filed → (∀ r ∈ rs, r.Proper) → (rs.map Resource.key).Nodup →
    Program.Runs world (applyEach rs) w t x w' →
      (x = .ok (rs.map Resource.reference) ∧ ∀ r ∈ rs, ∃ a, w.cluster.outcome r = .ok a) ∨
      ∃ done r rest e, rs = done ++ r :: rest ∧ (∀ r' ∈ done, ∃ a, w.cluster.outcome r' = .ok a) ∧
        w.cluster.outcome r = .error e ∧ x = .error ⟨done.map Resource.reference, r.key, e⟩ ∧
        w'.cluster = done.foldl Cluster.applied w.cluster
  | [], w, w', t, x, _, _, _, _, h => by
    obtain ⟨-, rfl, rfl⟩ := Program.runs_done_iff.1 h
    exact .inl ⟨rfl, by simp⟩
  | r :: rest, w, w', t, x, hw, hc, hrs, hkeys, h => by
    obtain ⟨hr, hrest⟩ := List.forall_mem_cons.1 hrs
    rw [List.map_cons, List.nodup_cons] at hkeys
    obtain ⟨e, rfl, hrun⟩ | ⟨a, t₁, w₁, t₂, y, rfl, hrun, hruns, rfl⟩ := runs_applyEach_cons.1 h
    · obtain ⟨_, -, hkept⟩ | ⟨_, hok, -⟩ := runs_apply hrun
      · exact .inr ⟨[], r, rest, e, rfl, by simp, (apply_steady hw hc hr hrun).symm, rfl, hkept⟩
      · cases hok
    · have hdone : w.cluster.outcome r = .ok a := (apply_steady hw hc hr hrun).symm
      obtain ⟨_, herror, -⟩ | ⟨_, -, happlied⟩ := runs_apply hrun
      · cases herror
      -- the resources behind it have other keys, so they come to what they would have come to before
      have hsame : ∀ r' ∈ rest, w₁.cluster.outcome r' = w.cluster.outcome r' := by
        intro r' hr'
        have hne : r'.key ≠ r.key := fun h => hkeys.1 (h ▸ List.mem_map_of_mem hr')
        rw [happlied]
        exact Cluster.outcome_congr (Cluster.object?_applied_of_ne hc hr hne)
          (Cluster.failures_applied _ _)
      have hc₁ : w₁.cluster.Filed := happlied ▸ Cluster.filed_applied hc hr
      obtain ⟨rfl, hall⟩ | ⟨front, r', back, e, rfl, hfront, hfailed, rfl, hcluster⟩ :=
        applyEach_steady (runs_outages hw hrun) hc₁ hrest hkeys.2 hruns
      · refine .inl ⟨rfl, List.forall_mem_cons.2 ⟨⟨a, hdone⟩, fun r' hr' => ?_⟩⟩
        rw [← hsame r' hr']
        exact hall r' hr'
      · rw [hsame r' (by simp)] at hfailed
        refine .inr ⟨r :: front, r', back, e, rfl, List.forall_mem_cons.2 ⟨⟨a, hdone⟩, ?_⟩, hfailed,
          rfl, by rw [hcluster, happlied, List.foldl_cons]⟩
        intro r'' hr''
        rw [← hsame r'' (List.mem_append_left _ hr'')]
        exact hfront r'' hr''

end ReleaseKeeper.Manifest
