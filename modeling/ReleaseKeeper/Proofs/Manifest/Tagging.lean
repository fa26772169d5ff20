import Mathlib.Data.List.Induction
import ReleaseKeeper.Proofs.Cluster.Tags
import ReleaseKeeper.Proofs.Manifest.Apply
import ReleaseKeeper.Proofs.Manifest.Delete

/-!
# How long a created object stays tagged

An object is tagged as it is created, and from then on every application merges what is desired into
it, annotations included. A tag survives that if annotations are not desired, or are an object that
desires no other tag (`Resource.KeepsTag`); desired annotations that are null or a list remove it, and
another value of the annotation takes its place. So through a series of applications a created object
stays tagged, and can be deleted, exactly if all that were successful keep the tag
(`created_stays_tagged`).
-/
namespace ReleaseKeeper

open Operation Rehearsal

/-- What a resource desires of annotations leaves a tag as it is. -/
def Resource.KeepsTag (r : Resource) : Prop :=
  ∀ x, r.metadata.lookup "annotations" = some x →
    ∃ annotations, x = .obj annotations ∧
      ∀ y, annotations.lookup createdByKey = some y → y = .str createdByValue

/-- The rehearsal after resources were applied, one after another, whatever became of each. -/
def Rehearsal.reapplied (w : Rehearsal) (rs : List Resource) : Rehearsal :=
  rs.foldl (fun w r => (run (Manifest.apply r) w).2) w

/-- The rehearsal with nothing planned to fail any more. -/
def Rehearsal.healed (w : Rehearsal) : Rehearsal :=
  { w with outages := [], cluster := { w.cluster with failures := [] } }

theorem Resource.keepsTag_iff {r : Resource} : r.KeepsTag ↔ r.tagAfter true = true := by
  rw [KeepsTag, tagAfter]
  cases r.metadata.lookup "annotations" with
  | none => simp [Json.tells]
  | some x =>
    cases x with
    | obj annotations =>
      cases hy : annotations.lookup createdByKey with
      | none => simp [Json.tells, Json.asObj?, hy]
      | some y => cases y <;> simp [Json.tells, Json.asObj?, Json.asStr?, hy]
    | _ => simp [Json.tells, Json.asObj?]

namespace Manifest

variable {w w' : Rehearsal} {t : Program.Trace Call Call.Answer} {r d : Resource}

/-! ## One application, one deletion -/

/-- What was created was absent. -/
theorem absent_of_created (h : Runs world (Manifest.apply r) w t (.ok .created) w') :
    w.cluster.object? r.key = none := by
  generalize hcreated : Except.ok Applied.created = x at h
  cases application_of_runs h with
  | creating looked =>
    obtain ⟨_, ⟨⟩⟩ | hlooked := (world_get looked).2
    exact (Except.ok.inj hlooked).symm
  | @updating _ _ _ a => cases a <;> cases hcreated
  | _ => cases hcreated

/-- What an application makes of the mark of its resource: nothing if it fails. -/
theorem mark_apply (hc : w.cluster.Filed) (hr : r.Proper) {x : Except Error Applied}
    (h : Runs world (Manifest.apply r) w t x w') :
    w'.cluster.Filed ∧ w'.cluster.mark r.key =
      if x.toBool then some ((w.cluster.mark r.key).elim true r.tagAfter)
      else w.cluster.mark r.key := by
  obtain ⟨e, rfl, hkept⟩ | ⟨done, rfl, happlied⟩ := runs_apply h
  · rw [hkept]
    exact ⟨hc, rfl⟩
  · rw [happlied, Cluster.mark_applied hc hr, if_pos rfl]
    exact ⟨Cluster.filed_applied hc hr, rfl⟩

/-- Where nothing is planned to fail, an object is deleted exactly if it is tagged. -/
theorem delete_marked {x : Except Error Deleted} {tagged : Bool} (hw : w.Calm)
    (hmark : w.cluster.mark r.key = some tagged) (h : Runs world (Manifest.delete r) w t x w') :
    x = .ok (if tagged then .deleted else .skipped) := by
  obtain ⟨live, hlive, rfl⟩ := Cluster.mark_eq_some_iff.1 hmark
  obtain ⟨e, -, hget, -⟩ | ⟨-, hget, -⟩ | ⟨live', -, hget, htag, rfl⟩ |
    ⟨live', w₁, a, -, hget, htag, hdelete, rfl⟩ := delete_cases h
  · cases (world_get_calm hw hget).2
  · have hnone := Except.ok.inj (world_get_calm hw hget).2
    rw [hlive] at hnone
    cases hnone
  · have hsame := Except.ok.inj (world_get_calm hw hget).2
    rw [hlive] at hsame
    obtain rfl := Option.some.inj hsame
    rw [htag]
    rfl
  · obtain ⟨hcluster, hsame⟩ := world_get_calm hw hget
    rw [hlive] at hsame
    obtain rfl := Option.some.inj (Except.ok.inj hsame)
    rw [htag]
    obtain ⟨-, rfl | ⟨hgone, -⟩⟩ := world_delete_calm (world_calm hw hget) hdelete
    · rfl
    · rw [hcluster, hlive] at hgone
      cases hgone

/-! ## A series of applications -/

theorem reapplied_concat (w : Rehearsal) (front : List Resource) (d : Resource) :
    w.reapplied (front ++ [d]) = (run (Manifest.apply d) (w.reapplied front)).2 := by
  rw [reapplied, List.foldl_append]
  rfl

theorem runs_run {α : Type} (op : Operation α) (w : Rehearsal) :
    ∃ t, Runs world op w t (run op w).1 (run op w).2 :=
  ⟨_, Program.runs_handler answer op.run w⟩

/-- One more application: the mark changes as it is desired, unless the application fails. -/
theorem mark_reapplied_concat {front : List Resource} (hc : (w.reapplied front).cluster.Filed)
    (hd : d.Proper) (hkey : d.key = r.key) :
    (w.reapplied (front ++ [d])).cluster.Filed ∧
      (w.reapplied (front ++ [d])).cluster.mark r.key =
        if (run (Manifest.apply d) (w.reapplied front)).1.toBool then
          some (((w.reapplied front).cluster.mark r.key).elim true d.tagAfter)
        else (w.reapplied front).cluster.mark r.key := by
  obtain ⟨t, hrun⟩ := runs_run (Manifest.apply d) (w.reapplied front)
  rw [reapplied_concat, ← hkey]
  exact mark_apply hc hd hrun

/-- Through a series of applications there is an object, under its own key. -/
theorem reapplied_marked (hc : w.cluster.Filed) {tagged : Bool}
    (hmark : w.cluster.mark r.key = some tagged) :
    ∀ rs : List Resource, (∀ d ∈ rs, d.Proper ∧ d.key = r.key) →
      (w.reapplied rs).cluster.Filed ∧ ∃ b, (w.reapplied rs).cluster.mark r.key = some b := by
  intro rs
  induction rs using List.reverseRecOn with
  | nil => exact fun _ => ⟨hc, tagged, hmark⟩
  | append_singleton front d ih =>
    intro hrs
    obtain ⟨hd, hkey⟩ := hrs d (List.mem_append_right _ List.mem_cons_self)
    obtain ⟨hfiled, b, hb⟩ := ih fun e he => hrs e (List.mem_append_left _ he)
    obtain ⟨hfiled', hmark'⟩ := mark_reapplied_concat hfiled hd hkey
    refine ⟨hfiled', ?_⟩
    rw [hmark', hb]
    split
    · exact ⟨_, rfl⟩
    · exact ⟨_, rfl⟩

/-- **A created object stays tagged as long as what is applied keeps the tag.** Take a resource that
is created by an application, and any resources under the same key that are applied after it, in a
cluster in which calls may fail. After every application the object is deleted by the operator if it
is tagged, and skipped else; and it is tagged after every application exactly if each of those that
were successful desires annotations that keep the tag. -/
theorem created_stays_tagged {rs : List Resource} (hc : w.cluster.Filed) (hr : r.Proper)
    (hrs : ∀ d ∈ rs, d.Proper ∧ d.key = r.key)
    (hcreated : (run (Manifest.apply r) w).1 = .ok .created) :
    let after (front : List Resource) := (run (Manifest.apply r) w).2.reapplied front
    (∀ front, front <+: rs → (run (Manifest.delete r) (after front).healed).1 =
      .ok (if (after front).cluster.mark r.key = some true then .deleted else .skipped)) ∧
    ((∀ front, front <+: rs → (after front).cluster.mark r.key = some true) ↔
      ∀ front d, front ++ [d] <+: rs →
        (run (Manifest.apply d) (after front)).1.toBool = true → d.KeepsTag) := by
  intro after
  obtain ⟨t, hrun⟩ := runs_run (Manifest.apply r) w
  have happlied := mark_apply hc hr hrun
  rw [hcreated] at hrun happlied
  have habsent : w.cluster.mark r.key = none := by
    rw [Cluster.mark, absent_of_created hrun]
    rfl
  rw [habsent] at happlied
  obtain ⟨hfiled, hmark⟩ := happlied
  have hreached : ∀ {front : List Resource}, front <+: rs →
      (after front).cluster.Filed ∧ ∃ b, (after front).cluster.mark r.key = some b := fun h =>
    reapplied_marked hfiled hmark _ fun d hd => hrs d (h.subset hd)
  have hstep : ∀ {front : List Resource} {d : Resource}, front ++ [d] <+: rs →
      (after (front ++ [d])).cluster.mark r.key =
        if (run (Manifest.apply d) (after front)).1.toBool then
          some (((after front).cluster.mark r.key).elim true d.tagAfter)
        else (after front).cluster.mark r.key := by
    intro front d h
    obtain ⟨hd, hkey⟩ := hrs d (h.subset (List.mem_append_right _ List.mem_cons_self))
    exact (mark_reapplied_concat (hreached ((List.prefix_append _ _).trans h)).1 hd hkey).2
  refine ⟨fun front h => ?_, fun htagged front d h hdone => ?_, fun hkeeps front => ?_⟩
  · obtain ⟨b, hb⟩ := (hreached h).2
    obtain ⟨t', hdelete⟩ := runs_run (Manifest.delete r) (after front).healed
    have hcalm : (after front).healed.Calm := ⟨rfl, rfl⟩
    have hb' : (after front).healed.cluster.mark r.key = some b := hb
    rw [delete_marked hcalm hb' hdelete, hb]
    cases b <;> rfl
  · have hbefore := htagged front ((List.prefix_append _ _).trans h)
    have hnow := hstep h
    rw [htagged _ h, if_pos hdone, hbefore] at hnow
    exact Resource.keepsTag_iff.2 (Option.some.inj hnow).symm
  · induction front using List.reverseRecOn with
    | nil => exact fun _ => hmark
    | append_singleton front d ih =>
      intro h
      rw [hstep h, ih ((List.prefix_append _ _).trans h)]
      split
      · next hdone => exact congrArg some (Resource.keepsTag_iff.1 (hkeeps front d h hdone))
      · rfl

end Manifest

/-! ## A config map with annotations -/

namespace Annotated

/-- A config map with a value and with annotations, if there are any. -/
def config (value : String) (annotations? : Option Json) : Resource := ⟨[("apiVersion", .str "v1"),
  ("data", .obj [("a", .str value)]), ("kind", .str "ConfigMap"),
  ("metadata", .obj ((annotations?.map fun x => ("annotations", x)).toList ++
    [("name", .str "c"), ("namespace", .str "n")]))]⟩

def first : Resource := config "1" none

def later : List Resource :=
  [config "2" (some (.obj [("team", .str "networking")])),
    config "3" (some (.obj [("manifestival", .str "new")])), config "4" none]

theorem proper : ∀ r ∈ first :: later, r.Proper := by
  have hvalid : ∀ r ∈ first :: later, Resource.ofJson r.toJson = .ok r := by
    simp only [later, List.forall_mem_cons, List.not_mem_nil, false_imp_iff, implies_true, and_true]
    exact ⟨rfl, rfl, rfl, rfl⟩
  have hwellFormed : ∀ r ∈ first :: later, r.toJson.WellFormed := by
    simp only [first, later, config, List.forall_mem_cons, List.not_mem_nil, false_imp_iff,
      implies_true, and_true, Option.map_some, Option.map_none, Option.toList_some,
      Option.toList_none, List.cons_append, List.nil_append, Resource.toJson, Json.WellFormed,
      Json.WellFormedMembers, Table.Sorted]
    decide
  exact fun r hr => ⟨.of_wellFormed (hwellFormed r hr), hvalid r hr⟩

end Annotated

namespace Manifest

/-- The config map stays tagged while other annotations come and go, and is deleted then. -/
theorem created_stays_tagged_later :
    (run (Manifest.apply Annotated.first) {}).1 = .ok .created ∧
      ∀ front, front <+: Annotated.later →
        let w := (run (Manifest.apply Annotated.first) {}).2.reapplied front
        w.cluster.mark Annotated.first.key = some true ∧
          (run (Manifest.delete Annotated.first) w.healed).1 = .ok .deleted := by
  have hcreated : (run (Manifest.apply Annotated.first) {}).1 = .ok .created := by decide +kernel
  have hfiled : ({} : Rehearsal).cluster.Filed := by rintro key r ⟨⟩
  obtain ⟨hfirst, hlater⟩ := List.forall_mem_cons.1 Annotated.proper
  have hkeys : ∀ d ∈ Annotated.later, d.key = Annotated.first.key := by decide
  have hkeeps : ∀ d ∈ Annotated.later, d.tagAfter true = true := by decide
  obtain ⟨hdelete, htagged⟩ :=
    created_stays_tagged hfiled hfirst (fun d hd => ⟨hlater d hd, hkeys d hd⟩) hcreated
  refine ⟨hcreated, fun front hfront => ?_⟩
  have hmark := htagged.2 (fun _ d h _ => Resource.keepsTag_iff.2 <|
    hkeeps d (h.subset (List.mem_append_right _ List.mem_cons_self))) front hfront
  refine ⟨hmark, ?_⟩
  rw [hdelete front hfront, if_pos hmark]

/-- **Annotations that are null take the tag away.** The config map was created by the operator, but
after it was applied with null annotations the operator does not delete it any more. -/
theorem null_annotations_untag :
    let null := Annotated.config "2" (some .null)
    let created := run (Manifest.apply Annotated.first) {}
    let updated := run (Manifest.apply null) created.2
    Resource.ofJson null.toJson = .ok null ∧ null.key = Annotated.first.key ∧
      created.1 = .ok .created ∧ updated.1 = .ok .updated ∧
      updated.2.cluster.mark null.key = some false ∧
      (run (Manifest.delete null) updated.2).1 = .ok .skipped :=
  ⟨rfl, by decide, by decide +kernel, by decide +kernel, by decide +kernel, by decide +kernel⟩

end Manifest

end ReleaseKeeper
