import Mathlib.Data.List.Nodup
import ReleaseKeeper.Proofs.Cluster.Rehearsal
import ReleaseKeeper.Proofs.Manifest.Apply

/-!
# What applying a resource comes to

In a cluster that fails nothing but writes to chosen keys, what applying a resource comes to is a
function of the object that is live under its key and of what is said of writes to that key
(`Cluster.outcome`, `Manifest.apply_steady`). So resources of other keys do not matter: after any of
them was applied it comes to the same (`outcome_congr`) and leaves the same object, but for
the stamp of the server, which counts all writes (`foldl_applied_alone`), and so the order of such
resources does not matter (`foldl_applied_perm`). What an application writes goes by what it comes to
(`writes_applied`).
-/
namespace ReleaseKeeper

/-- Two look-ups that find the same, or what was stored twice at different versions. -/
inductive SameButStamp : Option Resource → Option Resource → Prop
  | same (live? : Option Resource) : SameButStamp live? live?
  | stamped (x : Resource) (version version' : Nat) :
    SameButStamp (some (Cluster.stamp version x)) (some (Cluster.stamp version' x))

/-- What an application writes to the key of its resource. -/
def Manifest.Applied.writes (key : ResourceKey) : Manifest.Applied → List Write
  | created => [.create key]
  | updated => [.update key]
  | unchanged => []

namespace Cluster

/-- What applying a resource to a cluster comes to. Only what has to be written can fail. -/
def outcome (c : Cluster) (r : Resource) : Except Error Manifest.Applied :=
  match c.object? r.key with
  | none => (c.permit r.key).map fun _ => .created
  | some live =>
    if (r.mergeInto live).1 then (c.permit r.key).map fun _ => .updated else .ok .unchanged

variable {c c' : Cluster} {r : Resource} {key : ResourceKey}

/-! ## Writes that fail -/

theorem permit_eq_error {e : Error} : c.permit key = .error e ↔
    ∃ detail, c.failures.lookup key = some detail ∧ e = .internal "fake-cluster" detail := by
  rw [permit]
  cases c.failures.lookup key with
  | none => simp
  | some detail => simp [eq_comm]

/-- What is not there is created, unless writes to its key fail. -/
theorem create_of_absent {x : Resource} (h : c.object? x.key = none) :
    c.create x = (c.permit x.key).map fun _ => c.store (.create x.key) x := by
  rw [create, h]
  cases c.permit x.key <;> rfl

/-- What is there is replaced, unless writes to its key fail. -/
theorem update_of_present {x : Resource} (h : (c.object? x.key).isSome = true) :
    c.update x = (c.permit x.key).map fun _ => c.store (.update x.key) x := by
  rw [update]
  cases hlive : c.object? x.key with
  | none => simp [hlive] at h
  | some live => cases c.permit x.key <;> rfl

/-- **A resource cannot be applied** exactly if something has to be written to a key whose writes
fail, and then it fails as the cluster says. -/
theorem outcome_eq_error {e : Error} : c.outcome r = .error e ↔
    ¬ c.Holds r ∧ ∃ detail, c.failures.lookup r.key = some detail ∧
      e = .internal "fake-cluster" detail := by
  have hmap : ∀ done : Manifest.Applied,
      (c.permit r.key).map (fun _ => done) = .error e ↔ c.permit r.key = .error e := by
    intro done
    cases c.permit r.key <;> simp [Except.map]
  rw [← permit_eq_error, outcome]
  cases hlive : c.object? r.key with
  | none => simp [hmap, Holds, hlive]
  | some live => cases hflag : (r.mergeInto live).1 <;> simp [hmap, Holds, hlive, hflag]

/-- Where there is nothing to be written, writes that fail do not matter. -/
theorem outcome_of_holds (h : c.Holds r) : c.outcome r = .ok .unchanged := by
  obtain ⟨live, hlive, hflag⟩ := h
  simp [outcome, hlive, hflag]

/-- Where no write fails, every resource can be applied. -/
theorem outcome_of_calm (h : c.failures = []) (r : Resource) : ∃ done, c.outcome r = .ok done := by
  cases houtcome : c.outcome r with
  | ok done => exact ⟨done, rfl⟩
  | error e =>
    obtain ⟨-, detail, hdetail, -⟩ := outcome_eq_error.1 houtcome
    rw [h] at hdetail
    cases hdetail

/-- The outcome depends on what is live under the key and on the writes that fail. -/
theorem outcome_congr (hobject : c'.object? r.key = c.object? r.key)
    (hfailures : c'.failures = c.failures) : c'.outcome r = c.outcome r := by
  rw [outcome, outcome, hobject, permit, permit, hfailures]

@[simp] theorem failures_applied (c : Cluster) (r : Resource) :
    (c.applied r).failures = c.failures := by
  rw [applied]
  cases c.object? r.key with
  | none => rfl
  | some live => cases hflag : (r.mergeInto live).1 <;> simp [hflag, store]

/-- **What an application writes** it writes to the key of its resource, once, unless it changes
nothing. -/
theorem writes_applied {done : Manifest.Applied} (hc : c.Filed) (hr : r.Proper)
    (h : c.outcome r = .ok done) : (c.applied r).writes = c.writes ++ done.writes r.key := by
  have hmap : ∀ came : Manifest.Applied,
      (c.permit r.key).map (fun _ => came) = .ok done → came = done := by
    intro came hcame
    cases hpermit : c.permit r.key with
    | error e => rw [hpermit] at hcame; cases hcame
    | ok => rw [hpermit] at hcame; exact Except.ok.inj hcame
  rw [outcome] at h
  rw [applied]
  cases hlive : c.object? r.key with
  | none =>
    rw [hlive] at h
    obtain rfl := hmap _ h
    rw [← Resource.key_tag r]
    rfl
  | some live =>
    rw [hlive] at h
    dsimp only at h ⊢
    cases hflag : (r.mergeInto live).1 with
    | true =>
      rw [hflag, if_pos rfl] at h
      obtain rfl := hmap _ h
      rw [if_pos rfl, ← Resource.key_mergeInto hr.ordered hr.name_ne (hc _ _ hlive)]
      rfl
    | false =>
      rw [hflag, if_neg Bool.false_ne_true] at h
      obtain rfl := Except.ok.inj h
      rw [if_neg Bool.false_ne_true]
      exact (List.append_nil _).symm

/-! ## Resources of other keys -/

/-- What is applied to a key depends on what is live there, but for the stamp. -/
theorem applied_congr (hc : c.Filed) (hr : r.Proper) (h : c'.object? r.key = c.object? r.key) :
    SameButStamp ((c'.applied r).object? r.key) ((c.applied r).object? r.key) := by
  have hstored : ∀ {write write' : Write} {x : Resource}, x.key = r.key →
      SameButStamp ((c'.store write x).object? r.key) ((c.store write' x).object? r.key) := by
    intro write write' x hkey
    rw [object?_store, object?_store, if_pos hkey.symm, if_pos hkey.symm]
    exact .stamped x _ _
  rw [applied, applied, h]
  cases hlive : c.object? r.key with
  | none => exact hstored (Resource.key_tag r)
  | some live =>
    dsimp only
    split
    · exact hstored (Resource.key_mergeInto hr.ordered hr.name_ne (hc _ _ hlive))
    · rw [h, hlive]
      exact .same _

/-- Of resources of different keys each is applied to what was live under its key at first, and the
others leave what it makes of that. -/
theorem exists_applied_among {rs : List Resource} (hc : c.Filed) (hrs : ∀ r ∈ rs, r.Proper)
    (hkeys : (rs.map Resource.key).Nodup) (hr : r ∈ rs) :
    ∃ c' : Cluster, c'.Filed ∧ c'.object? r.key = c.object? r.key ∧
      (rs.foldl applied c).object? r.key = (c'.applied r).object? r.key := by
  obtain ⟨before, behind, rfl⟩ := List.append_of_mem hr
  rw [List.forall_mem_append, List.forall_mem_cons] at hrs
  obtain ⟨hbefore, hproper, hbehind⟩ := hrs
  rw [List.map_append, List.map_cons, List.nodup_middle, List.nodup_cons, List.mem_append,
    not_or] at hkeys
  have hfiled : (before.foldl applied c).Filed := filed_foldl_applied hc hbefore
  refine ⟨before.foldl applied c, hfiled, object?_foldl_applied_of_proper hc hbefore hkeys.1.1, ?_⟩
  rw [List.foldl_append, List.foldl_cons,
    object?_foldl_applied_of_proper (filed_applied hfiled hproper) hbehind hkeys.1.2]

/-- **What is applied among resources of other keys** is what is applied alone, but for the stamp. -/
theorem foldl_applied_alone {rs : List Resource} (hc : c.Filed) (hrs : ∀ r ∈ rs, r.Proper)
    (hkeys : (rs.map Resource.key).Nodup) (hr : r ∈ rs) :
    SameButStamp ((rs.foldl applied c).object? r.key) ((c.applied r).object? r.key) := by
  obtain ⟨c', -, hlive, heq⟩ := exists_applied_among hc hrs hkeys hr
  rw [heq]
  exact applied_congr hc (hrs r hr) hlive

/-- **The order of resources of different keys does not matter**, but for the stamp. -/
theorem foldl_applied_perm {rs order : List Resource} (hc : c.Filed) (hrs : ∀ r ∈ rs, r.Proper)
    (hkeys : (rs.map Resource.key).Nodup) (h : order.Perm rs) :
    SameButStamp ((order.foldl applied c).object? key) ((rs.foldl applied c).object? key) := by
  have horder : ∀ r ∈ order, r.Proper := fun r hr => hrs r (h.mem_iff.1 hr)
  have hkeys' : (order.map Resource.key).Nodup := (h.map _).nodup_iff.2 hkeys
  by_cases hkey : key ∈ rs.map Resource.key
  · obtain ⟨r, hr, rfl⟩ := List.mem_map.1 hkey
    obtain ⟨c₁, hc₁, hlive₁, heq₁⟩ := exists_applied_among hc hrs hkeys hr
    obtain ⟨c₂, -, hlive₂, heq₂⟩ := exists_applied_among hc horder hkeys' (h.mem_iff.2 hr)
    rw [heq₁, heq₂]
    exact applied_congr hc₁ (hrs r hr) (hlive₂.trans hlive₁.symm)
  · have hkey' : key ∉ order.map Resource.key := fun hmem => hkey ((h.map _).mem_iff.1 hmem)
    rw [object?_foldl_applied_of_proper hc horder hkey',
      object?_foldl_applied_of_proper hc hrs hkey]
    exact .same _

end Cluster

end ReleaseKeeper
