import Mathlib.Data.Set.Insert
import ReleaseKeeper.Proofs.Cluster.Members
import ReleaseKeeper.Proofs.Cluster.Rehearsal

/-!
# What can happen to a cluster

Whoever sets a cluster up puts objects there, lets writes to chosen keys fail or go through again, and
has the recorded writes forgotten; all else are calls that create, replace and delete (`Event`). What
one event does if it goes through is written down in `Event.Took`; if it does not, the cluster is as
before (`Event.happen_cases`).

So through any series of events every object lies under its own key, versions only grow, and the
recorded writes tell which keys came and went (`store_after_events`).
-/
namespace ReleaseKeeper

open Operation Rehearsal

namespace Cluster

/-- What can happen to a cluster. -/
inductive Event where
  /-- An object is put there by whoever sets the cluster up. -/
  | insert (r : Resource)
  | create (r : Resource)
  | update (r : Resource)
  | delete (key : ResourceKey)
  /-- Writes to a key fail from now on. -/
  | failOn (key : ResourceKey) (detail : String)
  /-- They go through again. -/
  | heal (key : ResourceKey)
  /-- The recorded writes are forgotten. -/
  | clearWrites

/-- The keys that have objects. -/
def keys (c : Cluster) : Set ResourceKey := {key | (c.object? key).isSome = true}

end Cluster

/-- What a recorded write makes of the keys that have objects. -/
def Write.replay (keys : Set ResourceKey) : Write → Set ResourceKey
  | create key => insert key keys
  | update _ => keys
  | delete key => keys \ {key}

/-- An object as it is stored: as it was given, but for its version, and with a uid where it had
none. -/
structure Resource.StoredAs (version : Nat) (given stored : Resource) : Prop where
  members : ∀ key, key ≠ "metadata" → stored.members.lookup key = given.members.lookup key
  metadata : ∃ m m', given.members.lookup "metadata" = some (.obj m) ∧
    stored.members.lookup "metadata" = some (.obj m') ∧
    (∀ key, key ≠ "resourceVersion" → key ≠ "uid" → m'.lookup key = m.lookup key) ∧
    m'.lookup "resourceVersion" = some (.str (toString version)) ∧
    m'.lookup "uid" = some ((m.lookup "uid").getD (.str s!"uid-{version}"))

namespace Resource

/-- What is stored is the object as it was given. -/
theorem storedAs_stamp {r : Resource} (hr : ofJson r.toJson = .ok r) (version : Nat) :
    r.StoredAs version (Cluster.stamp version r) := by
  have hname : (Cluster.stamp version r).name = r.name := (key_eq_iff.1 (key_stamp version r)).2.2.2
  have hstored := lookup_metadata_stamp version r
  refine ⟨fun key hkey => lookup_stamp version r hkey, r.metadata, _,
    lookup_metadata (name_ne_of_valid hr), lookup_metadata (hname ▸ name_ne_of_valid hr), ?_, ?_, ?_⟩
  · intro key hversion huid
    rw [hstored, if_neg hversion, if_neg huid]
  · rw [hstored, if_pos rfl]
  · rw [hstored, if_neg (by decide), if_pos rfl]

theorem textAt?_stamp (version : Nat) (r : Resource) :
    (Cluster.stamp version r).textAt? ["metadata", "resourceVersion"] = some (toString version) := by
  have hversion := lookup_metadata_stamp version r "resourceVersion"
  rw [if_pos rfl] at hversion
  rw [textAt?_metadata]
  exact congrArg (·.bind Json.asStr?) hversion

end Resource

namespace Cluster.Event

variable {e : Event} {w : Rehearsal} {c c' : Cluster} {r : Resource} {key : ResourceKey}

/-- What an event comes to, and what it leaves. -/
def happen : Event → Rehearsal → Except Error Unit × Rehearsal
  | insert r, w => (.ok (), { w with cluster := w.cluster.insert r })
  | create r, w => run (Operation.create r) w
  | update r, w => run (Operation.update r) w
  | delete key, w => run (Operation.delete key) w
  | failOn key detail, w => (.ok (), { w with cluster := w.cluster.failOn key detail })
  | heal key, w => (.ok (), { w with cluster := w.cluster.heal key })
  | clearWrites, w => (.ok (), { w with cluster := w.cluster.clearWrites })

/-- What is left after a series of events, whatever each came to. -/
def series (w : Rehearsal) (events : List Event) : Rehearsal :=
  events.foldl (fun w e => (e.happen w).2) w

/-- An event stores an object, and is recorded as a write. -/
inductive Stores : Event → Resource → Write → Prop
  | create (r : Resource) : Stores (create r) r (.create r.key)
  | update (r : Resource) : Stores (update r) r (.update r.key)

/-- An event stores an object under a version. -/
def Stamps (e : Event) (w : Rehearsal) (version : Nat) : Prop :=
  ∃ r write x, e.Stores r write ∧ (e.happen w).1 = .ok () ∧
    (e.happen w).2.cluster.object? r.key = some x ∧
    x.textAt? ["metadata", "resourceVersion"] = some (toString version)

/-- An event that is recorded if it changes which keys have objects. -/
def Recorded : Event → Prop
  | insert _ | clearWrites => False
  | _ => True

/-- What an event does that goes through, and what it finds there. -/
inductive Took : Event → Cluster → Cluster → Prop
  | insert (r : Resource) (c : Cluster) : Took (insert r) c (c.insert r)
  | created {r : Resource} {c : Cluster} (absent : c.object? r.key = none) :
    Took (create r) c (c.store (.create r.key) r)
  | updated {r : Resource} {c : Cluster} (present : (c.object? r.key).isSome = true) :
    Took (update r) c (c.store (.update r.key) r)
  | deleted {key : ResourceKey} {c : Cluster} (present : (c.object? key).isSome = true) :
    Took (delete key) c
      { c with objects := Table.drop key c.objects, writes := c.writes ++ [.delete key] }
  | failOn (key : ResourceKey) (detail : String) (c : Cluster) :
    Took (failOn key detail) c (c.failOn key detail)
  | heal (key : ResourceKey) (c : Cluster) : Took (heal key) c (c.heal key)
  | clearWrites (c : Cluster) : Took clearWrites c c.clearWrites

/-! ## One event -/

theorem run_ask (hw : w.outages = []) (c : Call) : run (ask c) w = (w.noted c []).perform c := by
  have hanswered : world w c (run (ask c) w).1 (run (ask c) w).2 := rfl
  exact (world_of_calm hw hanswered).symm

/-- An event that goes through does what it stands for, any other leaves the cluster as it was. -/
theorem happen_cases (hw : w.outages = []) (e : Event) :
    (e.happen w).2.outages = [] ∧
      ((∃ err, (e.happen w).1 = .error err) ∧ (e.happen w).2.cluster = w.cluster ∨
        (e.happen w).1 = .ok () ∧ e.Took w.cluster (e.happen w).2.cluster) := by
  have hkeep : ∀ {changed : Except Error Cluster} (c : Call),
      (∀ cluster, changed = .ok cluster → e.Took w.cluster cluster) →
      let went := (w.noted c []).keepCluster changed
      went.2.outages = [] ∧ ((∃ err, went.1 = .error err) ∧ went.2.cluster = w.cluster ∨
        went.1 = .ok () ∧ e.Took w.cluster went.2.cluster) := by
    intro changed c htook
    cases changed with
    | error err => exact ⟨rfl, .inl ⟨⟨err, rfl⟩, rfl⟩⟩
    | ok cluster => exact ⟨rfl, .inr ⟨rfl, htook cluster rfl⟩⟩
  cases e with
  | insert r => exact ⟨hw, .inr ⟨rfl, .insert r _⟩⟩
  | failOn key detail => exact ⟨hw, .inr ⟨rfl, .failOn key detail _⟩⟩
  | heal key => exact ⟨hw, .inr ⟨rfl, .heal key _⟩⟩
  | clearWrites => exact ⟨hw, .inr ⟨rfl, .clearWrites _⟩⟩
  | create r =>
    rw [happen, Operation.create, run_ask hw]
    refine hkeep _ fun cluster hok => ?_
    obtain ⟨-, habsent, rfl⟩ := create_ok_iff.1 hok
    exact .created habsent
  | update r =>
    rw [happen, Operation.update, run_ask hw]
    refine hkeep _ fun cluster hok => ?_
    obtain ⟨-, hpresent, rfl⟩ := update_ok_iff.1 hok
    exact .updated hpresent
  | delete key =>
    rw [happen, Operation.delete, run_ask hw]
    refine hkeep _ fun cluster hok => ?_
    obtain ⟨-, hpresent, rfl⟩ := delete_ok_iff.1 hok
    exact .deleted hpresent

theorem happen_error (hw : w.outages = []) {err : Error} (h : (e.happen w).1 = .error err) :
    (e.happen w).2.cluster = w.cluster := by
  obtain ⟨-, ⟨-, hkept⟩ | ⟨hok, -⟩⟩ := happen_cases hw e
  · exact hkept
  · rw [hok] at h
    cases h

/-- Exactly what is not there can be created, unless writes to its key fail. -/
theorem create_ok (hw : w.outages = []) : ((create r).happen w).1 = .ok () ↔
    w.cluster.failures.lookup r.key = none ∧ w.cluster.object? r.key = none := by
  rw [happen, Operation.create, run_ask hw]
  refine keepCluster_ok_iff.trans ?_
  simp [noted, create_ok_iff]

/-- Exactly what is there can be replaced, unless writes to its key fail. -/
theorem update_ok (hw : w.outages = []) : ((update r).happen w).1 = .ok () ↔
    w.cluster.failures.lookup r.key = none ∧ (w.cluster.object? r.key).isSome = true := by
  rw [happen, Operation.update, run_ask hw]
  refine keepCluster_ok_iff.trans ?_
  simp [noted, update_ok_iff]

/-- Exactly what is there can be deleted, unless writes to its key fail. -/
theorem delete_ok (hw : w.outages = []) : ((delete key).happen w).1 = .ok () ↔
    w.cluster.failures.lookup key = none ∧ (w.cluster.object? key).isSome = true := by
  rw [happen, Operation.delete, run_ask hw]
  refine keepCluster_ok_iff.trans ?_
  simp [noted, delete_ok_iff]

/-- What creates or replaces an object and goes through stores it, and records that. -/
theorem Stores.happen (hw : w.outages = []) {write : Write} (h : e.Stores r write)
    (hok : (e.happen w).1 = .ok ()) : (e.happen w).2.cluster = w.cluster.store write r := by
  obtain ⟨-, ⟨⟨err, hfailed⟩, -⟩ | ⟨-, htook⟩⟩ := happen_cases hw e
  · rw [hok] at hfailed
    cases hfailed
  · generalize (e.happen w).2.cluster = c' at htook ⊢
    cases h <;> cases htook <;> rfl

/-- Different versions are written differently. -/
theorem eq_of_toString {m n : Nat} (h : toString m = toString n) : m = n := by
  have hdigits : Nat.toDigits 10 m = Nat.toDigits 10 n := by
    simpa [Nat.toList_repr] using congrArg String.toList h
  rw [← Nat.ofDigitChars_ten_toDigits (n := m), hdigits, Nat.ofDigitChars_ten_toDigits]

/-- The version under which an object is stored is that of the cluster. -/
theorem Stamps.version_eq (hw : w.outages = []) {version : Nat} (h : e.Stamps w version) :
    version = (e.happen w).2.cluster.version := by
  obtain ⟨r, write, x, hstores, hok, hx, htext⟩ := h
  have hcluster := hstores.happen hw hok
  rw [hcluster, object?_store, if_pos rfl] at hx
  obtain rfl := Option.some.inj hx
  rw [Resource.textAt?_stamp] at htext
  rw [hcluster]
  exact (eq_of_toString (Option.some.inj htext)).symm

/-- What is deleted and was there is gone, which is recorded; all other objects are as before. -/
theorem deleted (hw : w.outages = []) (hok : ((delete key).happen w).1 = .ok ()) :
    ((delete key).happen w).2.cluster.writes = w.cluster.writes ++ [.delete key] ∧
      ((delete key).happen w).2.cluster.version = w.cluster.version ∧
      ∀ j, ((delete key).happen w).2.cluster.object? j =
        if j = key then none else w.cluster.object? j := by
  obtain ⟨-, ⟨⟨err, hfailed⟩, -⟩ | ⟨-, htook⟩⟩ := happen_cases hw (delete key)
  · rw [hok] at hfailed
    cases hfailed
  · generalize ((delete key).happen w).2.cluster = c' at htook ⊢
    cases htook with
    | deleted => exact ⟨rfl, rfl, fun j => Table.lookup_drop key j _⟩

theorem Took.filed (h : e.Took c c') (hc : ∀ x ∈ c.objects, x.2.key = x.1) :
    ∀ x ∈ c'.objects, x.2.key = x.1 := by
  have hput : ∀ {x : Resource} (r : Resource), x.key = r.key →
      ∀ y ∈ Table.put r.key x c.objects, y.2.key = y.1 := by
    intro x r hkey y hy
    obtain rfl | hy := Table.mem_put hy
    · exact hkey
    · exact hc y hy
  cases h with
  | insert r => exact hput r rfl
  | created | updated => exact hput _ (Resource.key_stamp _ _)
  | deleted => exact fun x hx => hc x (List.mem_filter.1 hx).1
  | _ => exact hc

theorem Took.version_le (h : e.Took c c') : c.version ≤ c'.version := by
  cases h with
  | created | updated => exact Nat.le_succ _
  | _ => exact Nat.le_refl _

theorem keys_store (write : Write) (r : Resource) (c : Cluster) :
    (c.store write r).keys = Insert.insert r.key c.keys := by
  ext key
  simp only [keys, Set.mem_ofPred_eq, Set.mem_insert_iff, object?_store]
  split <;> simp [*]

/-- The recorded writes tell which keys came and went. -/
theorem Took.replay (h : e.Took c c') (hrecorded : e.Recorded) : ∃ writes,
    c'.writes = c.writes ++ writes ∧ c'.keys = writes.foldl Write.replay c.keys := by
  cases h with
  | created => exact ⟨[_], rfl, keys_store _ _ _⟩
  | updated present =>
    exact ⟨[_], rfl, (keys_store _ _ _).trans (Set.insert_eq_of_mem present)⟩
  | @deleted key _ present =>
    refine ⟨[_], rfl, ?_⟩
    ext j
    have hdrop := Table.lookup_drop key j c.objects
    simp only [keys, object?, hdrop, Set.mem_ofPred_eq, List.foldl_cons, List.foldl_nil,
      Write.replay, Set.mem_sdiff, Set.mem_singleton_iff]
    split <;> simp [*]
  | failOn | heal => exact ⟨[], (List.append_nil _).symm, rfl⟩
  | insert | clearWrites => exact hrecorded.elim

/-! ## A series of events -/

/-- What every event keeps that goes through holds after all of them. -/
theorem series_invariant {P : Cluster → Prop} {events : List Event}
    (hstep : ∀ e ∈ events, ∀ {c c'}, e.Took c c' → P c → P c') (hw : w.outages = [])
    (hP : P w.cluster) : (series w events).outages = [] ∧ P (series w events).cluster := by
  induction events generalizing w with
  | nil => exact ⟨hw, hP⟩
  | cons e rest ih =>
    obtain ⟨he, hrest⟩ := List.forall_mem_cons.1 hstep
    obtain ⟨houtages, ⟨-, hkept⟩ | ⟨-, htook⟩⟩ := happen_cases hw e
    · exact ih hrest houtages (hkept ▸ hP)
    · exact ih hrest houtages (he htook hP)

theorem series_append (w : Rehearsal) (before behind : List Event) :
    series w (before ++ behind) = series (series w before) behind := List.foldl_append

theorem series_cons (w : Rehearsal) (e : Event) (rest : List Event) :
    series w (e :: rest) = series (e.happen w).2 rest := rfl

theorem outages_series (hw : w.outages = []) (events : List Event) :
    (series w events).outages = [] :=
  (series_invariant (P := fun _ => True) (fun _ _ _ _ _ h => h) hw trivial).1

theorem version_le_series (hw : w.outages = []) (events : List Event) :
    w.cluster.version ≤ (series w events).cluster.version :=
  (series_invariant (P := fun c => w.cluster.version ≤ c.version)
    (fun _ _ _ _ htook hle => hle.trans htook.version_le) hw (Nat.le_refl _)).2

/-- What was stored before has no later version than the cluster. -/
theorem Stamps.le_series (hw : w.outages = []) {version : Nat} {before later : List Event}
    (h : e.Stamps (series w before) version) :
    version ≤ (series w (before ++ e :: later)).cluster.version := by
  have hbefore := outages_series hw before
  rw [h.version_eq hbefore, series_append, series_cons]
  exact version_le_series (happen_cases hbefore e).1 later

theorem filed_series (hw : w.outages = []) (hc : ∀ x ∈ w.cluster.objects, x.2.key = x.1)
    (events : List Event) : ∀ x ∈ (series w events).cluster.objects, x.2.key = x.1 :=
  (series_invariant (P := fun c => ∀ x ∈ c.objects, x.2.key = x.1)
    (fun _ _ _ _ htook => htook.filed) hw hc).2

/-- **The recorded writes tell which keys came and went** as long as nobody sets objects up or has
the writes forgotten. -/
theorem replay_series (hw : w.outages = []) {events : List Event} (h : ∀ e ∈ events, e.Recorded) :
    ∃ writes, (series w events).cluster.writes = w.cluster.writes ++ writes ∧
      (series w events).cluster.keys = writes.foldl Write.replay w.cluster.keys := by
  refine (series_invariant (P := fun c => ∃ writes, c.writes = w.cluster.writes ++ writes ∧
    c.keys = writes.foldl Write.replay w.cluster.keys) ?_ hw ⟨[], ?_, rfl⟩).2
  · rintro e he c c' htook ⟨done, hdone, hkeys⟩
    obtain ⟨writes, hwrites, hkeys'⟩ := htook.replay (h e he)
    refine ⟨done ++ writes, ?_, ?_⟩
    · rw [hwrites, hdone, List.append_assoc]
    · rw [hkeys', hkeys, List.foldl_append]
  · exact (List.append_nil _).symm

/-- **What an empty cluster is after any series of events.** Every object lies under its own key. A
call that fails changes nothing. What creates or replaces an object and goes through records that,
and stores the object as it was given, under a version later than all before; it changes no other
object. What is deleted is gone, and that is recorded, with no other object and no version changed.
Only what is not there can be created, only what is there replaced and deleted. And as long as
nobody sets objects up or has the writes forgotten, the recorded writes tell which keys came and
went. -/
theorem store_after_events (events : List Event) :
    let w := series {} events
    (∀ x ∈ w.cluster.objects, x.2.key = x.1) ∧
    (∀ e err, (happen e w).1 = .error err → (happen e w).2.cluster = w.cluster) ∧
    (∀ e r write, e.Stores r write → Resource.ofJson r.toJson = .ok r → (happen e w).1 = .ok () →
      let c := (happen e w).2.cluster
      c.writes = w.cluster.writes ++ [write] ∧
      (∀ key, key ≠ r.key → c.object? key = w.cluster.object? key) ∧
      ∃ version stored, c.object? r.key = some stored ∧ r.StoredAs version stored ∧
        ∀ before e' later, events = before ++ e' :: later →
          ∀ earlier, e'.Stamps (series {} before) earlier → earlier < version) ∧
    (∀ key, (happen (delete key) w).1 = .ok () →
      let c := (happen (delete key) w).2.cluster
      c.writes = w.cluster.writes ++ [.delete key] ∧ c.version = w.cluster.version ∧
      ∀ j, c.object? j = if j = key then none else w.cluster.object? j) ∧
    (∀ r, (happen (create r) w).1 = .ok () ↔
      w.cluster.failures.lookup r.key = none ∧ w.cluster.object? r.key = none) ∧
    (∀ r, (happen (update r) w).1 = .ok () ↔
      w.cluster.failures.lookup r.key = none ∧ (w.cluster.object? r.key).isSome = true) ∧
    (∀ key, (happen (delete key) w).1 = .ok () ↔
      w.cluster.failures.lookup key = none ∧ (w.cluster.object? key).isSome = true) ∧
    ∀ stretch, (∀ e ∈ stretch, e.Recorded) → ∃ writes,
      (series w stretch).cluster.writes = w.cluster.writes ++ writes ∧
      (series w stretch).cluster.keys = writes.foldl Write.replay w.cluster.keys := by
  intro w
  have hw : w.outages = [] := outages_series rfl events
  have hfiled : ∀ x ∈ w.cluster.objects, x.2.key = x.1 :=
    filed_series rfl (fun _ hx => absurd hx List.not_mem_nil) events
  refine ⟨hfiled, fun e err => happen_error hw, ?_, fun key => deleted hw, fun r => create_ok hw,
    fun r => update_ok hw, fun key => delete_ok hw, fun stretch => replay_series hw⟩
  intro e r write hstores hr hok c
  have hc : c = w.cluster.store write r := hstores.happen hw hok
  refine ⟨congrArg writes hc, ?_, w.cluster.version + 1, Cluster.stamp (w.cluster.version + 1) r, ?_,
    Resource.storedAs_stamp hr _, ?_⟩
  · intro key hkey
    rw [hc, object?_store, if_neg hkey]
  · rw [hc, object?_store, if_pos rfl]
  · rintro before e' later rfl earlier hearlier
    exact Nat.lt_succ_of_le (hearlier.le_series rfl)

namespace Again

def ns : Resource where
  members := [("apiVersion", .str "v1"), ("kind", .str "Namespace"),
    ("metadata", .obj [("name", .str "knative-serving")])]

/-- It is created, created again, and replaced. -/
def events : List Event := [create ns, create ns, update ns]

end Again

open Again in
/-- The namespace was stored twice, and could not be created again. It would be replaced under a
third version; it is deleted, so that nothing is left. -/
theorem store_after_events_again :
    let w := series {} events
    w.cluster.writes = [.create ns.key, .update ns.key] ∧ (happen (create ns) w).1 ≠ .ok () ∧
    (∃ version stored, (happen (update ns) w).2.cluster.object? ns.key = some stored ∧
      ns.StoredAs version stored ∧ 2 < version) ∧
    (happen (delete ns.key) w).1 = .ok () ∧
    (happen (delete ns.key) w).2.cluster.writes =
      [.create ns.key, .update ns.key, .delete ns.key] ∧
    (happen (delete ns.key) w).2.cluster.object? ns.key = none := by
  intro w
  obtain ⟨-, -, hstores, hdeletes, hcreate, hupdate, hdelete, -⟩ := store_after_events events
  obtain ⟨hwrites, hheld⟩ : w.cluster.writes = [.create ns.key, .update ns.key] ∧
      (w.cluster.object? ns.key).isSome = true := by decide
  have hdeleted : (happen (delete ns.key) w).1 = .ok () := (hdelete _).2 ⟨rfl, hheld⟩
  obtain ⟨-, -, version, stored, hstored, has, hlater⟩ := hstores (update ns) ns _ (.update ns) rfl
    ((hupdate ns).2 ⟨rfl, hheld⟩)
  have hstamps : (update ns).Stamps (series {} [create ns, create ns]) 2 :=
    ⟨ns, _, Cluster.stamp 2 ns, .update ns, rfl, rfl, by decide⟩
  obtain ⟨hrecorded, -, hobjects⟩ := hdeletes ns.key hdeleted
  refine ⟨hwrites, fun hok => ?_, ⟨version, stored, hstored, has,
    hlater [create ns, create ns] _ [] rfl 2 hstamps⟩, hdeleted, ?_, ?_⟩
  · rw [((hcreate ns).1 hok).2] at hheld
    cases hheld
  · rw [hrecorded, hwrites]
    rfl
  · rw [hobjects, if_pos rfl]

end Cluster.Event

end ReleaseKeeper
