import ReleaseKeeper.Proofs.Transform.Owner
import ReleaseKeeper.Proofs.Transform.Pods

/-!
# A pipeline settles in one go

What a pipeline has made of a resource it leaves as it is (`Pipeline.apply_again`). Every change that it
makes settles by itself. That they settle one behind the other takes that no change undoes what an
earlier one has settled (`Settling`), and this is where the kinds come in: what is changed of one
resource are different members, or different entries of its pod. Only the data of a config map are
written more than once, by the instance and by platforms; there all writes make one
(`exists_putData`), and the last of them counts.
-/
namespace ReleaseKeeper

open Json (withItems)

namespace Resource

theorem traversal_within (key : String) :
    Traversal (fun r : Resource => [Json.objectAt key r.members]) (within key) :=
  traversal_members.comp (Json.traversal_withObject key)

end Resource

namespace Transformer

variable {i : Instance} {r : Resource}

/-! ## Changes of data -/

theorem settles_putData (entries : Dict String) : Settles (putData entries) :=
  (Resource.traversal_within "data").settles fun _ => Table.overlay_overlay _

theorem putData_putData (first second : Dict String) (x : Resource) :
    putData second (putData first x) = putData (first ++ second) x := by
  rw [putData, putData, (Resource.traversal_within "data").update_update, putData]
  refine (Resource.traversal_within "data").update_congr fun entries _ => ?_
  rw [List.map_append, Table.overlay, List.foldl_append]
  rfl

/-- Data that are put one after the other are put at once, if there are any. -/
theorem exists_putData {changes : List (Resource → Resource)}
    (h : ∀ F ∈ changes, ∃ entries, F = putData entries) :
    changes = [] ∨ ∃ entries, carryOut changes = putData entries := by
  induction changes using List.reverseRecOn with
  | nil => exact .inl rfl
  | append_singleton before F ih =>
    obtain ⟨hbefore, hF⟩ := List.forall_mem_append.1 h
    obtain ⟨entries, rfl⟩ := List.forall_mem_singleton.1 hF
    rw [carryOut_append]
    obtain rfl | ⟨first, hfirst⟩ := ih hbefore
    · exact .inr ⟨entries, rfl⟩
    · exact .inr ⟨first ++ entries, by rw [hfirst]; exact funext (putData_putData first entries)⟩

/-! ## Changes of specs -/

theorem settles_putGateway (o : GatewayOverride) : Settles (putGateway o) := by
  have hselector : Writes "selector" (fun _ => if o.selector.isEmpty then none else
      some (Json.ofTexts o.selector)) fun spec => if o.selector.isEmpty then spec
        else Table.put "selector" (Json.ofTexts o.selector) spec := ⟨fun spec => by split <;> rfl⟩
  have hservers : Writes "servers" (fun _ => if o.servers.isEmpty then none else
      some (Json.arr (o.servers.map GatewayServer.toJson))) fun spec => if o.servers.isEmpty then spec
        else Table.put "servers" (Json.arr (o.servers.map GatewayServer.toJson)) spec :=
    ⟨fun spec => by split <;> rfl⟩
  refine (hselector.settles fun _ _ => rfl).comp (hservers.settles fun _ _ => rfl) (.of_commute ?_)
  exact hselector.commute hservers (by decide) (fun _ _ => rfl) fun _ _ => rfl

theorem settles_putCached (registry : Registry) (name : String) :
    Settles fun spec => registry.addPullSecrets (registry.putImage name spec) := by
  have himage := registry.writes_putImage fun _ => name
  obtain ⟨secrets?, hsecrets⟩ := registry.writes_addPullSecrets
  refine (himage.settles fun _ _ => rfl).comp registry.settles_addPullSecrets (.of_commute ?_)
  exact himage.commute hsecrets (by decide) (fun _ _ => rfl) fun x members => by
    rw [Json.itemsAt_put (by decide)]

/-- What is set in one member stays set when another one is dropped. -/
theorem spares_erase {j k : String} (h : j ≠ k) (f : Dict Json → Dict Json) :
    Spares (Resource.erase j) (Resource.within k f) := by
  intro x hx
  have hmembers : Table.put k (.obj (f (Json.objectAt k x.members))) x.members = x.members :=
    congrArg Resource.members hx
  have hobject : Json.objectAt k (Table.drop j x.members) = Json.objectAt k x.members :=
    Json.objectAt_congr (by rw [Table.lookup_drop, if_neg h.symm])
  refine congrArg Resource.mk ?_
  rw [Json.withObject]
  change Table.put k (.obj (f (Json.objectAt k (Table.drop j x.members)))) (Table.drop j x.members) = _
  rw [hobject]
  exact Table.put_drop_of_eq h hmembers

theorem settles_erase (key : String) : Settles (Resource.erase key) := fun x =>
  congrArg Resource.mk (by simp [Resource.erase, Table.drop, List.filter_filter])

/-! ## Changes of resources -/

namespace Change

variable {F G : Resource → Resource}

theorem settles (h : Change i r F) : Settles F := by
  cases h with
  | pod _ h => exact Resource.traversal_mapPodSpec.settles h.settles
  | data => exact settles_putData _
  | gateway => exact (Resource.traversal_within "spec").settles (settles_putGateway _)
  | cachedImage =>
    exact ((Resource.traversal_within "spec").settles (settles_putCached _ _)).comp
      (settles_erase "status") (spares_erase (by decide) _)

/-- Changes of a resource that is no config map spare each other. -/
theorem spares (hF : Change i r F) (hG : Change i r G) (hkind : r.kind ≠ "ConfigMap") :
    Spares G F := by
  cases hF with
  | data h => exact absurd h hkind
  | pod h hf =>
    cases hG with
    | pod _ hg => exact Resource.traversal_mapPodSpec.spares (hf.spares hg)
    | data h' => exact absurd h' hkind
    | gateway h' => simp [h'.1] at h
    | cachedImage h' => simp [h'.1] at h
  | gateway h ho =>
    cases hG with
    | pod h' => simp [h.1] at h'
    | data h' => exact absurd h' hkind
    | gateway _ ho' =>
      obtain rfl := Option.some.inj (ho.symm.trans ho')
      exact .refl _
    | cachedImage h' => simp [h'.1] at h
  | cachedImage h =>
    cases hG with
    | pod h' => simp [h.1] at h'
    | data h' => exact absurd h' hkind
    | gateway h' => simp [h.1] at h'
    | cachedImage => exact .refl _

/-- The data of a config map are all that is written twice. -/
theorem settles_carryOut {changes : List (Resource → Resource)}
    (h : ∀ F ∈ changes, Change i r F) : Settles (carryOut changes) := by
  by_cases hkind : r.kind = "ConfigMap"
  · have hdata : ∀ F ∈ changes, ∃ entries, F = putData entries := by
      intro F hF
      cases h F hF with
      | data _ entries => exact ⟨entries, rfl⟩
      | pod h => simp [hkind] at h
      | gateway h => simp [hkind] at h
      | cachedImage h => simp [hkind] at h
    obtain rfl | ⟨entries, hentries⟩ := exists_putData hdata
    · exact fun x => rfl
    · rw [hentries]
      exact settles_putData entries
  · exact (Settling.of_mutual (fun F hF => (h F hF).settles)
      fun F hF G hG => (h F hF).spares (h G hG) hkind).carryOut

/-- What is changed later leaves the metadata alone. -/
theorem spares_metadata (h : Change i r F) (f : Dict Json → Dict Json) :
    Spares F (Resource.within "metadata" f) := by
  have hmembers : ∀ {f g : Dict Json → Dict Json}, Function.Commute f g → Function.Commute
      (fun x : Resource => (⟨f x.members⟩ : Resource)) fun x => ⟨g x.members⟩ :=
    fun hfg => Resource.traversal_members.commute hfg
  cases h with
  | pod => exact .of_commute (hmembers (Json.commute_adjust_withObject (by decide) _ _)).symm
  | data => exact .of_commute (hmembers (Json.commute_withObject (by decide) _ _))
  | gateway => exact .of_commute (hmembers (Json.commute_withObject (by decide) _ _))
  | cachedImage =>
    exact (spares_erase (by decide) f).comp
      (.of_commute (hmembers (Json.commute_withObject (by decide) _ _)))

end Change

/-! ## Changes of the head -/

theorem settles_putOwner {reference : OwnerReference}
    (h : reference.toJson.refersTo reference.uid = true) : Settles (putOwner reference) := by
  intro xs
  have hothers : ∀ xs : List Json, putOwner reference xs =
      xs.filter (fun x => !x.refersTo reference.uid) ++ [reference.toJson] := fun xs => by
    simp only [putOwner, Json.refersTo_eq]
  rw [hothers, hothers, List.filter_append, List.filter_filter]
  simp [h]

/-! What was moved before is moved as if it had not been. -/

theorem absorbs_moveReference (ns before : String) :
    Absorbs (moveReference ns) (moveReference before) :=
  Json.traversal_mapObject.absorbs fun _ => Table.put_put _ _ _

theorem absorbs_moveSubject (ns before : String) : Absorbs (moveSubject ns) (moveSubject before) := by
  intro subject
  have hkind : (moveReference before subject).getStr? "kind" = subject.getStr? "kind" := by
    cases subject with
    | obj members => simp [moveReference, Json.mapObject, Json.getStr?, Json.get?, Json.asObj?,
        Table.lookup_put]
    | _ => rfl
  by_cases h : subject.getStr? "kind" = some "ServiceAccount"
  · rw [moveSubject, moveSubject, moveSubject, if_pos h, if_pos (hkind.trans h), if_pos h,
      absorbs_moveReference]
  · simp only [moveSubject, if_neg h]

theorem moveWebhook_eq (ns : String) : moveWebhook ns = Json.mapObject (Table.adjust "clientConfig"
    (Json.mapObject (Table.adjust "service" (moveReference ns)))) := by
  funext x
  cases x <;> rfl

theorem absorbs_moveWebhook (ns before : String) : Absorbs (moveWebhook ns) (moveWebhook before) := by
  rw [moveWebhook_eq, moveWebhook_eq]
  exact Json.traversal_mapObject.absorbs <| (Table.traversal_adjust _).absorbs <|
    Json.traversal_mapObject.absorbs <| (Table.traversal_adjust _).absorbs <|
    absorbs_moveReference ns before

/-- References are moved in the same member, wherever they are moved to. -/
theorem absorbs_references {before kind key : String} {f : Json → Json}
    (h : references? before kind = some (key, f)) (ns : String) :
    ∃ g, references? ns kind = some (key, g) ∧ Absorbs g f := by
  obtain ⟨hkind, rfl, rfl⟩ | ⟨hkind, rfl, rfl⟩ | ⟨rfl, rfl, rfl⟩ := references?_eq_some h
  · refine ⟨_, by rw [references?, if_pos hkind], ?_⟩
    exact Json.traversal_mapItems.absorbs (Json.traversal_map.absorbs (absorbs_moveSubject ns before))
  · have hnot : ["ClusterRoleBinding", "RoleBinding"].contains kind = false := by
      simp only [List.contains_eq_mem, decide_eq_true_eq, List.mem_cons, List.not_mem_nil,
        or_false] at hkind
      obtain rfl | rfl := hkind <;> decide
    refine ⟨_, by rw [references?, if_neg (Bool.eq_false_iff.1 hnot), if_pos hkind], ?_⟩
    exact Json.traversal_mapItems.absorbs (Json.traversal_map.absorbs (absorbs_moveWebhook ns before))
  · refine ⟨_, rfl, ?_⟩
    exact Json.traversal_mapObject.absorbs
      ((Table.traversal_adjust _).absorbs (absorbs_moveReference ns before))

theorem settles_references {ns kind key : String} {f : Json → Json}
    (h : references? ns kind = some (key, f)) : Settles f := by
  obtain ⟨g, hg, habsorbs⟩ := absorbs_references h ns
  obtain ⟨-, rfl⟩ := Prod.mk.inj (Option.some.inj (h.symm.trans hg))
  exact habsorbs

namespace HeadChange

variable {H K F : Resource → Resource}

theorem settles (h : HeadChange i r H) : Settles H := by
  cases h with
  | owner _ hreference =>
    exact (Resource.traversal_within "metadata").settles <| (Json.traversal_withItems _).settles <|
      settles_putOwner (ownerReference?_eq_some hreference).2.1
  | place =>
    exact (Resource.traversal_within "metadata").settles fun _ => Table.put_put _ _ _
  | references h =>
    exact Resource.traversal_members.settles
      ((Table.traversal_adjust _).settles (settles_references h))

theorem commute_owner_namespace (f : List Json → List Json) (x : Json) :
    Function.Commute (withItems "ownerReferences" f) (Table.put "namespace" x) := by
  have hput : Writes "namespace" (fun _ => some x) (Table.put "namespace" x) := ⟨fun _ => rfl⟩
  exact (Json.writes_withItems "ownerReferences" f).commute hput (by decide)
    (fun y members => by rw [Json.itemsAt_put (by decide)]) fun _ _ => rfl

/-- References commute with what is set in the metadata. -/
theorem commute_references_metadata {ns kind key : String} {f : Json → Json}
    (h : references? ns kind = some (key, f)) (g : Dict Json → Dict Json) :
    Function.Commute (fun x : Resource => (⟨Table.adjust key f x.members⟩ : Resource))
      (Resource.within "metadata" g) := by
  have hkey : key ≠ "metadata" := by
    rintro rfl
    exact not_mem_headKeys h (by decide)
  exact Resource.traversal_members.commute (Json.commute_adjust_withObject hkey f g)

theorem spares (hH : HeadChange i r H) (hK : HeadChange i r K) : Spares K H := by
  cases hH with
  | owner _ hreference =>
    cases hK with
    | owner _ hreference' =>
      obtain rfl := Option.some.inj (hreference.symm.trans hreference')
      exact .refl _
    | place =>
      exact (Resource.traversal_within "metadata").spares (.of_commute (commute_owner_namespace _ _))
    | references h => exact .of_commute (commute_references_metadata h _).symm
  | place =>
    cases hK with
    | owner =>
      exact (Resource.traversal_within "metadata").spares
        (.of_commute (commute_owner_namespace _ _).symm)
    | place => exact .refl _
    | references h => exact .of_commute (commute_references_metadata h _).symm
  | references h =>
    cases hK with
    | owner => exact .of_commute (commute_references_metadata h _)
    | place => exact .of_commute (commute_references_metadata h _)
    | references h' =>
      obtain ⟨rfl, rfl⟩ := Prod.mk.inj (Option.some.inj (h.symm.trans h'))
      exact .refl _

/-- What is changed later spares the head: no resource that has references is changed later. -/
theorem spares_change (hH : HeadChange i r H) (hF : Change i r F) : Spares F H := by
  cases hH with
  | owner => exact hF.spares_metadata _
  | place => exact hF.spares_metadata _
  | references h =>
    have hkind := references?_eq_some h
    cases hF with
    | pod h' => obtain h' | h' := h' <;> simp [h'] at hkind
    | data h' => simp [h'] at hkind
    | gateway h' => simp [h'.1] at hkind
    | cachedImage h' => simp [h'.1] at hkind

end HeadChange

/-- **What comes first and what comes later settles together.** -/
theorem settles_head_later {head later : List (Resource → Resource)}
    (hhead : ∀ H ∈ head, HeadChange i r H) (hlater : ∀ F ∈ later, Change i r F) :
    Settles (carryOut (head ++ later)) := by
  have hmutual : Settling head := .of_mutual (fun H hH => (hhead H hH).settles)
    fun H hH K hK => (hhead H hH).spares (hhead K hK)
  rw [carryOut_append]
  exact hmutual.carryOut.comp (Change.settles_carryOut hlater) <|
    hmutual.spares_of_forall fun H hH => Settling.spares_carryOut fun F hF =>
      (hhead H hH).spares_change (hlater F hF)

end Transformer

namespace Pipeline

open Transformer

variable {i : Instance} {p : Pipeline} {extra : List Transformer} {r out : Resource}

/-- **A pipeline leaves what it made as it is.** This holds of every instance with a uid, of all
transformers that platforms append in any number, and of every resource, whatever its members are. -/
theorem apply_again (hi : builtin i = .ok p) (hextra : ∀ t ∈ extra, PlatformTransformer t)
    (h : Pipeline.apply (p ++ extra) r = .ok out) : Pipeline.apply (p ++ extra) out = .ok out := by
  obtain ⟨head, later, hhead, hlater, hout, hall⟩ := exists_changes hi hextra h
  have hmade : carryOut (head ++ later) r = out := Except.ok.inj ((hall r (.refl r)).symm.trans h)
  rw [hall out hout, ← hmade, settles_head_later hhead hlater]

/-! ### An entry that is written three times -/

namespace Egress

/-- An instance that limits egress by itself. -/
def serving : Instance where
  metadata := { name := some "serving", namespaceName := some "n", uid := some "u" }
  spec := { config := [("network", [(egressKey, "10.1.0.0/16")])] }

def config : Resource := ⟨[("apiVersion", .str "v1"), ("data", .null), ("kind", .str "ConfigMap"),
  ("metadata", .obj [("name", .str "config-network"), ("ownerReferences", .str "none")])]⟩

/-- What both platforms append. -/
def appended : List Transformer := [.ingressDomain "apps.example.com",
  .egress "openshift-egress" "10.2.0.0/16", .serviceCerts,
  .egress "minikube-egress" Platform.minikubeRange]

theorem platformTransformer_appended : ∀ t ∈ appended, PlatformTransformer t := by
  simp only [appended, List.forall_mem_cons, List.not_mem_nil, false_imp_iff, implies_true,
    and_true]
  exact ⟨.ingressDomain _, .egress _ _, .serviceCerts, .egress _ _⟩

end Egress

/-- The instance and two platforms limit egress, and the last limit stays. -/
theorem apply_again_egress : ∃ p out, builtin Egress.serving = .ok p ∧
    Pipeline.apply (p ++ Egress.appended) Egress.config = .ok out ∧
    out.data = [(egressKey, Platform.minikubeRange)] ∧
    Pipeline.apply (p ++ Egress.appended) out = .ok out := by
  obtain ⟨p, out, hp, hout, hdata⟩ : ∃ p out, builtin Egress.serving = .ok p ∧
      Pipeline.apply (p ++ Egress.appended) Egress.config = .ok out ∧
      out.data = [(egressKey, Platform.minikubeRange)] := ⟨_, _, rfl, rfl, by decide +kernel⟩
  exact ⟨p, out, hp, hout, hdata, apply_again hp Egress.platformTransformer_appended hout⟩

end Pipeline

end ReleaseKeeper
