import Mathlib.Data.List.Perm.Basic
import ReleaseKeeper.Cluster.Rehearsal
import ReleaseKeeper.Proofs.Manifest.Apply
import ReleaseKeeper.Proofs.Platform.Calls
import ReleaseKeeper.Proofs.Reconcile.Teardown

/-!
# What is installed is what is torn down

A pass applies what a whole pipeline made of the release; a teardown deletes what moving alone made
of it. Resource by resource the two have the same identity (`Pipeline.keeps_apply`), so every order
and every part of the release that is chosen by kind has the same keys in both (`SameIdentities`),
and the objects that a teardown looks at are those that the pass applied, definitions of kinds aside
(`install_teardown_keys`).
-/
namespace ReleaseKeeper

open Operation

/-! ## Releases of the same identities -/

namespace Manifest

/-- Two releases have the same resources one by one, each of which keeps its identity. -/
abbrev SameIdentities (m n : Manifest) : Prop := List.Forall₂ Resource.Keeps m n

namespace SameIdentities

variable {m n : Manifest}

theorem keys (h : m.SameIdentities n) : n.map Resource.key = m.map Resource.key := by
  induction h with
  | nil => rfl
  | cons hr _ ih => rw [List.map_cons, List.map_cons, hr.key_eq, ih]

/-- A part that is chosen by identity. -/
theorem filter (h : m.SameIdentities n) {p : Resource → Bool}
    (hp : ∀ r out, r.Keeps out → p out = p r) : SameIdentities (m.filter p) (n.filter p) :=
  List.rel_filter (fun {r out} hr => by simp only [hp r out hr]) h

theorem isRole {r out : Resource} (h : r.Keeps out) : out.isRole = r.isRole := by
  rw [Resource.isRole, Resource.isRole, Resource.group, Resource.group, h.kind_eq, h.apiVersion_eq]

theorem isRoleBinding {r out : Resource} (h : r.Keeps out) :
    out.isRoleBinding = r.isRoleBinding := by
  rw [Resource.isRoleBinding, Resource.isRoleBinding, Resource.group, Resource.group, h.kind_eq,
    h.apiVersion_eq]

theorem isAccessControl {r out : Resource} (h : r.Keeps out) :
    out.isAccessControl = r.isAccessControl := by
  rw [Resource.isAccessControl, Resource.isAccessControl, isRole h, isRoleBinding h]

theorem isDefinition {r out : Resource} (h : r.Keeps out) : out.isDefinition = r.isDefinition := by
  rw [Resource.isDefinition, Resource.isDefinition, h.kind_eq]

theorem hasKind {r out : Resource} (h : r.Keeps out) (kind : String) :
    out.hasKind kind = r.hasKind kind := by
  rw [Resource.hasKind, Resource.hasKind, h.kind_eq]

theorem applyOrder (h : m.SameIdentities n) : SameIdentities m.applyOrder n.applyOrder := by
  refine List.rel_append (List.rel_append ?_ ?_) ?_
  · exact h.filter fun _ _ => isRole
  · exact h.filter fun _ _ => isRoleBinding
  · exact h.filter fun _ _ hr => by rw [isAccessControl hr]

theorem withoutDefinitions (h : m.SameIdentities n) :
    SameIdentities m.withoutDefinitions n.withoutDefinitions :=
  h.filter fun _ _ hr => by rw [isDefinition hr]

/-- The phases of a teardown. -/
theorem phases (h : m.SameIdentities n) :
    SameIdentities (Teardown.phases m).flatten (Teardown.phases n).flatten := by
  have hreversed := List.rel_reverse h.applyOrder
  have hordinary : SameIdentities (Teardown.ordinary m) (Teardown.ordinary n) :=
    filter hreversed fun _ _ hr => by rw [hasKind hr, isAccessControl hr, isDefinition hr]
  refine List.rel_flatten (.cons ?_ (.cons hordinary (.cons ?_ .nil)))
  · exact filter hreversed fun _ _ hr => hasKind hr _
  · exact filter hreversed fun _ _ => isAccessControl

end SameIdentities

end Manifest

/-! ## What an application looks at -/

namespace Manifest

variable {σ : Type} {world : Program.World Call Call.Answer σ} {t : Program.Trace Call Call.Answer}

/-- A resource that was applied was looked at first, and nothing else was. -/
theorem looked_apply {s s' : σ} {r : Resource} {x : Applied}
    (h : Runs world (Manifest.apply r) s t (.ok x) s') : looked t = [r.key] := by
  generalize hx : Except.ok x = y at h
  cases application_of_runs h with
  | unread => cases hx
  | creating | keeping | updating => rfl

theorem looked_applyEach : ∀ {rs : List Resource} {s s' : σ} {t : Program.Trace Call Call.Answer}
    {refs : List Reference}, Program.Runs world (applyEach rs) s t (.ok refs) s' →
    looked t = rs.map Resource.key
  | [], s, s', t, refs, h => by
    obtain ⟨rfl, -⟩ := Program.runs_done_iff.1 h
    rfl
  | r :: rest, s, s', t, refs, h => by
    obtain ⟨t₁, x, s₁, t₂, rfl, hr, hnext⟩ := Program.runs_bind_iff.1 h
    cases x with
    | error e => cases (Program.runs_done_iff.1 hnext).2.1
    | ok done =>
      obtain ⟨t₃, y, s₂, t₄, rfl, hrest, hend⟩ := Program.runs_bind_iff.1 hnext
      cases y with
      | error f => cases (Program.runs_done_iff.1 hend).2.1
      | ok applied =>
        obtain ⟨rfl, -⟩ := Program.runs_done_iff.1 hend
        rw [List.append_nil, looked_append, looked_apply hr, looked_applyEach hrest]
        rfl

end Manifest

/-! ## Installing and tearing down -/

/-- What a pipeline makes of a release has the identities that moving it gives. -/
theorem sameIdentities_run {ctx : Context} {i : Instance} {p : Pipeline}
    (hp : Pipeline.builtin i = .ok p) {extra : List Transformer} (hextra : ∀ f ∈ extra, f.Aside)
    {out : Manifest} (h : Pipeline.run (p ++ extra) ctx.manifest = .ok out) :
    (Teardown.placed ctx i).SameIdentities out := by
  rw [Teardown.placed, Manifest.SameIdentities, List.forall₂_map_left_iff]
  exact (Pipeline.run_eq_ok.1 h).imp fun r out hr => (Pipeline.keeps_apply hp hextra hr).1

/-- **What is installed is what is torn down.** Whatever a pipeline makes of a resource is a resource
again, under the key that moving alone gives it. So what is installed for an instance by a teardown's
account has, one by one, the keys of what its pipeline makes of the release; and the objects that a
teardown looks at, phase by phase, are those that the application of the release looked at, without
the definitions of kinds. -/
theorem install_teardown_keys {i : Instance} {p : Pipeline} (hp : Pipeline.builtin i = .ok p)
    {extra : List Transformer} (hextra : ∀ f ∈ extra, PlatformTransformer f) :
    (∀ r out, Resource.ofJson r.toJson = .ok r → Pipeline.apply (p ++ extra) r = .ok out →
      Resource.ofJson out.toJson = .ok out ∧
        ∃ moved, (Transformer.inNamespace i.targetNamespace).apply r = .ok moved ∧
          out.key = moved.key) ∧
    ∀ (ctx : Context) out, Pipeline.run (p ++ extra) ctx.manifest = .ok out →
      (∃ m, Teardown.installed ctx i = .ok m ∧
        m.map Resource.key = out.withoutDefinitions.map Resource.key) ∧
      ∀ {σ σ' : Type} {world : Program.World Call Call.Answer σ}
        {world' : Program.World Call Call.Answer σ'} {s₁ s₂ : σ} {s₁' s₂' : σ'}
        {t t' : Program.Trace Call Call.Answer} {refs : List Reference},
        Program.Runs world (Manifest.applyAll out) s₁ t (.ok refs) s₂ →
        Runs world' (Teardown.deleteInstalled ctx i) s₁' t' (.ok ()) s₂' →
        Manifest.looked t = out.applyOrder.map Resource.key ∧
        Manifest.looked t' = (Teardown.phases out).flatten.map Resource.key ∧
        (Manifest.looked t').Perm
          ((Manifest.looked t).filter (·.kind ≠ "CustomResourceDefinition")) := by
  have haside : ∀ f ∈ extra, f.Aside := fun f hf => (hextra f hf).aside
  refine ⟨fun r out hr hout => ?_, fun ctx out hout => ?_⟩
  · obtain ⟨hkeeps, -⟩ := Pipeline.keeps_apply hp haside hout
    exact ⟨hkeeps.valid (Transformer.valid_moveTo hr), _, rfl, hkeeps.key_eq⟩
  · have hsame := sameIdentities_run hp haside hout
    refine ⟨⟨_, Teardown.installed_eq ctx i, hsame.withoutDefinitions.keys.symm⟩, ?_⟩
    intro σ σ' world world' s₁ s₂ s₁' s₂' t t' refs happlied hdeleted
    obtain ⟨e?, hphased, hx⟩ := Teardown.runs_deleteInstalled hdeleted
    have hdone : e? = none := by
      cases e? with
      | none => rfl
      | some e => cases hx
    rw [hdone] at hphased
    have hlooked : Manifest.looked t = out.applyOrder.map Resource.key :=
      Manifest.looked_applyEach happlied
    have hlooked' : Manifest.looked t' = (Teardown.phases out).flatten.map Resource.key := by
      rw [hphased.looked, hsame.phases.keys]
    refine ⟨hlooked, hlooked', ?_⟩
    rw [hlooked, hlooked', List.filter_map]
    refine ((Teardown.phases_perm out).trans ?_).map _
    have hdefinitions : (fun r : Resource => !r.isDefinition) =
        (fun key : ResourceKey => decide (key.kind ≠ "CustomResourceDefinition")) ∘ Resource.key := by
      funext r
      exact decide_not.symm
    rw [← hdefinitions]
    exact ((Manifest.applyOrder_perm out).filter _).symm

/-! ## A release of a definition and a config map -/

namespace Domain

def definition : Resource := ⟨[("apiVersion", .str "apiextensions.k8s.io/v1"),
  ("kind", .str "CustomResourceDefinition"), ("metadata", .obj [("name", .str "routes.serving")])]⟩

/-- A config map that is meant for another namespace. -/
def config : Resource := ⟨[("apiVersion", .str "v1"), ("kind", .str "ConfigMap"),
  ("metadata", .obj [("name", .str "config-domain"), ("namespace", .str "other")])]⟩

def context : Context where
  manifest := [definition, config]

def serving : Instance where
  metadata := { name := some "serving", namespaceName := some "n", uid := some "u" }
  spec := {}

/-- What the platforms append. -/
def appended : List Transformer :=
  [.ingressDomain "apps.example.com", .egress "openshift-egress" "10.0.0.0/16", .serviceCerts]

/-- The key of the config map where it is installed. -/
def configKey : ResourceKey := ⟨"v1", "ConfigMap", some "n", "config-domain"⟩

theorem platformTransformer_appended : ∀ f ∈ appended, PlatformTransformer f := by
  simp only [appended, List.forall_mem_cons, List.not_mem_nil, false_imp_iff, implies_true,
    and_true]
  exact ⟨.ingressDomain _, .egress _ _, .serviceCerts⟩

end Domain

/-- The config map is moved and is given a domain, and it is all that a teardown looks at. -/
theorem install_teardown_keys_domain :
    ∃ p, Pipeline.builtin Domain.serving = .ok p ∧
      (∃ out, Pipeline.apply (p ++ Domain.appended) Domain.config = .ok out ∧
        Resource.ofJson out.toJson = .ok out ∧ out.key = Domain.configKey) ∧
      (Manifest.looked (Program.calls Rehearsal.answer
        (Teardown.deleteInstalled Domain.context Domain.serving).run {})).Perm
        [Domain.configKey] := by
  obtain ⟨p, hp, ⟨out, hout, hkey⟩, installed, hinstalled, refs, hrefs, hkeys⟩ :
      ∃ p, Pipeline.builtin Domain.serving = .ok p ∧
        (∃ out, Pipeline.apply (p ++ Domain.appended) Domain.config = .ok out ∧
          out.key = Domain.configKey) ∧
        ∃ installed, Pipeline.run (p ++ Domain.appended) Domain.context.manifest = .ok installed ∧
          ∃ refs, (Program.run Rehearsal.answer (Manifest.applyAll installed) {}).1 = .ok refs ∧
            installed.applyOrder.map Resource.key = [Domain.definition.key, Domain.configKey] :=
    ⟨_, rfl, ⟨_, rfl, by decide⟩, _, rfl, _, rfl, by decide⟩
  have hvalid : Resource.ofJson Domain.config.toJson = .ok Domain.config := rfl
  have hdeleted : (Program.run Rehearsal.answer
      (Teardown.deleteInstalled Domain.context Domain.serving).run {}).1 = .ok () := by decide +kernel
  obtain ⟨heach, hall⟩ := install_teardown_keys hp Domain.platformTransformer_appended
  refine ⟨p, hp, ⟨out, hout, (heach _ _ hvalid hout).1, hkey⟩, ?_⟩
  have happly := Program.runs_handler Rehearsal.answer (Manifest.applyAll installed) {}
  have hdelete := Program.runs_handler Rehearsal.answer
    (Teardown.deleteInstalled Domain.context Domain.serving).run {}
  rw [hrefs] at happly
  rw [hdeleted] at hdelete
  obtain ⟨hlooked, -, hperm⟩ := (hall Domain.context installed hinstalled).2 happly hdelete
  rw [hlooked, hkeys] at hperm
  exact hperm

end ReleaseKeeper
