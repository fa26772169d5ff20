import ReleaseKeeper.Platform.Declared
import ReleaseKeeper.Platform.Minikube
import ReleaseKeeper.Platform.OpenShift
import ReleaseKeeper.Proofs.Program.Runs

/-!
# What platforms call

Platforms and their hooks are handed the cluster and nothing else, so they cannot write what is
stored of an instance (`Platform.Confined`). Those that are known write no object but before the
release is applied (`Platform.LeavesObjects`), and looking for one makes a few calls that only ask
(`Platform.Sought`).
-/
namespace ReleaseKeeper

/-- The calls that a hook can make. -/
def Hook.Makes (P : Call → Prop) (h : Hook) : Prop :=
  ∀ i, Operation.Ensures P (fun _ => True) (h.run i)

namespace Platform

/-- Looking for the platform and all its hooks are about the cluster. -/
def Confined (p : Platform) : Prop :=
  p.detect.Ensures Call.OnCluster fun found => ∀ c, found = some c →
    ∀ h ∈ c.before ++ c.after, h.Makes Call.OnCluster

/-- Looking for the platform writes no object, nor do its hooks after the release was applied. -/
def LeavesObjects (p : Platform) : Prop :=
  p.detect.Ensures Call.KeepsObjects fun found => ∀ c, found = some c →
    ∀ h ∈ c.after, h.Makes Call.KeepsObjects

end Platform

open Operation

/-! ## Asking platforms and running hooks -/

variable {P : Call → Prop}

theorem Platform.ensures_detectAll {Q : Contribution → Prop} : ∀ {ps : List Platform},
    (∀ p ∈ ps, p.detect.Ensures P fun found => ∀ c, found = some c → Q c) →
    (detectAll ps).Ensures P fun cs => ∀ c ∈ cs, Q c.2
  | [], _ => ensures_pure (by simp)
  | p :: rest, h => by
    obtain ⟨hp, hrest⟩ := List.forall_mem_cons.1 h
    refine ensures_bind hp fun found hfound => ?_
    cases found with
    | none => exact ensures_detectAll hrest
    | some c =>
      refine ensures_bind (ensures_detectAll hrest) fun cs hcs => ?_
      exact ensures_pure (List.forall_mem_cons.2 ⟨hfound c rfl, hcs⟩)

namespace Contributions

variable {i : Instance}

theorem ensures_runHooks {platform : String} : ∀ {hooks : List Hook},
    (∀ h ∈ hooks, h.Makes P) → (runHooks i platform hooks).Ensures P fun _ => True
  | [], _ => ensures_pure trivial
  | h :: rest, hs => by
    obtain ⟨hh, hrest⟩ := List.forall_mem_cons.1 hs
    refine ensures_bind (ensures_outcome (hh i)) fun x _ => ?_
    cases x with
    | error e => exact ensures_throw
    | ok _ => exact ensures_runHooks hrest

theorem ensures_runBefore : ∀ {cs : Contributions},
    (∀ c ∈ cs, ∀ h ∈ c.2.before, h.Makes P) → (runBefore i cs).Ensures P fun _ => True
  | [], _ => ensures_pure trivial
  | c :: rest, hs => by
    obtain ⟨hc, hrest⟩ := List.forall_mem_cons.1 hs
    exact ensures_bind (ensures_runHooks hc) fun _ _ => ensures_runBefore hrest

theorem ensures_runAfter : ∀ {cs : Contributions},
    (∀ c ∈ cs, ∀ h ∈ c.2.after, h.Makes P) → (runAfter i cs).Ensures P fun _ => True
  | [], _ => ensures_pure trivial
  | c :: rest, hs => by
    obtain ⟨hc, hrest⟩ := List.forall_mem_cons.1 hs
    exact ensures_bind (ensures_runHooks hc) fun _ _ => ensures_runAfter hrest

end Contributions

/-! ## The platforms there are -/

namespace Platform

theorem makes_createServiceCerts : createServiceCerts.Makes Call.OnCluster := by
  intro i
  refine ensures_bind (ensures_ask trivial) fun found _ => ?_
  cases found with
  | some _ => exact ensures_pure trivial
  | none =>
    refine ensures_bind (ensures_outcome (ensures_ask trivial)) fun x _ => ?_
    split
    · exact ensures_pure trivial
    · exact ensures_pure trivial
    · exact ensures_throw

/-- What is found of the OpenShift platform depends on calls that only ask. -/
theorem ensures_openShift {Q : Option Contribution → Prop} (hget : ∀ key, P (.get key))
    (hkind : ∀ apiVersion kind, P (.kindExists apiVersion kind)) (hnone : Q none)
    (hsome : ∀ domain network, Q (some {
      transformers := [.ingressDomain domain, .egress "openshift-egress" network, .serviceCerts]
      before := [createServiceCerts] })) :
    openShift.detect.Ensures P Q := by
  refine ensures_bind (ensures_ask (hkind _ _)) fun served _ => ?_
  cases served with
  | false => exact ensures_pure hnone
  | true =>
    refine ensures_bind (ensures_ask (hget _)) fun _ _ => ?_
    refine ensures_bind (ensures_ask (hget _)) fun _ _ => ?_
    exact ensures_pure (hsome _ _)

/-- What is found of the Minikube platform depends on one call that only asks. -/
theorem ensures_minikube {Q : Option Contribution → Prop} (hget : ∀ key, P (.get key))
    (hnone : Q none)
    (hsome : Q (some { transformers := [.egress "minikube-egress" minikubeRange] })) :
    minikube.detect.Ensures P Q := by
  refine ensures_bind (ensures_ask (hget _)) fun found _ => ?_
  cases found with
  | none => exact ensures_pure hnone
  | some _ => exact ensures_pure hsome

/-- What these platforms contribute where they are found. -/
theorem ensures_detectAll_known {Q : Contribution → Prop} {platforms : List Platform}
    (h : ∀ p ∈ platforms, p = openShift ∨ p = minikube) (hget : ∀ key, P (.get key))
    (hkind : ∀ apiVersion kind, P (.kindExists apiVersion kind))
    (hopenShift : ∀ domain network, Q {
      transformers := [.ingressDomain domain, .egress "openshift-egress" network, .serviceCerts]
      before := [createServiceCerts] })
    (hminikube : Q { transformers := [.egress "minikube-egress" minikubeRange] }) :
    (detectAll platforms).Ensures P fun cs => ∀ c ∈ cs, Q c.2 := by
  refine ensures_detectAll fun p hp => ?_
  obtain rfl | rfl := h p hp
  · refine ensures_openShift hget hkind (by simp) fun domain network c hc => ?_
    obtain rfl := Option.some.inj hc
    exact hopenShift domain network
  · refine ensures_minikube hget (by simp) fun c hc => ?_
    obtain rfl := Option.some.inj hc
    exact hminikube

theorem confined_minikube : minikube.Confined :=
  ensures_minikube (fun _ => trivial) (by simp) (by simp)

theorem leavesObjects_minikube : minikube.LeavesObjects :=
  ensures_minikube (fun _ => trivial) (by simp) (by simp)

theorem confined_openShift : openShift.Confined := by
  refine ensures_openShift (fun _ => trivial) (fun _ _ => trivial) (by simp) ?_
  rintro domain network _ ⟨⟩ h hh
  obtain rfl := List.mem_singleton.1 hh
  exact makes_createServiceCerts

theorem leavesObjects_openShift : openShift.LeavesObjects := by
  refine ensures_openShift (fun _ => trivial) (fun _ _ => trivial) (by simp) ?_
  rintro domain network _ ⟨⟩ h hh
  cases hh

/-! ## Looking for the platforms there are -/

/-- How looking for the OpenShift platform can go: its routes are asked for, and where they are
served two settings of the cluster are read. -/
inductive OpenShiftSought :
    Program.Trace Call Call.Answer → Except Error (Option Contribution) → Prop
  | unknown (e : Error) :
    OpenShiftSought [⟨.kindExists "route.openshift.io/v1" "Route", .error e⟩] (.error e)
  | absent : OpenShiftSought [⟨.kindExists "route.openshift.io/v1" "Route", .ok false⟩] (.ok none)
  | noDomain (e : Error) :
    OpenShiftSought [⟨.kindExists "route.openshift.io/v1" "Route", .ok true⟩,
      ⟨.get ⟨"config.openshift.io/v1", "Ingress", none, "cluster"⟩, .error e⟩] (.error e)
  | noNetwork (ingress : Option Resource) (e : Error) :
    OpenShiftSought [⟨.kindExists "route.openshift.io/v1" "Route", .ok true⟩,
      ⟨.get ⟨"config.openshift.io/v1", "Ingress", none, "cluster"⟩, .ok ingress⟩,
      ⟨.get ⟨"config.openshift.io/v1", "Network", none, "cluster"⟩, .error e⟩] (.error e)
  | found (ingress network : Option Resource) :
    OpenShiftSought [⟨.kindExists "route.openshift.io/v1" "Route", .ok true⟩,
      ⟨.get ⟨"config.openshift.io/v1", "Ingress", none, "cluster"⟩, .ok ingress⟩,
      ⟨.get ⟨"config.openshift.io/v1", "Network", none, "cluster"⟩, .ok network⟩]
      (.ok (some {
        transformers := [
          .ingressDomain (ingressDomainOf ingress),
          .egress "openshift-egress" (serviceNetworkOf network),
          .serviceCerts]
        before := [createServiceCerts] }))

/-- The calls that look for a platform, if it is one of those there are, and what is found. -/
structure Sought (p : Platform) (t : Program.Trace Call Call.Answer)
    (found : Except Error (Option Contribution)) : Prop where
  ofOpenShift : p = openShift → OpenShiftSought t found
  ofMinikube : p = minikube → ∃ a : Except Error (Option Resource),
    t = [⟨.get ⟨"v1", "Node", none, "minikube"⟩, a⟩] ∧
      found = a.map fun node? => node?.map fun _ =>
        { transformers := [.egress "minikube-egress" minikubeRange] }
  ofDeclared : ∀ d, p = declared d → ∃ a : Except Error Unit, t = [⟨.detect d.name, a⟩] ∧
    found = a.map fun _ => if d.isPresent then some {
      transformers := d.rules.map Rule.transformer
      before := d.before.map calledHook
      after := d.after.map calledHook } else none

section
variable {σ : Type} {world : Program.World Call Call.Answer σ} {s s' : σ}
  {t : Program.Trace Call Call.Answer} {x : Except Error (Option Contribution)}

theorem openShiftSought_of_runs (h : Runs world openShift.detect s t x s') :
    OpenShiftSought t x := by
  obtain ⟨e, rfl, -, rfl⟩ | ⟨served, s₁, t₁, rfl, -, hnext⟩ := runs_ask_bind.1 h
  · exact .unknown e
  cases served with
  | false =>
    obtain ⟨rfl, rfl, -⟩ := runs_pure.1 hnext
    exact .absent
  | true =>
    obtain ⟨e, rfl, -, rfl⟩ | ⟨ingress, s₂, t₂, rfl, -, hrest⟩ := runs_ask_bind.1 hnext
    · exact .noDomain e
    obtain ⟨e, rfl, -, rfl⟩ | ⟨network, s₃, t₃, rfl, -, hend⟩ := runs_ask_bind.1 hrest
    · exact .noNetwork ingress e
    obtain ⟨rfl, rfl, -⟩ := runs_pure.1 hend
    exact .found ingress network

theorem minikube_sought (h : Runs world minikube.detect s t x s') :
    ∃ a : Except Error (Option Resource), t = [⟨.get ⟨"v1", "Node", none, "minikube"⟩, a⟩] ∧
      x = a.map fun node? => node?.map fun _ =>
        { transformers := [.egress "minikube-egress" minikubeRange] } := by
  obtain ⟨e, rfl, -, rfl⟩ | ⟨node?, s₁, t₁, rfl, -, hend⟩ := runs_ask_bind.1 h
  · exact ⟨_, rfl, rfl⟩
  · cases node? <;> obtain ⟨rfl, rfl, -⟩ := runs_pure.1 hend <;> exact ⟨_, rfl, rfl⟩

theorem declared_sought {d : Declaration} (h : Runs world (declared d).detect s t x s') :
    ∃ a : Except Error Unit, t = [⟨.detect d.name, a⟩] ∧
      x = a.map fun _ => if d.isPresent then some {
        transformers := d.rules.map Rule.transformer
        before := d.before.map calledHook
        after := d.after.map calledHook } else none := by
  obtain ⟨e, rfl, -, rfl⟩ | ⟨_, s₁, t₁, rfl, -, hend⟩ := runs_ask_bind.1 h
  · exact ⟨_, rfl, rfl⟩
  · split at hend
    · next habsent =>
      obtain ⟨rfl, rfl, -⟩ := runs_pure.1 hend
      exact ⟨_, rfl, by simp [habsent, Except.map]⟩
    · next hpresent =>
      obtain ⟨rfl, rfl, -⟩ := runs_pure.1 hend
      exact ⟨_, rfl, by simp [Decidable.not_not.1 hpresent, Except.map]⟩

/-- **Looking for a platform there is makes these calls.** -/
theorem sought_of_runs {p : Platform} (h : Runs world p.detect s t x s') : p.Sought t x where
  ofOpenShift := by
    rintro rfl
    exact openShiftSought_of_runs h
  ofMinikube := by
    rintro rfl
    exact minikube_sought h
  ofDeclared := by
    rintro d rfl
    exact declared_sought h

end

end Platform

end ReleaseKeeper
