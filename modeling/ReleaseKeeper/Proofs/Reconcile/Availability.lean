import ReleaseKeeper.Proofs.Reconcile.Recorded

/-!
# How far deployments are checked

A deployment is up if it is live, has the form of a deployment, and has a condition that says so
(`Deployment.Up`). The check of the deployments looks at one after another, in the order of the
release, up to the first that is not up, and at no other object (`Pass.looks_checkEach`). It says
that all are available exactly if every one of them is up (`deployments_checked`).

What a look finds is any answer of the cluster: the object, nothing, or an error.
-/
namespace ReleaseKeeper

open Operation

namespace Deployment

/-- A look finds a deployment that says that it is available. -/
def Up (found : Except Error (Option Resource)) : Prop :=
  ∃ live, found = .ok (some live) ∧ check live = .ok () ∧
    ∃ c ∈ conditions live, c.getStr? "type" = some "Available" ∧ c.getStr? "status" = some "True"

/-- A look finds nothing, or a deployment that does not say that it is available. -/
def Awaited (found : Except Error (Option Resource)) : Prop :=
  found = .ok none ∨ ∃ live, found = .ok (some live) ∧ check live = .ok () ∧
    ∀ c ∈ conditions live, c.getStr? "type" = some "Available" → c.getStr? "status" ≠ some "True"

/-- A look fails, or finds what has not the form of a deployment. -/
def Unreadable (found : Except Error (Option Resource)) (e : Error) : Prop :=
  found = .error e ∨ ∃ live, found = .ok (some live) ∧ check live = .error e

variable {found : Except Error (Option Resource)}

theorem isAvailable_iff {live : Resource} : isAvailable live = true ↔
    ∃ c ∈ conditions live, c.getStr? "type" = some "Available" ∧ c.getStr? "status" = some "True" := by
  simp [isAvailable, saysAvailable]

theorem verdict_eq_true : verdict found = .ok true ↔ Up found := by
  rcases found with e | _ | live
  · simp [verdict, Up]
  · simp [verdict, Up]
  · cases hcheck : check live <;> simp [verdict, Up, hcheck, Except.map, isAvailable_iff]

theorem verdict_eq_false : verdict found = .ok false ↔ Awaited found := by
  rcases found with e | _ | live
  · simp [verdict, Awaited]
  · simp [verdict, Awaited]
  · cases hcheck : check live <;>
      simp [verdict, Awaited, hcheck, Except.map, ← Bool.not_eq_true, isAvailable_iff]

theorem verdict_eq_error {e : Error} : verdict found = .error e ↔ Unreadable found e := by
  rcases found with e | _ | live
  · simp [verdict, Unreadable]
  · simp [verdict, Unreadable]
  · cases hcheck : check live <;> simp [verdict, Unreadable, hcheck, Except.map]

end Deployment

/-- The deployments of a status are marked with a status, a reason and a message: nothing else is
changed but the summary, which follows. -/
structure InstanceStatus.MarkedAs (s : InstanceStatus) (view : ConditionStatus × String × String)
    (marked : InstanceStatus) : Prop where
  known : ConditionSet.known marked.conditions deploymentsAvailable = view
  ready : marked.isReady = true ↔ marked.isInstalled = true ∧ view.1 = .true
  installed : marked.condition? installSucceeded = s.condition? installSucceeded
  others : ∀ type, type ≠ deploymentsAvailable → type ≠ servingConditions.happy →
    marked.condition? type = s.condition? type
  version : marked.version = s.version
  resources : marked.resources = s.resources

namespace InstanceStatus

/-- Marking the deployments marks them, whatever generation that is written for. -/
theorem markedAs_mark (s : InstanceStatus) (now : Timestamp) (status : ConditionStatus)
    (reason message : String) (generation : Option Int) : s.MarkedAs (status, reason, message)
      { s.mark now deploymentsAvailable status reason message with
        observedGeneration := generation } := by
  have hhappy : deploymentsAvailable ≠ servingConditions.happy := by decide
  have hview : ConditionSet.known (s.mark now deploymentsAvailable status reason message).conditions
      deploymentsAvailable = (status, reason, message) :=
    ConditionSet.known_mark_self hhappy status reason message
  have hcoherent := mark_coherent hhappy now status reason message s
  have hothers : ∀ type, type ≠ deploymentsAvailable → type ≠ servingConditions.happy →
      (s.mark now deploymentsAvailable status reason message).condition? type = s.condition? type :=
    fun type htype hsummary => ConditionSet.condition?_mark_of_ne hsummary htype _ _ _
  refine ⟨hview, ?_, hothers _ (by decide) (by decide), hothers, rfl, rfl⟩
  refine (Coherent.isReady_iff hcoherent).trans (and_congr_right fun _ => ?_)
  rw [isAvailable, holds_iff]
  exact iff_of_eq (congrArg (fun view => view.1 = ConditionStatus.true) hview)

variable {s marked : InstanceStatus} {view : ConditionStatus × String × String}

theorem MarkedAs.isAvailable_iff (h : s.MarkedAs view marked) :
    marked.isAvailable = true ↔ view.1 = .true := by
  rw [isAvailable, holds_iff, h.known]

theorem MarkedAs.isReady_eq_false (h : s.MarkedAs view marked) (hview : view.1 ≠ .true) :
    marked.isReady = false :=
  Bool.eq_false_iff.2 fun hready => hview (h.ready.1 hready).2

end InstanceStatus

namespace Pass

/-- A look at a deployment, with what it finds. -/
def look (find : ResourceKey → Except Error (Option Resource)) (r : Resource) :
    (c : Call) × c.Answer :=
  ⟨.get r.key, find r.key⟩

/-- A pass goes on with the deployments marked, and else as it was. -/
def Says (p : Pass) (view : ConditionStatus × String × String) (x : Except Error Pass) : Prop :=
  ∃ s, x = .ok (p.mapStatus fun _ => s) ∧ p.subject.currentStatus.MarkedAs view s

/-- A call writes that the deployments could not be checked, and the pass fails by that, or as the
call does. -/
def Reports (p : Pass) (e : Error) (c : (c : Call) × c.Answer) (x : Except Error Pass) : Prop :=
  ∃ s a, c = ⟨.patchStatus p.subject.namespaceName p.subject.name s, a⟩ ∧
    p.subject.currentStatus.MarkedAs (.false, "NotReady", e.message) s ∧
    (a = .ok () → x = .error e) ∧ ∀ e', a = .error e' → x = .error e'

/-- What a check comes to at a deployment that is not up, with the calls that are still made. -/
inductive Stops (p : Pass) (found : Except Error (Option Resource)) :
    Program.Trace Call Call.Answer → Except Error Pass → Prop
  | waiting {x : Except Error Pass} (awaited : Deployment.Awaited found)
    (carried : p.Says (.false, "NotReady", "Waiting on deployments") x)
    (ready : ∀ q, x = .ok q → q.isReady = false) : Stops p found [] x
  | failing {e : Error} {c : (c : Call) × c.Answer} {x : Except Error Pass}
    (unreadable : Deployment.Unreadable found e) (reports : p.Reports e c x) : Stops p found [c] x

variable {now : Timestamp} {p q : Pass} {found : Except Error (Option Resource)}

theorem says_mark (now : Timestamp) (p : Pass) (status : ConditionStatus) (reason message : String) :
    p.Says (status, reason, message)
      (.ok (p.mapStatus (InstanceStatus.mark now deploymentsAvailable status reason message))) :=
  ⟨_, rfl, p.subject.currentStatus.markedAs_mark now status reason message
    p.subject.currentStatus.observedGeneration⟩

theorem Says.isAvailable_iff {view : ConditionStatus × String × String}
    (h : p.Says view (.ok q)) : q.subject.currentStatus.isAvailable = true ↔ view.1 = .true := by
  obtain ⟨s, hq, hmarked⟩ := h
  obtain rfl := Except.ok.inj hq
  exact hmarked.isAvailable_iff

theorem Says.isReady_eq_false {view : ConditionStatus × String × String}
    (h : p.Says view (.ok q)) (hview : view.1 ≠ .true) : q.isReady = false := by
  obtain ⟨s, hq, hmarked⟩ := h
  obtain rfl := Except.ok.inj hq
  exact hmarked.isReady_eq_false hview

/-- A check stops only at what is not up, and never with the deployments available. -/
theorem Stops.not_up {t : Program.Trace Call Call.Answer} {x : Except Error Pass}
    (h : p.Stops found t x) :
    ¬ Deployment.Up found ∧ ∀ q, x = .ok q → ¬ q.subject.currentStatus.isAvailable = true := by
  cases h with
  | waiting awaited carried =>
    refine ⟨fun hup => ?_, ?_⟩
    · cases (Deployment.verdict_eq_false.2 awaited).symm.trans (Deployment.verdict_eq_true.2 hup)
    · rintro q rfl
      rw [carried.isAvailable_iff]
      exact ConditionStatus.noConfusion
  | failing unreadable reports =>
    refine ⟨fun hup => ?_, ?_⟩
    · cases (Deployment.verdict_eq_error.2 unreadable).symm.trans (Deployment.verdict_eq_true.2 hup)
    · rintro q rfl
      obtain ⟨s, _ | _, -, -, hok, herror⟩ := reports
      · cases herror _ rfl
      · cases hok rfl

section
variable {σ : Type} {world : Program.World Call Call.Answer σ} {s s' : σ}
  {t : Program.Trace Call Call.Answer} {find : ResourceKey → Except Error (Option Resource)}
  (hfind : ∀ {s key a s'}, world s (.get key) a s' → a = find key)
include hfind

theorem looks_isDeploymentAvailable {r : Resource} {x : Except Error Bool}
    (h : Runs world (isDeploymentAvailable r) s t x s') :
    t = [look find r] ∧ x = Deployment.verdict (find r.key) := by
  obtain ⟨a, rfl, looked, rfl⟩ := runs_isDeploymentAvailable h
  rw [look, ← hfind looked]
  exact ⟨rfl, rfl⟩

omit hfind in
/-- Where a deployment cannot be read, that is written before the check fails. -/
theorem reports_of_unreadable {e : Error} {x : Except Error Pass}
    (h : Runs world ((p.mapStatus (InstanceStatus.markCheckFailed now e.message)).writeStatus >>=
      fun _ => throw e) s t x s') : ∃ c, t = [c] ∧ p.Reports e c x := by
  have hmarked := p.subject.currentStatus.markedAs_mark now .false "NotReady" e.message
    p.subject.metadata.generation
  obtain ⟨e', rfl, hwrite⟩ | ⟨_, t₁, s₁, t₂, rfl, hwrite, hthrow⟩ := runs_bind.1 h
  · obtain ⟨a, rfl, -, ha⟩ := runs_writeStatus.1 hwrite
    refine ⟨_, rfl, _, a, rfl, hmarked, ?_, ?_⟩
    · rintro rfl
      cases ha
    · rintro _ rfl
      cases ha
      rfl
  · obtain ⟨a, rfl, -, ha⟩ := runs_writeStatus.1 hwrite
    obtain ⟨rfl, rfl, -⟩ := runs_throw.1 hthrow
    refine ⟨_, rfl, _, a, rfl, hmarked, fun _ => rfl, ?_⟩
    rintro _ rfl
    cases ha

/-- **A check looks at deployments up to the first that is not up.** -/
theorem looks_checkEach {x : Except Error Pass} : ∀ {rs : List Resource} {s : σ}
    {t : Program.Trace Call Call.Answer}, Runs world (checkEach now p rs) s t x s' →
    ((∀ r ∈ rs, Deployment.Up (find r.key)) ∧ t = rs.map (look find) ∧
      p.Says (.true, "", "") x) ∨
    ∃ front r rest t', rs = front ++ r :: rest ∧ (∀ r' ∈ front, Deployment.Up (find r'.key)) ∧
      t = (front ++ [r]).map (look find) ++ t' ∧ p.Stops (find r.key) t' x
  | [], s, t, h => by
    obtain ⟨rfl, rfl, -⟩ := runs_pure.1 h
    exact .inl ⟨by simp, rfl, says_mark now p .true "" ""⟩
  | r :: rest, s, t, h => by
    obtain ⟨available, t₁, s₁, t₂, rfl, hask, hnext⟩ := runs_outcome_bind.1 h
    obtain ⟨rfl, havailable⟩ := looks_isDeploymentAvailable hfind hask
    match available, havailable.symm, hnext with
    | .error e, hverdict, hnext =>
      obtain ⟨c, rfl, hreports⟩ := reports_of_unreadable hnext
      exact .inr ⟨[], r, rest, [c], rfl, by simp, rfl,
        .failing (Deployment.verdict_eq_error.1 hverdict) hreports⟩
    | .ok false, hverdict, hnext =>
      obtain ⟨rfl, rfl, -⟩ := runs_pure.1 hnext
      have hsaid := says_mark now p .false "NotReady" "Waiting on deployments"
      refine .inr ⟨[], r, rest, [], rfl, by simp, rfl,
        .waiting (Deployment.verdict_eq_false.1 hverdict) hsaid ?_⟩
      rintro q hq
      exact (hq ▸ hsaid).isReady_eq_false ConditionStatus.noConfusion
    | .ok true, hverdict, hnext =>
      have hup : Deployment.Up (find r.key) := Deployment.verdict_eq_true.1 hverdict
      obtain ⟨hall, rfl, hsaid⟩ | ⟨front, r', rest', t', rfl, hfront, rfl, hstops⟩ :=
        looks_checkEach hnext
      · exact .inl ⟨List.forall_mem_cons.2 ⟨hup, hall⟩, rfl, hsaid⟩
      · exact .inr ⟨r :: front, r', rest', t', rfl, List.forall_mem_cons.2 ⟨hup, hfront⟩, rfl,
          hstops⟩

end

end Pass

/-- **The deployments are checked up to the first that is not up.** The check looks at no other
objects, and writes no status unless a deployment cannot be read: then it writes that, and fails by
it, or as the writing does. What it comes to says that the deployments are available exactly if all
of them are up, and of every other condition but the summary it says what was said before. -/
theorem deployments_checked {σ : Type} (handle : Program.Handler Call Call.Answer σ)
    (find : ResourceKey → Except Error (Option Resource))
    (hfind : ∀ key s, (handle (.get key) s).1 = find key) (now : Timestamp) (p : Pass) (s : σ) :
    let deployments := Manifest.ofKind Deployment.kind p.manifest
    let x := (Program.run handle (p.checkDeployments now).run s).1
    let calls := Program.calls handle (p.checkDeployments now).run s
    ((∃ q, x = .ok q ∧ q.subject.currentStatus.isAvailable = true) ↔
      ∀ r ∈ deployments, Deployment.Up (find r.key)) ∧
    (((∀ r ∈ deployments, Deployment.Up (find r.key)) ∧ calls = deployments.map (Pass.look find) ∧
        p.Says (.true, "", "") x) ∨
      ∃ front r rest t', deployments = front ++ r :: rest ∧
        (∀ r' ∈ front, Deployment.Up (find r'.key)) ∧ ¬ Deployment.Up (find r.key) ∧
        calls = (front ++ [r]).map (Pass.look find) ++ t' ∧ p.Stops (find r.key) t' x) := by
  intro deployments x calls
  have hlooks : ∀ {s key a s'}, handle.world s (.get key) a s' → a = find key := by
    intro s key a s' h
    rw [← hfind key s, show handle (.get key) s = (a, s') from h]
  have hrun : Runs handle.world (Pass.checkEach now p deployments) s calls x _ :=
    Program.runs_handler handle _ s
  obtain ⟨hall, hcalls, hsaid⟩ | ⟨front, r, rest, t', hfront, hup, hcalls, hstops⟩ :=
    Pass.looks_checkEach hlooks hrun
  · refine ⟨iff_of_true ?_ hall, .inl ⟨hall, hcalls, hsaid⟩⟩
    obtain ⟨s', hx, hmarked⟩ := hsaid
    exact ⟨_, hx, hmarked.isAvailable_iff.2 rfl⟩
  · obtain ⟨hdown, hunavailable⟩ := hstops.not_up
    refine ⟨iff_of_false ?_ ?_, .inr ⟨front, r, rest, t', hfront, hup, hdown, hcalls, hstops⟩⟩
    · rintro ⟨q, hx, havailable⟩
      exact hunavailable q hx havailable
    · intro hall
      exact hdown (hall r (by rw [hfront]; simp))

/-! ## Three deployments -/

namespace Rollout

def resource (kind name : String) : Resource :=
  ⟨[("apiVersion", .str "apps/v1"), ("kind", .str kind), ("metadata", .obj [("name", .str name)])]⟩

def available (name : String) : Resource :=
  ⟨(resource "Deployment" name).members ++ [("status", .obj [("conditions", .arr [
    .obj [("status", .str "True"), ("type", .str "Progressing")],
    .obj [("status", .str "True"), ("type", .str "Available")]])])]⟩

/-- What says that it is available, but has not the form of a deployment. -/
def malformed (name : String) : Resource :=
  ⟨(resource "Deployment" name).members ++ [("spec", .obj [("replicas", .str "two")]),
    ("status", .obj [("conditions", .arr [.obj [("status", .str "True"),
      ("type", .str "Available")]])])]⟩

/-- The second deployment cannot be read, and the third cannot be looked at. -/
def find (key : ResourceKey) : Except Error (Option Resource) :=
  if key.name = "activator" then .ok (some (available "activator"))
  else if key.name = "autoscaler" then .ok (some (malformed "autoscaler"))
  else .error (.internal "probe" "connection reset")

/-- The deployments are looked up, and the statuses that are written are kept. -/
def handle : Program.Handler Call Call.Answer (List InstanceStatus)
  | .get key => pure (find key)
  | .patchStatus _ _ status => fun written => (.ok (), written ++ [status])
  | _ => pure (.error (.internal "probe" "not asked for"))

/-- A pass with a release of three deployments and a config map. -/
def pass : Pass := Pass.start Solo.fresh [
  resource "Deployment" "activator", resource "ConfigMap" "logging",
  resource "Deployment" "autoscaler", resource "Deployment" "controller"]

end Rollout

/-- The second deployment cannot be read, so the third is not looked at, and the check fails. -/
theorem deployments_checked_rollout :
    let activator := Rollout.resource "Deployment" "activator"
    let autoscaler := Rollout.resource "Deployment" "autoscaler"
    let x := (Program.run Rollout.handle (Rollout.pass.checkDeployments Solo.now).run []).1
    (∀ key s, (Rollout.handle (.get key) s).1 = Rollout.find key) ∧
      Deployment.Up (Rollout.find activator.key) ∧
      ∃ e c, Deployment.Unreadable (Rollout.find autoscaler.key) e ∧
        Program.calls Rollout.handle (Rollout.pass.checkDeployments Solo.now).run [] =
          [Pass.look Rollout.find activator, Pass.look Rollout.find autoscaler, c] ∧
        Rollout.pass.Reports e c x := by
  intro activator autoscaler x
  have hfind : ∀ key s, (Rollout.handle (.get key) s).1 = Rollout.find key := fun _ _ => rfl
  have hup : Deployment.verdict (Rollout.find activator.key) = .ok true := by decide +kernel
  have hfails : Deployment.verdict (Rollout.find autoscaler.key) =
      .error (.malformed (some "Deployment") "invalid type: string \"two\", expected i32") := by
    decide +kernel
  rw [Deployment.verdict_eq_true] at hup
  have hdown : ¬ Deployment.Up (Rollout.find autoscaler.key) := by
    rw [← Deployment.verdict_eq_true, hfails]
    rintro ⟨⟩
  have hdeployments : Manifest.ofKind Deployment.kind Rollout.pass.manifest =
      [activator, autoscaler, Rollout.resource "Deployment" "controller"] := rfl
  refine ⟨hfind, hup, ?_⟩
  obtain ⟨-, ⟨hall, -⟩ | ⟨front, r, rest, t', hfront, hfirst, hr, hcalls, hstops⟩⟩ :=
    deployments_checked Rollout.handle Rollout.find hfind Solo.now Rollout.pass []
  · exact absurd (hall autoscaler (by rw [hdeployments]; simp)) hdown
  · rw [hdeployments] at hfront
    obtain _ | ⟨a, _ | ⟨b, front⟩⟩ := front <;>
      simp only [List.nil_append, List.cons_append, List.cons.injEq] at hfront
    · obtain ⟨rfl, -⟩ := hfront
      exact absurd hup hr
    · obtain ⟨rfl, rfl, -⟩ := hfront
      cases hstops with
      | waiting awaited => cases hfails.symm.trans (Deployment.verdict_eq_false.2 awaited)
      | failing unreadable reports => exact ⟨_, _, unreadable, hcalls, reports⟩
    · obtain ⟨-, rfl, -⟩ := hfront
      exact absurd (hfirst autoscaler (by simp)) hdown

end ReleaseKeeper
