import ReleaseKeeper.Proofs.Transform.Retarget

/-!
# The certificates that the controller gets

Two transformers bring certificates to the controller, those of the instance and those of services.
Both put entries into the same three lists by name, whatever these hold: each entry then comes first
among what goes by its name, and what goes by other names is left as it was (`Json.Received`). The two
use different names, so what one of them brings the other does not take away (`Delivered.trans`), and
in the end the controller has both (`certificates_delivered`).
-/
namespace ReleaseKeeper

open Json (itemsAt onContainers putNamed withItems)
open Resource (mapFirstContainer.onFirst)

/-! ## The first object of a list -/

namespace Json

/-- Of a list the first object is changed in some way, and nothing else. -/
inductive FirstChanged (change : Dict Json → Dict Json → Prop) : List Json → List Json → Prop
  | here {m m' : Dict Json} (h : change m m') (rest : List Json) :
      FirstChanged change (.obj m :: rest) (.obj m' :: rest)
  | behind {x : Json} {xs ys : List Json} (hx : x.asObj? = none) (h : FirstChanged change xs ys) :
      FirstChanged change (x :: xs) (x :: ys)

variable {items : List Json}

namespace FirstChanged

variable {change later both : Dict Json → Dict Json → Prop} {xs ys zs : List Json}

theorem trans (hboth : ∀ {l m n}, change l m → later m n → both l n)
    (h : FirstChanged change xs ys) (h' : FirstChanged later ys zs) : FirstChanged both xs zs := by
  induction h generalizing zs with
  | here hm rest =>
    cases h' with
    | here hn => exact .here (hboth hm hn) rest
    | behind hx => cases hx
  | behind hx _ ih =>
    cases h' with
    | here => cases hx
    | behind _ hrest => exact .behind hx (ih hrest)

theorem exists_object (h : FirstChanged change xs ys) : ∃ y ∈ ys, y.asObj?.isSome = true := by
  induction h with
  | here => exact ⟨_, List.mem_cons_self, rfl⟩
  | behind _ _ ih =>
    obtain ⟨y, hy, hobject⟩ := ih
    exact ⟨y, List.mem_cons_of_mem _ hy, hobject⟩

end FirstChanged

theorem firstChanged_onFirst {change : Dict Json → Dict Json → Prop} {f : Dict Json → Dict Json}
    (hf : ∀ m, change m (f m)) (hitems : ∃ x ∈ items, x.asObj?.isSome = true) :
    FirstChanged change items (mapFirstContainer.onFirst f items) := by
  induction items with
  | nil => exact absurd hitems (by simp)
  | cons x rest ih =>
    cases hx : x.asObj? with
    | some members =>
      obtain rfl := eq_obj_of_asObj? hx
      exact .here (hf members) rest
    | none =>
      rw [Resource.onFirst_cons hx]
      refine .behind hx (ih ?_)
      obtain ⟨y, hy, hobject⟩ := hitems
      obtain rfl | hy := List.mem_cons.1 hy
      · rw [hx] at hobject
        cases hobject
      · exact ⟨y, hy, hobject⟩

end Json

open Json (Received FirstChanged)

/-! ## Certificates in a pod -/

/-- Certificates on their way into a pod: a volume that is mounted into the first container under a
path, and a variable that tells the container of them. -/
structure Delivery where
  name : String
  volume : Json
  path : String
  env : String
  value : String

namespace Delivery

variable (d : Delivery)

def volumeEntry : String × Json := (d.name, d.volume)

def mountEntry : String × Json :=
  (d.name, .obj [("mountPath", .str d.path), ("name", .str d.name)])

def envEntry : String × Json := (d.env, .obj [("name", .str d.env), ("value", .str d.value)])

/-- Brings certificates to a pod. -/
def deliver (pod : Dict Json) : Dict Json :=
  onContainers (mapFirstContainer.onFirst (Transformer.mount d.name d.path d.env d.value))
    (withItems "volumes" (putNamed d.volume) pod)

end Delivery

/-- A container that got certificates, and is otherwise as it was. -/
structure Equipped (ds : List Delivery) (before after : Dict Json) : Prop where
  mounts : Received (ds.map Delivery.mountEntry) (itemsAt "volumeMounts" before)
    (itemsAt "volumeMounts" after)
  env : Received (ds.map Delivery.envEntry) (itemsAt "env" before) (itemsAt "env" after)
  rest : Table.SameBut ["volumeMounts", "env"] before after

/-- A pod that got certificates, and is otherwise as it was. -/
structure Delivered (ds : List Delivery) (before after : Dict Json) : Prop where
  volumes : Received (ds.map Delivery.volumeEntry) (itemsAt "volumes" before)
    (itemsAt "volumes" after)
  containers : ∃ items items', before.lookup "containers" = some (.arr items) ∧
    after.lookup "containers" = some (.arr items') ∧ FirstChanged (Equipped ds) items items'
  rest : Table.SameBut ["volumes", "containers"] before after

variable {d : Delivery} {ds more : List Delivery} {a b c pod : Dict Json}

/-- Mounts and variables of other names leave each other where they are. -/
theorem Equipped.trans (h : Equipped ds a b) (h' : Equipped more b c)
    (hapart : ∀ d ∈ ds, ∀ d' ∈ more, d.name ≠ d'.name ∧ d.env ≠ d'.env) :
    Equipped (ds ++ more) a c where
  mounts := h.mounts.trans_map h'.mounts fun d hd d' hd' => (hapart d hd d' hd').1
  env := h.env.trans_map h'.env fun d hd d' hd' => (hapart d hd d' hd').2
  rest := h.rest.trans h'.rest

/-- **Certificates of other names leave each other where they are.** -/
theorem Delivered.trans (h : Delivered ds a b) (h' : Delivered more b c)
    (hapart : ∀ d ∈ ds, ∀ d' ∈ more, d.name ≠ d'.name ∧ d.env ≠ d'.env) :
    Delivered (ds ++ more) a c where
  volumes := h.volumes.trans_map h'.volumes fun d hd d' hd' => (hapart d hd d' hd').1
  containers := by
    obtain ⟨items, items₁, hitems, hitems₁, hfirst⟩ := h.containers
    obtain ⟨items₂, items', hitems₂, hitems', hlater⟩ := h'.containers
    obtain rfl : items₁ = items₂ := by simpa [hitems₁] using hitems₂
    exact ⟨items, items', hitems, hitems', hfirst.trans (fun hd hmore => hd.trans hmore hapart) hlater⟩
  rest := h.rest.trans h'.rest

theorem equipped_mount (d : Delivery) (container : Dict Json) :
    Equipped [d] container (Transformer.mount d.name d.path d.env d.value container) where
  mounts := by
    rw [Transformer.mount, withItems, Json.itemsAt_put (by decide), Json.itemsAt_withItems]
    exact Json.received_putNamed (Transformer.named_mountPath d.path d.name) _
  env := by
    rw [Transformer.mount, Json.itemsAt_withItems, withItems, Json.itemsAt_put (by decide)]
    exact Json.received_putNamed (Transformer.named_value d.env d.value) _
  rest := (Table.sameBut_put (by simp) _ _).trans (Table.sameBut_put (by simp) _ _)

theorem delivered_deliver {items : List Json} (hvolume : d.volume.Named d.name)
    (hpod : pod.lookup "containers" = some (.arr items))
    (hitems : ∃ x ∈ items, x.asObj?.isSome = true) : Delivered [d] pod (d.deliver pod) where
  volumes := by
    rw [Delivery.deliver, onContainers, Json.itemsAt_adjust (by decide), Json.itemsAt_withItems]
    exact Json.received_putNamed hvolume _
  containers := by
    refine ⟨items, _, hpod, ?_, Json.firstChanged_onFirst (equipped_mount d) hitems⟩
    rw [Delivery.deliver, onContainers, Table.lookup_adjust, if_pos rfl, withItems, Table.lookup_put,
      if_neg (by decide), hpod]
    rfl
  rest := (Table.sameBut_put (by simp) _ _).trans (Table.sameBut_adjust (by simp) _ _)

/-! ## The two transformers -/

/-- What the certificates that an instance names bring to the controller. -/
def CustomCerts.delivery (c : CustomCerts) : Delivery where
  name := c.volume
  volume :=
    if c.kind = "ConfigMap" then
      .obj [("configMap", .obj [("name", .str c.name)]), ("name", .str c.volume)]
    else .obj [("name", .str c.volume), ("secret", .obj [("secretName", .str c.name)])]
  path := "/custom-certs"
  env := "SSL_CERT_DIR"
  value := "/custom-certs"

/-- What the certificates of services bring to the controller. -/
def serviceDelivery : Delivery where
  name := "service-ca"
  volume := .obj [("configMap", .obj [("name", .str "config-service-ca")]),
    ("name", .str "service-ca")]
  path := "/var/run/secrets/kubernetes.io/servicecerts"
  env := "SSL_CERT_FILE"
  value := "/var/run/secrets/kubernetes.io/servicecerts/service-ca.crt"

/-- Certificates that can be mounted: of a known kind, and named. -/
structure CustomCerts.Mountable (c : CustomCerts) : Prop where
  kind : c.kind = "ConfigMap" ∨ c.kind = "Secret"
  name : c.name ≠ ""

theorem Json.object_pair {j k : String} (h : k ≠ j) (x y : Json) : object [(j, x), (k, y)] =
    .obj (if KeyOrder.before k j then [(k, y), (j, x)] else [(j, x), (k, y)]) := by
  simp [object, Table.ofEntries, Table.overlay, Table.put, h]

namespace CustomCerts

variable {custom : CustomCerts}

theorem known?_eq_none : custom.known? = none ↔
    custom.kind ≠ "ConfigMap" ∧ custom.kind ≠ "Secret" := by
  rw [known?]
  split
  · next h => simp [h]
  · split <;> simp [*]

theorem named_delivery (c : CustomCerts) : c.delivery.volume.Named c.delivery.name := by
  rw [delivery]
  dsimp only
  split <;> rfl

/-- The source that certificates of a known kind are taken from. -/
theorem Mountable.exists_source (h : custom.Mountable) : ∃ source, custom.source? = some source ∧
    Json.object [("name", .str custom.volume), source] = custom.delivery.volume := by
  obtain hkind | hkind := h.kind
  · refine ⟨("configMap", .obj [("name", .str custom.name)]), ?_, ?_⟩
    · rw [source?, known?, if_pos hkind]
      rfl
    · rw [Json.object_pair (by decide), if_pos (by decide), delivery, if_pos hkind]
  · have hother : custom.kind ≠ "ConfigMap" := by
      rw [hkind]
      decide
    refine ⟨("secret", .obj [("secretName", .str custom.name)]), ?_, ?_⟩
    · rw [source?, known?, if_neg hother, if_pos hkind]
      rfl
    · rw [Json.object_pair (by decide), if_neg (by decide), delivery, if_neg hother]

end CustomCerts

namespace Transformer

variable {r : Resource} {certs : Option CustomCerts} {custom : CustomCerts}

theorem isController_iff : r.isController = true ↔ r.kind = "Deployment" ∧ r.name = "controller" := by
  rw [Resource.isController, Resource.hasName, Bool.and_eq_true, decide_eq_true_eq,
    decide_eq_true_eq, controllerDeployment]

/-- Only certificates that cannot be mounted are refused. -/
theorem configureCerts_eq_error : (∃ e, configureCerts custom r = .error e) ↔
    (custom.kind ≠ "ConfigMap" ∧ custom.kind ≠ "Secret") ∨ custom.name = "" := by
  rw [← CustomCerts.known?_eq_none, configureCerts]
  cases custom.known? with
  | none => simp
  | some known => by_cases hname : custom.name = "" <;> simp [hname]

theorem customCerts_eq_error : (∃ e, (customCerts certs).apply r = .error e) ↔
    ∃ c, certs = some c ∧ ¬ (c.kind = "" ∧ c.name = "") ∧ r.isController = true ∧
      ((c.kind ≠ "ConfigMap" ∧ c.kind ≠ "Secret") ∨ c.name = "") := by
  have hblamed : (∃ e, (customCerts certs).apply r = .error e) ↔
      ∃ e, (customCerts certs).change r = .error e := by
    rw [apply]
    cases (customCerts certs).change r <;> simp [Except.mapError]
  rw [hblamed, customCerts]
  cases certs with
  | none => simp
  | some c =>
    dsimp only
    split
    · next hidle =>
      constructor
      · rintro ⟨e, h⟩
        cases h
      · rintro ⟨c', ⟨⟩, hasked, hcontroller, -⟩
        exact (hidle.elim hasked fun h => h hcontroller).elim
    · next hidle =>
      rw [not_or, not_not] at hidle
      rw [configureCerts_eq_error]
      refine ⟨fun h => ⟨c, rfl, hidle.1, hidle.2, h⟩, ?_⟩
      rintro ⟨c', ⟨⟩, -, -, h⟩
      exact h

theorem customCerts_of_not_controller (certs : Option CustomCerts) (h : ¬ r.isController = true) :
    (customCerts certs).apply r = .ok r := by
  refine apply_eq_ok.2 ?_
  cases certs with
  | none => rfl
  | some c => exact if_pos (.inr h)

/-- Certificates that can be mounted are. -/
theorem configureCerts_of_mountable (h : custom.Mountable) (r : Resource) :
    configureCerts custom r = .ok (r.mapPodSpec custom.delivery.deliver) := by
  obtain ⟨source, hsource, hvolume⟩ := h.exists_source
  rw [configureCerts_of_source hsource h.name, mountCerts, hvolume, Resource.mapFirstContainer,
    Resource.mapPodSpec_mapPodSpec]
  rfl

theorem customCerts_of_mountable (h : custom.Mountable) (hr : r.isController = true) :
    (customCerts (some custom)).apply r = .ok (r.mapPodSpec custom.delivery.deliver) := by
  have hasked : ¬ ((custom.kind = "" ∧ custom.name = "") ∨ ¬ r.isController = true) := by
    rw [not_or, not_not]
    exact ⟨fun hnothing => h.name hnothing.2, hr⟩
  exact apply_eq_ok.2 ((if_neg hasked).trans (configureCerts_of_mountable h r))

/-- Where no volume has their name, the certificates of services are brought to a pod. -/
theorem mountServiceCerts_of_absent {pod : Dict Json}
    (h : ∀ x ∈ itemsAt "volumes" pod, ¬ x.Named "service-ca") :
    mountServiceCerts pod = serviceDelivery.deliver pod := by
  have habsent : ¬ hasServiceCerts pod = true := fun hpod => by
    obtain ⟨x, hx, hnamed⟩ := hasServiceCerts_iff.1 hpod
    exact h x hx hnamed
  have hnamed : serviceDelivery.volume.Named "service-ca" := rfl
  have hadded : addServiceCerts pod =
      withItems "volumes" (putNamed serviceDelivery.volume) pod := by
    rw [withItems, Json.putNamed_of_absent hnamed h]
    rfl
  rw [mountServiceCerts, if_neg habsent, hadded]
  rfl

/-- **What certificates make of a resource.** Those of the instance are refused exactly if they are
asked for, the resource is the controller, and they cannot be mounted. Nothing but the controller is
changed. And where the controller has a pod with a container, whose volumes do not have those of
services yet, certificates of the instance and of services are both delivered. -/
theorem certificates_delivered (certs : Option CustomCerts) (r : Resource) :
    ((∃ e, (customCerts certs).apply r = .error e) ↔ ∃ c, certs = some c ∧
      ¬ (c.kind = "" ∧ c.name = "") ∧ (r.kind = "Deployment" ∧ r.name = "controller") ∧
      ((c.kind ≠ "ConfigMap" ∧ c.kind ≠ "Secret") ∨ c.name = "")) ∧
    (¬ (r.kind = "Deployment" ∧ r.name = "controller") → (customCerts certs).apply r = .ok r) ∧
    ∀ c pod items, certs = some c → c.Mountable → r.kind = "Deployment" ∧ r.name = "controller" →
      r.podSpec? = some pod → pod.lookup "containers" = some (.arr items) →
      (∃ x ∈ items, x.asObj?.isSome = true) →
      (∀ x ∈ itemsAt "volumes" pod, ¬ x.Named "service-ca") →
      ∃ out pod', Pipeline.apply [customCerts certs, serviceCerts] r = .ok out ∧
        out.podSpec? = some pod' ∧ out = r.mapPodSpec (fun _ => pod') ∧
        Delivered [c.delivery, serviceDelivery] pod pod' := by
  refine ⟨by rw [← isController_iff]; exact customCerts_eq_error,
    fun h => customCerts_of_not_controller certs (mt isController_iff.1 h), ?_⟩
  rintro c pod items rfl hc hr hpod hcontainers hitems habsent
  have hcontroller := isController_iff.2 hr
  have hcustom : Delivered [c.delivery] pod (c.delivery.deliver pod) :=
    delivered_deliver c.named_delivery hcontainers hitems
  -- the volume of the instance is not taken for the one of services
  have hstill : ∀ x ∈ itemsAt "volumes" (c.delivery.deliver pod), ¬ x.Named "service-ca" := by
    intro x hx hnamed
    refine habsent x (hcustom.volumes.mem_of_mem hx (List.forall_mem_singleton.2 fun hvolume => ?_))
      hnamed
    exact volume_ne_serviceCertsVolume c (Option.some.inj (hvolume.symm.trans hnamed))
  obtain ⟨_, items', _, hcontainers', hfirst⟩ := hcustom.containers
  have hservice : Delivered [serviceDelivery] (c.delivery.deliver pod)
      (mountServiceCerts (c.delivery.deliver pod)) := by
    rw [mountServiceCerts_of_absent hstill]
    exact delivered_deliver rfl hcontainers' hfirst.exists_object
  have hmounted := customCerts_of_mountable hc hcontroller
  have halike : r.Alike (r.mapPodSpec c.delivery.deliver) :=
    (Resource.aside_mapPodSpec _ r).gentle.keeps.alike
  refine ⟨_, _, Pipeline.apply_cons_eq_ok.2 ⟨_, hmounted, Pipeline.apply_cons_eq_ok.2
    ⟨_, serviceCerts_of_isController (halike.isController_eq.trans hcontroller), rfl⟩⟩, ?_, ?_,
    hcustom.trans hservice ?_⟩
  · rw [Resource.mapPodSpec_mapPodSpec, Resource.podSpec?_mapPodSpec, hpod]
    rfl
  · rw [Resource.mapPodSpec_mapPodSpec]
    refine Resource.mapPodSpec_congr fun pod' hpod' => ?_
    obtain rfl := Option.some.inj (hpod.symm.trans hpod')
    rfl
  · simp only [List.forall_mem_singleton]
    exact ⟨volume_ne_serviceCertsVolume c, show "SSL_CERT_DIR" ≠ "SSL_CERT_FILE" by decide⟩

namespace Mounting

def secret : CustomCerts := { kind := "Secret", name := "ca" }

/-- A pod with odd lists: what is no object, two volumes of one name, and variables that are no
list. -/
def oddPod : Dict Json := [
  ("containers", .arr [.null,
    .obj [("env", .str "none"), ("name", .str "controller"),
      ("volumeMounts", .arr [.obj [("mountPath", .str "/ca"), ("name", .str "service-ca")]])]]),
  ("volumes", .arr [.int 5, .obj [("name", .str "custom-certs-ca")], .obj [("name", .str "data")],
    .obj [("name", .str "custom-certs-ca")]])]

def oddController : Resource := { members := [("apiVersion", .str "apps/v1"),
  ("kind", .str "Deployment"), ("metadata", .obj [("name", .str "controller")]),
  ("spec", .obj [("template", .obj [("spec", .obj oddPod)])])] }

end Mounting

open Mounting in
/-- Whatever the lists hold, certificates are delivered beside it. -/
theorem certificates_delivered_malformed : ∃ out pod',
    Pipeline.apply [customCerts (some secret), serviceCerts] oddController = .ok out ∧
      out.podSpec? = some pod' ∧ Delivered [secret.delivery, serviceDelivery] oddPod pod' := by
  obtain ⟨out, pod', hout, hpod', -, hdelivered⟩ :=
    (certificates_delivered (some secret) oddController).2.2 secret oddPod _ rfl
      ⟨.inr rfl, by decide⟩ (by decide) rfl rfl ⟨_, List.mem_cons_of_mem _ List.mem_cons_self, rfl⟩
      (by decide)
  exact ⟨out, pod', hout, hpod', hdelivered⟩

end Transformer

end ReleaseKeeper
