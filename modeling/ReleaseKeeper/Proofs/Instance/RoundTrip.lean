import Mathlib.Data.List.Nodup
import ReleaseKeeper.Proofs.Instance.Json
import ReleaseKeeper.Proofs.Instance.Spec
import ReleaseKeeper.Proofs.Json.Equality
import ReleaseKeeper.Proofs.Json.Forms

/-!
# What is written of an instance is what was read

A part of a spec that has a second name is read alike under both of its names
(`InstanceSpec.ofJson_eq_of_sameParts`): the fields of a spec come in an order in which nothing stands
between the two names of a part, so even the first fault is the same one. Together with the parts of
specs and of statuses being read back this is `Instance.parts_read_back`: no spec and no status
changes by being written and read again.
-/
namespace ReleaseKeeper

open Typed Typed.Reader Json Table

namespace InstanceSpec

/-! ## Second names -/

/-- The second names of parts of a spec, with the first names. -/
def secondNames : Dict String := [
  ("cluster-local-gateway", "clusterLocalGateway"),
  ("controller-custom-certs", "controllerCustomCerts"),
  ("knative-ingress-gateway", "knativeIngressGateway")]

/-- The first name of a part that a spec may have under a name. -/
def firstName (name : String) : String := (secondNames.lookup name).getD name

/-- Members of an object under the first names of the parts. -/
def underFirstNames (fields : Dict Json) : Dict Json := fields.map fun e => (firstName e.1, e.2)

/-- Objects that differ only in the names that they have the parts of a spec under. -/
structure SameParts (a b : Dict Json) : Prop where
  once : (a.map fun e => firstName e.1).Nodup
  perm : (underFirstNames a).Perm (underFirstNames b)

variable {α : Type} {read : Typed.Reader α} {a b fields : Dict Json} {x : Json}
  {k name other : String}

/-- A second name stands for its first name, which stands for itself. -/
theorem firstName_of_second : ∀ e ∈ secondNames,
    firstName e.1 = e.2 ∧ firstName e.2 = e.2 ∧ e.1 ≠ e.2 := by decide

theorem second_or_eq (k : String) : (k, firstName k) ∈ secondNames ∨ firstName k = k := by
  rw [firstName]
  cases h : secondNames.lookup k with
  | none => exact .inr rfl
  | some name => exact .inl (mem_of_lookup h)

theorem eq_or_eq_of_firstName (h : (other, name) ∈ secondNames) (hk : firstName k = name) :
    k = other ∨ k = name := by
  have hn : (secondNames.map (·.2)).Nodup := by decide
  obtain hsecond | hself := second_or_eq k
  · rw [hk] at hsecond
    exact .inl (congrArg Prod.fst (List.inj_on_of_nodup_map hn hsecond h rfl))
  · exact .inr (hself.symm.trans hk)

theorem eq_of_firstName (h : name ∉ secondNames.map (·.2)) (hk : firstName k = name) : k = name := by
  obtain hsecond | hself := second_or_eq k
  · rw [hk] at hsecond
    exact absurd (List.mem_map.2 ⟨_, hsecond, rfl⟩) h
  · exact hself.symm.trans hk

theorem mem_underFirstNames : (name, x) ∈ underFirstNames fields ↔
    ∃ k, firstName k = name ∧ (k, x) ∈ fields := by
  simp only [underFirstNames, List.mem_map, Prod.exists, Prod.mk.injEq]
  constructor
  · rintro ⟨k, y, hmem, hname, rfl⟩
    exact ⟨k, hname, hmem⟩
  · rintro ⟨k, hname, hmem⟩
    exact ⟨k, x, hmem, hname, rfl⟩

section
variable (hn : (fields.map fun e => firstName e.1).Nodup)
include hn

theorem underFirstNames_nodup : ((underFirstNames fields).map (·.1)).Nodup := by
  rwa [underFirstNames, List.map_map]

theorem lookup_firstName (h : fields.lookup k = some x) :
    (underFirstNames fields).lookup (firstName k) = some x :=
  lookup_of_mem (underFirstNames_nodup hn) (mem_underFirstNames.2 ⟨k, rfl, mem_of_lookup h⟩)

theorem exists_lookup_of_underFirstNames (h : (underFirstNames fields).lookup name = some x) :
    ∃ k, firstName k = name ∧ fields.lookup k = some x := by
  obtain ⟨k, hname, hmem⟩ := mem_underFirstNames.1 (mem_of_lookup h)
  have hkeys : (fields.map (·.1)).Nodup := by
    refine List.Nodup.of_map firstName ?_
    rwa [List.map_map]
  exact ⟨k, hname, lookup_of_mem hkeys hmem⟩

/-- Where no other name stands for it, a part has the same member under first names. -/
theorem lookup_underFirstNames (hname : firstName name = name)
    (h : ∀ k, firstName k = name → fields.lookup k ≠ none → k = name) :
    (underFirstNames fields).lookup name = fields.lookup name := by
  cases hunder : (underFirstNames fields).lookup name with
  | none =>
    cases hgiven : fields.lookup name with
    | none => rfl
    | some x => rw [← hname, lookup_firstName hn hgiven] at hunder; cases hunder
  | some x =>
    obtain ⟨k, hk, hgiven⟩ := exists_lookup_of_underFirstNames hn hunder
    obtain rfl := h k hk (by rw [hgiven]; exact Option.some_ne_none x)
    exact hgiven.symm

/-- A part without a second name. -/
theorem field?_underFirstNames (hfirst : firstName name = name)
    (h : name ∉ secondNames.map (·.2)) :
    field? (underFirstNames fields) name read = field? fields name read :=
  field?_congr (lookup_underFirstNames hn hfirst fun _ hk _ => eq_of_firstName h hk)

/-- A part with a second name. -/
theorem aliased?_eq_field? (h : (other, name) ∈ secondNames) :
    aliased? fields other name read = field? (underFirstNames fields) name read := by
  obtain ⟨hother, hfirst, hne⟩ := firstName_of_second _ h
  cases hgiven : fields.lookup other with
  | none =>
    rw [aliased?_of_lookup_eq_none hgiven]
    refine field?_congr (lookup_underFirstNames hn hfirst fun k hk hnot => ?_).symm
    obtain rfl | rfl := eq_or_eq_of_firstName h hk
    · exact absurd hgiven hnot
    · rfl
  | some x =>
    have hnot : fields.lookup name = none := by
      by_contra hsome
      obtain ⟨y, hy⟩ := Option.ne_none_iff_exists'.1 hsome
      have heq := List.inj_on_of_nodup_map hn (mem_of_lookup hgiven) (mem_of_lookup hy)
        (hother.trans hfirst.symm)
      exact hne (congrArg Prod.fst heq)
    have hunder := lookup_firstName hn hgiven
    rw [show firstName other = name from hother] at hunder
    rw [aliased?_of_lookup_eq_some hgiven hnot, field?, hunder]

end

/-- Which of its names a part has makes no difference. -/
theorem ofJson_eq_of_sameParts (h : SameParts a b) :
    InstanceSpec.ofJson (.obj a) = InstanceSpec.ofJson (.obj b) := by
  have hn : (b.map fun e => firstName e.1).Nodup := by
    have hkeys := ((h.perm.map (·.1)).nodup_iff).1 (underFirstNames_nodup h.once)
    rwa [underFirstNames, List.map_map] at hkeys
  have hfield : ∀ {α : Type} (name : String) (read : Typed.Reader α),
      field? (underFirstNames a) name read = field? (underFirstNames b) name read :=
    fun _ _ => field?_congr (lookup_perm (underFirstNames_nodup h.once) h.perm _)
  have hplain : ∀ {α : Type} {name : String} (read : Typed.Reader α), firstName name = name →
      name ∉ secondNames.map (·.2) → field? a name read = field? b name read :=
    fun read hfirst hname => by
      rw [← field?_underFirstNames h.once hfirst hname, hfield, field?_underFirstNames hn hfirst hname]
  have haliased : ∀ {α : Type} {other name : String} (read : Typed.Reader α),
      (other, name) ∈ secondNames → aliased? a other name read = aliased? b other name read :=
    fun read hname => by rw [aliased?_eq_field? h.once hname, hfield, aliased?_eq_field? hn hname]
  rw [ofJson, record, record, haliased _ (by decide), haliased _ (by decide),
    haliased _ (by decide), hplain _ rfl (by decide), hplain _ rfl (by decide),
    hplain _ rfl (by decide), hplain _ rfl (by decide)]

/-- A spec is written without second names. -/
theorem firstNames_toJson (s : InstanceSpec) :
    ∃ fields, s.toJson = .obj fields ∧ ∀ e ∈ fields, e.1 ∉ secondNames.map (·.1) := by
  refine ⟨keptMembers s.members, rfl, fun e he => ?_⟩
  have hkey : e.1 ∈ s.members.map (·.1) :=
    (keys_keptMembers s.members).subset (List.mem_map_of_mem he)
  have hfirst : ∀ key ∈ ["clusterLocalGateway", "config", "controllerCustomCerts",
      "knativeIngressGateway", "namespace", "registry", "resources"],
      key ∉ secondNames.map (·.1) := by decide
  exact hfirst _ hkey

end InstanceSpec

end ReleaseKeeper
