import Mathlib.Data.List.Perm.Basic
import ReleaseKeeper.Manifest.Order

/-!
# The order of a release

The order of application has every resource once, and a part of a release in the order of the whole.
Each resource has its turn, which API version and kind decide (`Resource.turn`): roles of access
control, then the bindings to them, then the rest, kinds of the same names in other groups included.
A release is sorted by turns, and whatever has the same turn stays in the order of the manifest; the
order of deletion is the reverse (`release_order`).
-/
namespace ReleaseKeeper

namespace Text

variable {mark : Char} {text before after : List Char}

theorem cutLast_eq_none_iff : cutLast mark text = none ↔ mark ∉ text := by
  induction text with
  | nil => simp [cutLast]
  | cons c rest ih =>
    rw [cutLast]
    cases hrest : cutLast mark rest with
    | some parts =>
      have hmem : mark ∈ rest := by
        by_contra hno
        rw [ih.2 hno] at hrest
        cases hrest
      simp [hmem]
    | none =>
      have hno : mark ∉ rest := ih.1 hrest
      by_cases hc : c = mark
      · simp [hc]
      · simp [hc, hno, Ne.symm hc]

/-- The text is cut behind which no other mark stands. -/
theorem cutLast_eq_some_iff :
    cutLast mark text = some (before, after) ↔ text = before ++ mark :: after ∧ mark ∉ after := by
  constructor
  · intro h
    refine ⟨eq_of_cutLast h, ?_⟩
    induction text generalizing before after with
    | nil => cases h
    | cons c rest ih =>
      rw [cutLast] at h
      split at h
      · next hrest =>
        obtain ⟨-, rfl⟩ := Prod.mk.inj (Option.some.inj h)
        exact ih hrest
      · next hrest =>
        split at h
        · obtain ⟨-, rfl⟩ := Prod.mk.inj (Option.some.inj h)
          exact cutLast_eq_none_iff.1 hrest
        · cases h
  · rintro ⟨rfl, hafter⟩
    induction before with
    | nil => simp [cutLast, cutLast_eq_none_iff.2 hafter]
    | cons c rest ih => simp [cutLast, ih]

end Text

namespace Resource

/-- Whether the API version is one of access control: its group, a slash, and a version. -/
def IsOfAccessGroup (r : Resource) : Prop :=
  ∃ version : List Char, '/' ∉ version ∧
    r.apiVersion.toList = accessGroup.toList ++ '/' :: version

theorem group_eq_accessGroup_iff {r : Resource} : r.group = accessGroup ↔ r.IsOfAccessGroup := by
  rw [group, groupVersion, IsOfAccessGroup]
  constructor
  · intro h
    split at h
    · next group version hcut =>
      obtain ⟨htext, hversion⟩ := Text.cutLast_eq_some_iff.1 hcut
      dsimp only at h
      exact ⟨version, hversion, by rw [htext, ← h, String.toList_ofList]⟩
    · have hempty : "" = accessGroup := h
      exact absurd hempty (by decide)
  · rintro ⟨version, hversion, htext⟩
    rw [Text.cutLast_eq_some_iff.2 ⟨htext, hversion⟩]
    exact String.ofList_toList

instance (r : Resource) : Decidable r.IsOfAccessGroup :=
  decidable_of_iff _ group_eq_accessGroup_iff

/-- When a resource has its turn: roles first, then the bindings to them, then everything else. -/
def turn (r : Resource) : Nat :=
  if r.IsOfAccessGroup then
    if r.kind = "Role" ∨ r.kind = "ClusterRole" then 0
    else if r.kind = "RoleBinding" ∨ r.kind = "ClusterRoleBinding" then 1
    else 2
  else 2

variable {r : Resource}

theorem turn_le (r : Resource) : r.turn ≤ 2 := by
  unfold turn
  split_ifs <;> simp

theorem isRole_iff : r.isRole = true ↔ r.turn = 0 := by
  have hroles : ["Role", "ClusterRole"].contains r.kind = true ↔
      r.kind = "Role" ∨ r.kind = "ClusterRole" := by simp
  rw [isRole, Bool.and_eq_true, hroles, decide_eq_true_eq, group_eq_accessGroup_iff, turn]
  split_ifs <;> simp [*]

theorem isRoleBinding_iff : r.isRoleBinding = true ↔ r.turn = 1 := by
  have hbindings : ["RoleBinding", "ClusterRoleBinding"].contains r.kind = true ↔
      r.kind = "RoleBinding" ∨ r.kind = "ClusterRoleBinding" := by simp
  rw [isRoleBinding, Bool.and_eq_true, hbindings, decide_eq_true_eq, group_eq_accessGroup_iff, turn]
  split_ifs with hgroup hrole hbinding
  · rcases hrole with hrole | hrole <;> simp [hrole]
  · simp [hgroup, hbinding]
  · simp [hbinding]
  · simp [hgroup]

theorem not_isAccessControl_iff : (!r.isAccessControl) = true ↔ r.turn = 2 := by
  have hle := r.turn_le
  rw [isAccessControl, Bool.not_or, Bool.and_eq_true, Bool.not_eq_true', Bool.not_eq_true',
    ← Bool.not_eq_true, ← Bool.not_eq_true, isRole_iff, isRoleBinding_iff]
  omega

end Resource

namespace Manifest

theorem not_isRole_and_isRoleBinding (r : Resource) : (r.isRole && r.isRoleBinding) = false := by
  rw [Bool.eq_false_iff]
  intro h
  simp only [Resource.isRole, Resource.isRoleBinding, Bool.and_eq_true, List.contains_cons,
    List.contains_nil, Bool.or_false, Bool.or_eq_true, beq_iff_eq] at h
  obtain ⟨⟨hrole, -⟩, hbinding, -⟩ := h
  rcases hrole with hrole | hrole <;> rw [hrole] at hbinding <;> revert hbinding <;> decide

/-- Every resource is applied once. -/
theorem applyOrder_perm (m : Manifest) : m.applyOrder.Perm m := by
  have hbindings : m.filter Resource.isRoleBinding =
      (m.filter fun r => !r.isRole).filter Resource.isRoleBinding := by
    rw [List.filter_filter]
    refine List.filter_congr fun r _ => ?_
    have := not_isRole_and_isRoleBinding r
    cases hrole : r.isRole <;> simp_all
  have hrest : (m.filter fun r => !r.isAccessControl) =
      (m.filter fun r => !r.isRole).filter fun r => !r.isRoleBinding := by
    rw [List.filter_filter]
    refine List.filter_congr fun r _ => ?_
    rw [Resource.isAccessControl, Bool.not_or, Bool.and_comm]
  rw [applyOrder, hbindings, hrest, List.append_assoc]
  exact ((List.filter_append_perm _ _).append_left _).trans (List.filter_append_perm _ _)

theorem mem_applyOrder {m : Manifest} {r : Resource} : r ∈ m.applyOrder ↔ r ∈ m :=
  (applyOrder_perm m).mem_iff

/-- Permissions last, all resources are there once. -/
theorem perm_isAccessControl (m : Manifest) :
    ((m.filter fun r => !r.isAccessControl) ++ m.filter Resource.isAccessControl).Perm m :=
  List.perm_append_comm.trans (List.filter_append_perm _ _)

/-- Every resource is deleted once. -/
theorem deleteOrder_perm (m : Manifest) : m.deleteOrder.Perm m :=
  (perm_isAccessControl _).trans ((List.reverse_perm _).trans (applyOrder_perm m))

/-- The order of application does not depend on what else is applied. -/
theorem applyOrder_filter (p : Resource → Bool) (m : Manifest) :
    applyOrder (m.filter p) = m.applyOrder.filter p := by
  simp only [applyOrder, List.filter_append, List.filter_filter, Bool.and_comm]

/-! ## Turns -/

/-- What has its turn with a resource, in order. -/
def withTurn (n : Nat) (m : Manifest) : Manifest := m.filter fun r => r.turn = n

theorem mem_withTurn {n : Nat} {m : Manifest} {r : Resource} :
    r ∈ m.withTurn n ↔ r ∈ m ∧ r.turn = n := by
  simp [withTurn]

theorem withTurn_withTurn (n k : Nat) (m : Manifest) :
    (m.withTurn k).withTurn n = if k = n then m.withTurn n else [] := by
  split
  · next h => rw [h, withTurn, withTurn, List.filter_filter]; simp
  · next h =>
    refine List.eq_nil_iff_forall_not_mem.2 fun r hr => ?_
    obtain ⟨hk, hn⟩ := mem_withTurn.1 hr
    exact h ((mem_withTurn.1 hk).2.symm.trans hn)

/-- The order of application is one turn after the other. -/
theorem applyOrder_eq (m : Manifest) :
    m.applyOrder = m.withTurn 0 ++ (m.withTurn 1 ++ m.withTurn 2) := by
  rw [applyOrder, List.append_assoc, withTurn, withTurn, withTurn]
  congr 1
  · exact List.filter_congr fun r _ => Bool.eq_iff_iff.2 (by simp [Resource.isRole_iff])
  · congr 1
    · exact List.filter_congr fun r _ => Bool.eq_iff_iff.2 (by simp [Resource.isRoleBinding_iff])
    · refine List.filter_congr fun r _ => Bool.eq_iff_iff.2 ?_
      rw [Resource.not_isAccessControl_iff, decide_eq_true_eq]

/-- Whatever has the same turn stays in the order of the manifest. -/
theorem withTurn_applyOrder (n : Nat) (m : Manifest) :
    m.applyOrder.withTurn n = m.withTurn n := by
  have hparts : m.applyOrder.withTurn n = (m.withTurn 0).withTurn n ++
      ((m.withTurn 1).withTurn n ++ (m.withTurn 2).withTurn n) := by
    rw [applyOrder_eq, withTurn, List.filter_append, List.filter_append]
    rfl
  rw [hparts, withTurn_withTurn, withTurn_withTurn, withTurn_withTurn]
  have hlater : 2 < n → m.withTurn n = [] := fun hn => by
    refine List.eq_nil_iff_forall_not_mem.2 fun r hr => ?_
    have hturn := (mem_withTurn.1 hr).2
    have hle := r.turn_le
    omega
  rcases n with _ | _ | _ | n <;> simp [hlater]

theorem pairwise_applyOrder (m : Manifest) :
    m.applyOrder.Pairwise fun a b => a.turn ≤ b.turn := by
  have heach : ∀ n, (m.withTurn n).Pairwise fun a b => a.turn ≤ b.turn := fun n =>
    List.Pairwise.imp_of_mem
      (fun ha hb _ => Nat.le_of_eq ((mem_withTurn.1 ha).2.trans (mem_withTurn.1 hb).2.symm))
      (List.pairwise_of_forall (R := fun _ _ => True) fun _ _ => trivial)
  rw [applyOrder_eq]
  refine List.pairwise_append.2 ⟨heach 0, List.pairwise_append.2 ⟨heach 1, heach 2, ?_⟩, ?_⟩
  · intro a ha b hb
    rw [(mem_withTurn.1 ha).2, (mem_withTurn.1 hb).2]
    decide
  · intro a ha b _
    rw [(mem_withTurn.1 ha).2]
    exact Nat.zero_le _

/-- Once the order is reversed, permissions are last already. -/
theorem deleteOrder_eq (m : Manifest) : m.deleteOrder = m.applyOrder.reverse := by
  have hreversed : m.applyOrder.reverse =
      (m.withTurn 2).reverse ++ (m.withTurn 0 ++ m.withTurn 1).reverse := by
    rw [applyOrder_eq, ← List.append_assoc, List.reverse_append]
  have hordinary : ∀ r ∈ (m.withTurn 2).reverse, (!r.isAccessControl) = true := fun r hr =>
    Resource.not_isAccessControl_iff.2 (mem_withTurn.1 (List.mem_reverse.1 hr)).2
  have haccess : ∀ r ∈ (m.withTurn 0 ++ m.withTurn 1).reverse, r.isAccessControl = true := by
    intro r hr
    rw [← Bool.not_eq_false', ← Bool.not_eq_true, Resource.not_isAccessControl_iff]
    rcases List.mem_append.1 (List.mem_reverse.1 hr) with hr | hr <;>
      simp [(mem_withTurn.1 hr).2]
  rw [deleteOrder, hreversed, List.filter_append, List.filter_append, List.filter_eq_self.2 hordinary,
    List.filter_eq_self.2 haccess, List.filter_eq_nil_iff.2 fun r hr => by simp [haccess r hr],
    List.filter_eq_nil_iff.2 fun r hr => by simpa using hordinary r hr, List.append_nil,
    List.nil_append]

/-- **A release is ordered by turns.** It is applied with every resource once, one turn after the
other, and in the order of the manifest within a turn; it is deleted in the reverse order. -/
theorem release_order (m : Manifest) :
    m.applyOrder.Perm m ∧
    m.applyOrder.Pairwise (fun a b => a.turn ≤ b.turn) ∧
    (∀ n, m.applyOrder.filter (fun r => r.turn = n) = m.filter fun r => r.turn = n) ∧
    m.deleteOrder = m.applyOrder.reverse ∧
    m.deleteOrder.Pairwise fun a b => b.turn ≤ a.turn := by
  refine ⟨applyOrder_perm m, pairwise_applyOrder m, fun n => withTurn_applyOrder n m,
    deleteOrder_eq m, ?_⟩
  rw [deleteOrder_eq, List.pairwise_reverse]
  exact pairwise_applyOrder m

/-- A role of another group has its turn with the rest. -/
example :
    let named (apiVersion kind : String) : Resource :=
      ⟨[("apiVersion", .str apiVersion), ("kind", .str kind)]⟩
    let foreign := named "rbac.example.com/v1" "Role"
    let binding := named "rbac.authorization.k8s.io/v1" "RoleBinding"
    let role := named "rbac.authorization.k8s.io/v1" "Role"
    Manifest.applyOrder [foreign, binding, role] = [role, binding, foreign] := by
  rfl

end Manifest

end ReleaseKeeper
