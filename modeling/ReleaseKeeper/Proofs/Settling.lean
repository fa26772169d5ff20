import Mathlib.Logic.Function.Conjugate
import ReleaseKeeper.Proofs.Json.Named
import ReleaseKeeper.Proofs.Resource.Identity

/-!
# Changes that settle

A change settles if it changes nothing the second time. Changes that settle one by one need not
settle one after the other: a later one may undo what an earlier one did, which then is done again.
They do if each of them spares what the earlier ones have settled (`Settling.carryOut`). Changes that
commute spare each other, as changes of different entries of a table do (`Writes.commute`), and
changes of the parts of a value do what the changes of each part do (`Traversal.spares`). Only in a
list of named entries it matters what the entries are (`spares_putNamed`).
-/
namespace ReleaseKeeper

section

variable {α : Type} {f g : α → α}

/-- A change that changes nothing the second time. -/
def Settles (f : α → α) : Prop := ∀ x, f (f x) = f x

/-- A change that undoes another one: it comes to what it comes to by itself. -/
def Absorbs (g f : α → α) : Prop := ∀ x, g (f x) = g x

/-- A change that leaves alone whatever another one has settled. -/
def Spares (g f : α → α) : Prop := ∀ x, f x = x → f (g x) = g x

theorem Spares.refl (f : α → α) : Spares f f := fun x hx => by rw [hx, hx]

theorem Spares.of_commute (h : Function.Commute f g) : Spares g f := fun x hx => by
  rw [h.eq, hx]

theorem Spares.comp {h : α → α} (hh : Spares h f) (hg : Spares g f) : Spares (h ∘ g) f :=
  fun x hx => hh _ (hg x hx)

/-- Of two changes the later has to spare the earlier. -/
theorem Settles.comp (hf : Settles f) (hg : Settles g) (h : Spares g f) : Settles (g ∘ f) := by
  intro x
  change g (f (g (f x))) = g (f x)
  rw [h _ (hf x), hg]

/-- What undoes each of two changes undoes both, if it can be done in between. -/
theorem Absorbs.comp {f' g' : α → α} (hf : Absorbs f f') (hg : Absorbs g g')
    (h : Function.Commute f g') : Absorbs (g ∘ f) (g' ∘ f') := fun x => by
  change g (f (g' (f' x))) = g (f x)
  rw [h.eq, hg, hf]

/-- Makes changes one after the other. -/
def carryOut (changes : List (α → α)) (x : α) : α := changes.foldl (fun x f => f x) x

theorem carryOut_append (first second : List (α → α)) :
    carryOut (first ++ second) = carryOut second ∘ carryOut first := by
  funext x
  rw [carryOut, List.foldl_append]
  rfl

/-- What every change keeps all of them keep. -/
theorem carryOut_keeps {β : Type} (of : α → β) {changes : List (α → α)}
    (h : ∀ f ∈ changes, ∀ x, of (f x) = of x) (x : α) : of (carryOut changes x) = of x := by
  induction changes generalizing x with
  | nil => rfl
  | cons f rest ih =>
    obtain ⟨hf, hrest⟩ := List.forall_mem_cons.1 h
    exact (ih hrest (f x)).trans (hf x)

/-- Changes that settle, each of which spares what the earlier ones have settled. -/
structure Settling (changes : List (α → α)) : Prop where
  settles : ∀ f ∈ changes, Settles f
  spares : changes.Pairwise fun f g => Spares g f

namespace Settling

variable {changes : List (α → α)}

/-- Changes that settle and spare each other settle in any order. -/
theorem of_mutual (h : ∀ f ∈ changes, Settles f)
    (hspares : ∀ f ∈ changes, ∀ g ∈ changes, Spares g f) : Settling changes where
  settles := h
  spares := List.pairwise_iff_forall_sublist.2 fun hsub =>
    hspares _ (hsub.subset (by simp)) _ (hsub.subset (by simp))

/-- What is settled stays settled through all changes that spare it. -/
theorem spares_carryOut (h : ∀ g ∈ changes, Spares g f) : Spares (carryOut changes) f := by
  induction changes with
  | nil => exact fun _ => id
  | cons g rest ih =>
    obtain ⟨hg, hrest⟩ := List.forall_mem_cons.1 h
    exact (ih hrest).comp hg

/-- In the end every change is settled. -/
theorem settled (h : Settling changes) (x : α) :
    ∀ f ∈ changes, f (carryOut changes x) = carryOut changes x := by
  obtain ⟨hsettles, hspares⟩ := h
  induction changes generalizing x with
  | nil => simp
  | cons f rest ih =>
    obtain ⟨hf, hrest⟩ := List.forall_mem_cons.1 hsettles
    obtain ⟨hfirst, hlater⟩ := List.pairwise_cons.1 hspares
    exact List.forall_mem_cons.2 ⟨spares_carryOut hfirst _ (hf x), ih (f x) hrest hlater⟩

theorem carryOut_of_settled {x : α} (h : ∀ f ∈ changes, f x = x) : carryOut changes x = x := by
  induction changes with
  | nil => rfl
  | cons f rest ih =>
    obtain ⟨hf, hrest⟩ := List.forall_mem_cons.1 h
    change carryOut rest (f x) = x
    rw [hf, ih hrest]

/-- **Changes that settle and spare each other settle together.** -/
theorem carryOut (h : Settling changes) : Settles (carryOut changes) :=
  fun x => carryOut_of_settled (h.settled x)

/-- What all changes together leave alone each of them leaves alone. -/
theorem settled_of_carryOut (h : Settling changes) {x : α}
    (hx : ReleaseKeeper.carryOut changes x = x) : ∀ f ∈ changes, f x = x := by
  intro f hf
  have hsettled := h.settled x f hf
  rwa [hx] at hsettled

/-- A change that spares each of several changes spares them together. -/
theorem spares_of_forall (h : Settling changes) (hg : ∀ f ∈ changes, Spares g f) :
    Spares g (ReleaseKeeper.carryOut changes) := fun x hx =>
  carryOut_of_settled fun f hf => hg f hf x (h.settled_of_carryOut hx f hf)

end Settling

end

/-! ## Changes of parts -/

/-- How the parts of a value are found, and how all of them are changed. -/
structure Traversal {α β : Type} (parts : β → List α) (update : (α → α) → β → β) : Prop where
  parts_update : ∀ f x, parts (update f x) = (parts x).map f
  update_update : ∀ f g x, update f (update g x) = update (f ∘ g) x
  update_congr : ∀ {f g : α → α} {x : β}, (∀ a ∈ parts x, f a = g a) → update f x = update g x

namespace Traversal

variable {α β γ : Type} {parts : β → List α} {update : (α → α) → β → β} {f g : α → α}

/-- Parts of parts. -/
theorem comp {inner : α → List γ} {within : (γ → γ) → α → α} (h : Traversal parts update)
    (h' : Traversal inner within) :
    Traversal (fun x => (parts x).flatMap inner) (fun f => update (within f)) where
  parts_update f x := by
    rw [h.parts_update, List.flatMap_map, List.map_flatMap]
    exact congrArg (fun part => (parts x).flatMap part) (funext (h'.parts_update f))
  update_update f g x := by
    rw [h.update_update]
    exact h.update_congr fun a _ => h'.update_update f g a
  update_congr hfg := h.update_congr fun _ ha => h'.update_congr fun c hc =>
    hfg c (List.mem_flatMap.2 ⟨_, ha, hc⟩)

theorem absorbs (h : Traversal parts update) (hgf : Absorbs g f) :
    Absorbs (update g) (update f) := fun x => by
  rw [h.update_update]
  exact h.update_congr fun a _ => hgf a

theorem settles (h : Traversal parts update) (hf : Settles f) : Settles (update f) := h.absorbs hf

/-- A value that is settled has settled parts. -/
theorem spares (h : Traversal parts update) (hg : Spares g f) : Spares (update g) (update f) := by
  intro x hx
  have hparts : ∀ a ∈ parts x, f a = a := by
    have hsame : (parts x).map f = (parts x).map id := by rw [← h.parts_update, hx, List.map_id]
    exact List.map_inj_left.1 hsame
  rw [h.update_update]
  exact h.update_congr fun a ha => hg a (hparts a ha)

theorem commute (h : Traversal parts update) (hfg : Function.Commute f g) :
    Function.Commute (update f) (update g) := fun x => by
  rw [h.update_update, h.update_update]
  exact h.update_congr fun a _ => hfg a

end Traversal

namespace Table

theorem traversal_adjust {α : Type} (key : String) :
    Traversal (fun entries : Dict α => (entries.lookup key).toList) (adjust key) where
  parts_update f entries := by
    rw [lookup_adjust, if_pos rfl]
    cases entries.lookup key <;> rfl
  update_update f g entries := adjust_adjust g f entries
  update_congr h := adjust_congr fun v hv => h v (Option.mem_toList.2 hv)

end Table

namespace Json

theorem traversal_mapObject : Traversal (fun x : Json => x.asObj?.toList) mapObject where
  parts_update f x := by cases x <;> rfl
  update_update f g x := by cases x <;> rfl
  update_congr {f g x} h := by
    cases x with
    | obj members => exact congrArg obj (h members List.mem_cons_self)
    | _ => rfl

@[simp] theorem mapObject_id : mapObject id = id := by
  funext x
  cases x <;> rfl

@[simp] theorem mapItems_id : mapItems id = id := by
  funext x
  cases x <;> rfl

theorem traversal_mapItems : Traversal (fun x : Json => x.asArr?.toList) mapItems where
  parts_update f x := by cases x <;> rfl
  update_update f g x := by cases x <;> rfl
  update_congr {f g x} h := by
    cases x with
    | arr items => exact congrArg arr (h items List.mem_cons_self)
    | _ => rfl

theorem traversal_map {α : Type} : Traversal (fun xs : List α => xs) List.map where
  parts_update _ _ := rfl
  update_update _ _ _ := List.map_map
  update_congr h := List.map_congr_left h

theorem itemsAt_withItems (key : String) (f : List Json → List Json) (members : Dict Json) :
    itemsAt key (withItems key f members) = f (itemsAt key members) := by
  simp [withItems, itemsAt, Table.lookup_put, asArr?]

theorem traversal_withItems (key : String) :
    Traversal (fun members => [itemsAt key members]) (withItems key) where
  parts_update f members := by rw [itemsAt_withItems]; rfl
  update_update f g members := by
    rw [withItems, itemsAt_withItems, withItems, Table.put_put]
    rfl
  update_congr h := by rw [withItems, withItems, h _ (List.mem_singleton.2 rfl)]

theorem traversal_withObject (key : String) :
    Traversal (fun members => [objectAt key members]) (withObject key) where
  parts_update f members := by rw [objectAt_withObject]; rfl
  update_update f g members := withObject_withObject key g f members
  update_congr h := by rw [withObject, withObject, h _ (List.mem_singleton.2 rfl)]

end Json

/-! ## Changes of one entry -/

/-- A change of a table that sets one entry, or none. -/
structure Writes {α : Type} (key : String) (value? : Dict α → Option α) (f : Dict α → Dict α) :
    Prop where
  eq : ∀ entries, f entries = (value? entries).elim entries fun v => Table.put key v entries

namespace Writes

variable {α : Type} {j k : String} {v? w? : Dict α → Option α} {f g : Dict α → Dict α}

theorem settles (hf : Writes k v? f)
    (hv : ∀ x entries, v? (Table.put k x entries) = v? entries) : Settles f := by
  intro entries
  cases hve : v? entries with
  | none => simp [hf.eq, hve]
  | some x => simp [hf.eq, hve, hv, Table.put_put]

/-- Changes of different entries commute, if neither looks at what the other one sets. -/
theorem commute (hf : Writes j v? f) (hg : Writes k w? g) (hjk : j ≠ k)
    (hv : ∀ x entries, v? (Table.put k x entries) = v? entries)
    (hw : ∀ x entries, w? (Table.put j x entries) = w? entries) : Function.Commute f g := by
  intro entries
  rw [hg.eq entries, hf.eq entries]
  cases hve : v? entries <;> cases hwe : w? entries <;>
    simp [hf.eq, hg.eq, hv, hw, hve, hwe, Table.put_comm hjk]

/-- The same for a change of an entry that is there. -/
theorem commute_adjust (hg : Writes k w? g) (hjk : j ≠ k) (f : α → α)
    (hw : ∀ entries, w? (Table.adjust j f entries) = w? entries) :
    Function.Commute (Table.adjust j f) g := by
  intro entries
  rw [hg.eq entries, hg.eq, hw]
  cases w? entries with
  | none => rfl
  | some x => exact Table.adjust_put_comm hjk f x entries

end Writes

namespace Json

theorem writes_withItems (key : String) (f : List Json → List Json) :
    Writes key (fun members => some (.arr (f (itemsAt key members)))) (withItems key f) :=
  ⟨fun _ => rfl⟩

theorem writes_withObject (key : String) (f : Dict Json → Dict Json) :
    Writes key (fun members => some (.obj (f (objectAt key members)))) (withObject key f) :=
  ⟨fun _ => rfl⟩

theorem itemsAt_put {j k : String} (h : k ≠ j) (x : Json) (members : Dict Json) :
    itemsAt k (Table.put j x members) = itemsAt k members := by
  rw [itemsAt, Table.lookup_put, if_neg h, itemsAt]

theorem itemsAt_adjust {j k : String} (h : k ≠ j) (f : Json → Json) (members : Dict Json) :
    itemsAt k (Table.adjust j f members) = itemsAt k members := by
  rw [itemsAt, Table.lookup_adjust, if_neg h, itemsAt]

theorem itemsAt_of_writes {j k : String} {v? : Dict Json → Option Json} {f : Dict Json → Dict Json}
    (hf : Writes k v? f) (h : j ≠ k) (members : Dict Json) :
    itemsAt j (f members) = itemsAt j members := by
  rw [hf.eq]
  cases v? members with
  | none => rfl
  | some x => exact itemsAt_put h x members

theorem commute_withItems {j k : String} (h : j ≠ k) (f g : List Json → List Json) :
    Function.Commute (withItems j f) (withItems k g) := by
  refine (writes_withItems j f).commute (writes_withItems k g) h (fun x members => ?_)
    fun x members => ?_
  · rw [itemsAt_put h]
  · rw [itemsAt_put h.symm]

theorem commute_withObject {j k : String} (h : j ≠ k) (f g : Dict Json → Dict Json) :
    Function.Commute (withObject j f) (withObject k g) := by
  refine (writes_withObject j f).commute (writes_withObject k g) h (fun x members => ?_)
    fun x members => ?_
  · rw [objectAt, Table.lookup_put, if_neg h, objectAt]
  · rw [objectAt, Table.lookup_put, if_neg h.symm, objectAt]

theorem commute_adjust_withObject {j k : String} (h : j ≠ k) (f : Json → Json)
    (g : Dict Json → Dict Json) : Function.Commute (Table.adjust j f) (withObject k g) :=
  (writes_withObject k g).commute_adjust h f fun members => by
    rw [objectAt, Table.lookup_adjust, if_neg h.symm, objectAt]

/-! ## Lists of named entries -/

section

variable {entry other : Json} {name : String} {items : List Json}

theorem settles_putNamed (h : entry.Named name) : Settles (putNamed entry) := by
  intro items
  induction items with
  | nil => rw [putNamed, putNamed_cons h, if_pos h]
  | cons x rest ih =>
    rw [putNamed_cons h]
    split
    · rw [putNamed_cons h, if_pos h]
    · next hx => rw [putNamed_cons h, if_neg hx, ih]

/-- An entry that is there stays as it is when another one is put beside it. -/
theorem spares_putNamed {otherName : String} (h : entry.Named name) (hother : other.Named otherName)
    (hne : name ≠ otherName) : Spares (putNamed other) (putNamed entry) := by
  intro items hitems
  induction items with
  | nil => cases hitems
  | cons x rest ih =>
    rw [putNamed_cons h] at hitems
    rw [putNamed_cons hother]
    split at hitems
    · next hx =>
      have hnot : ¬ x.Named otherName := fun hx' => hne (Option.some.inj (hx.symm.trans hx'))
      rw [if_neg hnot, putNamed_cons h, if_pos hx, (List.cons.inj hitems).1]
    · next hx =>
      have hrest := (List.cons.inj hitems).2
      have hnot : ¬ other.Named name := fun h' => hne (Option.some.inj (h'.symm.trans hother))
      split
      · rw [putNamed_cons h, if_neg hnot, hrest]
      · rw [putNamed_cons h, if_neg hx, ih hrest]

/-- An entry that is there stays as it is when others are added behind. -/
theorem putNamed_append (h : entry.Named name) (more : List Json)
    (hitems : putNamed entry items = items) :
    putNamed entry (items ++ more) = items ++ more := by
  induction items with
  | nil => cases hitems
  | cons x rest ih =>
    rw [putNamed_cons h] at hitems
    rw [List.cons_append, putNamed_cons h]
    split at hitems
    · next hx => rw [if_pos hx, (List.cons.inj hitems).1]
    · next hx => rw [if_neg hx, ih (List.cons.inj hitems).2]

end

/-- Adding what is there already changes nothing, and it is there once it was added. -/
theorem settling_addNew {items : List Json} (h : ∀ x ∈ items, (x == x) = true) :
    Settling (items.map addNew) := by
  have hadded : ∀ x ∈ items, ∀ xs, (addNew x xs).any (x == ·) = true := by
    intro x hx xs
    rw [addNew]
    split
    · next hany => exact hany
    · simp [h x hx]
  refine .of_mutual (List.forall_mem_map.2 fun x hx xs => ?_)
    (List.forall_mem_map.2 fun x hx => List.forall_mem_map.2 fun y _ xs hxs => ?_)
  · rw [addNew, if_pos (hadded x hx xs)]
  · have hany : xs.any (x == ·) = true := hxs ▸ hadded x hx xs
    have hstill : (addNew y xs).any (x == ·) = true := by
      rw [addNew]
      split
      · exact hany
      · rw [List.any_append, hany, Bool.true_or]
    rw [addNew, if_pos hstill]

end Json

end ReleaseKeeper
