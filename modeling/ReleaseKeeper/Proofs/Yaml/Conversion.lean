import Mathlib.Data.List.Nodup
import ReleaseKeeper.Proofs.Json.Forms
import ReleaseKeeper.Proofs.Readers
import ReleaseKeeper.Yaml.Basic

/-!
# What becomes of a document

A document is taken to JSON part by part: a sequence item by item (`toJson_seq_iff`), a mapping entry
by entry under the texts of its keys (`toJson_map_iff`). So every place of the result holds what
became of a node that stands at this place of the document (`toJson_reaches`), and where the keys of
each mapping on the way have different texts, no node of the document is lost
(`exists_valueAt?_of_reaches`).

Two things are not kept. Different keys may have one text, as the number `1` and the string `1` have,
and then an object cannot hold both of their entries; a number that is not finite becomes null
(`entry_and_number_lost`).
-/
namespace ReleaseKeeper.Yaml

open Json (asObj?)

/-! ## Places -/

/-- A step into a document. -/
inductive Step where
  /-- To an item of a sequence. -/
  | item (i : Nat)
  /-- To a value of a mapping, by the text of its key. -/
  | entry (text : String)

/-- The value at a place. -/
def valueAt? : List Step → Json → Option Json
  | [], j => some j
  | .item i :: p, .arr items => items[i]?.bind (valueAt? p)
  | .entry text :: p, .obj members => (members.lookup text).bind (valueAt? p)
  | _ :: _, _ => none

namespace Node

variable {x y : Node} {j v : Json} {items : List Node} {entries : List (Node × Node)} {p : List Step}

/-- A node stands at a place of a document. There may be several where keys have one text. -/
inductive Reaches : Node → List Step → Node → Prop
  | here (x : Node) : Reaches x [] x
  | item {items : List Node} {i : Nat} {y z : Node} {p : List Step} (stands : items[i]? = some y)
    (inside : Reaches y p z) : Reaches (.seq items) (.item i :: p) z
  | entry {entries : List (Node × Node)} {key y z : Node} {text : String} {p : List Step}
    (stands : (key, y) ∈ entries) (named : key.keyText = .ok text) (inside : Reaches y p z) :
    Reaches (.map entries) (.entry text :: p) z

/-- The keys of a mapping have different texts. -/
def DistinctTexts (entries : List (Node × Node)) : Prop :=
  (entries.map fun e => e.1.keyText).Nodup

/-- What a node becomes, its items and entries apart. -/
def Becomes : Node → Json → Prop
  | .null, v => v = .null
  | .bool b, v => v = .bool b
  | .int n, v => v = .int n
  | .real text, v =>
    ∃ x, readBinary64? text.toList = some x ∧ v = if x.isFinite then .float x else .null
  | .str s, v => v = .str s
  | .seq items, v => ∃ ys, v = .arr ys ∧ ys.length = items.length
  | .map entries, v =>
    ∃ members, v = .obj members ∧ (DistinctTexts entries → members.length = entries.length)
  | .bad, _ => False

/-! ## Items and entries -/

theorem itemsJson_eq_mapM : ∀ items, itemsJson items = items.mapM toJson
  | [] => rfl
  | x :: rest => by
    rw [itemsJson, itemsJson_eq_mapM rest, List.mapM_cons]

theorem entriesJson_eq_mapM : ∀ entries, entriesJson entries =
    entries.mapM fun e => do return (← e.1.keyText, ← e.2.toJson)
  | [] => rfl
  | (key, x) :: rest => by
    rw [entriesJson, entriesJson_eq_mapM rest, List.mapM_cons]
    simp only [bind_assoc, pure_bind]

/-- A sequence becomes the list of what its items become. -/
theorem toJson_seq_iff : (seq items).toJson = .ok j ↔
    ∃ ys, List.Forall₂ (fun x y => x.toJson = .ok y) items ys ∧ j = .arr ys := by
  rw [toJson, itemsJson_eq_mapM, map_eq_ok]
  exact exists_congr fun ys => and_congr mapM_eq_ok_iff eq_comm

/-- A mapping becomes the object of what its entries become, under the texts of their keys. -/
theorem toJson_map_iff : (map entries).toJson = .ok j ↔
    ∃ members, List.Forall₂ (fun e m => e.1.keyText = .ok m.1 ∧ e.2.toJson = .ok m.2) entries members ∧
      j = .object members := by
  have hentry : ∀ (e : Node × Node) (m : String × Json),
      (do return (← e.1.keyText, ← e.2.toJson) : Except Error (String × Json)) = .ok m ↔
        e.1.keyText = .ok m.1 ∧ e.2.toJson = .ok m.2 := by
    intro e m
    rw [bind_eq_ok]
    constructor
    · rintro ⟨text, htext, h⟩
      obtain ⟨y, hy, h⟩ := bind_eq_ok.1 h
      obtain rfl := Except.ok.inj h
      exact ⟨htext, hy⟩
    · rintro ⟨htext, hy⟩
      exact ⟨m.1, htext, bind_eq_ok.2 ⟨m.2, hy, rfl⟩⟩
  rw [toJson, entriesJson_eq_mapM, map_eq_ok]
  refine exists_congr fun members => and_congr ?_ eq_comm
  simp only [mapM_eq_ok_iff, hentry]

/-- Different texts of keys are different keys of the members. -/
theorem DistinctTexts.keys_nodup (h : DistinctTexts entries) {members : List (String × Json)}
    (hmembers : List.Forall₂ (fun e m => e.1.keyText = .ok m.1 ∧ e.2.toJson = .ok m.2) entries members) :
    (members.map (·.1)).Nodup := by
  have htexts : entries.map (fun e => e.1.keyText) = (members.map (·.1)).map .ok := by
    rw [List.map_map]
    exact List.forall₂_eq_eq_eq ▸ List.forall₂_map_left_iff.2
      (List.forall₂_map_right_iff.2 (hmembers.imp fun _ _ h => h.1))
  rw [DistinctTexts, htexts] at h
  exact List.Nodup.of_map _ h

theorem becomes_of_toJson (h : x.toJson = .ok v) : x.Becomes v := by
  cases x with
  | null | bool | int | str => exact (Except.ok.inj h).symm
  | bad => cases h
  | real text =>
    rw [toJson, realJson] at h
    rw [Becomes]
    cases hread : readBinary64? text.toList with
    | none =>
      rw [hread] at h
      cases h
    | some f =>
      rw [hread] at h
      exact ⟨f, rfl, (Except.ok.inj h).symm⟩
  | seq items =>
    obtain ⟨ys, hys, rfl⟩ := toJson_seq_iff.1 h
    exact ⟨ys, rfl, hys.length_eq.symm⟩
  | map entries =>
    obtain ⟨members, hmembers, rfl⟩ := toJson_map_iff.1 h
    refine ⟨Table.ofEntries members, rfl, fun hdistinct => ?_⟩
    rw [(Table.ofEntries_perm (hdistinct.keys_nodup hmembers)).length_eq, hmembers.length_eq]

/-- Only a sequence becomes a list. -/
theorem of_toJson_arr {ys : List Json} (h : x.toJson = .ok (.arr ys)) :
    ∃ items, x = .seq items ∧ List.Forall₂ (fun x y => x.toJson = .ok y) items ys := by
  cases x with
  | seq items =>
    obtain ⟨_, hys, ⟨⟩⟩ := toJson_seq_iff.1 h
    exact ⟨items, rfl, hys⟩
  | real text =>
    obtain ⟨f, -, hv⟩ := becomes_of_toJson h
    split at hv <;> cases hv
  | map entries =>
    obtain ⟨_, -, hobject⟩ := toJson_map_iff.1 h
    cases hobject
  | _ => cases h

/-- Only a mapping becomes an object. -/
theorem of_toJson_obj {members : Dict Json} (h : x.toJson = .ok (.obj members)) :
    ∃ entries ms, x = .map entries ∧ members = Table.ofEntries ms ∧
      List.Forall₂ (fun e m => e.1.keyText = .ok m.1 ∧ e.2.toJson = .ok m.2) entries ms := by
  cases x with
  | map entries =>
    obtain ⟨ms, hms, ⟨⟩⟩ := toJson_map_iff.1 h
    exact ⟨entries, ms, rfl, rfl, hms⟩
  | real text =>
    obtain ⟨f, -, hv⟩ := becomes_of_toJson h
    split at hv <;> cases hv
  | seq items =>
    obtain ⟨_, -, harr⟩ := toJson_seq_iff.1 h
    cases harr
  | _ => cases h

/-! ## What stands where -/

/-- **Nothing is made up**: each value of the result comes from a node at the same place. -/
theorem toJson_reaches : ∀ {p : List Step} {x : Node} {j v : Json}, x.toJson = .ok j →
    valueAt? p j = some v → ∃ y, x.Reaches p y ∧ y.toJson = .ok v
  | [], x, j, v, h, hv => by
    obtain rfl := Option.some.inj hv
    exact ⟨x, .here x, h⟩
  | .item i :: p, x, j, v, h, hv => by
    cases j with
    | arr ys =>
      obtain ⟨items, rfl, hys⟩ := of_toJson_arr h
      obtain ⟨w, hw, hv⟩ := Option.bind_eq_some_iff.1 hv
      obtain ⟨hi, rfl⟩ := List.getElem?_eq_some_iff.1 hw
      have hlength : i < items.length := hys.length_eq ▸ hi
      obtain ⟨y, hy, hconverted⟩ := toJson_reaches (hys.get hlength hi) hv
      exact ⟨y, .item (List.getElem?_eq_getElem hlength) hy, hconverted⟩
    | _ => cases hv
  | .entry text :: p, x, j, v, h, hv => by
    cases j with
    | obj members =>
      obtain ⟨entries, ms, rfl, rfl, hms⟩ := of_toJson_obj h
      obtain ⟨w, hw, hv⟩ := Option.bind_eq_some_iff.1 hv
      have hmem : (text, w) ∈ ms :=
        (Table.mem_overlay ms [] (Table.mem_of_lookup hw)).resolve_right (by simp)
      obtain ⟨⟨key, z⟩, hstands, hkey, hz⟩ := exists_mem_of_forall₂ hms.flip hmem
      obtain ⟨y, hy, hconverted⟩ := toJson_reaches hz hv
      exact ⟨y, .entry hstands hkey hy, hconverted⟩
    | _ => cases hv

/-- **Nothing is lost** behind mappings whose keys have different texts. -/
theorem exists_valueAt?_of_reaches (hreaches : x.Reaches p y) : ∀ {j : Json}, x.toJson = .ok j →
    (∀ q entries, q <+: p → x.Reaches q (.map entries) → DistinctTexts entries) →
    ∃ v, valueAt? p j = some v ∧ y.toJson = .ok v := by
  induction hreaches with
  | here x => exact fun h _ => ⟨_, rfl, h⟩
  | @item items i y z p stands _ ih =>
    intro j h hdistinct
    obtain ⟨ys, hys, rfl⟩ := toJson_seq_iff.1 h
    obtain ⟨hi, rfl⟩ := List.getElem?_eq_some_iff.1 stands
    have hlength : i < ys.length := hys.length_eq ▸ hi
    obtain ⟨v, hv, hconverted⟩ := ih (hys.get hi hlength) fun q entries hq hmap =>
      hdistinct (.item i :: q) entries ((List.cons_prefix_cons).2 ⟨rfl, hq⟩) (.item stands hmap)
    exact ⟨v, by rw [valueAt?, List.getElem?_eq_getElem hlength]; exact hv, hconverted⟩
  | @entry entries key y z text p stands named _ ih =>
    intro j h hdistinct
    obtain ⟨ms, hms, rfl⟩ := toJson_map_iff.1 h
    have hn : (ms.map (·.1)).Nodup :=
      (hdistinct [] entries (List.nil_prefix) (.here _)).keys_nodup hms
    obtain ⟨⟨_, w⟩, hmem, hkey, hw⟩ := exists_mem_of_forall₂ hms stands
    obtain rfl := Except.ok.inj (named.symm.trans hkey)
    have hperm := Table.ofEntries_perm hn
    have hlookup : (Table.ofEntries ms).lookup text = some w :=
      Table.lookup_of_mem ((hperm.map _).nodup_iff.2 hn) (hperm.mem_iff.2 hmem)
    obtain ⟨v, hv, hconverted⟩ := ih hw fun q entries hq hmap =>
      hdistinct (.entry text :: q) entries ((List.cons_prefix_cons).2 ⟨rfl, hq⟩)
        (.entry stands named hmap)
    exact ⟨v, by rw [Json.object, valueAt?, hlookup]; exact hv, hconverted⟩

/-- What becomes null is null, or a number that is not finite. -/
theorem of_toJson_null (h : x.toJson = .ok .null) : x = .null ∨
    ∃ text f, x = .real text ∧ readBinary64? text.toList = some f ∧ f.isFinite = false := by
  cases x with
  | null => exact .inl rfl
  | real text =>
    obtain ⟨f, hread, hnull⟩ := becomes_of_toJson h
    refine .inr ⟨text, f, rfl, hread, ?_⟩
    cases hfinite : f.isFinite with
    | false => rfl
    | true =>
      rw [hfinite] at hnull
      cases hnull
  | seq items =>
    obtain ⟨_, -, hnull⟩ := toJson_seq_iff.1 h
    cases hnull
  | map entries =>
    obtain ⟨_, -, hnull⟩ := toJson_map_iff.1 h
    cases hnull
  | _ => cases h

/-- **A document is carried over.** Each node that stands at a place of it, behind mappings whose keys
have different texts, is found at this place of the result as what it becomes: a truth value, a whole
number and a string as they are, any other number as the number that its text is read as if that is
finite, a sequence as a list of as many items, a mapping as an object of as many members if its keys
have different texts. All that is found in the result comes from the same place of the document, and
null only from null and from numbers that are not finite. -/
theorem carried_over (h : x.toJson = .ok j) (p : List Step) :
    (∀ y, x.Reaches p y →
      (∀ q entries, q <+: p → x.Reaches q (.map entries) → DistinctTexts entries) →
      ∃ v, valueAt? p j = some v ∧ y.toJson = .ok v ∧ y.Becomes v) ∧
    (∀ v, valueAt? p j = some v → ∃ y, x.Reaches p y ∧ y.toJson = .ok v ∧ y.Becomes v) ∧
    (valueAt? p j = some .null → ∃ y, x.Reaches p y ∧ (y = .null ∨
      ∃ text f, y = .real text ∧ readBinary64? text.toList = some f ∧ f.isFinite = false)) := by
  refine ⟨fun y hy hdistinct => ?_, fun v hv => ?_, fun hnull => ?_⟩
  · obtain ⟨v, hv, hconverted⟩ := exists_valueAt?_of_reaches hy h hdistinct
    exact ⟨v, hv, hconverted, becomes_of_toJson hconverted⟩
  · obtain ⟨y, hy, hconverted⟩ := toJson_reaches h hv
    exact ⟨y, hy, hconverted, becomes_of_toJson hconverted⟩
  · obtain ⟨y, hy, hconverted⟩ := toJson_reaches h hnull
    exact ⟨y, hy, of_toJson_null hconverted⟩

/-- A mapping with keys of three types. -/
def limits : Node :=
  .map [(.int 80, .str "http"), (.str "hosts", .seq [.null, .int 3]), (.bool true, .real "0.5")]

/-- Under the text of a key that is a truth value stands the number behind the key. -/
theorem carried_over_limits :
    limits.toJson = .ok (.obj [("80", .str "http"), ("hosts", .arr [.null, .int 3]),
      ("true", .float ⟨0x3fe0000000000000⟩)]) ∧
    limits.Reaches [.entry "true"] (.real "0.5") ∧
    (∀ q entries, q <+: [.entry "true"] → limits.Reaches q (.map entries) → DistinctTexts entries) ∧
    ∃ v, valueAt? [.entry "true"] (.obj [("80", .str "http"), ("hosts", .arr [.null, .int 3]),
      ("true", .float ⟨0x3fe0000000000000⟩)]) = some v ∧ (Node.real "0.5").Becomes v := by
  have hhalf : (Node.real "0.5").toJson = .ok (.float ⟨0x3fe0000000000000⟩) := by
    have hread : readBinary64? "0.5".toList = some ⟨0x3fe0000000000000⟩ := by decide
    rw [toJson, realJson, hread]
    rfl
  have hjson : limits.toJson = .ok (.obj [("80", .str "http"), ("hosts", .arr [.null, .int 3]),
      ("true", .float ⟨0x3fe0000000000000⟩)]) :=
    toJson_map_iff.2 ⟨[("80", .str "http"), ("hosts", .arr [.null, .int 3]),
      ("true", .float ⟨0x3fe0000000000000⟩)],
      .cons ⟨rfl, rfl⟩ (.cons ⟨rfl, rfl⟩ (.cons ⟨rfl, hhalf⟩ .nil)), rfl⟩
  have hreaches : limits.Reaches [.entry "true"] (.real "0.5") :=
    .entry (show (Node.bool true, Node.real "0.5") ∈ _ by simp) rfl (.here _)
  have hdistinct : ∀ q entries, q <+: [.entry "true"] → limits.Reaches q (.map entries) →
      DistinctTexts entries := by
    intro q entries hq hmap
    cases hmap with
    | here =>
      have htexts : ([.ok "80", .ok "hosts", .ok "true"] : List (Except Error String)).Nodup := by
        simp
      exact htexts
    | entry stands _ inside =>
      simp only [List.mem_cons, Prod.mk.injEq, List.not_mem_nil, or_false] at stands
      obtain ⟨-, rfl⟩ | ⟨-, rfl⟩ | ⟨-, rfl⟩ := stands
      · cases inside
      · cases inside with
        | item => simp at hq
      · cases inside
  obtain ⟨v, hv, -, hbecomes⟩ := (carried_over hjson [.entry "true"]).1 _ hreaches hdistinct
  exact ⟨hjson, hreaches, hdistinct, v, hv, hbecomes⟩

/-- **An entry and a number that are lost.** The number `1` and the string `1` are different keys, but
they have one text, so of two entries one is left; and its value, which is a number, is null, though
the document has no null. -/
theorem entry_and_number_lost :
    (Node.int 1).same (.str "1") = false ∧
    (Node.map [(.int 1, .str "a"), (.str "1", .real "NaN")]).toJson = .ok (.obj [("1", .null)]) ∧
    ∀ p, ¬ (Node.map [(.int 1, .str "a"), (.str "1", .real "NaN")]).Reaches p .null := by
  refine ⟨by decide, by rfl, fun p h => ?_⟩
  cases h with
  | entry stands _ inside =>
    simp only [List.mem_cons, Prod.mk.injEq, List.not_mem_nil, or_false] at stands
    obtain ⟨-, rfl⟩ | ⟨-, rfl⟩ := stands <;> cases inside

end Node

end ReleaseKeeper.Yaml
