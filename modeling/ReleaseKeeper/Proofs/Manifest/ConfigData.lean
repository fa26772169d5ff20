import ReleaseKeeper.Proofs.Manifest.Apply
import ReleaseKeeper.Proofs.Transform.Settings

/-!
# What a series of settings leaves in a config map

A config map of the release is applied for one setting of the instance after another (`Configured`).
Each time its data, if it has any then, takes the place of what was there. A config map that has
data in the release always does, so only the last setting counts. One that has none gets data from a
setting that names it alone: entries that an earlier setting named stay where the last one does not
(`dataLeft`, `config_data_left`), unless that names the config map without any entry.
-/
namespace ReleaseKeeper

open Rehearsal (run)
open Transformer (configMaps configSuffix? dataGiven)

/-- A config map of the release that was absent at first and was then applied for settings of the
instance, of which the last one comes first. Meanwhile nobody else changes the object. -/
inductive Configured (r : Resource) : List (Dict (Dict String)) → Rehearsal → Prop
  | absent {w : Rehearsal} (filed : w.cluster.Filed) (absent : w.cluster.object? r.key = none) :
    Configured r [] w
  | kept {configs : List (Dict (Dict String))} {w w' : Rehearsal} (before : Configured r configs w)
    (filed : w'.cluster.Filed) (kept : w'.cluster.object? r.key = w.cluster.object? r.key) :
    Configured r configs w'
  | applied {configs : List (Dict (Dict String))} {w : Rehearsal} {config : Dict (Dict String)}
    {out : Resource} {done : Manifest.Applied} (before : Configured r configs w)
    (set : (configMaps config).apply r = .ok out)
    (done : (run (Manifest.apply out) w).1 = .ok done) :
    Configured r (config :: configs) (run (Manifest.apply out) w).2

/-- The data that settings leave in a config map: what the last of them gives that gives any. -/
def dataLeft (data? : Option (Dict String)) (suffix : String)
    (configs : List (Dict (Dict String))) : Option (Dict String) :=
  configs.findSome? fun config => dataGiven data? (config.lookup suffix)

variable {r : Resource} {w : Rehearsal} {config : Dict (Dict String)}
  {older configs : List (Dict (Dict String))} {data? : Option (Dict String)} {suffix : String}

/-! ## One setting -/

/-- Data that is desired takes the place of what was there. -/
theorem memberAfter_data (want? : Option (Dict String)) (live? : Option Json) :
    Json.memberAfter "data" (want?.map Json.ofTexts) live? = (want?.map Json.ofTexts).or live? := by
  cases want? with
  | none => rfl
  | some texts => exact Json.memberAfter_exact (.inl rfl) (Json.exact_ofTexts texts)

/-! ## One setting after another -/

/-- **What the settings leave is what is live**, once there is one. -/
theorem Configured.left (hr : r.Proper) (hkind : r.kind = "ConfigMap")
    (hname : configSuffix? r.name = some suffix)
    (hdata : r.members.lookup "data" = data?.map Json.ofTexts) (h : Configured r configs w) :
    w.cluster.Filed ∧ (configs ≠ [] → ∃ live, w.cluster.object? r.key = some live) ∧
      w.cluster.member? r.key "data" = (dataLeft data? suffix configs).map Json.ofTexts := by
  induction h with
  | absent filed absent =>
    rw [Cluster.member?, absent]
    exact ⟨filed, fun h => absurd rfl h, rfl⟩
  | kept before filed kept ih =>
    obtain ⟨-, hlive, hleft⟩ := ih
    rw [Cluster.member?, kept]
    exact ⟨filed, hlive, hleft⟩
  | @applied configs w config out done before set done ih =>
    obtain ⟨hfiled, -, hleft⟩ := ih
    have haside := Transformer.aside_configMaps config r out set
    have hkey : out.key = r.key := haside.gentle.keeps.key_eq
    obtain ⟨hfiled', live, hlive, hmembers⟩ := Manifest.run_apply_ok hfiled (haside.proper hr) done
    rw [hkey] at hlive hmembers
    refine ⟨hfiled', fun _ => ⟨live, hlive⟩, ?_⟩
    rw [Cluster.member?, hlive, Option.bind_some, hmembers "data" (by decide), hleft,
      Transformer.lookup_configMaps hkind hname hdata set, memberAfter_data, dataLeft, dataLeft,
      List.findSome?_cons]
    cases dataGiven data? (config.lookup suffix) <;> rfl

theorem texts_ofTexts (texts : Dict String) :
    Json.texts (texts.map fun e => (e.1, .str e.2)) = texts := by
  rw [Json.texts, List.filterMap_map]
  exact List.filterMap_some

/-- Without data in the release, the last entries that any setting names are left. -/
theorem dataLeft_none (suffix : String) (configs : List (Dict (Dict String))) :
    dataLeft none suffix configs =
      (configs.findSome? (·.lookup suffix)).map (Table.overlay · []) := by
  rw [List.map_findSome?, dataLeft]
  congr 1
  funext config
  rw [Function.comp_apply]
  cases config.lookup suffix <;> rfl

/-- **What is left is what the last setting asks for** exactly if the release has data, or the last
setting names the config map, or the last one that names it names no entry. -/
theorem dataLeft_eq_iff :
    (dataLeft data? suffix (config :: older)).getD [] =
        Table.overlay ((config.lookup suffix).getD []) (data?.getD []) ↔
      data?.isSome ∨ (config.lookup suffix).isSome ∨
        ∀ entries, older.findSome? (·.lookup suffix) = some entries → entries = [] := by
  cases hentries : config.lookup suffix with
  | some entries => simp [dataLeft, hentries, dataGiven]
  | none =>
    cases data? with
    | some data => simp [dataLeft, hentries, dataGiven]
    | none =>
      have hskip : dataLeft none suffix (config :: older) = dataLeft none suffix older := by
        rw [dataLeft, List.findSome?_cons, hentries]
        rfl
      rw [hskip, dataLeft_none]
      cases older.findSome? (·.lookup suffix) with
      | none => simp
      | some entries => simp [Table.overlay_eq_nil]

/-- **What a series of settings leaves in a config map of the release.** The live data is what the
last setting asks for that gives any data at all. So it is what the last setting asks for, that is
its entries on top of those of the release, exactly if the release has data for the config map, or
the last setting names the config map, or no entry is left of the last one that names it. -/
theorem config_data_left (hr : r.Proper) (hkind : r.kind = "ConfigMap")
    (hname : configSuffix? r.name = some suffix)
    (hdata : r.members.lookup "data" = data?.map Json.ofTexts)
    (h : Configured r (config :: older) w) : ∃ live,
      w.cluster.object? r.key = some live ∧
      live.valueAt? ["data"] = (dataLeft data? suffix (config :: older)).map Json.ofTexts ∧
      (live.data = Table.overlay ((config.lookup suffix).getD []) (data?.getD []) ↔
        data?.isSome ∨ (config.lookup suffix).isSome ∨
          ∀ entries, older.findSome? (·.lookup suffix) = some entries → entries = []) := by
  obtain ⟨-, hlive, hleft⟩ := h.left hr hkind hname hdata
  obtain ⟨live, hlive⟩ := hlive (List.cons_ne_nil _ _)
  rw [Cluster.member?, hlive, Option.bind_some, ← Resource.valueAt?_singleton] at hleft
  have hentries : live.data = (dataLeft data? suffix (config :: older)).getD [] := by
    rw [Resource.data, Resource.textsAt, hleft]
    cases dataLeft data? suffix (config :: older) with
    | none => rfl
    | some texts => exact texts_ofTexts texts
  exact ⟨live, hlive, hleft, by rw [hentries, dataLeft_eq_iff]⟩

/-! ## A config map that is set and left alone again -/

namespace Network

def resource (data : Dict Json) : Resource := ⟨("apiVersion", .str "v1") :: data ++
  [("kind", .str "ConfigMap"),
    ("metadata", .obj [("name", .str "config-network"), ("namespace", .str "n")])]⟩

def stocked : Resource := resource [("data", .ofTexts [("c", "d")])]

def bare : Resource := resource []

/-- A setting that names it. -/
def named : Dict (Dict String) := [("network", [("a", "b")])]

/-- The config map under that setting. -/
def set (r : Resource) : Resource := Transformer.putData [("a", "b")] r

def afterNamed (r : Resource) : Rehearsal := (run (Manifest.apply (set r)) {}).2

/-- The cluster after a setting that names it no more. -/
def afterBoth (r : Resource) : Rehearsal := (run (Manifest.apply r) (afterNamed r)).2

theorem configured_absent (r : Resource) : Configured r [] {} := .absent (by rintro key r ⟨⟩) rfl

theorem configured_stocked : Configured stocked [[], named] (afterBoth stocked) := by
  have hcreated : (run (Manifest.apply (set stocked)) {}).1 = .ok .created := by decide +kernel
  have hupdated : (run (Manifest.apply stocked) (afterNamed stocked)).1 = .ok .updated := by
    decide +kernel
  have hnamed : Configured stocked [named] (afterNamed stocked) :=
    (configured_absent stocked).applied rfl hcreated
  exact hnamed.applied rfl hupdated

theorem configured_bare : Configured bare [[], named] (afterBoth bare) := by
  have hcreated : (run (Manifest.apply (set bare)) {}).1 = .ok .created := by decide +kernel
  have hunchanged : (run (Manifest.apply bare) (afterNamed bare)).1 = .ok .unchanged := by
    decide +kernel
  have hnamed : Configured bare [named] (afterNamed bare) :=
    (configured_absent bare).applied rfl hcreated
  exact hnamed.applied rfl hunchanged

end Network

open Network

/-- Where the release has data, an entry that is not named any more is gone. -/
theorem config_data_left_stocked :
    Configured stocked [[], named] (afterBoth stocked) ∧
      ∃ live, (afterBoth stocked).cluster.object? stocked.key = some live ∧
        live.data = [("c", "d")] := by
  have hr : stocked.Proper := by
    refine ⟨.of_wellFormed ?_, rfl⟩
    simp only [stocked, resource, List.cons_append, List.nil_append, Json.ofTexts, List.map_cons,
      List.map_nil, Resource.toJson, Json.WellFormed, Json.WellFormedMembers, Table.Sorted]
    decide
  have hname : configSuffix? stocked.name = some "network" := by decide
  have hdata : stocked.members.lookup "data" = (some [("c", "d")]).map Json.ofTexts := rfl
  obtain ⟨live, hlive, -, hentries⟩ := config_data_left hr rfl hname hdata configured_stocked
  exact ⟨configured_stocked, live, hlive, hentries.2 (.inl rfl)⟩

/-- **Where the release has none, it stays**: the last setting names no entry, but the one that an
earlier setting named is live. -/
theorem config_data_stays :
    Configured bare [[], named] (afterBoth bare) ∧ configSuffix? bare.name = some "network" ∧
      bare.members.lookup "data" = none ∧
      ∃ live, (afterBoth bare).cluster.object? bare.key = some live ∧ live.data = [("a", "b")] :=
  ⟨configured_bare, by decide, rfl, _, rfl, by decide⟩

end ReleaseKeeper
