import Mathlib.Data.List.Forall2
import Mathlib.Data.List.TakeDrop
import Mathlib.Data.List.TakeWhile
import ReleaseKeeper.Manifest.Source
import ReleaseKeeper.Proofs.Readers

/-!
# A directory is read in the order of its paths

The YAML files at or below a directory come in the order of their paths, compared name by name: each
directory is gone through in the order of its own entries, and what stands inside of an entry stands
where its name does. So no file comes twice, and the files are exactly those that the tree holds under
such names (`mem_inOrder_yamlEntries`, `pairwise_inOrder_yamlEntries`). Resources are put together file
by file in this order, up to the first file that holds none (`Manifest.load_directory`).
-/
namespace ReleaseKeeper

namespace FileTree

variable {ν : Type}

/-- Some file stands at the end of some names. -/
inductive Holds : FileTree ν → List ν → ByteArray → Prop
  | here {bytes : ByteArray} : Holds (file bytes) [] bytes
  | inside {entries : List (ν × FileTree ν)} {e : ν × FileTree ν} {path : List ν}
      {bytes : ByteArray} (stands : e ∈ entries) (holds : Holds e.2 path bytes) :
      Holds (directory entries) (e.1 :: path) bytes

/-- Some entries are those of one directory of a tree. -/
inductive Lists : FileTree ν → List (ν × FileTree ν) → Prop
  | here {entries : List (ν × FileTree ν)} : Lists (directory entries) entries
  | inside {entries found : List (ν × FileTree ν)} {e : ν × FileTree ν} (stands : e ∈ entries)
      (lists : Lists e.2 found) : Lists (directory entries) found

/-- What holds of files, and of directories whenever it holds of their entries, holds of trees. -/
theorem byEntries {P : FileTree ν → Prop} (hfile : ∀ bytes, P (file bytes))
    (hdirectory : ∀ entries, (∀ e ∈ entries, P e.2) → P (directory entries)) : ∀ tree, P tree
  | file bytes => hfile bytes
  | directory entries => hdirectory entries fun e _ => byEntries hfile hdirectory e.2
decreasing_by
  have hlt := List.sizeOf_lt_of_mem ‹_›
  cases e
  simp only [Prod.mk.sizeOf_spec, directory.sizeOf_spec] at *
  omega

variable [FileName ν] {recursive : Bool} {name : ν} {tree : FileTree ν}
  {entries : List (ν × FileTree ν)} {path : List ν} {bytes : ByteArray}

/-- A tree none of whose directories has two entries of one name. -/
def Distinct (tree : FileTree ν) : Prop :=
  ∀ entries, tree.Lists entries → (entries.map fun e => FileName.bytes e.1).Nodup

/-! ## Names of YAML files -/

theorem extension?_eq_some_iff {name extension : List UInt8} : extension? name = some extension ↔
    ∃ stem, stem ≠ [] ∧ name = stem ++ dot :: extension ∧ dot ∉ extension := by
  rw [extension?, List.span_eq_takeWhile_dropWhile]
  constructor
  · intro h
    split at h
    · next found d b stem hspan =>
      obtain rfl := Option.some.inj h
      obtain ⟨hfound, hrest⟩ := Prod.mk.inj hspan
      have hname : name.reverse = found ++ d :: b :: stem := by
        rw [← hfound, ← hrest, List.takeWhile_append_dropWhile]
      have hdot : d = dot := by
        have hhead := List.head?_dropWhile_not (· ≠ dot) name.reverse
        rw [hrest] at hhead
        simpa using hhead
      have hnone : dot ∉ found := fun hmem => by
        rw [← hfound] at hmem
        simpa using List.mem_takeWhile_imp hmem
      refine ⟨(b :: stem).reverse, by simp, ?_, by simpa using hnone⟩
      rw [← List.reverse_reverse name, hname, hdot]
      simp
    · cases h
  · rintro ⟨stem, hstem, rfl, hdot⟩
    have hpass : ∀ b ∈ extension.reverse, (decide (b ≠ dot)) = true := fun b hb =>
      decide_eq_true fun heq => hdot (heq ▸ List.mem_reverse.1 hb)
    have hreverse : (stem ++ dot :: extension).reverse =
        extension.reverse ++ dot :: stem.reverse := by simp
    obtain ⟨b, rest, hrest⟩ := List.exists_cons_of_ne_nil (List.reverse_ne_nil_iff.2 hstem)
    rw [hreverse, List.takeWhile_append_of_pos hpass, List.dropWhile_append_of_pos hpass, hrest]
    simp

/-- A file is taken for one of YAML if its name has something before one of two endings. -/
theorem isYaml_iff : isYaml name = true ↔ ∃ stem, stem ≠ [] ∧
    (FileName.bytes name = stem ++ FileName.bytes ".yaml" ∨
      FileName.bytes name = stem ++ FileName.bytes ".yml") := by
  have hyaml : FileName.bytes ".yaml" = dot :: FileName.bytes "yaml" := rfl
  have hyml : FileName.bytes ".yml" = dot :: FileName.bytes "yml" := rfl
  have hdots : dot ∉ FileName.bytes "yaml" ∧ dot ∉ FileName.bytes "yml" := by decide
  simp only [isYaml, Bool.or_eq_true, decide_eq_true_eq, extension?_eq_some_iff, hyaml, hyml]
  constructor
  · rintro (⟨stem, hstem, hname, -⟩ | ⟨stem, hstem, hname, -⟩)
    · exact ⟨stem, hstem, .inl hname⟩
    · exact ⟨stem, hstem, .inr hname⟩
  · rintro ⟨stem, hstem, hname | hname⟩
    · exact .inl ⟨stem, hstem, hname, hdots.1⟩
    · exact .inr ⟨stem, hstem, hname, hdots.2⟩

example : isYaml ".yaml" = false ∧ isYaml "a.yaml.bak" = false ∧ isYaml "a.b.yml" = true := by decide

/-! ## The files that are found -/

theorem mem_inOrder {α : Type} {groups : List (ν × List α)} {x : α} :
    x ∈ inOrder groups ↔ ∃ g ∈ groups, x ∈ g.2 := by
  simp only [inOrder, List.mem_flatMap, (List.mergeSort_perm groups _).mem_iff]

theorem yamlEntries_eq_map : ∀ entries : List (ν × FileTree ν),
    yamlEntries recursive entries = entries.map fun e => (e.1, e.2.yamlFiles recursive e.1)
  | [] => rfl
  | (name, tree) :: rest => by rw [yamlEntries, yamlEntries_eq_map rest, List.map_cons]

theorem mem_entries {f : List ν × ByteArray} : f ∈ inOrder (yamlEntries recursive entries) ↔
    ∃ e ∈ entries, f ∈ e.2.yamlFiles recursive e.1 := by
  simp only [yamlEntries_eq_map, mem_inOrder, List.mem_map, exists_exists_and_eq_and]

/-- Whether a file of a tree is one of YAML that is asked for. -/
def Wanted (recursive : Bool) (path : List ν) : Prop :=
  (∃ name ∈ path.getLast?, isYaml name = true) ∧ (recursive = true ∨ path.length = 1)

/-- **The files of an entry** are those that it holds, with its name before theirs. -/
theorem mem_yamlFiles (tree : FileTree ν) : ∀ (name : ν) (path : List ν) (bytes : ByteArray),
    (path, bytes) ∈ tree.yamlFiles recursive name ↔
      ∃ below, path = name :: below ∧ tree.Holds below bytes ∧ Wanted recursive path := by
  induction tree using byEntries with
  | hfile held =>
    intro name path bytes
    rw [yamlFiles]
    constructor
    · intro h
      split at h
      · next hyaml =>
        obtain ⟨rfl, rfl⟩ := Prod.mk.inj (List.mem_singleton.1 h)
        exact ⟨[], rfl, .here, ⟨name, rfl, hyaml⟩, .inr rfl⟩
      · cases h
    · rintro ⟨below, rfl, holds, ⟨last, hlast, hyaml⟩, -⟩
      cases holds
      obtain rfl : name = last := by simpa using hlast
      rw [if_pos hyaml]
      exact List.mem_singleton.2 rfl
  | hdirectory entries ih =>
    intro name path bytes
    rw [yamlFiles]
    constructor
    · intro h
      split at h
      · next hrecursive =>
        obtain ⟨⟨inner, bytes⟩, hf, heq⟩ := List.mem_map.1 h
        obtain ⟨rfl, rfl⟩ := Prod.mk.inj heq
        obtain ⟨e, he, hf⟩ := mem_entries.1 hf
        obtain ⟨below, rfl, holds, ⟨last, hlast, hyaml⟩, -⟩ := (ih e he e.1 inner _).1 hf
        exact ⟨_, rfl, .inside he holds, ⟨last, hlast, hyaml⟩, .inl hrecursive⟩
      · cases h
    · rintro ⟨below, rfl, holds, ⟨last, hlast, hyaml⟩, hdepth⟩
      cases holds with
      | @inside _ e below _ he holds =>
        have hrecursive : recursive = true := hdepth.resolve_right (by simp)
        rw [if_pos hrecursive, List.mem_map]
        refine ⟨(e.1 :: below, bytes), mem_entries.2 ⟨e, he, ?_⟩, rfl⟩
        exact (ih e he e.1 _ bytes).2 ⟨below, rfl, holds, ⟨last, hlast, hyaml⟩, .inl hrecursive⟩

/-- **The files below a directory** are all those that it holds and that are asked for. -/
theorem mem_inOrder_yamlEntries : (path, bytes) ∈ inOrder (yamlEntries recursive entries) ↔
    (directory entries).Holds path bytes ∧ Wanted recursive path := by
  rw [mem_entries]
  constructor
  · rintro ⟨e, he, hf⟩
    obtain ⟨below, rfl, holds, wanted⟩ := (mem_yamlFiles e.2 e.1 path bytes).1 hf
    exact ⟨.inside he holds, wanted⟩
  · rintro ⟨holds, wanted⟩
    cases holds with
    | inside he holds => exact ⟨_, he, (mem_yamlFiles _ _ _ bytes).2 ⟨_, rfl, holds, wanted⟩⟩

/-! ## Their order -/

theorem Distinct.of_mem (h : (directory entries).Distinct) {e : ν × FileTree ν} (he : e ∈ entries) :
    e.2.Distinct := fun found hlists => h found (.inside he hlists)

theorem precedes_trans {α : Type} (a b c : ν × α) (hab : precedes a b = true)
    (hbc : precedes b c = true) : precedes a c = true :=
  decide_eq_true (List.le_trans (of_decide_eq_true hab) (of_decide_eq_true hbc))

theorem precedes_total {α : Type} (a b : ν × α) : (precedes a b || precedes b a) = true := by
  simpa [precedes] using List.le_total (FileName.bytes a.1) (FileName.bytes b.1)

/-- What comes in order group by group and inside of each group comes in order as a whole. -/
theorem pairwise_inOrder {α : Type} {R : α → α → Prop} {groups : List (ν × List α)}
    (hn : (groups.map fun g => FileName.bytes g.1).Nodup) (hinside : ∀ g ∈ groups, g.2.Pairwise R)
    (hbetween : ∀ g ∈ groups, ∀ h ∈ groups, FileName.bytes g.1 < FileName.bytes h.1 →
      ∀ x ∈ g.2, ∀ y ∈ h.2, R x y) : (inOrder groups).Pairwise R := by
  have hperm := List.mergeSort_perm groups precedes
  have hle : (groups.mergeSort precedes).Pairwise fun a b => precedes a b = true :=
    List.pairwise_mergeSort precedes_trans precedes_total groups
  have hne : (groups.mergeSort precedes).Pairwise fun a b =>
      FileName.bytes a.1 ≠ FileName.bytes b.1 :=
    List.pairwise_map.1 ((hperm.map _).nodup_iff.2 hn)
  rw [inOrder, List.pairwise_flatMap]
  refine ⟨fun g hg => hinside g (hperm.mem_iff.1 hg), (hle.and hne).imp_of_mem ?_⟩
  rintro g h hg hh ⟨hle, hne⟩
  exact hbetween g (hperm.mem_iff.1 hg) h (hperm.mem_iff.1 hh)
    (Std.lt_of_le_of_ne (of_decide_eq_true hle) hne)

/-- Whether a file comes before another one by their paths, compared name by name. -/
def Before (f g : List ν × ByteArray) : Prop := f.1.map FileName.bytes < g.1.map FileName.bytes

theorem pairwise_entries (h : (directory entries).Distinct)
    (hinside : ∀ e ∈ entries, (e.2.yamlFiles recursive e.1).Pairwise Before) :
    (inOrder (yamlEntries recursive entries)).Pairwise Before := by
  rw [yamlEntries_eq_map]
  refine pairwise_inOrder ?_ ?_ ?_
  · rw [List.map_map]
    exact h _ .here
  · exact List.forall_mem_map.2 hinside
  · simp only [List.forall_mem_map]
    rintro e - e' - hlt ⟨_, _⟩ hx ⟨_, _⟩ hy
    obtain ⟨below, rfl, -⟩ := (mem_yamlFiles _ _ _ _).1 hx
    obtain ⟨below', rfl, -⟩ := (mem_yamlFiles _ _ _ _).1 hy
    exact List.cons_lt_cons_iff.2 (.inl hlt)

theorem pairwise_yamlFiles (tree : FileTree ν) (h : tree.Distinct) (name : ν) :
    (tree.yamlFiles recursive name).Pairwise Before := by
  induction tree using byEntries generalizing name with
  | hfile held =>
    rw [yamlFiles]
    split
    · exact List.pairwise_singleton _ _
    · exact .nil
  | hdirectory entries ih =>
    rw [yamlFiles]
    split
    · rw [List.pairwise_map]
      refine (pairwise_entries h fun e he => ih e he (h.of_mem he) e.1).imp fun hlt => ?_
      exact List.cons_lt_cons_iff.2 (.inr ⟨rfl, hlt⟩)
    · exact .nil

/-- **Files come in the order of their paths.** -/
theorem pairwise_inOrder_yamlEntries (h : (directory entries).Distinct) :
    (inOrder (yamlEntries recursive entries)).Pairwise Before :=
  pairwise_entries h fun e he => pairwise_yamlFiles e.2 (h.of_mem he) e.1

end FileTree

namespace Manifest

open FileTree

variable {ν : Type} [FileName ν] {recursive : Bool} {path : String} {bytes : ByteArray}
  {resources : List Resource} {e : Error}

/-! ## What a file holds -/

/-- The resources of a file: one for each document that says something, in order. -/
def Contains (bytes : ByteArray) (resources : List Resource) : Prop :=
  ∃ text documents, String.fromUTF8? bytes = some text ∧ Yaml.documents text = .ok documents ∧
    List.Forall₂ (fun x r => ∃ j, x.toJson = .ok j ∧ Resource.ofJson j = .ok r)
      (documents.filter (!·.isNull)) resources

/-- Why a file of some path holds no resources: it is no text, or no YAML, or some document, of several
the first one, is no resource. -/
inductive Fails (path : String) (bytes : ByteArray) : Error → Prop
  | notText (hbytes : String.fromUTF8? bytes = none) : Fails path bytes (unreadable path .notText)
  | notYaml {text : String} {flaw : Error} (htext : String.fromUTF8? bytes = some text)
      (hflaw : Yaml.readAll text = .error flaw) :
      Fails path bytes (.malformed none s!"{path}: {flaw.message}")
  | notResource {text : String} {before after : List Json} {j : Json} {e : Error}
      (htext : String.fromUTF8? bytes = some text)
      (hdocuments : Yaml.readAll text = .ok (before ++ j :: after))
      (hbefore : ∀ x ∈ before, ∃ r, Resource.ofJson x = .ok r) (hj : Resource.ofJson j = .error e) :
      Fails path bytes e

theorem textOf_eq_ok_iff {text : String} :
    textOf bytes = .ok text ↔ String.fromUTF8? bytes = some text := by
  rw [textOf]
  cases String.fromUTF8? bytes <;> simp

theorem readAll_eq_ok_iff {text : String} {values : List Json} : Yaml.readAll text = .ok values ↔
    ∃ documents, Yaml.documents text = .ok documents ∧
      List.Forall₂ (fun x j => x.toJson = .ok j) (documents.filter (!·.isNull)) values := by
  simp only [Yaml.readAll, bind_eq_ok, mapM_eq_ok_iff]

theorem readFile_eq_ok_iff : readFile path bytes = .ok resources ↔ Contains bytes resources := by
  simp only [readFile, bind_eq_ok, mapError_eq_ok, textOf_eq_ok_iff, readAll_eq_ok_iff,
    mapM_eq_ok_iff]
  constructor
  · rintro ⟨text, htext, values, ⟨documents, hdocuments, hvalues⟩, hresources⟩
    exact ⟨text, documents, htext, hdocuments, exists_forall₂_iff.1 ⟨values, hvalues, hresources⟩⟩
  · rintro ⟨text, documents, htext, hdocuments, h⟩
    obtain ⟨values, hvalues, hresources⟩ := exists_forall₂_iff.2 h
    exact ⟨text, htext, values, ⟨documents, hdocuments, hvalues⟩, hresources⟩

theorem readFile_eq_error_iff : readFile path bytes = .error e ↔ Fails path bytes e := by
  simp only [readFile, bind_eq_error, mapError_eq_error, mapError_eq_ok, textOf_eq_ok_iff,
    mapM_eq_error_iff]
  constructor
  · rintro (⟨_, htext, rfl⟩ | ⟨text, htext, ⟨flaw, hflaw, rfl⟩ | ⟨values, hvalues, h⟩⟩)
    · rw [textOf] at htext
      cases hbytes : String.fromUTF8? bytes with
      | none =>
        rw [hbytes] at htext
        cases htext
        exact .notText hbytes
      | some text =>
        rw [hbytes] at htext
        cases htext
    · exact .notYaml htext hflaw
    · obtain ⟨before, j, after, rfl, hbefore, hj⟩ := h
      exact .notResource htext hvalues hbefore hj
  · intro h
    cases h with
    | notText hbytes => exact .inl ⟨.notText, by rw [textOf, hbytes], rfl⟩
    | notYaml htext hflaw => exact .inr ⟨_, htext, .inl ⟨_, hflaw, rfl⟩⟩
    | notResource htext hdocuments hbefore hj =>
      exact .inr ⟨_, htext, .inr ⟨_, hdocuments, _, _, _, rfl, hbefore, hj⟩⟩

/-! ## What a directory holds -/

/-- How a file below a path is called in messages. -/
def shownPath (path : String) (f : List ν × ByteArray) : String := f.1.foldl FileTree.join path

/-- Some files are all those of YAML in a directory, or at any place below it, in the order of their
paths, compared name by name and each name byte by byte. -/
structure YamlBelow (recursive : Bool) (entries : List (ν × FileTree ν))
    (files : List (List ν × ByteArray)) : Prop where
  mem_iff : ∀ below bytes, (below, bytes) ∈ files ↔
    (directory entries).Holds below bytes ∧
    (∃ name ∈ below.getLast?, ∃ stem, stem ≠ [] ∧
      (FileName.bytes name = stem ++ FileName.bytes ".yaml" ∨
        FileName.bytes name = stem ++ FileName.bytes ".yml")) ∧
    (recursive = true ∨ below.length = 1)
  order : files.Pairwise fun f g => f.1.map FileName.bytes < g.1.map FileName.bytes

theorem yamlBelow_inOrder {entries : List (ν × FileTree ν)}
    (hdistinct : (directory entries).Distinct) :
    YamlBelow recursive entries (inOrder (yamlEntries recursive entries)) where
  mem_iff below bytes := by
    rw [mem_inOrder_yamlEntries]
    simp only [Wanted, isYaml_iff]
  order := pairwise_inOrder_yamlEntries hdistinct

/-- There is one such list. -/
theorem YamlBelow.unique {entries : List (ν × FileTree ν)} {files files' : List (List ν × ByteArray)}
    (h : YamlBelow recursive entries files) (h' : YamlBelow recursive entries files') :
    files = files' := by
  have hnodup : ∀ {fs}, YamlBelow recursive entries fs → fs.Nodup := by
    intro fs hfs
    refine hfs.order.imp ?_
    rintro f _ hlt rfl
    exact List.lt_irrefl _ hlt
  refine List.Perm.eq_of_pairwise (fun f g _ _ hfg hgf => ?_) h.order h'.order ?_
  · exact absurd hgf (List.lt_asymm hfg)
  · exact (List.perm_ext_iff_of_nodup (hnodup h) (hnodup h')).2 fun f =>
      (h.mem_iff f.1 f.2).trans (h'.mem_iff f.1 f.2).symm

/-- **A directory is read file by file in the order of the paths.** Its resources are those of its files
one after another; where some file holds none, loading fails as the first such file does. -/
theorem load_directory {names : List ν} {tree : FileTree ν} {entries : List (ν × FileTree ν)}
    (hfind : FileTree.find names [] tree = .ok (.directory entries))
    (hdistinct : (directory entries).Distinct) :
    ∃ files, YamlBelow recursive entries files ∧
      (∀ resources, load recursive path names tree = .ok resources ↔
        ∃ parts, List.Forall₂ (fun f part => Contains f.2 part) files parts ∧
          parts.flatten = resources) ∧
      ∀ e, load recursive path names tree = .error e ↔
        ∃ before f after, files = before ++ f :: after ∧ (∀ g ∈ before, ∃ part, Contains g.2 part) ∧
          Fails (shownPath path f) f.2 e := by
  have hload : load recursive path names tree =
      ((inOrder (yamlEntries recursive entries)).mapM fun f =>
        readFile (shownPath path f) f.2).map List.flatten := by
    rw [load, hfind]
    rfl
  refine ⟨inOrder (yamlEntries recursive entries), yamlBelow_inOrder hdistinct,
    fun resources => ?_, fun e => ?_⟩
  · simp only [hload, map_eq_ok, mapM_eq_ok_iff, readFile_eq_ok_iff]
  · simp only [hload, map_eq_error, mapM_eq_error_iff, readFile_eq_ok_iff, readFile_eq_error_iff]

namespace Unordered

def document (name : String) : String :=
  s!"apiVersion: v1\nkind: Namespace\nmetadata:\n  name: {name}\n"

/-- Entries in no order, one of them a directory with the name that another one begins with. -/
def entries : List (String × FileTree) := [
  ("b.yaml", .file (document "b").toUTF8), ("a.yaml", .file (document "a").toUTF8),
  ("a", .directory [("c.yml", .file (document "c" ++ "---\n" ++ document "d").toUTF8)])]

theorem distinct_entries : (directory entries).Distinct := by
  intro found hlists
  cases hlists with
  | here => decide
  | inside stands lists =>
    simp only [entries, List.mem_cons, List.not_mem_nil, or_false] at stands
    obtain rfl | rfl | rfl := stands
    · cases lists
    · cases lists
    · cases lists with
      | here => decide
      | inside stands lists =>
        obtain rfl := List.mem_singleton.1 stands
        cases lists

theorem inOrder_entries : inOrder (yamlEntries true entries) = [
    (["a", "c.yml"], (document "c" ++ "---\n" ++ document "d").toUTF8),
    (["a.yaml"], (document "a").toUTF8), (["b.yaml"], (document "b").toUTF8)] := by
  have hgroups : yamlEntries true entries = [
      ("b.yaml", [(["b.yaml"], (document "b").toUTF8)]),
      ("a.yaml", [(["a.yaml"], (document "a").toUTF8)]),
      ("a", [(["a", "c.yml"], (document "c" ++ "---\n" ++ document "d").toUTF8)])] := by
    simp only [entries, yamlEntries, yamlFiles, inOrder, List.mergeSort_singleton]
    rfl
  have hsorted : ∀ {a b c : String × List (List String × ByteArray)}, precedes a b = false →
      precedes b c = false → [a, b, c].mergeSort precedes = [c, b, a] := by
    intro a b c hab hbc
    simp [List.mergeSort, hab, hbc]
  rw [inOrder, hgroups, hsorted (by decide +kernel) (by decide +kernel)]
  rfl

theorem exists_contains (bytes : ByteArray) (names : List String)
    (h : (readFile "" bytes).map (·.map Resource.name) = .ok names) :
    ∃ part, Contains bytes part ∧ part.map Resource.name = names := by
  obtain ⟨part, hpart, rfl⟩ := map_eq_ok.1 h
  exact ⟨part, readFile_eq_ok_iff.1 hpart, rfl⟩

end Unordered

open Unordered in
/-- What the directory holds comes first, with both of its documents, then the files beside it. -/
theorem load_directory_unordered :
    (∃ files, YamlBelow true entries files ∧
      files.map (·.1) = [["a", "c.yml"], ["a.yaml"], ["b.yaml"]]) ∧
    ∃ resources, load true "release" [] (directory entries) = .ok resources ∧
      resources.map Resource.name = ["c", "d", "a", "b"] := by
  obtain ⟨files, hfiles, hok, -⟩ :=
    @load_directory String _ true "release" [] (directory entries) entries rfl distinct_entries
  obtain rfl := (hfiles.unique (yamlBelow_inOrder distinct_entries)).trans inOrder_entries
  obtain ⟨inner, hinner, hcd⟩ := exists_contains (document "c" ++ "---\n" ++ document "d").toUTF8
    ["c", "d"] (by decide +kernel)
  obtain ⟨first, hfirst, ha⟩ := exists_contains (document "a").toUTF8 ["a"] (by decide +kernel)
  obtain ⟨last, hlast, hb⟩ := exists_contains (document "b").toUTF8 ["b"] (by decide +kernel)
  refine ⟨⟨_, hfiles, rfl⟩, _, (hok _).2 ⟨[inner, first, last],
    .cons hinner (.cons hfirst (.cons hlast .nil)), rfl⟩, ?_⟩
  simp [hcd, ha, hb]

end Manifest

end ReleaseKeeper
