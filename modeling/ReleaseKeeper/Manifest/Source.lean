import ReleaseKeeper.Manifest.Order
import ReleaseKeeper.Text.Lossy
import ReleaseKeeper.Yaml.Basic
/-!
# Manifests in files

`load_documents`. A manifest is read from a YAML file, or from all YAML files of a directory in the
order of their names, so that the numbers that file names begin with order a release. Directories
inside of it are gone through only when asked for, each where its own name stands in the order.
-/
namespace ReleaseKeeper

/-- What can name the entries of a directory: bytes, which need not be a text. -/
class FileName (ν : Type) where
  bytes : ν → List UInt8
  /-- The name in messages. -/
  shown : ν → String

instance : FileName String where
  bytes name := name.toUTF8.data.toList
  shown name := name

instance : FileName (List UInt8) where
  bytes name := name
  shown := Text.shown

/-- A file, or a directory with its entries in any order. -/
inductive FileTree (ν : Type := String) where
  | file (bytes : ByteArray)
  | directory (entries : List (ν × FileTree ν))

namespace FileTree

variable {ν : Type} [FileName ν]

/-- Why a file cannot be read. -/
inductive ReadError where
  | missing
  | notADirectory
  | notText
deriving DecidableEq, Repr

def ReadError.message : ReadError → String
  | missing => "No such file or directory (os error 2)"
  | notADirectory => "Not a directory (os error 20)"
  | notText => "stream did not contain valid UTF-8"

def entry? (name : ν) (entries : List (ν × FileTree ν)) : Option (FileTree ν) :=
  (entries.find? fun e => FileName.bytes e.1 = FileName.bytes name).map (·.2)

/-- What is found by following some names from a place that is inside of some directories. A dot or
nothing stays in a directory, and two dots leave it. -/
def find : List ν → List (FileTree ν) → FileTree ν → Except ReadError (FileTree ν)
  | [], _, tree => .ok tree
  | _ :: _, _, file _ => .error .notADirectory
  | name :: rest, outer, directory entries =>
    if FileName.bytes name = [] ∨ FileName.bytes name = FileName.bytes "." then
      find rest outer (directory entries)
    else if FileName.bytes name = FileName.bytes ".." then
      match outer with
      | [] => find rest [] (directory entries)
      | tree :: outer => find rest outer tree
    else
      match entry? name entries with
      | none => .error .missing
      | some tree => find rest (directory entries :: outer) tree

def namesOf (path : String) : List String := Json.segments path.toList

def join (path : String) (name : ν) : String :=
  let shown := FileName.shown name
  if path.endsWith "/" then path ++ shown else path ++ "/" ++ shown

def dot : UInt8 := 46

/-- What the name of a file has behind its last dot, if there is anything before that. -/
def extension? (name : List UInt8) : Option (List UInt8) :=
  match name.reverse.span (· ≠ dot) with
  | (extension, _ :: _ :: _) => some extension.reverse
  | _ => none

/-- `is_yaml`. -/
def isYaml (name : ν) : Bool :=
  let extension := extension? (FileName.bytes name)
  extension = some (FileName.bytes "yaml") || extension = some (FileName.bytes "yml")

/-- Whether the name of an entry comes before that of another one, byte by byte, or is the same. -/
def precedes {α : Type} (a b : ν × α) : Bool := FileName.bytes a.1 ≤ FileName.bytes b.1

/-- The files of some entries in the order of the names of the entries. -/
def inOrder {α : Type} (groups : List (ν × List α)) : List α :=
  (groups.mergeSort precedes).flatMap (·.2)

mutual

/-- `collect_yaml_files`: the files of an entry, with the names that lead to them. -/
def yamlFiles (recursive : Bool) (name : ν) : FileTree ν → List (List ν × ByteArray)
  | file bytes => if isYaml name then [([name], bytes)] else []
  | directory entries =>
    if recursive then
      (inOrder (yamlEntries recursive entries)).map fun f => (name :: f.1, f.2)
    else []
termination_by structural tree => tree

def yamlEntries (recursive : Bool) :
    List (ν × FileTree ν) → List (ν × List (List ν × ByteArray))
  | [] => []
  | (name, tree) :: rest => (name, tree.yamlFiles recursive name) :: yamlEntries recursive rest
termination_by structural entries => entries

end

def textOf (bytes : ByteArray) : Except ReadError String :=
  match String.fromUTF8? bytes with
  | some text => .ok text
  | none => .error .notText

end FileTree

namespace Manifest

def unreadable (path : String) (e : FileTree.ReadError) : Error :=
  .internal "manifest" s!"read {path}: {e.message}"

def readFile (path : String) (bytes : ByteArray) : Except Error (List Resource) := do
  let text ← (FileTree.textOf bytes).mapError (unreadable path)
  let documents ← (Yaml.readAll text).mapError fun e => .malformed none s!"{path}: {e.message}"
  documents.mapM Resource.ofJson

variable {ν : Type} [FileName ν]

/-- `load_documents`, of a file or a directory that is found by following some names. -/
def load (recursive : Bool) (path : String) (names : List ν) (tree : FileTree ν) :
    Except Error Manifest := do
  match FileTree.find names [] tree with
  | .error e => .error (unreadable path e)
  | .ok (.file bytes) => readFile path bytes
  | .ok (.directory entries) =>
    let files := FileTree.inOrder (FileTree.yamlEntries recursive entries)
    return (← files.mapM fun (below, bytes) =>
      readFile (below.foldl FileTree.join path) bytes).flatten

end Manifest

end ReleaseKeeper
