/-
# Search.Vault -- the markdown files the index is about

A vault on a case-sensitive file system: the files by their path, which is the relative path
that `to_relative_path` gives.  The walk of a rebuild skips what `should_ignore_path` names, a
directory with everything below it.
-/
import Kuku.Search.Wikilink
import Kuku.Theory.Assoc

namespace Kuku.Search

open Kuku.Theory List Assoc

structure File where
  markdown : List Char
  mtimeMs : Nat
  deriving DecidableEq

/-! ## Paths -/

def isMarkdownPath (path : DocId) : Bool :=
  let lower := path.map Text.asciiLowerChar
  ".md".toList.isSuffixOf lower || ".markdown".toList.isSuffixOf lower

/-- The `Component::Normal` ones. -/
def normalComponents (path : DocId) : List (List Char) :=
  (path.splitOn '/').filter fun name => name ∉ ["".toList, ".".toList, "..".toList]

def shouldIgnorePath (components : List (List Char)) : Bool :=
  components.any (fun name => ".".toList.isPrefixOf name) ||
    components.getLast?.any fun name =>
      decide (name = ".DS_Store".toList) || ".tmp".toList.isSuffixOf name ||
        "~".toList.isSuffixOf name

/-- `collect_markdown_files` reaches the path: it skips neither the file nor a directory above. -/
def isReached (path : DocId) : Bool :=
  (normalComponents path).inits.all fun components => !shouldIgnorePath components

def isListed (path : DocId) : Bool := isReached path && isMarkdownPath path

/-! ## Vaults -/

structure Vault where
  files : Assoc DocId File
  distinct : (files.map Prod.fst).Nodup

namespace Vault

def empty : Vault := ⟨[], nodup_nil⟩

variable (vault : Vault)

def read (path : DocId) : Option File := vault.files.get path

def write (path : DocId) (file : File) : Vault :=
  ⟨vault.files.set path file, nodup_set vault.distinct⟩

def remove (path : DocId) : Vault := ⟨vault.files.remove path, nodup_remove vault.distinct⟩

def collectMarkdownFiles : List DocId := (vault.files.map Prod.fst).filter isListed

/-- The file that `build_document` reads. -/
def markdownFile (path : DocId) : Option File :=
  if isMarkdownPath path then vault.read path else none

/-- What a rebuild finds at a path. -/
def listed (path : DocId) : Option File :=
  if isListed path then vault.read path else none

variable {vault : Vault} {path other : DocId} {file : File}

@[simp] theorem read_write_self : (vault.write path file).read path = some file := get_set_self

theorem read_write_of_ne (differs : other ≠ path) :
    (vault.write path file).read other = vault.read other :=
  get_set_of_ne differs

@[simp] theorem read_remove_self : (vault.remove path).read path = none := get_remove_self

theorem read_remove_of_ne (differs : other ≠ path) :
    (vault.remove path).read other = vault.read other :=
  get_remove_of_ne differs

theorem markdown_of_listed (isIt : isListed path = true) : isMarkdownPath path = true :=
  (Bool.and_eq_true_iff.mp isIt).2

theorem listed_congr {vault' : Vault} (same : vault'.read path = vault.read path) :
    vault'.listed path = vault.listed path := by
  rw [listed, listed, same]

theorem markdownFile_of_listed (isIt : isListed path = true) :
    vault.markdownFile path = vault.listed path := by
  rw [markdownFile, listed, if_pos isIt, if_pos (markdown_of_listed isIt)]

theorem listed_of_not_listed (isNot : ¬ isListed path = true) : vault.listed path = none :=
  if_neg isNot

theorem listed_eq_some : vault.listed path = some file ↔ isListed path ∧ vault.read path = some file := by
  unfold listed
  split
  · rename_i isIt
    simp [isIt]
  · rename_i isNot
    simp [isNot]

theorem mem_collectMarkdownFiles :
    path ∈ vault.collectMarkdownFiles ↔ (vault.listed path).isSome := by
  rw [collectMarkdownFiles, mem_filter, Assoc.mem_keys, and_comm]
  unfold listed read
  split
  · rename_i isIt
    simp [isIt]
  · rename_i isNot
    simp [isNot]

theorem nodup_collectMarkdownFiles : vault.collectMarkdownFiles.Nodup := vault.distinct.filter _

end Vault

end Kuku.Search
