/-
# Search.Wikilink -- which document a wikilink means

A target with a `/` is looked up by its normalised path; otherwise, and where no document has
that path, the documents with the target's last segment are candidates and the one in the
nearest folder is meant.  Two nearest candidates leave the link ambiguous.

`DocIndex` is the list of identities in the order of their `doc_id`: its two hash maps are the
last identity of a path and the identities of a basename, in that order.

Only the candidates matter (`resolveWikilink_congr`), and the note uids are passed on without
being looked at (`resolveWikilink_withUid`).
-/
import Kuku.Theory.Chars

namespace Kuku.Search

open Kuku.Theory List

abbrev DocId := List Char

structure DocIdentity where
  noteUid : Nat
  docId : DocId
  normalizedPath : List Char
  basename : List Char

inductive ResolutionKind where
  | ambiguous
  | basename
  | exact
  | unresolved
  deriving DecidableEq

structure LinkResolution where
  resolvedTargetUid : Option Nat
  resolvedDocId : Option DocId
  resolutionKind : ResolutionKind
  folderDistance : Option Nat
  deriving DecidableEq

def LinkResolution.unresolved : LinkResolution := ⟨none, none, .unresolved, none⟩

def LinkResolution.ambiguous : LinkResolution := ⟨none, none, .ambiguous, none⟩

abbrev DocIndex := List DocIdentity

def DocIndex.byNormalizedPath (index : DocIndex) (path : List Char) : Option DocIdentity :=
  (index.filter fun doc => doc.normalizedPath = path).getLast?

def DocIndex.byBasename (index : DocIndex) (basename : List Char) : List DocIdentity :=
  index.filter fun doc => doc.basename = basename

/-! ## Normal forms of paths and targets -/

/-- The suffix is ASCII, so its bytes are its characters. -/
def stripAsciiSuffix (value suffix : List Char) : Option (List Char) :=
  if suffix.isSuffixOf (value.map Text.asciiLowerChar) then
    some (value.take (value.length - suffix.length))
  else none

def stripMarkdownExtension (value : List Char) : List Char :=
  ((stripAsciiSuffix value ".markdown".toList).or (stripAsciiSuffix value ".md".toList)).getD value

def basenameFromNormalized (value : List Char) : List Char :=
  (value.splitOn '/').getLast?.getD value

def folderParts (path : DocId) : List (List Char) :=
  (path.splitOn '/').dropLast.filter fun part => !part.isEmpty

@[grind =] def commonParts : List (List Char) → List (List Char) → Nat
  | source :: sources, candidate :: candidates =>
    if source = candidate then commonParts sources candidates + 1 else 0
  | _, _ => 0

def folderDistanceBetween (sourceDocId candidateDocId : DocId) : Nat :=
  let sourceParts := folderParts sourceDocId
  let candidateParts := folderParts candidateDocId
  let common := commonParts sourceParts candidateParts
  (sourceParts.length - common) + (candidateParts.length - common)

section Resolution

variable (lowercase : List Char → List Char)

def normalizeLinkTarget (value : List Char) : List Char :=
  stripMarkdownExtension (lowercase (Chars.replaceChar '\\' ['/'] (Chars.trim value)))

def toDocIdentity (noteUid : Nat) (docId : DocId) : DocIdentity :=
  let normalizedPath := normalizeLinkTarget lowercase docId
  ⟨noteUid, docId, normalizedPath, basenameFromNormalized normalizedPath⟩

/-! ## The nearest candidate -/

/-- No best document stands for the distance `usize::MAX`. -/
structure Nearest where
  best : Option (DocIdentity × Nat) := none
  hasTie : Bool := false

def Nearest.consider (sourceDocId : DocId) (nearest : Nearest) (candidate : DocIdentity) :
    Nearest :=
  let distance := folderDistanceBetween sourceDocId candidate.docId
  match nearest.best with
  | none => ⟨some (candidate, distance), false⟩
  | some (_, bestDistance) =>
    if distance < bestDistance then ⟨some (candidate, distance), false⟩
    else if distance = bestDistance then { nearest with hasTie := true }
    else nearest

def nearestOf (sourceDocId : DocId) (candidates : List DocIdentity) : Nearest :=
  candidates.foldl (Nearest.consider sourceDocId) {}

/-! ## Resolution -/

def resolvedTo (kind : ResolutionKind) (sourceDocId : DocId) (doc : DocIdentity) :
    LinkResolution :=
  ⟨some doc.noteUid, some doc.docId, kind, some (folderDistanceBetween sourceDocId doc.docId)⟩

def resolveBasename (sourceDocId : DocId) (candidates : List DocIdentity) : LinkResolution :=
  match candidates with
  | [] => .unresolved
  | [doc] => resolvedTo .basename sourceDocId doc
  | candidates =>
    let nearest := nearestOf sourceDocId candidates
    if nearest.hasTie then .ambiguous
    else
      match nearest.best with
      | none => .unresolved
      | some (doc, bestDistance) =>
        ⟨some doc.noteUid, some doc.docId, .basename, some bestDistance⟩

def resolveWikilink (sourceDocId : DocId) (rawTarget : List Char) (index : DocIndex) :
    LinkResolution :=
  let target := normalizeLinkTarget lowercase rawTarget
  if target = [] then .unresolved
  else
    match if '/' ∈ target then index.byNormalizedPath target else none with
    | some doc => resolvedTo .exact sourceDocId doc
    | none => resolveBasename sourceDocId (index.byBasename (basenameFromNormalized target))

end Resolution

/-! ## Only the candidates matter -/

variable {lowercase : List Char → List Char} {index other : DocIndex}
  {sourceDocId rawTarget : List Char}

/-- The identity is the one `toDocIdentity` gives. -/
def DocIdentity.Formed (lowercase : List Char → List Char) (doc : DocIdentity) : Prop :=
  doc = toDocIdentity lowercase doc.noteUid doc.docId

theorem DocIdentity.Formed.basename_eq {doc : DocIdentity} (formed : doc.Formed lowercase) :
    doc.basename = basenameFromNormalized doc.normalizedPath := by
  rw [formed]
  rfl

theorem byNormalizedPath_eq (formed : ∀ doc ∈ index, doc.Formed lowercase) (path : List Char) :
    index.byNormalizedPath path =
      DocIndex.byNormalizedPath (index.byBasename (basenameFromNormalized path)) path := by
  unfold DocIndex.byNormalizedPath DocIndex.byBasename
  rw [filter_filter]
  congr 1
  apply filter_congr
  intro doc among
  by_cases same : doc.normalizedPath = path
  · have named : doc.basename = basenameFromNormalized path := same ▸ (formed doc among).basename_eq
    simp [same, named]
  · simp [same]

/-- Two indexes with the same documents of the target's last segment resolve it alike. -/
theorem resolveWikilink_congr (formed : ∀ doc ∈ index, doc.Formed lowercase)
    (formedOther : ∀ doc ∈ other, doc.Formed lowercase)
    (same : index.byBasename (basenameFromNormalized (normalizeLinkTarget lowercase rawTarget)) =
      other.byBasename (basenameFromNormalized (normalizeLinkTarget lowercase rawTarget))) :
    resolveWikilink lowercase sourceDocId rawTarget index =
      resolveWikilink lowercase sourceDocId rawTarget other := by
  unfold resolveWikilink
  simp only
  rw [byNormalizedPath_eq formed, byNormalizedPath_eq formedOther, same]

/-! ## The note uids do not matter -/

def DocIdentity.withUid (uid : DocId → Nat) (doc : DocIdentity) : DocIdentity :=
  { doc with noteUid := uid doc.docId }

def LinkResolution.withUid (uid : DocId → Nat) (resolution : LinkResolution) : LinkResolution :=
  { resolution with resolvedTargetUid := resolution.resolvedDocId.map uid }

def Nearest.withUid (uid : DocId → Nat) (nearest : Nearest) : Nearest :=
  { nearest with best := nearest.best.map fun found => (found.1.withUid uid, found.2) }

variable {uid : DocId → Nat} {candidates : List DocIdentity}

theorem consider_withUid {nearest : Nearest} {candidate : DocIdentity} :
    (nearest.withUid uid).consider sourceDocId (candidate.withUid uid) =
      (nearest.consider sourceDocId candidate).withUid uid := by
  obtain ⟨best, hasTie⟩ := nearest
  cases best with
  | none => rfl
  | some found =>
    have sameDistance : folderDistanceBetween sourceDocId (candidate.withUid uid).docId =
        folderDistanceBetween sourceDocId candidate.docId := rfl
    simp only [Nearest.consider, Nearest.withUid, Option.map_some, sameDistance]
    by_cases nearer : folderDistanceBetween sourceDocId candidate.docId < found.2
    · simp [nearer]
    · by_cases tie : folderDistanceBetween sourceDocId candidate.docId = found.2
      · simp [tie]
      · simp [nearer, tie]

theorem nearestOf_withUid :
    nearestOf sourceDocId (candidates.map (DocIdentity.withUid uid)) =
      (nearestOf sourceDocId candidates).withUid uid := by
  have folded : ∀ nearest : Nearest,
      (candidates.map (DocIdentity.withUid uid)).foldl (Nearest.consider sourceDocId)
          (nearest.withUid uid) =
        (candidates.foldl (Nearest.consider sourceDocId) nearest).withUid uid := by
    induction candidates with
    | nil => exact fun _ => rfl
    | cons candidate rest ih =>
      intro nearest
      rw [map_cons, foldl_cons, foldl_cons, consider_withUid, ih]
  exact folded {}

theorem resolveBasename_withUid :
    resolveBasename sourceDocId (candidates.map (DocIdentity.withUid uid)) =
      (resolveBasename sourceDocId candidates).withUid uid := by
  match candidates with
  | [] => rfl
  | [doc] => rfl
  | first :: second :: rest =>
    have tied : nearestOf sourceDocId ((first :: second :: rest).map (DocIdentity.withUid uid)) =
        (nearestOf sourceDocId (first :: second :: rest)).withUid uid := nearestOf_withUid
    simp only [map_cons] at tied
    simp only [resolveBasename, map_cons]
    rw [tied]
    generalize nearestOf sourceDocId (first :: second :: rest) = nearest
    obtain ⟨best, hasTie⟩ := nearest
    cases hasTie with
    | true => rfl
    | false => cases best <;> rfl

theorem byNormalizedPath_withUid {path : List Char} :
    DocIndex.byNormalizedPath (index.map (DocIdentity.withUid uid)) path =
      (index.byNormalizedPath path).map (DocIdentity.withUid uid) := by
  unfold DocIndex.byNormalizedPath
  rw [filter_map, getLast?_map]
  rfl

theorem byBasename_withUid {basename : List Char} :
    DocIndex.byBasename (index.map (DocIdentity.withUid uid)) basename =
      (index.byBasename basename).map (DocIdentity.withUid uid) := by
  unfold DocIndex.byBasename
  rw [filter_map]
  rfl

theorem resolveWikilink_withUid :
    resolveWikilink lowercase sourceDocId rawTarget (index.map (DocIdentity.withUid uid)) =
      (resolveWikilink lowercase sourceDocId rawTarget index).withUid uid := by
  unfold resolveWikilink
  simp only
  rw [byNormalizedPath_withUid, byBasename_withUid, resolveBasename_withUid]
  generalize normalizeLinkTarget lowercase rawTarget = target
  by_cases isEmpty : target = []
  · simp only [if_pos isEmpty]
    rfl
  · by_cases isPath : '/' ∈ target
    · simp only [if_neg isEmpty, if_pos isPath]
      cases index.byNormalizedPath target <;> rfl
    · simp only [if_neg isEmpty, if_neg isPath]

/-! ## A resolved target is a document -/

/-- A resolution names a document of the index, by uid and by `doc_id`, or neither. -/
def LinkResolution.Within (index : DocIndex) (resolution : LinkResolution) : Prop :=
  (resolution.resolvedTargetUid = none ∧ resolution.resolvedDocId = none) ∨
    ∃ doc ∈ index, resolution.resolvedTargetUid = some doc.noteUid ∧
      resolution.resolvedDocId = some doc.docId

theorem foldl_consider_mem {nearest : Nearest} (held : ∀ found ∈ nearest.best, found.1 ∈ index)
    (among : ∀ doc ∈ candidates, doc ∈ index) :
    ∀ found ∈ (candidates.foldl (Nearest.consider sourceDocId) nearest).best, found.1 ∈ index := by
  induction candidates generalizing nearest with
  | nil => exact held
  | cons candidate rest ih =>
    refine ih ?_ fun doc later => among doc (mem_cons_of_mem _ later)
    have isCandidate := among candidate mem_cons_self
    obtain ⟨best, hasTie⟩ := nearest
    cases best with
    | none => simpa [Nearest.consider] using isCandidate
    | some found =>
      simp only [Nearest.consider]
      split
      · simpa using isCandidate
      · split
        · exact held
        · exact held

theorem resolveBasename_within (among : ∀ doc ∈ candidates, doc ∈ index) :
    (resolveBasename sourceDocId candidates).Within index := by
  match candidates with
  | [] => exact .inl ⟨rfl, rfl⟩
  | [doc] => exact .inr ⟨doc, among doc mem_cons_self, rfl, rfl⟩
  | first :: second :: rest =>
    have found : ∀ found ∈ (nearestOf sourceDocId (first :: second :: rest)).best,
        found.1 ∈ index :=
      foldl_consider_mem (fun _ none => nomatch none) among
    simp only [resolveBasename]
    split
    · exact .inl ⟨rfl, rfl⟩
    · split
      · exact .inl ⟨rfl, rfl⟩
      · rename_i doc distance best
        exact .inr ⟨doc, found _ best, rfl, rfl⟩

theorem resolveWikilink_within :
    (resolveWikilink lowercase sourceDocId rawTarget index).Within index := by
  unfold resolveWikilink
  simp only
  split
  · exact .inl ⟨rfl, rfl⟩
  · split
    · rename_i doc found
      refine .inr ⟨doc, ?_, rfl, rfl⟩
      split at found
      · exact mem_of_mem_filter (mem_of_getLast? found)
      · cases found
    · exact resolveBasename_within fun doc among => mem_of_mem_filter among

end Kuku.Search
