/-
# Search.Resolution -- the resolution of a wikilink as a function of the set of notes

`Means` says what a target means among documents, without an order of them: the document with
its path where there is just one, or else the one document of its basename that is closest to
the source, and ambiguous where several are closest.  `resolveWikilink` computes it, except
where two documents have the path of the target: the map of the exact paths has then kept the
last of them (`resolves_set_iff`).
-/
import Kuku.Search.Wikilink

namespace Kuku.Search

open Kuku.Theory List

/-! ## The distance of folders -/

section Distance

variable {a b c : List (List Char)}

theorem commonParts_comm (a b : List (List Char)) : commonParts a b = commonParts b a := by
  induction a generalizing b with
  | nil => cases b <;> rfl
  | cons x xs ih =>
    cases b with
    | nil => rfl
    | cons y ys =>
      simp only [commonParts, ih ys]
      by_cases same : x = y
      · simp [same]
      · simp [same, Ne.symm same]

theorem commonParts_le (a b : List (List Char)) : commonParts a b ≤ a.length := by
  induction a generalizing b with
  | nil => cases b <;> exact Nat.le_refl 0
  | cons x xs ih =>
    cases b with
    | nil => exact Nat.zero_le _
    | cons y ys =>
      simp only [commonParts]
      split
      · exact Nat.succ_le_succ (ih ys)
      · exact Nat.zero_le _

theorem commonParts_self (a : List (List Char)) : commonParts a a = a.length := by
  induction a with
  | nil => rfl
  | cons x xs ih => simp [commonParts, ih]

theorem eq_of_commonParts (first : commonParts a b = a.length)
    (second : commonParts a b = b.length) : a = b := by
  induction a generalizing b with
  | nil => exact (length_eq_zero_iff.mp (second.symm.trans first)).symm
  | cons x xs ih =>
    cases b with
    | nil => cases first
    | cons y ys =>
      simp only [commonParts] at first second
      split at first
      · rename_i same
        rw [if_pos same] at second
        rw [same, ih (Nat.succ.inj first) (Nat.succ.inj second)]
      · cases first

/-- Two paths have in common what both have in common with a third. -/
theorem min_commonParts_le (a b c : List (List Char)) :
    min (commonParts a b) (commonParts b c) ≤ commonParts a c := by
  induction a generalizing b c with
  | nil => cases b <;> simp [commonParts]
  | cons x xs ih =>
    cases b with
    | nil => simp [commonParts]
    | cons y ys =>
      cases c with
      | nil => simp [commonParts]
      | cons z zs =>
        simp only [commonParts]
        by_cases first : x = y
        · subst first
          by_cases second : x = z
          · subst second
            simp only [↓reduceIte]
            have rest := ih ys zs
            omega
          · simp [second]
        · simp [first]

end Distance

theorem folderDistanceBetween_eq (a b : DocId) : folderDistanceBetween a b =
    ((folderParts a).length - commonParts (folderParts a) (folderParts b)) +
      ((folderParts b).length - commonParts (folderParts a) (folderParts b)) := rfl

/-- The distance is a metric on the folders of documents. -/
structure IsFolderMetric (distance : DocId → DocId → Nat) : Prop where
  zero_iff : ∀ a b, distance a b = 0 ↔ folderParts a = folderParts b
  symm : ∀ a b, distance a b = distance b a
  triangle : ∀ a b c, distance a c ≤ distance a b + distance b c

theorem folderDistance_isMetric : IsFolderMetric folderDistanceBetween where
  zero_iff a b := by
    have first := commonParts_le (folderParts a) (folderParts b)
    have second := commonParts_le (folderParts b) (folderParts a)
    rw [commonParts_comm] at second
    rw [folderDistanceBetween_eq]
    constructor
    · intro isZero
      exact eq_of_commonParts (by omega) (by omega)
    · intro same
      simp [same, commonParts_self]
  symm a b := by
    rw [folderDistanceBetween_eq, folderDistanceBetween_eq, commonParts_comm]
    exact Nat.add_comm _ _
  triangle a b c := by
    have shared := min_commonParts_le (folderParts a) (folderParts b) (folderParts c)
    have ab := commonParts_le (folderParts a) (folderParts b)
    have ba := commonParts_le (folderParts b) (folderParts a)
    have bc := commonParts_le (folderParts b) (folderParts c)
    have cb := commonParts_le (folderParts c) (folderParts b)
    rw [commonParts_comm] at ba cb
    rw [folderDistanceBetween_eq, folderDistanceBetween_eq, folderDistanceBetween_eq]
    omega

/-! ## The closest candidates -/

/-- The candidates at the smallest distance from the source. -/
def closest (sourceDocId : DocId) (candidates : List DocIdentity) : List DocIdentity :=
  candidates.filter fun doc => candidates.all fun other =>
    folderDistanceBetween sourceDocId doc.docId ≤ folderDistanceBetween sourceDocId other.docId

section Closest

variable {sourceDocId : DocId} {candidates others : List DocIdentity} {doc : DocIdentity}

theorem mem_closest : doc ∈ closest sourceDocId candidates ↔ doc ∈ candidates ∧
    ∀ other ∈ candidates, folderDistanceBetween sourceDocId doc.docId ≤
      folderDistanceBetween sourceDocId other.docId := by
  simp [closest]

theorem closest_perm (perm : candidates.Perm others) :
    (closest sourceDocId candidates).Perm (closest sourceDocId others) := by
  have same : ∀ doc : DocIdentity, (candidates.all fun other => folderDistanceBetween sourceDocId doc.docId ≤
      folderDistanceBetween sourceDocId other.docId) = others.all fun other =>
      folderDistanceBetween sourceDocId doc.docId ≤ folderDistanceBetween sourceDocId other.docId :=
    fun doc => perm.all_eq
  unfold closest
  simp only [same]
  exact perm.filter _

theorem closest_concat : closest sourceDocId (candidates ++ [doc]) =
    ((closest sourceDocId candidates).filter fun other =>
      folderDistanceBetween sourceDocId other.docId ≤ folderDistanceBetween sourceDocId doc.docId) ++
    if ∀ other ∈ candidates, folderDistanceBetween sourceDocId doc.docId ≤
      folderDistanceBetween sourceDocId other.docId then [doc] else [] := by
  unfold closest
  rw [filter_append, filter_filter]
  congr 1
  · apply filter_congr
    intro other _
    simp [Bool.and_comm]
  · simp [filter_cons]

/-- What the loop holds after some candidates. -/
def Nearest.Tracks (sourceDocId : DocId) (candidates : List DocIdentity) (nearest : Nearest) :
    Prop :=
  match nearest.best with
  | none => candidates = [] ∧ nearest.hasTie = false
  | some (doc, distance) => distance = folderDistanceBetween sourceDocId doc.docId ∧
      ∃ rest, closest sourceDocId candidates = doc :: rest ∧ nearest.hasTie = !rest.isEmpty

theorem Nearest.Tracks.consider {nearest : Nearest}
    (tracks : nearest.Tracks sourceDocId candidates) :
    (nearest.consider sourceDocId doc).Tracks sourceDocId (candidates ++ [doc]) := by
  obtain ⟨best, hasTie⟩ := nearest
  cases best with
  | none =>
    obtain ⟨rfl, -⟩ := tracks
    exact ⟨rfl, [], by simp [closest], rfl⟩
  | some found =>
    obtain ⟨held, distance⟩ := found
    obtain ⟨rfl, rest, isClosest, isTie⟩ := tracks
    have least : ∀ other ∈ candidates, folderDistanceBetween sourceDocId held.docId ≤
        folderDistanceBetween sourceDocId other.docId :=
      (mem_closest.mp (isClosest ▸ mem_cons_self)).2
    have member : held ∈ candidates := (mem_closest.mp (isClosest ▸ mem_cons_self)).1
    have sameDistance : ∀ other ∈ held :: rest, folderDistanceBetween sourceDocId other.docId =
        folderDistanceBetween sourceDocId held.docId := by
      intro other among
      obtain ⟨isCandidate, leastToo⟩ := mem_closest.mp (isClosest ▸ among)
      exact Nat.le_antisymm (leastToo held member) (least other isCandidate)
    simp only [Nearest.consider]
    by_cases nearer : folderDistanceBetween sourceDocId doc.docId <
        folderDistanceBetween sourceDocId held.docId
    · rw [if_pos nearer]
      refine ⟨rfl, [], ?_, rfl⟩
      rw [closest_concat, isClosest, filter_eq_nil_iff.mpr, if_pos]
      · rfl
      · exact fun other among => Nat.le_of_lt (Nat.lt_of_lt_of_le nearer (least other among))
      · intro other among
        rw [sameDistance other among]
        simpa using nearer
    · have kept : (held :: rest).filter (fun other =>
          decide (folderDistanceBetween sourceDocId other.docId ≤
            folderDistanceBetween sourceDocId doc.docId)) = held :: rest := by
        refine filter_eq_self.mpr fun other among => ?_
        rw [sameDistance other among]
        exact decide_eq_true (Nat.le_of_not_lt nearer)
      rw [if_neg nearer]
      by_cases tie : folderDistanceBetween sourceDocId doc.docId =
          folderDistanceBetween sourceDocId held.docId
      · rw [if_pos tie]
        refine ⟨rfl, rest ++ [doc], ?_, by simp⟩
        rw [closest_concat, isClosest, kept, if_pos]
        · rfl
        · exact fun other among => tie ▸ least other among
      · rw [if_neg tie]
        refine ⟨rfl, rest, ?_, isTie⟩
        rw [closest_concat, isClosest, kept, if_neg, append_nil]
        intro leastToo
        have below := leastToo held member
        omega

theorem nearestOf_tracks (sourceDocId : DocId) (candidates : List DocIdentity) :
    (nearestOf sourceDocId candidates).Tracks sourceDocId candidates := by
  induction candidates using List.reverseRecOn with
  | nil => exact ⟨rfl, rfl⟩
  | append_singleton candidates doc ih =>
    unfold nearestOf
    rw [foldl_concat]
    exact ih.consider

end Closest

/-! ## What a target means -/

section Means

variable (lowercase : List Char → List Char) (sourceDocId rawTarget : List Char) (docs : DocIndex)

def withTargetPath : List DocIdentity :=
  docs.filter fun doc => '/' ∈ normalizeLinkTarget lowercase rawTarget ∧
    doc.normalizedPath = normalizeLinkTarget lowercase rawTarget

def withTargetBasename : List DocIdentity :=
  docs.byBasename (basenameFromNormalized (normalizeLinkTarget lowercase rawTarget))

/-- The resolution that the documents, in any order, give the target. -/
inductive Means : LinkResolution → Prop where
  | blank (isBlank : normalizeLinkTarget lowercase rawTarget = []) : Means .unresolved
  | exact {doc : DocIdentity} (visible : normalizeLinkTarget lowercase rawTarget ≠ [])
      (unique : withTargetPath lowercase rawTarget docs = [doc]) :
      Means (resolvedTo .exact sourceDocId doc)
  | missing (visible : normalizeLinkTarget lowercase rawTarget ≠ [])
      (notExact : ∀ doc, withTargetPath lowercase rawTarget docs ≠ [doc])
      (none : withTargetBasename lowercase rawTarget docs = []) : Means .unresolved
  | basename {doc : DocIdentity} (visible : normalizeLinkTarget lowercase rawTarget ≠ [])
      (notExact : ∀ doc, withTargetPath lowercase rawTarget docs ≠ [doc])
      (nearest : closest sourceDocId (withTargetBasename lowercase rawTarget docs) = [doc]) :
      Means (resolvedTo .basename sourceDocId doc)
  | ambiguous (visible : normalizeLinkTarget lowercase rawTarget ≠ [])
      (notExact : ∀ doc, withTargetPath lowercase rawTarget docs ≠ [doc])
      (several : 2 ≤ (closest sourceDocId (withTargetBasename lowercase rawTarget docs)).length) :
      Means .ambiguous

/-- The target is the path of two documents. -/
def SharedPath : Prop := 2 ≤ (withTargetPath lowercase rawTarget docs).length

/-- Every order of the documents gives the one resolution that they mean. -/
structure ResolvesSet : Prop where
  means : Means lowercase sourceDocId rawTarget docs
    (resolveWikilink lowercase sourceDocId rawTarget docs)
  anyOrder : ∀ docs', docs'.Perm docs → resolveWikilink lowercase sourceDocId rawTarget docs' =
    resolveWikilink lowercase sourceDocId rawTarget docs

end Means

section Resolves

variable {lowercase : List Char → List Char} {sourceDocId rawTarget : List Char}
  {docs docs' : DocIndex}

theorem Means.unique {r r' : LinkResolution} (first : Means lowercase sourceDocId rawTarget docs r)
    (second : Means lowercase sourceDocId rawTarget docs r') : r = r' := by
  cases first with
  | blank isBlank =>
    cases second with
    | blank => rfl
    | exact visible | missing visible | basename visible | ambiguous visible =>
      exact absurd isBlank visible
  | exact visible isExact =>
    cases second with
    | blank isBlank => exact absurd isBlank visible
    | exact _ isExactToo =>
      rw [isExact] at isExactToo
      cases isExactToo
      rfl
    | missing _ notExact | basename _ notExact | ambiguous _ notExact =>
      exact absurd isExact (notExact _)
  | missing visible notExact none =>
    cases second with
    | blank isBlank => exact absurd isBlank visible
    | exact _ isExact => exact absurd isExact (notExact _)
    | missing => rfl
    | basename _ _ nearest => simp [none, closest] at nearest
    | ambiguous _ _ several => simp [none, closest] at several
  | basename visible notExact nearest =>
    cases second with
    | blank isBlank => exact absurd isBlank visible
    | exact _ isExact => exact absurd isExact (notExact _)
    | missing _ _ none => simp [none, closest] at nearest
    | basename _ _ nearestToo =>
      rw [nearest] at nearestToo
      cases nearestToo
      rfl
    | ambiguous _ _ several => simp [nearest] at several
  | ambiguous visible notExact several =>
    cases second with
    | blank isBlank => exact absurd isBlank visible
    | exact _ isExact => exact absurd isExact (notExact _)
    | missing _ _ none => simp [none, closest] at several
    | basename _ _ nearest => simp [nearest] at several
    | ambiguous => rfl

theorem Means.perm {r : LinkResolution} (means : Means lowercase sourceDocId rawTarget docs r)
    (perm : docs.Perm docs') : Means lowercase sourceDocId rawTarget docs' r := by
  have paths : (withTargetPath lowercase rawTarget docs).Perm
      (withTargetPath lowercase rawTarget docs') := perm.filter _
  have basenames : (withTargetBasename lowercase rawTarget docs).Perm
      (withTargetBasename lowercase rawTarget docs') := perm.filter _
  have nearest : (closest sourceDocId (withTargetBasename lowercase rawTarget docs)).Perm
      (closest sourceDocId (withTargetBasename lowercase rawTarget docs')) :=
    closest_perm basenames
  have singletons : ∀ {l l' : List DocIdentity}, l.Perm l' → ∀ {doc}, l = [doc] → l' = [doc] := by
    intro l l' samePerm doc isOne
    exact perm_singleton.mp (isOne ▸ samePerm.symm)
  have notExact : (∀ doc, withTargetPath lowercase rawTarget docs ≠ [doc]) →
      ∀ doc, withTargetPath lowercase rawTarget docs' ≠ [doc] :=
    fun none doc isOne => none doc (singletons paths.symm isOne)
  cases means with
  | blank isBlank => exact .blank isBlank
  | exact visible unique => exact .exact visible (singletons paths unique)
  | missing visible isNot none =>
    exact .missing visible (notExact isNot) (perm_nil.mp (none ▸ basenames.symm))
  | basename visible isNot isNearest =>
    exact .basename visible (notExact isNot) (singletons nearest isNearest)
  | ambiguous visible isNot several =>
    exact .ambiguous visible (notExact isNot) (nearest.length_eq ▸ several)

/-- The candidates, once no exact path is in the way. -/
theorem resolveBasename_means (visible : normalizeLinkTarget lowercase rawTarget ≠ [])
    (notExact : ∀ doc, withTargetPath lowercase rawTarget docs ≠ [doc]) :
    Means lowercase sourceDocId rawTarget docs
      (resolveBasename sourceDocId (withTargetBasename lowercase rawTarget docs)) := by
  have tracks := nearestOf_tracks sourceDocId (withTargetBasename lowercase rawTarget docs)
  cases candidates : withTargetBasename lowercase rawTarget docs with
  | nil => exact .missing visible notExact candidates
  | cons first rest =>
    cases rest with
    | nil =>
      refine .basename visible notExact ?_
      simp [candidates, closest]
    | cons second rest =>
      rw [candidates] at tracks
      simp only [resolveBasename]
      cases nearest : nearestOf sourceDocId (first :: second :: rest) with
      | mk best hasTie =>
        rw [nearest] at tracks
        cases best with
        | none => cases tracks.1
        | some found =>
          obtain ⟨doc, distance⟩ := found
          obtain ⟨rfl, others, isClosest, isTie⟩ := tracks
          cases others with
          | nil =>
            cases isTie
            exact .basename visible notExact (candidates ▸ isClosest)
          | cons other others =>
            cases isTie
            refine .ambiguous visible notExact ?_
            rw [candidates, isClosest]
            simp

theorem resolveWikilink_eq : resolveWikilink lowercase sourceDocId rawTarget docs =
    if normalizeLinkTarget lowercase rawTarget = [] then .unresolved
    else
      match (withTargetPath lowercase rawTarget docs).getLast? with
      | some doc => resolvedTo .exact sourceDocId doc
      | none => resolveBasename sourceDocId (withTargetBasename lowercase rawTarget docs) := by
  have lookup : (withTargetPath lowercase rawTarget docs).getLast? =
      if '/' ∈ normalizeLinkTarget lowercase rawTarget then
        docs.byNormalizedPath (normalizeLinkTarget lowercase rawTarget) else none := by
    unfold withTargetPath DocIndex.byNormalizedPath
    split <;> rename_i isPath <;> simp [isPath]
  rw [lookup]
  rfl

/-- What the code finds for a path of several documents: the last of them. -/
theorem resolveWikilink_shared {doc : DocIdentity}
    (isLast : (withTargetPath lowercase rawTarget docs).getLast? = some doc) :
    resolveWikilink lowercase sourceDocId rawTarget docs = resolvedTo .exact sourceDocId doc := by
  have among := mem_of_getLast? isLast
  have isPath : '/' ∈ normalizeLinkTarget lowercase rawTarget := by
    simpa using And.left (of_decide_eq_true (mem_filter.mp among).2)
  rw [resolveWikilink_eq, if_neg (ne_nil_of_mem isPath), isLast]

theorem resolveWikilink_means (notShared : ¬ SharedPath lowercase rawTarget docs) :
    Means lowercase sourceDocId rawTarget docs
      (resolveWikilink lowercase sourceDocId rawTarget docs) := by
  by_cases visible : normalizeLinkTarget lowercase rawTarget = []
  · rw [resolveWikilink_eq, if_pos visible]
    exact .blank visible
  · cases withPath : withTargetPath lowercase rawTarget docs with
    | nil =>
      rw [resolveWikilink_eq, if_neg visible, withPath]
      exact resolveBasename_means visible fun doc => by simp [withPath]
    | cons doc rest =>
      cases rest with
      | nil =>
        rw [resolveWikilink_shared (by rw [withPath]; rfl)]
        exact .exact visible withPath
      | cons other rest =>
        refine absurd ?_ notShared
        unfold SharedPath
        rw [withPath]
        simp

/-- **Resolution is a function of the set of documents** for every target but the path of two
of them, where it is not. -/
theorem resolves_set_iff (lowercase : List Char → List Char) (sourceDocId rawTarget : List Char)
    (docs : DocIndex) : (ResolvesSet lowercase sourceDocId rawTarget docs ∧
      IsFolderMetric folderDistanceBetween) ↔ ¬ SharedPath lowercase rawTarget docs := by
  constructor
  · rintro ⟨⟨means, -⟩, -⟩ shared
    obtain ⟨doc, isLast⟩ : ∃ doc, (withTargetPath lowercase rawTarget docs).getLast? = some doc :=
      ⟨_, getLast?_eq_some_getLast
        (ne_nil_of_length_pos (Nat.lt_of_lt_of_le Nat.zero_lt_two shared))⟩
    rw [resolveWikilink_shared isLast] at means
    generalize isResolution : resolvedTo .exact sourceDocId doc = resolution at means
    cases means with
    | exact visible unique =>
      unfold SharedPath at shared
      rw [unique] at shared
      exact absurd shared (by simp)
    | blank | missing | ambiguous | basename =>
      cases congrArg LinkResolution.resolutionKind isResolution
  · intro notShared
    refine ⟨⟨resolveWikilink_means notShared, ?_⟩, folderDistance_isMetric⟩
    intro docs' perm
    have notSharedToo : ¬ SharedPath lowercase rawTarget docs' := by
      unfold SharedPath withTargetPath at notShared ⊢
      rwa [(perm.filter _).length_eq]
    exact (resolveWikilink_means notSharedToo).unique ((resolveWikilink_means notShared).perm
      perm.symm)

/-- Two notes whose names differ in case only: the later one is meant. -/
theorem shared_path_by_order :
    ¬ ResolvesSet (List.map Text.asciiLowerChar) "b.md".toList "a/x".toList
      [toDocIdentity (List.map Text.asciiLowerChar) 1 "a/X.md".toList,
        toDocIdentity (List.map Text.asciiLowerChar) 2 "a/x.md".toList] := by
  rintro ⟨-, anyOrder⟩
  exact absurd (anyOrder _ (List.Perm.swap _ _ [])) (by decide +kernel)

end Resolves

end Kuku.Search
