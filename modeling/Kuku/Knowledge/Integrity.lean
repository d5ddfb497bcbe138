/-
# Knowledge.Integrity -- what the integrity checks leave to the planners

`validateInVault` accepts a document and answers with the outputs of its yes decisions.  What
is known of an accepted document is collected in `Validated`, for both kinds of document at
once.
-/
import Kuku.Knowledge.ApplyPlan
import Kuku.Theory.Except

namespace Kuku.Knowledge

open Kuku.Theory List Option Text

/-! ## What is accepted -/

def DecisionBlock.isYes (decision : DecisionBlock) : Bool := decision.selectedOptionId = some "yes"

/-- A proposal is the one with its id. -/
def ProposalKind.find {π : Type} (kind : ProposalKind π) (proposals : List π) (id : String) :
    Option π :=
  proposals.find? fun proposal => kind.id proposal = id

/-- A yes decision's output is at the path, which is as the proposal wants it. -/
def Resolves {π : Type} (kind : ProposalKind π) (isThere : String → Bool) (proposals : List π)
    (decision : DecisionBlock) (path : String) : Prop :=
  ∃ proposal, kind.find proposals decision.targetChangeId = some proposal ∧
    kind.outputPath proposal = .ok path ∧
    kind.checkExisting proposal path (isThere path) = .ok ()

/-- What the checks have established of a document that they accept. -/
structure Validated {π : Type} (kind : ProposalKind π) (isThere : String → Bool) (crates : Crates)
    (documentProposalId : String) (proposals : List π) (decisions : List DecisionBlock)
    (yesPaths : List String) : Prop where
  proposalsValid : ∀ proposal ∈ proposals, kind.validate proposal = .ok ()
  idsDistinct : (proposals.map kind.id).Nodup
  decisionsValid : ∀ decision ∈ decisions, validateDecision crates decision documentProposalId = .ok ()
  covered : (decisions.map DecisionBlock.targetChangeId).Perm (proposals.map kind.id)
  outputs : List.Forall₂ (Resolves kind isThere proposals) (decisions.filter DecisionBlock.isYes)
    yesPaths
  pathsDistinct : yesPaths.Nodup

section Checks

variable {π : Type} {kind : ProposalKind π} {crates : Crates} {documentProposalId : String}
  {seen seen' : Seen} {isThere : String → Bool}

theorem checkProposal_ok {proposal : Parsed π}
    (accepted : checkProposal kind seen proposal = .ok seen') :
    kind.validate proposal.value = .ok () ∧ kind.id proposal.value ∉ seen.ids ∧
      seen'.ids = seen.ids ++ [kind.id proposal.value] := by
  simp only [checkProposal, bind, Except.bind, pure, Except.pure] at accepted
  split_ifs at accepted with noSpan isSeen
  · split at accepted <;> cases accepted
  · split at accepted
    · cases accepted
    · rename_i isValid
      split at accepted
      · cases accepted
      · split_ifs at accepted
        cases accepted
        exact ⟨isValid, isSeen, rfl⟩

theorem checkProposals_ok {proposals : List (Parsed π)}
    (accepted : proposals.foldlM (checkProposal kind) seen = .ok seen')
    (distinct : seen.ids.Nodup) :
    (∀ proposal ∈ proposals.map Parsed.value, kind.validate proposal = .ok ()) ∧
      seen'.ids = seen.ids ++ (proposals.map Parsed.value).map kind.id ∧ seen'.ids.Nodup := by
  induction proposals generalizing seen with
  | nil =>
    cases accepted
    exact ⟨(fun _ among => nomatch among), (append_nil _).symm, distinct⟩
  | cons proposal rest ih =>
    rw [foldlM_cons] at accepted
    obtain ⟨middle, isFirst, isRest⟩ := bind_ok.mp accepted
    obtain ⟨isValid, isNew, ids⟩ := checkProposal_ok isFirst
    have distinctNext : middle.ids.Nodup := by
      rw [ids]
      exact nodup_append.mpr ⟨distinct, nodup_singleton _,
        fun a isOld b isNext same => isNew (mem_singleton.mp isNext ▸ same ▸ isOld)⟩
    obtain ⟨restValid, restIds, distinctAfter⟩ := ih isRest distinctNext
    refine ⟨?_, ?_, distinctAfter⟩
    · intro other among
      rcases mem_cons.mp among with rfl | later
      · exact isValid
      · exact restValid other later
    · rw [restIds, ids, append_assoc]
      rfl

variable {proposals : List π}

/-- One decision: its target is looked up, and a yes decision has a new output. -/
theorem checkDecision_ok {decision : Parsed DecisionBlock} {found : Option (π × String)}
    (accepted : checkDecision kind crates documentProposalId proposals seen decision =
      .ok (seen', found)) :
    validateDecision crates decision.value documentProposalId = .ok () ∧
      seen'.targets = seen.targets ++ [decision.value.targetChangeId] ∧
      ∃ proposal, kind.find proposals decision.value.targetChangeId = some proposal ∧
        ((decision.value.isYes = true ∧ ∃ path, kind.outputPath proposal = .ok path ∧
            path ∉ seen.yesPaths ∧ seen'.yesPaths = seen.yesPaths ++ [path] ∧
            found = some (proposal, path)) ∨
          (decision.value.isYes = false ∧ seen'.yesPaths = seen.yesPaths ∧ found = none)) := by
  simp only [checkDecision, bind, Except.bind, pure, Except.pure] at accepted
  split_ifs at accepted with noSpan isSeen isYes
  · split at accepted <;> cases accepted
  · split at accepted
    · cases accepted
    rename_i isValid
    split at accepted
    · rename_i proposal isFound
      split at accepted
      · cases accepted
      rename_i path isPath
      split_ifs at accepted with isOld
      cases accepted
      exact ⟨isValid, rfl, proposal, isFound,
        .inl ⟨decide_eq_true isYes, path, isPath, isOld, rfl, rfl⟩⟩
    · cases accepted
  · split at accepted
    · cases accepted
    rename_i isValid
    split at accepted
    · rename_i proposal isFound
      cases accepted
      exact ⟨isValid, rfl, proposal, isFound, .inr ⟨decide_eq_false isYes, rfl, rfl⟩⟩
    · cases accepted

/-- The loop over the decisions, in a vault that nobody changes meanwhile. -/
theorem checkDecisions_ok {decisions : List (Parsed DecisionBlock)}
    (accepted : checkDecisions kind (m := Except ServiceError) (fun result => result)
      (fun path => .ok (some (isThere path))) crates documentProposalId proposals seen decisions =
        .ok seen') (distinct : seen.yesPaths.Nodup) :
    (∀ decision ∈ decisions.map Parsed.value,
      validateDecision crates decision documentProposalId = .ok () ∧
        (kind.find proposals decision.targetChangeId).isSome) ∧
      seen'.targets =
        seen.targets ++ (decisions.map Parsed.value).map DecisionBlock.targetChangeId ∧
      ∃ paths, seen'.yesPaths = seen.yesPaths ++ paths ∧ seen'.yesPaths.Nodup ∧
        List.Forall₂ (Resolves kind isThere proposals)
          ((decisions.map Parsed.value).filter DecisionBlock.isYes) paths := by
  induction decisions generalizing seen with
  | nil =>
    cases accepted
    exact ⟨(fun _ among => nomatch among), (append_nil _).symm, [],
      (append_nil _).symm, distinct, .nil⟩
  | cons decision rest ih =>
    obtain ⟨⟨middle, found⟩, isFirst, continues⟩ := bind_ok.mp accepted
    obtain ⟨isValid, targets, proposal, isFound, outcome⟩ := checkDecision_ok isFirst
    have valid : ∀ other ∈ (decision :: rest).map Parsed.value,
        (∀ later ∈ rest.map Parsed.value,
          validateDecision crates later documentProposalId = .ok () ∧
            (kind.find proposals later.targetChangeId).isSome) →
        validateDecision crates other documentProposalId = .ok () ∧
          (kind.find proposals other.targetChangeId).isSome := by
      intro other among restValid
      rcases mem_cons.mp among with rfl | later
      · exact ⟨isValid, isFound ▸ rfl⟩
      · exact restValid other later
    rcases outcome with ⟨isYes, path, isPath, isNew, yesPaths, rfl⟩ | ⟨notYes, yesPaths, rfl⟩
    · have checks : (kind.checkExisting proposal path (isThere path) >>= fun _ =>
          checkDecisions kind (m := Except ServiceError) (fun result => result)
            (fun path => .ok (some (isThere path))) crates documentProposalId proposals middle
            rest) = .ok seen' := continues
      obtain ⟨⟨⟩, isChecked, isRest⟩ := bind_ok.mp checks
      have distinctNext : middle.yesPaths.Nodup := by
        rw [yesPaths]
        exact nodup_append.mpr ⟨distinct, nodup_singleton _,
          fun a isOld b isNext same => isNew (mem_singleton.mp isNext ▸ same ▸ isOld)⟩
      obtain ⟨restValid, restTargets, paths, restPaths, distinctAfter, related⟩ :=
        ih isRest distinctNext
      refine ⟨fun other among => valid other among restValid, ?_, path :: paths, ?_,
        distinctAfter, ?_⟩
      · rw [restTargets, targets, append_assoc]
        rfl
      · rw [restPaths, yesPaths, append_assoc]
        rfl
      · rw [map_cons, filter_cons_of_pos isYes]
        exact .cons ⟨proposal, isFound, isPath, isChecked⟩ related
    · obtain ⟨restValid, restTargets, paths, restPaths, distinctAfter, related⟩ :=
        ih continues (yesPaths ▸ distinct)
      refine ⟨fun other among => valid other among restValid, ?_, paths, ?_, distinctAfter, ?_⟩
      · rw [restTargets, targets, append_assoc]
        rfl
      · rw [restPaths, yesPaths]
      · rw [map_cons, filter_cons_of_neg (by simp [notYes])]
        exact related

theorem checkTarget_ok {targets : List String} {id : String}
    (accepted : checkTarget targets id = .ok ()) : targets.count id = 1 := by
  unfold checkTarget at accepted
  split at accepted
  · assumption
  · cases accepted
  · cases accepted

theorem find_isSome {id : String} :
    (kind.find proposals id).isSome ↔ id ∈ proposals.map kind.id := by
  simp only [ProposalKind.find, find?_isSome, List.mem_map, decide_eq_true_eq]

/-- The targets of the decisions are the ids of the proposals, each of them once. -/
theorem targets_perm {targets ids : List String} (distinct : ids.Nodup)
    (targeted : (ids.insertionSort (· ≤ ·)).forM (checkTarget targets) = .ok ())
    (known : ∀ target ∈ targets, target ∈ ids) : targets.Perm ids := by
  rw [perm_iff_count]
  intro id
  by_cases isId : id ∈ ids
  · rw [count_eq_one_of_mem distinct isId]
    exact checkTarget_ok (forM_ok_iff.mp targeted id ((mem_insertionSort _).mpr isId))
  · rw [count_eq_zero.mpr isId, count_eq_zero.mpr fun among => isId (known id among)]

theorem validateIntegrityOf_ok {proposals : List (Parsed π)}
    {decisions : List (Parsed DecisionBlock)} {yesPaths : List String}
    (accepted : validateIntegrityOf kind (m := Except ServiceError) (fun result => result)
      (fun path => .ok (some (isThere path))) crates documentProposalId proposals decisions =
        .ok yesPaths) :
    Validated kind isThere crates documentProposalId (proposals.map Parsed.value)
      (decisions.map Parsed.value) yesPaths := by
  simp only [validateIntegrityOf] at accepted
  split_ifs at accepted
  · cases accepted
  · cases accepted
  · cases accepted
  obtain ⟨seen, isSeen, rest⟩ := bind_ok.mp accepted
  obtain ⟨checked, isChecked, targets⟩ := bind_ok.mp rest
  obtain ⟨⟨⟩, isTargeted, isResult⟩ := bind_ok.mp targets
  cases isResult
  obtain ⟨proposalsValid, ids, distinct⟩ := checkProposals_ok isSeen nodup_nil
  obtain ⟨decisionsValid, isTargets, paths, isPaths, pathsDistinct, outputs⟩ :=
    checkDecisions_ok isChecked nodup_nil
  rw [nil_append] at ids isTargets isPaths
  rw [ids] at isTargeted distinct
  refine ⟨proposalsValid, distinct, fun decision among => (decisionsValid decision among).1, ?_,
    isPaths ▸ outputs, pathsDistinct⟩
  rw [← isTargets]
  exact targets_perm distinct isTargeted fun target among => by
    rw [isTargets] at among
    obtain ⟨decision, isDecision, rfl⟩ := List.mem_map.mp among
    exact find_isSome.mp (decisionsValid decision isDecision).2

end Checks

/-! ## The two checks of a field -/

variable {value field : String}

theorem validateNonEmpty_ok {limit : Nat} :
    validateNonEmpty value field limit = .ok () ↔
      isBlank value = false ∧ value.toList.length ≤ limit := by
  simp only [validateNonEmpty, bind, Except.bind, pure, Except.pure]
  split_ifs with isBlank isLong
  · simp [isBlank]
  · simp only [false_iff]
    omega
  · simp only [true_iff]
    exact ⟨by simpa using isBlank, by omega⟩

theorem validateNonEmptyLimited_ok {limit : Nat} :
    validateNonEmptyLimited value field limit = .ok () ↔
      isBlank value = false ∧ value.toList.length ≤ limit := by
  simp only [validateNonEmptyLimited, bind, Except.bind, pure, Except.pure]
  split_ifs with isBlank isLong
  · simp [isBlank]
  · simp only [false_iff]
    omega
  · simp only [true_iff]
    exact ⟨by simpa using isBlank, by omega⟩

theorem limited_of_nonEmpty {value field later : String} {limit : Nat}
    (valid : validateNonEmpty value field limit = .ok ()) :
    validateNonEmptyLimited value later limit = .ok () :=
  validateNonEmptyLimited_ok.mpr (validateNonEmpty_ok.mp valid)

theorem ofModelError_ok {α : Type} {result : Except KnowledgeModelError α} {value : α} :
    ofModelError result = .ok value ↔ result = .ok value := by
  cases result <;> simp [ofModelError, Except.mapError]

theorem stripPrefix_append (front back : Chars) : stripPrefix front (front ++ back) = some back := by
  rw [stripPrefix, if_pos (by simp), drop_left]

theorem validatePrefixedModelId_of_prefixed (idKind : KnowledgeIdPrefix)
    (valid : validatePrefixedId value idKind.asStr field = .ok ()) (later : String) :
    validatePrefixedModelId value idKind later = .ok () := by
  unfold validatePrefixedId at valid
  split_ifs at valid with refused
  push Not at refused
  obtain ⟨-, starts, isId⟩ := refused
  simp only [ne_eq, Bool.not_eq_true, Bool.not_eq_false'] at starts isId
  rw [startsWith, isPrefixOf_iff_prefix, String.toList_append] at starts
  obtain ⟨body, isBody⟩ := starts
  have noMark : '_' ∉ idKind.asStr.toList := by cases idKind <;> decide
  have isCut : cut ['_'] value.toList = some (idKind.asStr.toList, body) := by
    rw [← isBody, append_assoc]
    exact cut_singleton noMark
  have validBody : validIdBody body = true := by
    rw [isValidKnowledgeId, isCut, Bool.and_eq_true] at isId
    exact isId.2
  rw [validatePrefixedModelId, ← isBody, String.toList_append, stripPrefix_append]
  exact if_pos validBody

section SourceRefs

variable {crates : Crates} {sourceRef : SourceRef}

theorem validateTimestamp_of_document {value field later : String}
    (valid : validateDocumentTimestamp crates value field = .ok ()) :
    validateTimestamp crates value later = .ok () := by
  simp only [validateDocumentTimestamp, guard_ok] at valid
  simp only [validateTimestamp, guard_ok]
  obtain ⟨isDate, isPrecise⟩ := valid
  refine ⟨isDate, ?_⟩
  split_ifs at isPrecise ⊢ with refused
  rfl

theorem validateDocumentSourceRef_ok :
    validateDocumentSourceRef crates sourceRef = .ok () ↔
      (∃ path, validateSafeVaultRelativePath crates sourceRef.path "source_refs.path" = .ok path) ∧
      (∀ title, sourceRef.title = some title →
        validateNonEmpty title "source_refs.title" maxTitleChars = .ok ()) ∧
      (∀ entries, sourceRef.sectionPath = some entries → ∀ entry ∈ entries,
        validateNonEmpty entry "source_refs.section_path" maxTitleChars = .ok ()) ∧
      (∀ range, sourceRef.range = some range → rangeIsValid range = true) ∧
      (∀ checksum, sourceRef.checksum = some checksum →
        validateSha256Checksum checksum "source_refs.checksum" = .ok ()) ∧
      validateDocumentTimestamp crates sourceRef.capturedAt "source_refs.captured_at" = .ok () := by
  obtain ⟨path, title, sectionPath, range, checksum, capturedAt⟩ := sourceRef
  cases title <;> cases sectionPath <;> cases range <;> cases checksum <;>
    simp [validateDocumentSourceRef, check_bind_ok, bind_ok (α := String), guard_ok,
      ofModelError_ok, forM_ok_iff]

theorem validateRange_ok {range : Option SourceRange} :
    validateRange range = .ok () ↔ ∀ given, range = some given → rangeIsValid given = true := by
  cases range with
  | none => simp [validateRange, pure, Except.pure]
  | some given =>
    by_cases isValid : rangeIsValid given = true <;>
      simp [validateRange, isValid, pure, Except.pure]

theorem validateSourceRef_ok :
    validateSourceRef crates sourceRef = .ok () ↔
      (∃ path, validateSafeVaultRelativePath crates sourceRef.path "source_refs.path" = .ok path ∧
        path.toList.length ≤ maxSourcePathChars) ∧
      (∀ title, sourceRef.title = some title →
        validateNonEmptyLimited title "source_refs.title" maxTitleChars = .ok ()) ∧
      (∀ entries, sourceRef.sectionPath = some entries →
        entries.length ≤ maxSectionPathEntries ∧ ∀ entry ∈ entries,
          validateNonEmptyLimited entry "source_refs.section_path" maxSectionPathEntryChars =
            .ok ()) ∧
      (∀ range, sourceRef.range = some range → rangeIsValid range = true) ∧
      (∀ checksum, sourceRef.checksum = some checksum →
        validateSha256Checksum checksum "source_refs.checksum" = .ok ()) ∧
      validateTimestamp crates sourceRef.capturedAt "source_refs.captured_at" = .ok () := by
  obtain ⟨path, title, sectionPath, range, checksum, capturedAt⟩ := sourceRef
  cases title <;> cases sectionPath <;> cases range <;> cases checksum <;>
    simp [validateSourceRef, validateRange_ok, check_bind_ok, bind_ok (α := String), guard_ok,
      forM_ok_iff, ← and_assoc]

/-- What the serializers ask of a source reference and the document's checks do not. -/
structure WithinOutputLimits (crates : Crates) (sourceRef : SourceRef) : Prop where
  path : ∀ path, validateSafeVaultRelativePath crates sourceRef.path "source_refs.path" =
    .ok path → path.toList.length ≤ maxSourcePathChars
  entries : ∀ entries, sourceRef.sectionPath = some entries →
    entries.length ≤ maxSectionPathEntries ∧
      ∀ entry ∈ entries, entry.toList.length ≤ maxSectionPathEntryChars

/-- A source reference of a document passes the serializers' checks exactly within their
limits. -/
theorem validateSourceRef_iff (valid : validateDocumentSourceRef crates sourceRef = .ok ()) :
    validateSourceRef crates sourceRef = .ok () ↔ WithinOutputLimits crates sourceRef := by
  obtain ⟨⟨path, isPath⟩, title, entries, range, checksum, capturedAt⟩ :=
    validateDocumentSourceRef_ok.mp valid
  rw [validateSourceRef_ok]
  constructor
  · rintro ⟨⟨again, isAgain, isShort⟩, -, within, -⟩
    refine ⟨fun other isOther => ?_, fun given isGiven => ?_⟩
    · rw [isAgain] at isOther
      cases isOther
      exact isShort
    · obtain ⟨few, each⟩ := within given isGiven
      exact ⟨few, fun entry among => (validateNonEmptyLimited_ok.mp (each entry among)).2⟩
  · rintro ⟨isShort, within⟩
    refine ⟨⟨path, isPath, isShort path isPath⟩, fun given isGiven => ?_, fun given isGiven => ?_,
      range, checksum, ?_⟩
    · exact validateNonEmptyLimited_ok.mpr (validateNonEmpty_ok.mp (title given isGiven))
    · obtain ⟨few, each⟩ := within given isGiven
      exact ⟨few, fun entry among => validateNonEmptyLimited_ok.mpr
        ⟨(validateNonEmpty_ok.mp (entries given isGiven entry among)).1, each entry among⟩⟩
    · exact validateTimestamp_of_document capturedAt

end SourceRefs

/-! ## Outputs -/

section Outputs

variable {crates : Crates}

/-- A path that the serializers accept as that of the decision document. -/
def IsDecisionPath (crates : Crates) (path : String) : Prop :=
  ∃ again, validateSafeVaultRelativePath crates path "decision_document" = .ok again ∧
    startsWith again "Knowledge/decisions/" = true

theorem validateOutputFields_iff {tags : List String} {sourceRefs : List SourceRef}
    {createdAt updatedAt proposalId decisionDocument body : String}
    (tagsValid : ∀ tag ∈ tags, validateNonEmptyLimited tag "tags" 40 = .ok ())
    (refsValid : ∀ sourceRef ∈ sourceRefs, validateDocumentSourceRef crates sourceRef = .ok ())
    (created : validateTimestamp crates createdAt "created_at" = .ok ())
    (updated : validateTimestamp crates updatedAt "updated_at" = .ok ())
    (isProposal : validatePrefixedModelId proposalId .proposal "proposal_id" = .ok ())
    (filled : isBlank body = false) :
    validateOutputFields crates tags sourceRefs createdAt updatedAt proposalId decisionDocument
        body = .ok () ↔
      (∀ sourceRef ∈ sourceRefs, WithinOutputLimits crates sourceRef) ∧
        IsDecisionPath crates decisionDocument := by
  have refs : (∀ sourceRef ∈ sourceRefs, validateSourceRef crates sourceRef = .ok ()) ↔
      ∀ sourceRef ∈ sourceRefs, WithinOutputLimits crates sourceRef :=
    forall₂_congr fun sourceRef among => validateSourceRef_iff (refsValid sourceRef among)
  simp [validateOutputFields, check_bind_ok, bind_ok (α := String), forM_ok_iff, created, updated,
    isProposal, filled, refs, IsDecisionPath, and_iff_right tagsValid, pure, Except.pure]

/-- What the document's checks have found of a proposal's fields. -/
structure FieldsValid (crates : Crates) (title : String) (tags : List String) (body : String)
    (sourceRefs : List SourceRef) : Prop where
  title : validateNonEmptyLimited title "title" maxTitleChars = .ok ()
  tags : ∀ tag ∈ tags, validateNonEmptyLimited tag "tags" 40 = .ok ()
  body : isBlank body = false
  sourceRefs : ∀ sourceRef ∈ sourceRefs, validateDocumentSourceRef crates sourceRef = .ok ()

theorem validateMemoryProposal_ok {proposal : MemoryProposalBlock}
    (valid : validateMemoryProposal crates proposal = .ok ()) :
    validatePrefixedModelId proposal.memory.id .memory "id" = .ok () ∧
      (∀ kind, proposal.memory.kind = some kind → validateNonEmptyLimited kind "kind" 40 = .ok ()) ∧
      FieldsValid crates proposal.memory.title proposal.memory.tags proposal.memory.body
        proposal.memory.sourceRefs := by
  obtain ⟨id, operation, memoryId, kind, title, tags, body, sourceRefs⟩ := proposal
  have parts : validatePrefixedId memoryId "mem" "proposed memory id" = .ok () ∧
      validateNonEmpty title "memory title" maxTitleChars = .ok () ∧
      validateNonEmpty body "memory body" noLimit = .ok () ∧
      (∀ given, kind = some given → validateNonEmpty given "memory kind" maxKindChars = .ok ()) ∧
      (∀ tag ∈ tags, validateNonEmpty tag "memory tag" maxTagChars = .ok ()) ∧
      ∀ sourceRef ∈ sourceRefs, validateDocumentSourceRef crates sourceRef = .ok () := by
    cases kind with
    | none =>
      simp only [validateMemoryProposal, check_bind_ok, guard_ok, List.forM_eq_forM,
        forM_ok_iff] at valid
      obtain ⟨-, -, isId, isTitle, isBody, areTags, areRefs⟩ := valid
      exact ⟨isId, isTitle, isBody, fun _ isGiven => (nomatch isGiven), areTags, areRefs⟩
    | some given =>
      simp only [validateMemoryProposal, check_bind_ok, guard_ok, List.forM_eq_forM,
        forM_ok_iff] at valid
      obtain ⟨-, -, isId, isTitle, isBody, isKind, areTags, areRefs⟩ := valid
      exact ⟨isId, isTitle, isBody, fun _ isGiven => Option.some.inj isGiven ▸ isKind, areTags,
        areRefs⟩
  obtain ⟨isId, isTitle, isBody, isKind, areTags, areRefs⟩ := parts
  exact ⟨validatePrefixedModelId_of_prefixed .memory isId _,
    fun given isGiven => limited_of_nonEmpty (isKind given isGiven),
    { title := limited_of_nonEmpty isTitle
      tags := fun tag among => limited_of_nonEmpty (areTags tag among)
      body := (validateNonEmpty_ok.mp isBody).1
      sourceRefs := areRefs }⟩

theorem validateWikiProposal_ok {proposal : WikiProposalBlock}
    (valid : validateWikiProposal crates proposal = .ok ()) :
    validateWikiOperation proposal = .ok () ∧
      (∃ pageType, wikiPageType proposal.page.pageType = .ok pageType) ∧
      FieldsValid crates proposal.page.title proposal.page.tags proposal.page.body
        proposal.page.sourceRefs := by
  simp only [validateWikiProposal, check_bind_ok, bind_ok (α := String), List.forM_eq_forM,
    forM_ok_iff] at valid
  obtain ⟨-, isOperation, -, -, isType, isTitle, isBody, areTags, areRefs⟩ := valid
  refine ⟨isOperation, ?_, limited_of_nonEmpty isTitle,
    fun tag among => limited_of_nonEmpty (areTags tag among), (validateNonEmpty_ok.mp isBody).1,
    areRefs⟩
  unfold validateOneOf at isType
  split_ifs at isType with isOne
  simp only [mem_cons, not_mem_nil, or_false] at isOne
  rcases isOne with is | is | is | is <;> rw [is] <;> exact ⟨_, rfl⟩

/-! ## The ids of new pages -/

theorem isLower_or_isDigit_asciiLower {c : Char} (alphanumeric : c.isAlphanum = true) :
    ((asciiLowerChar c).isLower || (asciiLowerChar c).isDigit) = true := by
  unfold asciiLowerChar
  split_ifs with isUpper
  · obtain ⟨low, high⟩ := isUpper
    have first : 65 ≤ c.toNat := low
    have last : c.toNat ≤ 90 := high
    interval_cases c.toNat <;> rfl
  · simp only [Char.isAlphanum, Char.isAlpha, Bool.or_eq_true] at alphanumeric ⊢
    rcases alphanumeric with (upper | lower) | digit
    · simp only [Char.isUpper, decide_eq_true_eq] at upper
      exact absurd ⟨upper.1, upper.2⟩ isUpper
    · exact .inl lower
    · exact .inr digit

/-- What `sanitize_id_body` collects: lower case, digits and separators, and no separator in
front. -/
theorem collapse_body (chars : Chars) : ∀ started last : Bool,
    (∀ c ∈ collapse '_' started last chars, (c.isLower || c.isDigit || c = '_') = true) ∧
      (started = false → ∀ c ∈ (collapse '_' started last chars).head?,
        (c.isLower || c.isDigit) = true) := by
  induction chars with
  | nil => exact fun _ _ => ⟨fun _ among => (nomatch among), fun _ _ among => (nomatch among)⟩
  | cons c rest ih =>
    intro started last
    unfold collapse
    split_ifs with isAlphanumeric isSeparator
    · have isBody := isLower_or_isDigit_asciiLower isAlphanumeric
      refine ⟨forall_mem_cons.mpr ⟨?_, (ih _ _).1⟩, fun _ d isHead => ?_⟩
      · rw [isBody]
        rfl
      · cases isHead
        exact isBody
    · refine ⟨forall_mem_cons.mpr ⟨?_, (ih _ _).1⟩, fun notStarted => ?_⟩
      · simp
      · simp [notStarted] at isSeparator
    · exact ih _ _

theorem validIdBody_sanitizeIdBody (seed : String) : validIdBody (sanitizeIdBody seed) = true := by
  obtain ⟨inside, leads⟩ := collapse_body (stripKnownPrefix seed.toList) false false
  unfold sanitizeIdBody orElse
  generalize collapse '_' false false (stripKnownPrefix seed.toList) = body at inside leads
  obtain ⟨tail, isTail⟩ := rdropWhile_prefix (fun c : Char => c = '_') (l := body)
  cases shape : body.rdropWhile fun c => c = '_' with
  | nil => decide
  | cons first rest =>
    rw [shape] at isTail
    have isFirst := leads rfl first (by rw [← isTail]; rfl)
    rw [maxIdBodyLen, take_succ_cons, validIdBody]
    simp only [Bool.and_eq_true, decide_eq_true_eq, List.all_eq_true]
    refine ⟨⟨isFirst, ?_⟩, fun c among => ?_⟩
    · simp [maxIdBodyLen]
    · apply inside
      rw [← isTail]
      exact mem_append_left _ (mem_cons_of_mem _ (mem_of_mem_take among))
theorem validatePrefixedModelId_make (seed field : String) :
    validatePrefixedModelId (makeKnowledgeId .wiki seed) .wiki field = .ok () := by
  have isMade : (makeKnowledgeId .wiki seed).toList =
      (KnowledgeIdPrefix.wiki.asStr ++ "_").toList ++ sanitizeIdBody seed := by
    rw [makeKnowledgeId, String.toList_append, String.toList_ofList]
  rw [validatePrefixedModelId, isMade, stripPrefix_append]
  exact if_pos (validIdBody_sanitizeIdBody seed)

/-! ## What the serializers accept -/

section Render

variable {proposalId decisionDocumentPath timestamp : String}

theorem validateMemoryItem_iff {proposal : MemoryProposalBlock}
    (valid : validateMemoryProposal crates proposal = .ok ())
    (isProposal : validatePrefixedModelId proposalId .proposal "proposal_id" = .ok ())
    (stamped : ∀ field, validateTimestamp crates timestamp field = .ok ()) :
    validateMemoryItem crates (memoryItemOf proposal proposalId decisionDocumentPath timestamp) =
        .ok () ↔
      (∀ sourceRef ∈ proposal.memory.sourceRefs, WithinOutputLimits crates sourceRef) ∧
        IsDecisionPath crates decisionDocumentPath := by
  obtain ⟨isId, isKind, fields⟩ := validateMemoryProposal_ok valid
  rw [← validateOutputFields_iff fields.tags fields.sourceRefs (stamped _) (stamped _) isProposal
    fields.body]
  obtain ⟨id, operation, memoryId, kind, title, tags, body, sourceRefs⟩ := proposal
  cases kind with
  | none =>
    simp only [validateMemoryItem, memoryItemOf, check_bind_ok, isId, fields.title, true_and]
  | some given =>
    have isGiven := isKind given rfl
    simp only [validateMemoryItem, memoryItemOf, check_bind_ok, isId, isGiven, fields.title,
      true_and]

theorem validateWikiPage_ok {page : WikiPage} (valid : validateWikiPage crates page = .ok ()) :
    validatePrefixedModelId page.id .wiki "id" = .ok () ∧
      validateTimestamp crates page.createdAt "created_at" = .ok () := by
  simp only [validateWikiPage, validateOutputFields, check_bind_ok] at valid
  exact ⟨valid.1, valid.2.2.2.2.1⟩

theorem validateWikiPage_iff {proposal : WikiProposalBlock} (pageType : WikiPageType)
    {existing : Option WikiPage} (valid : validateWikiProposal crates proposal = .ok ())
    (isProposal : validatePrefixedModelId proposalId .proposal "proposal_id" = .ok ())
    (stamped : ∀ field, validateTimestamp crates timestamp field = .ok ())
    (existingValid : ∀ page, existing = some page → validateWikiPage crates page = .ok ()) :
    validateWikiPage crates
        (wikiPageOf proposal pageType existing proposalId decisionDocumentPath timestamp) =
        .ok () ↔
      (∀ sourceRef ∈ proposal.page.sourceRefs, WithinOutputLimits crates sourceRef) ∧
        IsDecisionPath crates decisionDocumentPath := by
  obtain ⟨-, -, fields⟩ := validateWikiProposal_ok valid
  cases existing with
  | none =>
    rw [← validateOutputFields_iff fields.tags fields.sourceRefs (stamped _) (stamped _)
      isProposal fields.body]
    simp only [validateWikiPage, wikiPageOf, map_none, getD_none, check_bind_ok,
      validatePrefixedModelId_make, fields.title, true_and]
  | some page =>
    obtain ⟨isId, created⟩ := validateWikiPage_ok (existingValid page rfl)
    rw [← validateOutputFields_iff fields.tags fields.sourceRefs created (stamped _)
      isProposal fields.body]
    simp only [validateWikiPage, wikiPageOf, map_some, getD_some, check_bind_ok,
      isId, fields.title, true_and]

end Render

end Outputs

end Kuku.Knowledge
