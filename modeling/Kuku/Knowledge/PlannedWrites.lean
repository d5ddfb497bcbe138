/-
# Knowledge.PlannedWrites -- the planned writes are the validated ones, within the serializers' limits

Three passes find the outputs of a document on their own: the integrity checks, the collection
of the outcomes and the planner, whose serializer checks its fields once more.  They agree on
the proposals and on the ids.  They do not agree on

* the path of a wiki page, which the checks decode and the other two take as it is written;
* the limits of source references, which only the serializers have;
* what stands at an output: the checks ask for the exact name, the planner for the name in any
  case, and a page to be updated has to be readable as one.

`planned_as_validated_iff` says that these are all the differences.
-/
import Kuku.Knowledge.Integrity

namespace Kuku.Knowledge

open Kuku.Theory List Option

/-! ## One outcome for each decision -/

/-- An option is selected, with a text where it is the one for a text. -/
structure DecisionBlock.IsAnswered (decision : DecisionBlock) : Prop where
  selected : decision.selectedOptionId.isSome
  explained : decision.selectedOptionId = some "other" →
    Text.isBlank (decision.otherText.getD "") = false

theorem lastWithId_eq_find {π : Type} {id : π → String} {proposals : List π}
    (distinct : (proposals.map id).Nodup) (wanted : String) :
    lastWithId id proposals wanted = proposals.find? fun proposal => id proposal = wanted := by
  have unique := inj_on_of_nodup_map distinct
  unfold lastWithId
  cases isFound : proposals.find? fun proposal => id proposal = wanted with
  | none =>
    rw [find?_eq_none] at isFound ⊢
    exact fun proposal among => isFound proposal (mem_reverse.mp among)
  | some proposal =>
    have isWanted := find?_some isFound
    have among := mem_reverse.mpr (mem_of_find?_eq_some isFound)
    cases isLast : proposals.reverse.find? fun proposal => id proposal = wanted with
    | none =>
      rw [find?_eq_none] at isLast
      exact absurd isWanted (isLast proposal among)
    | some other =>
      have isOther := find?_some isLast
      have amongOther := mem_reverse.mp (mem_of_find?_eq_some isLast)
      rw [unique amongOther (mem_reverse.mp among)
        ((of_decide_eq_true isOther).trans (of_decide_eq_true isWanted).symm)]

section Collect

variable {crates : Crates} {document : ParsedDecisionDocument crates.Mapping}
  {decision : DecisionBlock} {outcome : ZeroWriteOutcome} {documentProposalId : String}

theorem validateDecision_selected {selected : String}
    (valid : validateDecision crates decision documentProposalId = .ok ())
    (isSelected : decision.selectedOptionId = some selected) :
    selected ∈ ["yes", "no", "other"] := by
  simp only [validateDecision, isSelected, check_bind_ok, guard_ok] at valid
  obtain ⟨-, -, -, -, -, -, -, -, -, -, isOne, -⟩ := valid
  unfold validateOneOf at isOne
  split_ifs at isOne with isMember
  exact isMember

theorem selectedDecisionOption_ok
    (valid : validateDecision crates decision documentProposalId = .ok ())
    (answered : decision.IsAnswered) :
    ∃ selected, selectedDecisionOption decision = .ok selected ∧
      (selected = .other → decision.selectedOptionId = some "other") := by
  obtain ⟨selected, isSelected⟩ := isSome_iff_exists.mp answered.selected
  have isOne := validateDecision_selected valid isSelected
  simp only [mem_cons, not_mem_nil, or_false] at isOne
  unfold selectedDecisionOption
  rcases isOne with rfl | rfl | rfl <;> rw [isSelected] <;> exact ⟨_, rfl, by simp⟩

theorem selectedDecisionOption_yes {selected : DecisionOptionId}
    (isSelected : selectedDecisionOption decision = .ok selected) :
    selected = .yes ↔ decision.isYes = true := by
  unfold selectedDecisionOption at isSelected
  split at isSelected <;> cases isSelected <;> simp_all [DecisionBlock.isYes]

theorem collectOutcome_ok (collected : collectOutcome document decision = .ok outcome) :
    outcome.targetChangeId = decision.targetChangeId ∧
      (outcome.selected = .yes ↔ decision.isYes = true) ∧
      outcomePaths document outcome.selected decision.targetChangeId =
        .ok (outcome.memoryPath, outcome.wikiPath) := by
  simp only [collectOutcome, bind_ok, guard_ok] at collected
  obtain ⟨selected, isSelected, -, paths, arePaths, isOutcome⟩ := collected
  cases isOutcome
  exact ⟨rfl, selectedDecisionOption_yes isSelected, arePaths⟩

theorem collectOutcome_of_paths
    (valid : validateDecision crates decision documentProposalId = .ok ())
    (answered : decision.IsAnswered)
    (known : ∀ selected, (selected = DecisionOptionId.yes ↔ decision.isYes = true) →
      ∃ paths, outcomePaths document selected decision.targetChangeId = .ok paths) :
    ∃ outcome, collectOutcome document decision = .ok outcome := by
  obtain ⟨selected, isSelected, isOther⟩ := selectedDecisionOption_ok valid answered
  obtain ⟨paths, arePaths⟩ := known selected (selectedDecisionOption_yes isSelected)
  simp only [collectOutcome, bind_ok, guard_ok]
  refine ⟨_, selected, isSelected, ?_, paths, arePaths, rfl⟩
  rintro ⟨isOtherOption, isBlank⟩
  rw [answered.explained (isOther isOtherOption)] at isBlank
  cases isBlank

end Collect

/-! ## The two kinds of document -/

namespace ParsedDecisionDocument

variable {Mapping : Type} (document : ParsedDecisionDocument Mapping)

def memoryProposals : List MemoryProposalBlock := document.proposalBlocks.map Parsed.value

def wikiProposals : List WikiProposalBlock := document.wikiProposalBlocks.map Parsed.value

def decisions : List DecisionBlock := document.decisionBlocks.map Parsed.value

def yesDecisions : List DecisionBlock := document.decisions.filter DecisionBlock.isYes

end ParsedDecisionDocument

section Vault

variable {crates : Crates} {vault : VaultFiles} {document : ParsedDecisionDocument crates.Mapping}
  {integrity : DecisionDocumentIntegrity}

theorem validateInVault_ok (accepted : validateInVault crates vault document = .ok integrity) :
    validatePrefixedModelId document.frontmatter.proposalId .proposal "proposal_id" = .ok () ∧
      ((document.frontmatter.targetKind = "memory" ∧ document.wikiProposals = [] ∧
          integrity.yesWikiPaths = [] ∧
          Validated (memoryKind crates) vault.pathExists crates document.frontmatter.proposalId
            document.memoryProposals document.decisions integrity.yesMemoryPaths) ∨
        (document.frontmatter.targetKind = "wiki" ∧ document.memoryProposals = [] ∧
          integrity.yesMemoryPaths = [] ∧
          Validated (wikiKind crates) vault.pathExists crates document.frontmatter.proposalId
            document.wikiProposals document.decisions integrity.yesWikiPaths)) := by
  unfold validateInVault validateDecisionDocumentIntegrity at accepted
  obtain ⟨⟨⟩, isFrontmatter, isKind⟩ := bind_ok.mp accepted
  have isProposal : validatePrefixedId document.frontmatter.proposalId "prop"
      "document proposal_id" = .ok () := by
    simp only [validateDocumentFrontmatter, check_bind_ok] at isFrontmatter
    exact isFrontmatter.2.1
  refine ⟨validatePrefixedModelId_of_prefixed .proposal isProposal _, ?_⟩
  split_ifs at isKind with isMemory isWiki
  · left
    simp only [validateMemoryDecisionDocumentIntegrity] at isKind
    split_ifs at isKind with noWiki
    · cases isKind
    obtain ⟨yesPaths, arePaths, isIntegrity⟩ := bind_ok.mp isKind
    cases isIntegrity
    refine ⟨isMemory, ?_, rfl, validateIntegrityOf_ok arePaths⟩
    simpa [ParsedDecisionDocument.wikiProposals] using noWiki
  · right
    simp only [validateWikiDecisionDocumentIntegrity] at isKind
    split_ifs at isKind with noMemory
    · cases isKind
    obtain ⟨yesPaths, arePaths, isIntegrity⟩ := bind_ok.mp isKind
    cases isIntegrity
    refine ⟨isWiki, ?_, rfl, validateIntegrityOf_ok arePaths⟩
    simpa [ParsedDecisionDocument.memoryProposals] using noMemory

theorem memoryProposalById_eq (distinct : (document.memoryProposals.map (memoryKind crates).id).Nodup)
    (id : String) :
    memoryProposalById document id = (memoryKind crates).find document.memoryProposals id :=
  lastWithId_eq_find distinct id

theorem wikiProposalById_eq (distinct : (document.wikiProposals.map (wikiKind crates).id).Nodup)
    (id : String) :
    wikiProposalById document id = (wikiKind crates).find document.wikiProposals id :=
  lastWithId_eq_find distinct id

theorem Validated.found {π : Type} {kind : ProposalKind π} {isThere : String → Bool}
    {documentProposalId : String} {proposals : List π} {decisions : List DecisionBlock}
    {yesPaths : List String}
    (validated : Validated kind isThere crates documentProposalId proposals decisions yesPaths)
    {decision : DecisionBlock} (among : decision ∈ decisions) :
    ∃ proposal, kind.find proposals decision.targetChangeId = some proposal := by
  rw [← isSome_iff_exists, find_isSome]
  exact validated.covered.mem_iff.mp (List.mem_map_of_mem among)

theorem ProposalKind.find_mem {π : Type} {kind : ProposalKind π} {proposals : List π} {id : String}
    {proposal : π} (isFound : kind.find proposals id = some proposal) :
    proposal ∈ proposals ∧ kind.id proposal = id :=
  ⟨mem_of_find?_eq_some isFound,
    of_decide_eq_true (find?_some (p := fun other => kind.id other = id) isFound)⟩

theorem collectDecisionOutcomes_ok
    (accepted : validateInVault crates vault document = .ok integrity)
    (answered : ∀ decision ∈ document.decisions, decision.IsAnswered) :
    ∃ outcomes, collectDecisionOutcomes document = .ok outcomes := by
  apply mapM_ok_of_forall
  intro decision among
  obtain ⟨-, ⟨isMemory, -, -, validated⟩ | ⟨isWiki, -, -, validated⟩⟩ := validateInVault_ok accepted
  · obtain ⟨proposal, isFound⟩ := validated.found among
    refine collectOutcome_of_paths (validated.decisionsValid decision among)
      (answered decision among) fun selected _ => ?_
    simp only [outcomePaths, if_pos isMemory, memoryProposalById_eq validated.idsDistinct, isFound]
    split_ifs <;> exact ⟨_, rfl⟩
  · obtain ⟨proposal, isFound⟩ := validated.found among
    have notMemory : document.frontmatter.targetKind ≠ "memory" := by
      rw [isWiki]
      decide
    refine collectOutcome_of_paths (validated.decisionsValid decision among)
      (answered decision among) fun selected _ => ?_
    simp only [outcomePaths, if_neg notMemory, if_pos isWiki,
      wikiProposalById_eq validated.idsDistinct, isFound]
    split_ifs <;> exact ⟨_, rfl⟩

theorem yes_related {outcomes : List ZeroWriteOutcome}
    (collected : collectDecisionOutcomes document = .ok outcomes) :
    List.Forall₂ (fun decision outcome => collectOutcome document decision = .ok outcome)
      document.yesDecisions (outcomes.filter fun outcome => outcome.selected = .yes) := by
  refine rel_filter ?_ (mapM_ok_iff.mp collected)
  intro decision outcome isCollected
  simpa using (collectOutcome_ok isCollected).2.1.symm

end Vault

/-! ## Writes for the yes decisions -/

/-- The writes stand at the validated paths, in their order, with the bytes of the proposals. -/
structure WritesFor (yesDecisions : List DecisionBlock) (yesPaths : List String)
    (renders : DecisionBlock → Chars → Prop) (writes : List (String × Chars)) : Prop where
  paths : writes.map Prod.fst = yesPaths
  distinct : yesPaths.Nodup
  bytes : List.Forall₂ (fun decision write => renders decision write.2) yesDecisions writes

theorem WritesFor.of_steps {ω : Type} {path : ω → String} {bytes : ω → Chars}
    {yesDecisions : List DecisionBlock} {yesPaths : List String}
    {renders : DecisionBlock → Chars → Prop} {writes : List ω} {plans : DecisionBlock → ω → Prop}
    {resolves : DecisionBlock → String → Prop}
    (planned : List.Forall₂ plans yesDecisions writes)
    (resolved : List.Forall₂ resolves yesDecisions yesPaths) (distinct : yesPaths.Nodup)
    (agree : ∀ decision ∈ yesDecisions, ∀ write validPath, plans decision write →
      resolves decision validPath → path write = validPath ∧ renders decision (bytes write)) :
    WritesFor yesDecisions yesPaths renders
      (writes.map fun write => (path write, bytes write)) := by
  refine ⟨?_, distinct, ?_⟩
  · clear distinct
    rw [List.map_map]
    induction planned generalizing yesPaths with
    | nil =>
      cases resolved
      rfl
    | cons isPlanned _ ih =>
      cases resolved with
      | cons isResolved resolvedRest =>
        rw [map_cons, ih resolvedRest
          fun decision among => agree decision (mem_cons_of_mem _ among)]
        exact congrArg (· :: _) (agree _ mem_cons_self _ _ isPlanned isResolved).1
  · clear distinct
    induction planned generalizing yesPaths with
    | nil => exact .nil
    | cons isPlanned _ ih =>
      cases resolved with
      | cons isResolved resolvedRest =>
        exact .cons (agree _ mem_cons_self _ _ isPlanned isResolved).2
          (ih resolvedRest fun decision among =>
            agree decision (mem_cons_of_mem _ among))

section Memory

variable (crates : Crates) (document : ParsedDecisionDocument crates.Mapping)
  (decisionDocumentPath timestamp : String)

/-- The bytes are the memory item of the decision's target. -/
def RendersMemory (decision : DecisionBlock) (bytes : Chars) : Prop :=
  ∃ proposal ∈ document.memoryProposals, proposal.id = decision.targetChangeId ∧
    renderMemoryItemBytes crates proposal document.frontmatter.proposalId decisionDocumentPath
      timestamp = .ok bytes

variable {crates document decisionDocumentPath timestamp}

theorem renderMemoryItemBytes_iff {proposal : MemoryProposalBlock} {proposalId : String}
    (written : ∀ frontmatter, ∃ yaml, crates.memoryFrontmatter.toText frontmatter = .ok yaml)
    (valid : validateMemoryProposal crates proposal = .ok ())
    (isProposal : validatePrefixedModelId proposalId .proposal "proposal_id" = .ok ())
    (stamped : ∀ field, validateTimestamp crates timestamp field = .ok ()) :
    (∃ bytes, renderMemoryItemBytes crates proposal proposalId decisionDocumentPath timestamp =
        .ok bytes) ↔
      (∀ sourceRef ∈ proposal.memory.sourceRefs, WithinOutputLimits crates sourceRef) ∧
        IsDecisionPath crates decisionDocumentPath := by
  rw [← validateMemoryItem_iff valid isProposal stamped]
  simp only [renderMemoryItemBytes, ofModelError_ok, serializeMemoryItem, check_bind_ok]
  constructor
  · rintro ⟨bytes, isValid, -⟩
    exact isValid
  · intro isValid
    obtain ⟨yaml, isYaml⟩ := written
      (memoryItemOf proposal proposalId decisionDocumentPath timestamp).toMemoryFrontmatter
    refine ⟨_, isValid, bind_ok.mpr ⟨yaml, ?_, rfl⟩⟩
    rw [isYaml]
    rfl

/-- What is planned for a yes decision, once its proposal is known. -/
theorem planMemoryWrite_ok {decision : DecisionBlock} {outcome : ZeroWriteOutcome}
    {proposal : MemoryProposalBlock} {planned : PlannedMemoryWrite}
    (isMemory : document.frontmatter.targetKind = "memory")
    (collected : collectOutcome document decision = .ok outcome) (isYes : decision.isYes = true)
    (isFound : memoryProposalById document decision.targetChangeId = some proposal) :
    planMemoryWrite crates document decisionDocumentPath timestamp outcome = .ok planned ↔
      ∃ bytes, renderMemoryItemBytes crates proposal document.frontmatter.proposalId
          decisionDocumentPath timestamp = .ok bytes ∧
        planned =
          { memoryId := proposal.memory.id
            finalPath := memoryPathForId proposal.memory.id
            stagedPath := applyTmpPath document.frontmatter.id proposal.memory.id
            bytes
            checksum := crates.checksum (.text bytes) } := by
  obtain ⟨isTarget, selectedYes, paths⟩ := collectOutcome_ok collected
  rw [selectedYes.mpr isYes, outcomePaths, if_pos isMemory, if_pos rfl, isFound] at paths
  simp only [Except.ok.injEq, Prod.mk.injEq] at paths
  rw [planMemoryWrite, isTarget, isFound, ← paths.1]
  simp only [bind_ok, getD_some]
  refine exists_congr fun bytes => and_congr_right fun _ => ?_
  exact ⟨fun isPlanned => (Except.ok.inj isPlanned).symm, fun isPlanned => congrArg _ isPlanned.symm⟩

variable (decisionDocumentPath) in
theorem planMemoryWrites_iff {outcomes : List ZeroWriteOutcome} {yesPaths : List String}
    (written : ∀ frontmatter, ∃ yaml, crates.memoryFrontmatter.toText frontmatter = .ok yaml)
    (stamped : ∀ field, validateTimestamp crates timestamp field = .ok ())
    (isProposal : validatePrefixedModelId document.frontmatter.proposalId .proposal "proposal_id" =
      .ok ())
    (isMemory : document.frontmatter.targetKind = "memory") {isThere : String → Bool}
    (validated : Validated (memoryKind crates) isThere crates document.frontmatter.proposalId
      document.memoryProposals document.decisions yesPaths)
    (collected : collectDecisionOutcomes document = .ok outcomes) :
    (∃ planned, planMemoryWrites crates document decisionDocumentPath timestamp outcomes =
        .ok planned ∧
      WritesFor document.yesDecisions yesPaths
        (RendersMemory crates document decisionDocumentPath timestamp)
        (planned.map fun write => (write.finalPath, write.bytes))) ↔
      ∀ decision ∈ document.yesDecisions, IsDecisionPath crates decisionDocumentPath ∧
        ∀ proposal ∈ document.memoryProposals, proposal.id = decision.targetChangeId →
          ∀ sourceRef ∈ proposal.memory.sourceRefs, WithinOutputLimits crates sourceRef := by
  have related := yes_related collected
  have unique := inj_on_of_nodup_map validated.idsDistinct
  have render_iff : ∀ proposal ∈ document.memoryProposals,
      (∃ bytes, renderMemoryItemBytes crates proposal document.frontmatter.proposalId
        decisionDocumentPath timestamp = .ok bytes) ↔ _ := fun proposal among =>
    renderMemoryItemBytes_iff written (validated.proposalsValid proposal among) isProposal stamped
  constructor
  · rintro ⟨planned, -, -, -, bytes⟩ decision among
    obtain ⟨write, -, proposal, isMember, isTarget, isRendered⟩ := forall₂_exists_right bytes among
    obtain ⟨within, isPath⟩ := (render_iff proposal isMember).mp ⟨_, isRendered⟩
    refine ⟨isPath, fun other isOther isTargetToo => ?_⟩
    rw [unique isOther isMember (isTargetToo.trans isTarget.symm)]
    exact within
  · intro plannable
    have step : ∀ decision ∈ document.yesDecisions, ∃ proposal ∈ document.memoryProposals,
        memoryProposalById document decision.targetChangeId = some proposal ∧
          proposal.id = decision.targetChangeId ∧
          ∃ bytes, renderMemoryItemBytes crates proposal document.frontmatter.proposalId
            decisionDocumentPath timestamp = .ok bytes := by
      intro decision among
      obtain ⟨proposal, isFound⟩ := validated.found (mem_of_mem_filter among)
      obtain ⟨isMember, isTarget⟩ := ProposalKind.find_mem isFound
      obtain ⟨isPath, within⟩ := plannable decision among
      exact ⟨proposal, isMember,
        (memoryProposalById_eq validated.idsDistinct _).trans isFound, isTarget,
        (render_iff proposal isMember).mpr ⟨within proposal isMember isTarget, isPath⟩⟩
    obtain ⟨planned, isPlanned⟩ : ∃ planned, planMemoryWrites crates document decisionDocumentPath
        timestamp outcomes = .ok planned := by
      apply mapM_ok_of_forall
      intro outcome among
      obtain ⟨decision, isDecision, isCollected⟩ := forall₂_exists_left related among
      obtain ⟨proposal, -, isFound, -, bytes, isRendered⟩ := step decision isDecision
      exact ⟨_, (planMemoryWrite_ok isMemory isCollected (mem_filter.mp isDecision).2
        isFound).mpr ⟨bytes, isRendered, rfl⟩⟩
    refine ⟨planned, isPlanned, WritesFor.of_steps
      (forall₂_trans related (mapM_ok_iff.mp isPlanned)) validated.outputs
      validated.pathsDistinct ?_⟩
    rintro decision among write path ⟨outcome, isCollected, isStep⟩ ⟨other, isOther, isOutput, -⟩
    obtain ⟨proposal, isMember, isFound, isTarget, -⟩ := step decision among
    obtain ⟨bytes, isRendered, rfl⟩ := (planMemoryWrite_ok isMemory isCollected
      (mem_filter.mp among).2 isFound).mp isStep
    have same : other = proposal := by
      rw [memoryProposalById_eq validated.idsDistinct, isOther] at isFound
      exact Option.some.inj isFound
    rw [same] at isOutput
    exact ⟨Except.ok.inj isOutput, proposal, isMember, isTarget, isRendered⟩

end Memory

section Wiki

variable (crates : Crates) (vault : VaultFiles) (document : ParsedDecisionDocument crates.Mapping)
  (decisionDocumentPath timestamp : String)

/-- `existing_wiki_page` and `plan_wiki_write` in a vault that nobody changes meanwhile. -/
abbrev existingInVault (operation : WikiWriteOperation) (expectedChecksum : Option String)
    (path : String) : Except ServiceError (Option WikiPage) :=
  existingWikiPage crates (m := Except ServiceError) (fun result => result)
    (fun path => .ok (vault.exactOrCaseInsensitiveExists path))
    (fun path => .ok (vault.read path)) operation expectedChecksum path

abbrev planWikiWriteInVault (outcome : ZeroWriteOutcome) (paths : List String) :
    Except ServiceError PlannedWikiWrite :=
  planWikiWrite crates document decisionDocumentPath timestamp (m := Except ServiceError)
    (fun result => result) (fun path => .ok (vault.exactOrCaseInsensitiveExists path))
    (fun path => .ok (vault.read path)) outcome paths

variable {crates vault document decisionDocumentPath timestamp}

variable {proposal : WikiProposalBlock} {outcome : ZeroWriteOutcome} {paths : List String}

theorem wikiTarget_ok {operation : WikiWriteOperation} {finalPath : String} :
    wikiTarget crates document outcome paths = .ok (proposal, operation, finalPath) ↔
      wikiProposalById document outcome.targetChangeId = some proposal ∧
        wikiWriteOperation proposal = .ok operation ∧
        finalPath = outcome.wikiPath.getD proposal.page.path ∧ finalPath ∉ paths := by
  unfold wikiTarget
  cases wikiProposalById document outcome.targetChangeId with
  | none => simp
  | some other =>
    simp only [bind_ok, guard_ok, Option.some.injEq]
    constructor
    · rintro ⟨found, isOperation, isNew, isTarget⟩
      cases isTarget
      exact ⟨rfl, isOperation, rfl, isNew⟩
    · rintro ⟨rfl, isOperation, rfl, isNew⟩
      exact ⟨operation, isOperation, isNew, rfl⟩

/-- The paths that are planned already only rule out a path. -/
theorem planWikiWrite_paths {planned : PlannedWikiWrite} :
    planWikiWriteInVault crates vault document decisionDocumentPath timestamp outcome paths =
        .ok planned ↔
      planWikiWriteInVault crates vault document decisionDocumentPath timestamp outcome [] =
        .ok planned ∧ planned.finalPath ∉ paths := by
  have isPath : ∀ {proposal operation finalPath existing},
      plannedWikiWrite crates document decisionDocumentPath timestamp proposal operation finalPath
        existing = .ok planned → planned.finalPath = finalPath := by
    intro proposal operation finalPath existing isPlanned
    obtain ⟨bytes, -, isWrite⟩ := bind_ok.mp isPlanned
    cases isWrite
    rfl
  simp only [planWikiWriteInVault, planWikiWrite, bind_ok, Prod.exists, wikiTarget_ok,
    not_mem_nil, not_false_eq_true, and_true]
  constructor
  · rintro ⟨proposal, operation, finalPath, ⟨isFound, isOperation, isFinal, isNew⟩, existing,
      isExisting, isPlanned⟩
    exact ⟨⟨proposal, operation, finalPath, ⟨isFound, isOperation, isFinal⟩, existing, isExisting,
      isPlanned⟩, isPath isPlanned ▸ isNew⟩
  · rintro ⟨⟨proposal, operation, finalPath, ⟨isFound, isOperation, isFinal⟩, existing,
      isExisting, isPlanned⟩, isNew⟩
    exact ⟨proposal, operation, finalPath, ⟨isFound, isOperation, isFinal, isPath isPlanned ▸ isNew⟩,
      existing, isExisting, isPlanned⟩

theorem planWikiWritesFrom_iff {outcomes : List ZeroWriteOutcome} {planned : List PlannedWikiWrite} :
    planWikiWritesFrom crates document decisionDocumentPath timestamp (m := Except ServiceError)
        (fun result => result) (fun path => .ok (vault.exactOrCaseInsensitiveExists path))
        (fun path => .ok (vault.read path)) paths outcomes = .ok planned ↔
      List.Forall₂ (fun outcome write => planWikiWriteInVault crates vault document
        decisionDocumentPath timestamp outcome [] = .ok write) outcomes planned ∧
      (planned.map PlannedWikiWrite.finalPath).Nodup ∧
      ∀ write ∈ planned, write.finalPath ∉ paths := by
  induction outcomes generalizing paths planned with
  | nil =>
    constructor
    · intro isPlanned
      cases isPlanned
      exact ⟨.nil, nodup_nil, fun _ among => (nomatch among)⟩
    · rintro ⟨related, -, -⟩
      cases related
      rfl
  | cons outcome rest ih =>
    constructor
    · intro isPlanned
      obtain ⟨first, isFirst, later⟩ := bind_ok.mp isPlanned
      obtain ⟨writes, isRest, isWrites⟩ := bind_ok.mp later
      cases isWrites
      obtain ⟨alone, isNew⟩ := planWikiWrite_paths.mp isFirst
      obtain ⟨related, distinct, fresh⟩ := ih.mp isRest
      refine ⟨.cons alone related, nodup_cons.mpr ⟨?_, distinct⟩,
        forall_mem_cons.mpr ⟨isNew, fun write among =>
          fun old => fresh write among (mem_cons_of_mem _ old)⟩⟩
      intro again
      obtain ⟨write, among, same⟩ := List.mem_map.mp again
      exact fresh write among (same ▸ mem_cons_self)
    · rintro ⟨related, distinct, fresh⟩
      cases related with
      | cons alone relatedRest =>
        obtain ⟨isNew, freshRest⟩ := forall_mem_cons.mp fresh
        obtain ⟨notLater, distinctRest⟩ := nodup_cons.mp distinct
        refine bind_ok.mpr ⟨_, planWikiWrite_paths.mpr ⟨alone, isNew⟩,
          bind_ok.mpr ⟨_, ih.mpr ⟨relatedRest, distinctRest, ?_⟩, rfl⟩⟩
        intro write among old
        rcases mem_cons.mp old with same | older
        · exact notLater (same ▸ List.mem_map_of_mem among)
        · exact freshRest write among older

theorem renderWikiPageBytes_iff {existing : Option WikiPage} {proposalId : String}
    (written : ∀ frontmatter, ∃ yaml, crates.wikiFrontmatter.toText frontmatter = .ok yaml)
    (valid : validateWikiProposal crates proposal = .ok ())
    (isProposal : validatePrefixedModelId proposalId .proposal "proposal_id" = .ok ())
    (stamped : ∀ field, validateTimestamp crates timestamp field = .ok ())
    (existingValid : ∀ page, existing = some page → validateWikiPage crates page = .ok ()) :
    (∃ bytes, renderWikiPageBytes crates proposal existing proposalId decisionDocumentPath
        timestamp = .ok bytes) ↔
      (∀ sourceRef ∈ proposal.page.sourceRefs, WithinOutputLimits crates sourceRef) ∧
        IsDecisionPath crates decisionDocumentPath := by
  obtain ⟨-, ⟨pageType, isType⟩, -⟩ := validateWikiProposal_ok valid
  rw [← validateWikiPage_iff pageType valid isProposal stamped existingValid]
  simp only [renderWikiPageBytes, bind_ok (α := WikiPageType), isType, Except.ok.injEq,
    exists_eq_left', ofModelError_ok, serializeWikiPage, check_bind_ok]
  constructor
  · rintro ⟨bytes, isValid, -⟩
    exact isValid
  · intro isValid
    obtain ⟨yaml, isYaml⟩ := written
      (wikiPageOf proposal pageType existing proposalId decisionDocumentPath
        timestamp).toWikiFrontmatter
    refine ⟨_, isValid, bind_ok.mpr ⟨yaml, ?_, rfl⟩⟩
    rw [isYaml]
    rfl

variable {path : String}

theorem existingInVault_create {expectedChecksum : Option String} {existing : Option WikiPage} :
    existingInVault crates vault .create expectedChecksum path = .ok existing ↔
      vault.exactOrCaseInsensitiveExists path = false ∧ existing = none := by
  simp only [existingInVault, existingWikiPage, bind_ok, Except.ok.injEq, exists_eq_left']
  cases vault.exactOrCaseInsensitiveExists path <;> simp [pure, Except.pure, eq_comm]

theorem pageToUpdate_ok {content : Content} {page : WikiPage} :
    pageToUpdate crates (crates.checksum content) path (.ok content) = .ok page ↔
      ∃ markdown, crates.textOf content = some markdown ∧
        parseWikiPage crates markdown = .ok page := by
  simp only [pageToUpdate, Except.mapError, bind_ok, Except.ok.injEq, exists_eq_left', guard_ok,
    not_not, true_and]
  cases crates.textOf content with
  | none => simp
  | some markdown =>
    simp only [Option.some.injEq, exists_eq_left']
    cases parseWikiPage crates markdown <;> simp

theorem existingInVault_update {content : Content} {existing : Option WikiPage}
    (isRead : vault.read path = .ok content) :
    existingInVault crates vault .update (some (crates.checksum content)) path = .ok existing ↔
      ∃ markdown page, crates.textOf content = some markdown ∧
        parseWikiPage crates markdown = .ok page ∧ existing = some page := by
  have isUpdate : existingInVault crates vault .update (some (crates.checksum content)) path =
      (pageToUpdate crates (crates.checksum content) path (.ok content)).map some := by
    simp only [existingInVault, existingWikiPage, isRead]
    rfl
  rw [isUpdate]
  constructor
  · intro isExisting
    cases isPage : pageToUpdate crates (crates.checksum content) path (.ok content) with
    | error error =>
      rw [isPage] at isExisting
      cases isExisting
    | ok page =>
      rw [isPage] at isExisting
      obtain ⟨markdown, isText, isParsed⟩ := pageToUpdate_ok.mp isPage
      exact ⟨markdown, page, isText, isParsed, (Except.ok.inj isExisting).symm⟩
  · rintro ⟨markdown, page, isText, isParsed, rfl⟩
    rw [pageToUpdate_ok.mpr ⟨markdown, isText, isParsed⟩]
    rfl

theorem validateWikiPage_of_parse {markdown : Chars} {page : WikiPage}
    (parsed : parseWikiPage crates markdown = .ok page) : validateWikiPage crates page = .ok () := by
  simp only [parseWikiPage, bind_ok] at parsed
  obtain ⟨_, _, _, _, ⟨⟩, isValid, isPage⟩ := parsed
  cases isPage
  exact isValid

/-- What the planner asks of a wiki proposal and the checks do not. -/
structure WikiPlannable (crates : Crates) (vault : VaultFiles) (proposal : WikiProposalBlock) :
    Prop where
  settled : normalizeWikiProposalPath crates proposal.page.path = .ok proposal.page.path
  within : ∀ sourceRef ∈ proposal.page.sourceRefs, WithinOutputLimits crates sourceRef
  create : proposal.operation = "create_wiki_page" →
    vault.exactOrCaseInsensitiveExists proposal.page.path = false
  update : proposal.operation = "update_wiki_page" →
    ∀ content, vault.read proposal.page.path = .ok content →
      ∃ markdown page, crates.textOf content = some markdown ∧
        parseWikiPage crates markdown = .ok page

/-- The pages that yes decisions update are still the ones their proposals expect. -/
def UpdatesMatch (crates : Crates) (vault : VaultFiles)
    (document : ParsedDecisionDocument crates.Mapping) : Prop :=
  ∀ decision ∈ document.yesDecisions, ∀ proposal ∈ document.wikiProposals,
    proposal.id = decision.targetChangeId → proposal.operation = "update_wiki_page" →
      ∀ path, normalizeWikiProposalPath crates proposal.page.path = .ok path →
        ∃ content, vault.read path = .ok content ∧
          proposal.page.expectedChecksum = some (crates.checksum content)

/-- The bytes are the page of the decision's target, over the page that is there. -/
def RendersWiki (crates : Crates) (vault : VaultFiles)
    (document : ParsedDecisionDocument crates.Mapping) (decisionDocumentPath timestamp : String)
    (decision : DecisionBlock) (bytes : Chars) : Prop :=
  ∃ proposal ∈ document.wikiProposals, proposal.id = decision.targetChangeId ∧
    ∃ operation existing, wikiWriteOperation proposal = .ok operation ∧
      existingInVault crates vault operation proposal.page.expectedChecksum proposal.page.path =
        .ok existing ∧
      renderWikiPageBytes crates proposal existing document.frontmatter.proposalId
        decisionDocumentPath timestamp = .ok bytes

/-- What is planned for a yes decision, once its proposal is known. -/
theorem planWikiWrite_ok {decision : DecisionBlock} {planned : PlannedWikiWrite}
    (isWiki : document.frontmatter.targetKind = "wiki")
    (collected : collectOutcome document decision = .ok outcome) (isYes : decision.isYes = true)
    (isFound : wikiProposalById document decision.targetChangeId = some proposal) :
    planWikiWriteInVault crates vault document decisionDocumentPath timestamp outcome [] =
        .ok planned ↔
      ∃ operation existing bytes, wikiWriteOperation proposal = .ok operation ∧
        existingInVault crates vault operation proposal.page.expectedChecksum proposal.page.path =
          .ok existing ∧
        renderWikiPageBytes crates proposal existing document.frontmatter.proposalId
          decisionDocumentPath timestamp = .ok bytes ∧
        planned =
          { finalPath := proposal.page.path
            stagedPath := applyTmpPath document.frontmatter.id
              (crates.sha256 (.text proposal.page.path.toList))
            bytes
            checksum := crates.checksum (.text bytes)
            operation
            expectedChecksum := proposal.page.expectedChecksum } := by
  have notMemory : document.frontmatter.targetKind ≠ "memory" := by
    rw [isWiki]
    decide
  obtain ⟨isTarget, selectedYes, paths⟩ := collectOutcome_ok collected
  rw [selectedYes.mpr isYes, outcomePaths, if_neg notMemory, if_pos isWiki, if_pos rfl, isFound]
    at paths
  simp only [Except.ok.injEq, Prod.mk.injEq] at paths
  simp only [planWikiWriteInVault, planWikiWrite, bind_ok, Prod.exists, wikiTarget_ok, isTarget,
    isFound, ← paths.2, getD_some, Option.some.injEq, not_mem_nil, not_false_eq_true,
    and_true, plannedWikiWrite]
  constructor
  · rintro ⟨other, operation, path, ⟨rfl, isOperation, rfl⟩, existing, isExisting, bytes,
      isRendered, isWrite⟩
    exact ⟨operation, existing, bytes, isOperation, isExisting, isRendered,
      (Except.ok.inj isWrite).symm⟩
  · rintro ⟨operation, existing, bytes, isOperation, isExisting, isRendered, rfl⟩
    exact ⟨proposal, operation, _, ⟨rfl, isOperation, rfl⟩, existing, isExisting, bytes, isRendered,
      rfl⟩

theorem wikiWriteOperation_ok {operation : WikiWriteOperation} :
    wikiWriteOperation proposal = .ok operation ↔
      (proposal.operation = "create_wiki_page" ∧ operation = .create) ∨
        (proposal.operation = "update_wiki_page" ∧ operation = .update) := by
  unfold wikiWriteOperation
  split_ifs with isCreate isUpdate
  · simp [isCreate, eq_comm]
  · simp [isUpdate, eq_comm]
  · simp [isCreate, isUpdate]

/-- The operation and the page of a proposal that is plannable. -/
theorem WikiPlannable.existing (plannable : WikiPlannable crates vault proposal)
    (valid : validateWikiProposal crates proposal = .ok ())
    (matching : proposal.operation = "update_wiki_page" →
      ∃ content, vault.read proposal.page.path = .ok content ∧
        proposal.page.expectedChecksum = some (crates.checksum content)) :
    ∃ operation existing, wikiWriteOperation proposal = .ok operation ∧
      existingInVault crates vault operation proposal.page.expectedChecksum proposal.page.path =
        .ok existing ∧
      ∀ page, existing = some page → validateWikiPage crates page = .ok () := by
  obtain ⟨isOperation, -, -⟩ := validateWikiProposal_ok valid
  unfold validateWikiOperation at isOperation
  split_ifs at isOperation with isCreate hasChecksum isUpdate
  · exact ⟨.create, none, wikiWriteOperation_ok.mpr (.inl ⟨isCreate, rfl⟩),
      existingInVault_create.mpr ⟨plannable.create isCreate, rfl⟩, fun _ isPage => (nomatch isPage)⟩
  · obtain ⟨content, isRead, isExpected⟩ := matching isUpdate
    obtain ⟨markdown, page, isText, isParsed⟩ := plannable.update isUpdate content isRead
    refine ⟨.update, some page, wikiWriteOperation_ok.mpr (.inr ⟨isUpdate, rfl⟩), ?_, ?_⟩
    · rw [isExpected]
      exact (existingInVault_update isRead).mpr ⟨markdown, page, isText, isParsed, rfl⟩
    · rintro other ⟨⟩
      exact validateWikiPage_of_parse isParsed

variable (decisionDocumentPath) in
theorem planWikiWrites_iff {outcomes : List ZeroWriteOutcome} {yesPaths : List String}
    (written : ∀ frontmatter, ∃ yaml, crates.wikiFrontmatter.toText frontmatter = .ok yaml)
    (stamped : ∀ field, validateTimestamp crates timestamp field = .ok ())
    (isProposal : validatePrefixedModelId document.frontmatter.proposalId .proposal "proposal_id" =
      .ok ())
    (isWiki : document.frontmatter.targetKind = "wiki") {isThere : String → Bool}
    (validated : Validated (wikiKind crates) isThere crates document.frontmatter.proposalId
      document.wikiProposals document.decisions yesPaths)
    (matching : UpdatesMatch crates vault document)
    (collected : collectDecisionOutcomes document = .ok outcomes) :
    (∃ planned, planWikiWritesInVault crates vault document decisionDocumentPath timestamp
        outcomes = .ok planned ∧
      WritesFor document.yesDecisions yesPaths
        (RendersWiki crates vault document decisionDocumentPath timestamp)
        (planned.map fun write => (write.finalPath, write.bytes))) ↔
      ∀ decision ∈ document.yesDecisions, IsDecisionPath crates decisionDocumentPath ∧
        ∀ proposal ∈ document.wikiProposals, proposal.id = decision.targetChangeId →
          WikiPlannable crates vault proposal := by
  have related := yes_related collected
  have unique := inj_on_of_nodup_map validated.idsDistinct
  constructor
  · rintro ⟨planned, isPlanned, paths, -, -⟩ decision among
    obtain ⟨steps, -, -⟩ := planWikiWritesFrom_iff.mp isPlanned
    rw [List.map_map] at paths
    have outputs := validated.outputs
    rw [← paths, forall₂_map_right_iff] at outputs
    obtain ⟨write, -, ⟨outcome, isCollected, isStep⟩, other, isOther, isOutput, -⟩ :=
      forall₂_exists_right
        (List.Forall₂.mp (fun _ _ left right => And.intro left right)
          (forall₂_trans related steps) outputs) among
    obtain ⟨isMember, isTarget⟩ := ProposalKind.find_mem isOther
    have isFound := (wikiProposalById_eq validated.idsDistinct _).trans isOther
    obtain ⟨operation, existing, bytes, isOperation, isExisting, isRendered, rfl⟩ :=
      (planWikiWrite_ok isWiki isCollected (mem_filter.mp among).2 isFound).mp isStep
    have settled : normalizeWikiProposalPath crates other.page.path = .ok other.page.path := isOutput
    have valid := validated.proposalsValid other isMember
    have update : other.operation = "update_wiki_page" →
        ∀ content, vault.read other.page.path = .ok content →
          ∃ markdown page, crates.textOf content = some markdown ∧
            parseWikiPage crates markdown = .ok page ∧ existing = some page := by
      intro isUpdate content isRead
      obtain ⟨expected, isReadToo, isExpected⟩ :=
        matching decision among other isMember isTarget isUpdate _ settled
      rw [isRead] at isReadToo
      cases isReadToo
      rw [wikiWriteOperation_ok.mpr (.inr ⟨isUpdate, rfl⟩)] at isOperation
      cases isOperation
      rw [isExpected] at isExisting
      exact (existingInVault_update isRead).mp isExisting
    have existingValid : ∀ page, existing = some page → validateWikiPage crates page = .ok () := by
      intro page isPage
      rcases wikiWriteOperation_ok.mp isOperation with ⟨-, rfl⟩ | ⟨isUpdate, rfl⟩
      · rw [(existingInVault_create.mp isExisting).2] at isPage
        cases isPage
      · obtain ⟨content, isRead, -⟩ :=
          matching decision among other isMember isTarget isUpdate _ settled
        obtain ⟨markdown, found, -, isParsed, isFoundPage⟩ := update isUpdate content isRead
        rw [isFoundPage] at isPage
        cases isPage
        exact validateWikiPage_of_parse isParsed
    obtain ⟨within, isPath⟩ := (renderWikiPageBytes_iff written valid isProposal stamped
      existingValid).mp ⟨bytes, isRendered⟩
    refine ⟨isPath, fun proposal isProposalToo isTargetToo => ?_⟩
    rw [unique isProposalToo isMember (isTargetToo.trans isTarget.symm)]
    refine ⟨settled, within, fun isCreate => ?_, fun isUpdate content isRead => ?_⟩
    · rw [wikiWriteOperation_ok.mpr (.inl ⟨isCreate, rfl⟩)] at isOperation
      cases isOperation
      exact (existingInVault_create.mp isExisting).1
    · obtain ⟨markdown, page, isText, isParsed, -⟩ := update isUpdate content isRead
      exact ⟨markdown, page, isText, isParsed⟩
  · intro plannable
    have step : ∀ decision ∈ document.yesDecisions, ∃ proposal ∈ document.wikiProposals,
        (wikiKind crates).find document.wikiProposals decision.targetChangeId = some proposal ∧
          proposal.id = decision.targetChangeId ∧
          normalizeWikiProposalPath crates proposal.page.path = .ok proposal.page.path ∧
          ∃ operation existing bytes, wikiWriteOperation proposal = .ok operation ∧
            existingInVault crates vault operation proposal.page.expectedChecksum
              proposal.page.path = .ok existing ∧
            renderWikiPageBytes crates proposal existing document.frontmatter.proposalId
              decisionDocumentPath timestamp = .ok bytes := by
      intro decision among
      obtain ⟨proposal, isFound⟩ := validated.found (mem_of_mem_filter among)
      obtain ⟨isMember, isTarget⟩ := ProposalKind.find_mem isFound
      obtain ⟨isPath, wants⟩ := plannable decision among
      have fits := wants proposal isMember isTarget
      have valid := validated.proposalsValid proposal isMember
      obtain ⟨operation, existing, isOperation, isExisting, existingValid⟩ :=
        fits.existing valid fun isUpdate =>
          matching decision among proposal isMember isTarget isUpdate _ fits.settled
      obtain ⟨bytes, isRendered⟩ := (renderWikiPageBytes_iff written valid isProposal stamped
        existingValid).mpr ⟨fits.within, isPath⟩
      exact ⟨proposal, isMember, isFound, isTarget, fits.settled, operation, existing, bytes,
        isOperation, isExisting, isRendered⟩
    obtain ⟨planned, isPlanned⟩ : ∃ planned, (outcomes.filter fun outcome =>
        outcome.selected = .yes).mapM (fun outcome => planWikiWriteInVault crates vault document
          decisionDocumentPath timestamp outcome []) = .ok planned := by
      apply mapM_ok_of_forall
      intro outcome among
      obtain ⟨decision, isDecision, isCollected⟩ := forall₂_exists_left related among
      obtain ⟨proposal, -, isFound, -, -, operation, existing, bytes, isOperation, isExisting,
        isRendered⟩ := step decision isDecision
      exact ⟨_, (planWikiWrite_ok isWiki isCollected (mem_filter.mp isDecision).2
        ((wikiProposalById_eq validated.idsDistinct _).trans isFound)).mpr
        ⟨operation, existing, bytes, isOperation, isExisting, isRendered, rfl⟩⟩
    have steps := mapM_ok_iff.mp isPlanned
    have fits : WritesFor document.yesDecisions yesPaths
        (RendersWiki crates vault document decisionDocumentPath timestamp)
        (planned.map fun write => (write.finalPath, write.bytes)) := by
      refine WritesFor.of_steps (forall₂_trans related steps) validated.outputs
        validated.pathsDistinct ?_
      rintro decision among write path ⟨outcome, isCollected, isStep⟩ ⟨other, isOther, isOutput, -⟩
      obtain ⟨proposal, isMember, isFound, isTarget, settled, -⟩ := step decision among
      rw [isFound] at isOther
      cases isOther
      obtain ⟨operation, existing, bytes, isOperation, isExisting, isRendered, rfl⟩ :=
        (planWikiWrite_ok isWiki isCollected (mem_filter.mp among).2
          ((wikiProposalById_eq validated.idsDistinct _).trans isFound)).mp isStep
      exact ⟨Except.ok.inj (settled.symm.trans isOutput), other, isMember, isTarget, operation,
        existing, isOperation, isExisting, isRendered⟩
    refine ⟨planned, planWikiWritesFrom_iff.mpr ⟨steps, ?_, fun _ _ old => (nomatch old)⟩, fits⟩
    have distinct := fits.distinct
    rw [← fits.paths, List.map_map] at distinct
    exact distinct

end Wiki

/-! ## Validation and planning -/

section Planned

variable (crates : Crates) (vault : VaultFiles) (document : ParsedDecisionDocument crates.Mapping)
  (decisionDocumentPath timestamp : String)

def ParsedDecisionDocument.proposalIds {Mapping : Type} (document : ParsedDecisionDocument Mapping) :
    List String :=
  document.memoryProposals.map MemoryProposalBlock.id ++
    document.wikiProposals.map WikiProposalBlock.id

/-- Outcomes are collected, one for each proposal, and what is planned for them are the validated
outputs. -/
def PlannedAsValidated (integrity : DecisionDocumentIntegrity) : Prop :=
  ∃ outcomes, collectDecisionOutcomes document = .ok outcomes ∧
    (outcomes.map ZeroWriteOutcome.targetChangeId).Perm document.proposalIds ∧
    (document.frontmatter.targetKind = "memory" →
      ∃ planned, planMemoryWrites crates document decisionDocumentPath timestamp outcomes =
          .ok planned ∧
        WritesFor document.yesDecisions integrity.yesMemoryPaths
          (RendersMemory crates document decisionDocumentPath timestamp)
          (planned.map fun write => (write.finalPath, write.bytes))) ∧
    (document.frontmatter.targetKind = "wiki" →
      ∃ planned, planWikiWritesInVault crates vault document decisionDocumentPath timestamp
          outcomes = .ok planned ∧
        WritesFor document.yesDecisions integrity.yesWikiPaths
          (RendersWiki crates vault document decisionDocumentPath timestamp)
          (planned.map fun write => (write.finalPath, write.bytes)))

/-- The targets of the yes decisions are within what the planner and its serializers ask. -/
def Plannable : Prop :=
  ∀ decision ∈ document.yesDecisions, IsDecisionPath crates decisionDocumentPath ∧
    (∀ proposal ∈ document.memoryProposals, proposal.id = decision.targetChangeId →
      ∀ sourceRef ∈ proposal.memory.sourceRefs, WithinOutputLimits crates sourceRef) ∧
    ∀ proposal ∈ document.wikiProposals, proposal.id = decision.targetChangeId →
      WikiPlannable crates vault proposal

variable {crates vault document decisionDocumentPath timestamp}

theorem targets_collected {outcomes : List ZeroWriteOutcome}
    (collected : collectDecisionOutcomes document = .ok outcomes) :
    outcomes.map ZeroWriteOutcome.targetChangeId =
      document.decisions.map DecisionBlock.targetChangeId := by
  have related := mapM_ok_iff.mp collected
  have same : List.Forall₂ (· = ·) (document.decisions.map DecisionBlock.targetChangeId)
      (outcomes.map ZeroWriteOutcome.targetChangeId) :=
    List.forall₂_map_left_iff.mpr (List.forall₂_map_right_iff.mpr
      (related.imp fun _ _ isCollected => (collectOutcome_ok isCollected).1.symm))
  exact (forall₂_eq_eq_eq ▸ same).symm

/-- **Validation decides what is written** exactly within the serializers' limits, for wiki pages
whose path is written as it is validated, with nothing of that name in any case, or a readable page. -/
theorem planned_as_validated_iff {integrity : DecisionDocumentIntegrity}
    (memoryWritten : ∀ frontmatter, ∃ yaml, crates.memoryFrontmatter.toText frontmatter = .ok yaml)
    (wikiWritten : ∀ frontmatter, ∃ yaml, crates.wikiFrontmatter.toText frontmatter = .ok yaml)
    (stamped : ∀ field, validateTimestamp crates timestamp field = .ok ())
    (accepted : validateInVault crates vault document = .ok integrity)
    (answered : ∀ decision ∈ document.decisions, decision.IsAnswered)
    (matching : UpdatesMatch crates vault document) :
    PlannedAsValidated crates vault document decisionDocumentPath timestamp integrity ↔
      Plannable crates vault document decisionDocumentPath := by
  obtain ⟨outcomes, collected⟩ := collectDecisionOutcomes_ok accepted answered
  have only : ∀ {other}, collectDecisionOutcomes document = .ok other → other = outcomes :=
    fun isOther => Except.ok.inj (isOther.symm.trans collected)
  obtain ⟨isProposal, ⟨isMemory, noWiki, -, validated⟩ | ⟨isWiki, noMemory, -, validated⟩⟩ :=
    validateInVault_ok accepted
  · have notWiki : document.frontmatter.targetKind ≠ "wiki" := by
      rw [isMemory]
      decide
    have writes := planMemoryWrites_iff decisionDocumentPath
      memoryWritten stamped isProposal isMemory validated collected
    constructor
    · rintro ⟨other, isOther, -, isPlanned, -⟩ decision among
      cases only isOther
      obtain ⟨isPath, within⟩ := writes.mp (isPlanned isMemory) decision among
      exact ⟨isPath, within, fun proposal isMember => (by simp [noWiki] at isMember)⟩
    · intro plannable
      refine ⟨outcomes, collected, ?_, fun _ => writes.mpr fun decision among =>
        ⟨(plannable decision among).1, (plannable decision among).2.1⟩, fun isWiki =>
          absurd isWiki notWiki⟩
      rw [targets_collected collected, ParsedDecisionDocument.proposalIds, noWiki, map_nil,
        append_nil]
      exact validated.covered
  · have notMemory : document.frontmatter.targetKind ≠ "memory" := by
      rw [isWiki]
      decide
    have writes := planWikiWrites_iff decisionDocumentPath
      wikiWritten stamped isProposal isWiki validated matching collected
    constructor
    · rintro ⟨other, isOther, -, -, isPlanned⟩ decision among
      cases only isOther
      obtain ⟨isPath, fits⟩ := writes.mp (isPlanned isWiki) decision among
      exact ⟨isPath, fun proposal isMember => (by simp [noMemory] at isMember), fits⟩
    · intro plannable
      refine ⟨outcomes, collected, ?_, fun isMemory => absurd isMemory notMemory, fun _ =>
        writes.mpr fun decision among =>
          ⟨(plannable decision among).1, (plannable decision among).2.2⟩⟩
      rw [targets_collected collected, ParsedDecisionDocument.proposalIds, noMemory]
      exact validated.covered

end Planned

/-! ## Poles -/

def OutputStatus.asStr : OutputStatus → String
  | .active => "active"
  | .archived => "archived"
  | .superseded => "superseded"

/-- Plain scalars, as `serde_yaml` writes them. -/
def plainYaml (fields : List (String × String)) : Chars :=
  fields.flatMap fun field => (field.1 ++ ": " ++ field.2 ++ "\n").toList

def plainMemoryFrontmatter (item : MemoryFrontmatter) : Chars :=
  plainYaml ([("id", item.id)] ++ (item.kind.map fun kind => ("kind", kind)).toList ++
    [("title", item.title), ("status", item.status.asStr), ("tags", "[]"), ("source_refs", "[]"),
      ("created_at", item.createdAt), ("updated_at", item.updatedAt),
      ("proposal_id", item.proposalId), ("decision_document", item.decisionDocument)])

def plainWikiFrontmatter (page : WikiFrontmatter) : Chars :=
  plainYaml [("id", page.id), ("page_type", page.pageType.asStr), ("title", page.title),
    ("status", page.status.asStr), ("tags", "[]"), ("source_refs", "[]"),
    ("created_at", page.createdAt), ("updated_at", page.updatedAt),
    ("proposal_id", page.proposalId), ("decision_document", page.decisionDocument)]

/-- Outputs of plain scalars without tags and source references are written. -/
def plainCrates : Crates :=
  { composedCrates with
    memoryFrontmatter := ⟨fun item => .ok (plainMemoryFrontmatter item), fun _ => .error ""⟩
    wikiFrontmatter := ⟨fun page => .ok (plainWikiFrontmatter page), fun _ => .error ""⟩ }

def sampleSpan : KukuBlockSpan := ⟨⟨0, 1⟩, ⟨0, 1⟩, ⟨0, 1⟩, ⟨0, 1⟩⟩

def yesDecision : DecisionBlock where
  id := "decision_1"
  proposalId := "prop_1"
  targetChangeId := "change_1"
  question := "Create the page?"
  selectionMode := "single"
  required := true
  status := "pending"
  selectedOptionId := some "yes"
  options := [⟨"yes", "Yes", none⟩, ⟨"no", "No", none⟩, ⟨"other", "Other", some true⟩]
  otherText := none
  resolvedAt := none

/-- A proposal for one page, and yes to it. -/
def pageDocument (path : String) : ParsedDecisionDocument plainCrates.Mapping where
  markdown := []
  frontmatter :=
    { id := "doc_1"
      proposalId := "prop_1"
      targetKind := "wiki"
      requestSource := "ui_command"
      status := "pending"
      createdAt := "2026-05-07T00:00:00Z"
      updatedAt := "2026-05-07T00:00:00Z"
      sourceRefs := []
      raw := () }
  frontmatterSpan := ⟨0, 0⟩
  blocks :=
    [.wikiProposal ⟨some sampleSpan, "change_1", "create_wiki_page",
      { path
        expectedChecksum := none
        pageType := "concept"
        title := "A b"
        tags := []
        body := "Text."
        sourceRefs := [] }⟩,
     .decision ⟨some sampleSpan, yesDecision⟩]

theorem stamped_plain (field : String) :
    validateTimestamp plainCrates "2026-05-07T00:00:00Z" field = .ok () := by
  simp only [validateTimestamp, guard_ok]
  refine ⟨by simp [plainCrates, composedCrates], ?_⟩
  have isPrecise : ¬ ((!Text.endsWith "2026-05-07T00:00:00Z" "Z") = true ∨
      "2026-05-07T00:00:00Z".toList.contains '.' = true) := by decide +kernel
  exact if_neg isPrecise

theorem answered_page (path : String) :
    ∀ decision ∈ (pageDocument path).decisions, decision.IsAnswered :=
  forall_mem_singleton.mpr ⟨rfl, fun isOther => absurd isOther (by decide)⟩

theorem updatesMatch_page (path : String) : UpdatesMatch plainCrates [] (pageDocument path) := by
  rintro - - proposal among - isUpdate
  cases mem_singleton.mp among
  change "create_wiki_page" = "update_wiki_page" at isUpdate
  exact absurd isUpdate (by decide)

theorem percent_path_planned_raw :
    validateInVault plainCrates [] (pageDocument "Knowledge/wiki/a%20b.md") =
        .ok ⟨"doc_1", "prop_1", [], ["Knowledge/wiki/a b.md"]⟩ ∧
      (∀ decision ∈ (pageDocument "Knowledge/wiki/a%20b.md").decisions, decision.IsAnswered) ∧
      ¬ PlannedAsValidated plainCrates [] (pageDocument "Knowledge/wiki/a%20b.md")
        "Knowledge/decisions/a.md" "2026-05-07T00:00:00Z"
        ⟨"doc_1", "prop_1", [], ["Knowledge/wiki/a b.md"]⟩ := by
  have accepted : validateInVault plainCrates [] (pageDocument "Knowledge/wiki/a%20b.md") =
      .ok ⟨"doc_1", "prop_1", [], ["Knowledge/wiki/a b.md"]⟩ := by decide +kernel
  refine ⟨accepted, answered_page _, ?_⟩
  rintro ⟨outcomes, collected, -, -, isPlanned⟩
  obtain ⟨isProposal, ⟨isMemory, -⟩ | ⟨isWiki, -, -, validated⟩⟩ := validateInVault_ok accepted
  · exact absurd isMemory (by decide)
  have fits := (planWikiWrites_iff _ (fun _ => ⟨_, rfl⟩) stamped_plain isProposal isWiki validated
    (updatesMatch_page _) collected).mp (isPlanned isWiki) yesDecision mem_cons_self
  have settled := (fits.2 _ mem_cons_self rfl).settled
  exact absurd settled (by decide +kernel)

theorem plain_path_planned :
    PlannedAsValidated plainCrates [] (pageDocument "Knowledge/wiki/a b.md")
      "Knowledge/decisions/a.md" "2026-05-07T00:00:00Z"
      ⟨"doc_1", "prop_1", [], ["Knowledge/wiki/a b.md"]⟩ := by
  have accepted : validateInVault plainCrates [] (pageDocument "Knowledge/wiki/a b.md") =
      .ok ⟨"doc_1", "prop_1", [], ["Knowledge/wiki/a b.md"]⟩ := by decide +kernel
  refine (planned_as_validated_iff (fun _ => ⟨_, rfl⟩) (fun _ => ⟨_, rfl⟩) stamped_plain accepted
    (answered_page _) (updatesMatch_page _)).mpr ?_
  refine forall_mem_singleton.mpr ⟨⟨"Knowledge/decisions/a.md", by decide +kernel,
    by decide +kernel⟩, fun _ among => (nomatch among), ?_⟩
  refine forall_mem_singleton.mpr fun _ => ⟨by decide +kernel, fun _ among => (nomatch among),
    fun _ => rfl, fun isUpdate => absurd isUpdate (by decide)⟩

end Kuku.Knowledge
