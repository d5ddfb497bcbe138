/-
# Knowledge.DecisionDocument -- the document a decision is made in

A decision document is markdown with a YAML frontmatter and fenced `kuku-` blocks; here it is
the parsed document.  `validateDecisionDocumentIntegrity` is what an apply insists on.

The checks of the two kinds of document differ in their proposals only, so they are
one definition over a `ProposalKind`.  They ask the file system which outputs exist
when they are given a vault; `existsAt` is that question.
-/
import Kuku.Knowledge.Markdown
import Kuku.Knowledge.ServiceError

namespace Kuku.Knowledge

open Kuku.Theory

def maxIdChars : Nat := 84
def maxKindChars : Nat := 40
def maxTagChars : Nat := 40

/-- `DecisionDocumentError::validation`. -/
def ServiceError.validation (message : String) : ServiceError := ⟨.validationFailed, message⟩

/-! ## The parsed document -/

structure ByteRange where
  start : Nat
  stop : Nat

structure KukuBlockSpan where
  full : ByteRange
  openingFence : ByteRange
  payload : ByteRange
  closingFence : ByteRange

/-- A block with its place in the document. -/
structure Parsed (α : Type) where
  span : Option KukuBlockSpan
  value : α

inductive ParsedKukuBlock where
  | memoryProposal (block : Parsed MemoryProposalBlock)
  | wikiProposal (block : Parsed WikiProposalBlock)
  | decision (block : Parsed DecisionBlock)

structure DecisionDocumentFrontmatter (Mapping : Type) extends FrontmatterKnown where
  raw : Mapping

structure ParsedDecisionDocument (Mapping : Type) where
  markdown : Chars
  frontmatter : DecisionDocumentFrontmatter Mapping
  frontmatterSpan : ByteRange
  blocks : List ParsedKukuBlock

namespace ParsedDecisionDocument

variable {Mapping : Type} (document : ParsedDecisionDocument Mapping)

def proposalBlocks : List (Parsed MemoryProposalBlock) :=
  document.blocks.filterMap fun
    | .memoryProposal block => some block
    | _ => none

def wikiProposalBlocks : List (Parsed WikiProposalBlock) :=
  document.blocks.filterMap fun
    | .wikiProposal block => some block
    | _ => none

def decisionBlocks : List (Parsed DecisionBlock) :=
  document.blocks.filterMap fun
    | .decision block => some block
    | _ => none

end ParsedDecisionDocument

/-! ## Field checks -/

def validatePrefixedId (value idKind field : String) : Except ServiceError Unit :=
  if value.toList.length > maxIdChars ∨ !Text.startsWith value (idKind ++ "_") ∨
      !isValidKnowledgeId value then
    .error (.validation ("Invalid " ++ field))
  else .ok ()

def validateNonEmpty (value field : String) (maxChars : Nat) : Except ServiceError Unit := do
  if Text.isBlank value then .error (.validation (field ++ " is empty"))
  if value.toList.length > maxChars then .error (.validation (field ++ " is too long"))

/-- `usize::MAX`. -/
def noLimit : Nat := 2 ^ 64 - 1

/-- A field whose value must be one of some texts. -/
def validateOneOf (value message : String) (supported : List String) : Except ServiceError Unit :=
  if value ∈ supported then .ok () else .error (.validation message)

/-- The message of an error of the other module. -/
def ofModelError {α : Type} (result : Except KnowledgeModelError α) : Except ServiceError α :=
  result.mapError fun error => .validation error.message

section Checks

variable (crates : Crates)

def validateDocumentTimestamp (value field : String) : Except ServiceError Unit := do
  if !crates.isRfc3339 value then
    .error (.validation (field ++ " must be a valid RFC 3339 timestamp"))
  if !Text.endsWith value "Z" ∨ value.toList.contains '.' then
    .error (.validation (field ++ " must be UTC seconds precision"))

def validateDocumentSourceRef (sourceRef : SourceRef) : Except ServiceError Unit := do
  let _ ← ofModelError (validateSafeVaultRelativePath crates sourceRef.path "source_refs.path")
  if let some title := sourceRef.title then
    validateNonEmpty title "source_refs.title" maxTitleChars
  if let some sectionPath := sourceRef.sectionPath then
    sectionPath.forM fun entry => validateNonEmpty entry "source_refs.section_path" maxTitleChars
  if let some range := sourceRef.range then
    if !rangeIsValid range then .error (.validation "Invalid source reference range")
  if let some checksum := sourceRef.checksum then
    ofModelError (validateSha256Checksum checksum "source_refs.checksum")
  validateDocumentTimestamp crates sourceRef.capturedAt "source_refs.captured_at"

def validateDocumentFrontmatter (frontmatter : FrontmatterKnown) : Except ServiceError Unit := do
  validatePrefixedId frontmatter.id "doc" "document id"
  validatePrefixedId frontmatter.proposalId "prop" "document proposal_id"
  validateOneOf frontmatter.targetKind "Unsupported decision document target_kind"
    ["memory", "wiki"]
  validateOneOf frontmatter.requestSource "Unsupported decision document request_source"
    ["ai_tool", "ui_command"]
  validateOneOf frontmatter.status "Unsupported decision document status"
    ["pending", "applied", "partially_applied", "needs_revision", "apply_failed", "superseded"]
  validateDocumentTimestamp crates frontmatter.createdAt "created_at"
  validateDocumentTimestamp crates frontmatter.updatedAt "updated_at"
  frontmatter.sourceRefs.forM (validateDocumentSourceRef crates)

def validateMemoryProposal (block : MemoryProposalBlock) : Except ServiceError Unit := do
  validatePrefixedId block.id "change" "memory proposal id"
  if block.operation ≠ "create_memory" then
    .error (.validation ("Unsupported memory proposal operation: " ++ block.operation))
  validatePrefixedId block.memory.id "mem" "proposed memory id"
  validateNonEmpty block.memory.title "memory title" maxTitleChars
  validateNonEmpty block.memory.body "memory body" noLimit
  if let some kind := block.memory.kind then validateNonEmpty kind "memory kind" maxKindChars
  block.memory.tags.forM fun tag => validateNonEmpty tag "memory tag" maxTagChars
  block.memory.sourceRefs.forM (validateDocumentSourceRef crates)

def normalizeWikiProposalPath (path : String) : Except ServiceError String :=
  ofModelError (validateWikiPagePath crates path "wiki page path")

/-- The operation of a wiki proposal and the checksum that goes with it. -/
def validateWikiOperation (block : WikiProposalBlock) : Except ServiceError Unit :=
  if block.operation = "create_wiki_page" then
    if block.page.expectedChecksum.isSome then
      .error (.validation "Wiki create proposal must not include expected_checksum")
    else .ok ()
  else if block.operation = "update_wiki_page" then
    match block.page.expectedChecksum with
    | none => .error (.validation "Wiki update proposal requires expected_checksum")
    | some checksum => ofModelError (validateSha256Checksum checksum "wiki expected_checksum")
  else .error (.validation ("Unsupported wiki proposal operation: " ++ block.operation))

def validateWikiProposal (block : WikiProposalBlock) : Except ServiceError Unit := do
  validatePrefixedId block.id "change" "wiki proposal id"
  validateWikiOperation block
  let _ ← normalizeWikiProposalPath crates block.page.path
  validateOneOf block.page.pageType ("Unsupported wiki page_type: " ++ block.page.pageType)
    ["source", "concept", "entity", "synthesis"]
  validateNonEmpty block.page.title "wiki title" maxTitleChars
  validateNonEmpty block.page.body "wiki body" noLimit
  block.page.tags.forM fun tag => validateNonEmpty tag "wiki tag" maxTagChars
  block.page.sourceRefs.forM (validateDocumentSourceRef crates)

def validateOption (seen : List String) (option : DecisionOptionBlock) :
    Except ServiceError (List String) := do
  validateNonEmpty option.id "decision option id" maxIdChars
  validateNonEmpty option.label "decision option label" maxTitleChars
  if option.id ∈ seen then
    .error (.validation ("Duplicate decision option id: " ++ option.id))
  return option.id :: seen

def validateDecisionOptions (block : DecisionBlock) : Except ServiceError Unit := do
  let optionIds ← block.options.foldlM validateOption []
  ["yes", "no", "other"].forM fun required => do
    if required ∉ optionIds then
      .error (.validation ("Decision is missing required option: " ++ required))
  let some other := block.options.find? fun option => option.id = "other"
    | .error (.validation "Decision is missing other option")
  if other.requiresInput ≠ some true then
    .error (.validation "Decision other option must require input")

def validateDecision (block : DecisionBlock) (documentProposalId : String) :
    Except ServiceError Unit := do
  validatePrefixedId block.id "decision" "decision id"
  validatePrefixedId block.proposalId "prop" "decision proposal_id"
  if block.proposalId ≠ documentProposalId then
    .error (.validation "Decision proposal_id does not match document proposal_id")
  validatePrefixedId block.targetChangeId "change" "decision target_change_id"
  validateNonEmpty block.question "decision question" maxTitleChars
  if block.selectionMode ≠ "single" then
    .error (.validation "Unsupported decision selection_mode")
  if !block.required then .error (.validation "MVP decisions must be required")
  validateOneOf block.status "Unsupported decision status"
    ["pending", "committed", "rejected", "needs_revision"]
  validateDecisionOptions block
  if let some selected := block.selectedOptionId then
    if selected ∉ block.options.map DecisionOptionBlock.id then
      .error (.validation ("Unknown selected option id: " ++ selected))
    validateOneOf selected ("Unsupported selected option id: " ++ selected) ["yes", "no", "other"]
  if let some resolvedAt := block.resolvedAt then
    validateDocumentTimestamp crates resolvedAt "resolved_at"

end Checks

/-! ## Integrity -/

def memoryPathForId (memoryId : String) : String := "Knowledge/memory/" ++ memoryId ++ ".md"

/-- What the integrity checks of memory and wiki documents do differently. -/
structure ProposalKind (π : Type) where
  validate : π → Except ServiceError Unit
  id : π → String
  /-- What no two proposals may share: the memory's id, or the page's path. -/
  outputKey : π → Except ServiceError String
  outputPath : π → Except ServiceError String
  /-- A yes decision's output, and whether it exists. -/
  checkExisting : π → String → Bool → Except ServiceError Unit
  noProposals : String
  missingSpan : String
  duplicateId : String
  duplicateKey : String
  duplicateYes : String

def memoryKind (crates : Crates) : ProposalKind MemoryProposalBlock where
  validate := validateMemoryProposal crates
  id := MemoryProposalBlock.id
  outputKey block := .ok block.memory.id
  outputPath block := .ok (memoryPathForId block.memory.id)
  checkExisting _ path isThere :=
    if isThere then .error (.validation ("Memory output path already exists: " ++ path)) else .ok ()
  noProposals := "Decision document has no memory proposal blocks"
  missingSpan := "Memory proposal block is missing byte span data"
  duplicateId := "Duplicate memory proposal id: "
  duplicateKey := "Duplicate proposed memory id: "
  duplicateYes := "Duplicate yes memory output path: "

def wikiKind (crates : Crates) : ProposalKind WikiProposalBlock where
  validate := validateWikiProposal crates
  id := WikiProposalBlock.id
  outputKey block := normalizeWikiProposalPath crates block.page.path
  outputPath block := normalizeWikiProposalPath crates block.page.path
  checkExisting block path isThere :=
    if block.operation = "create_wiki_page" ∧ isThere then
      .error (.validation ("Wiki output path already exists: " ++ path))
    else if block.operation = "update_wiki_page" ∧ !isThere then
      .error (.validation ("Wiki update path does not exist: " ++ path))
    else .ok ()
  noProposals := "Decision document has no wiki proposal blocks"
  missingSpan := "Wiki proposal block is missing byte span data"
  duplicateId := "Duplicate wiki proposal id: "
  duplicateKey := "Duplicate proposed wiki path: "
  duplicateYes := "Duplicate yes wiki output path: "

/-- The ids and paths the loops have seen. -/
structure Seen where
  ids : List String
  keys : List String
  targets : List String
  yesPaths : List String

section Integrity

variable {π : Type} (kind : ProposalKind π)

def checkProposal (seen : Seen) (proposal : Parsed π) : Except ServiceError Seen := do
  if proposal.span.isNone then .error (.validation kind.missingSpan)
  kind.validate proposal.value
  if kind.id proposal.value ∈ seen.ids then
    .error (.validation (kind.duplicateId ++ kind.id proposal.value))
  let key ← kind.outputKey proposal.value
  if key ∈ seen.keys then .error (.validation (kind.duplicateKey ++ key))
  return { seen with
    ids := seen.ids ++ [kind.id proposal.value]
    keys := seen.keys ++ [key] }

/-- The checks on one decision; a yes decision has an output, which is still to be looked
at in the vault. -/
def checkDecision (crates : Crates) (documentProposalId : String) (proposals : List π)
    (seen : Seen) (decision : Parsed DecisionBlock) :
    Except ServiceError (Seen × Option (π × String)) := do
  if decision.span.isNone then
    .error (.validation "Decision block is missing byte span data")
  validateDecision crates decision.value documentProposalId
  if decision.value.id ∈ seen.ids then
    .error (.validation ("Duplicate decision id: " ++ decision.value.id))
  let some proposal := proposals.find? fun proposal => kind.id proposal = decision.value.targetChangeId
    | .error (.validation
        ("Decision target_change_id has no matching proposal: " ++ decision.value.targetChangeId))
  let seen := { seen with
    ids := seen.ids ++ [decision.value.id]
    targets := seen.targets ++ [decision.value.targetChangeId] }
  if decision.value.selectedOptionId = some "yes" then
    let path ← kind.outputPath proposal
    if path ∈ seen.yesPaths then .error (.validation (kind.duplicateYes ++ path))
    return ({ seen with yesPaths := seen.yesPaths ++ [path] }, some (proposal, path))
  else return (seen, none)

/-- Every proposal has one decision. -/
def checkTarget (targets : List String) (proposalId : String) : Except ServiceError Unit :=
  match targets.count proposalId with
  | 1 => .ok ()
  | 0 => .error (.validation ("Proposal has no matching decision: " ++ proposalId))
  | _ => .error (.validation ("Proposal has more than one matching decision: " ++ proposalId))

variable {m : Type → Type} [Monad m] (lift : ∀ {α : Type}, Except ServiceError α → m α)
  (existsAt : String → m (Option Bool))

/-- The loop over the decisions; `existsAt` answers nothing when there is no vault. -/
def checkDecisions (crates : Crates) (documentProposalId : String) (proposals : List π) :
    Seen → List (Parsed DecisionBlock) → m Seen
  | seen, [] => pure seen
  | seen, decision :: rest => do
    let checked ← lift (checkDecision kind crates documentProposalId proposals seen decision)
    match checked.2 with
    | none => checkDecisions crates documentProposalId proposals checked.1 rest
    | some (proposal, path) => do
      match ← existsAt path with
      | none => checkDecisions crates documentProposalId proposals checked.1 rest
      | some isThere => do
        lift (kind.checkExisting proposal path isThere)
        checkDecisions crates documentProposalId proposals checked.1 rest

/-- The integrity checks of a document whose proposals are all of one kind; the result
is the outputs of its yes decisions. -/
def validateIntegrityOf (crates : Crates) (documentProposalId : String)
    (proposals : List (Parsed π)) (decisions : List (Parsed DecisionBlock)) : m (List String) := do
  if proposals.isEmpty then lift (.error (.validation kind.noProposals))
  if decisions.isEmpty then
    lift (.error (.validation "Decision document has no decision blocks"))
  let seen ← lift (proposals.foldlM (checkProposal kind) ⟨[], [], [], []⟩)
  let checked ← checkDecisions kind lift existsAt crates documentProposalId
    (proposals.map Parsed.value) ⟨[], [], [], []⟩ decisions
  lift ((seen.ids.insertionSort (· ≤ ·)).forM (checkTarget checked.targets))
  return checked.yesPaths

end Integrity

structure DecisionDocumentIntegrity where
  docId : String
  proposalId : String
  yesMemoryPaths : List String
  yesWikiPaths : List String
  deriving DecidableEq

section Integrity

variable (crates : Crates) {m : Type → Type} [Monad m]
  (lift : ∀ {α : Type}, Except ServiceError α → m α) (existsAt : String → m (Option Bool))

def validateMemoryDecisionDocumentIntegrity (document : ParsedDecisionDocument crates.Mapping) :
    m DecisionDocumentIntegrity := do
  if !document.wikiProposalBlocks.isEmpty then
    lift (.error (.validation "Memory decision document cannot contain wiki proposal blocks"))
  let yesPaths ← validateIntegrityOf (memoryKind crates) lift existsAt crates
    document.frontmatter.proposalId document.proposalBlocks document.decisionBlocks
  return ⟨document.frontmatter.id, document.frontmatter.proposalId, yesPaths, []⟩

def validateWikiDecisionDocumentIntegrity (document : ParsedDecisionDocument crates.Mapping) :
    m DecisionDocumentIntegrity := do
  if !document.proposalBlocks.isEmpty then
    lift (.error (.validation "Wiki decision document cannot contain memory proposal blocks"))
  let yesPaths ← validateIntegrityOf (wikiKind crates) lift existsAt crates
    document.frontmatter.proposalId document.wikiProposalBlocks document.decisionBlocks
  return ⟨document.frontmatter.id, document.frontmatter.proposalId, [], yesPaths⟩

def validateDecisionDocumentIntegrity (document : ParsedDecisionDocument crates.Mapping) :
    m DecisionDocumentIntegrity := do
  lift (validateDocumentFrontmatter crates document.frontmatter.toFrontmatterKnown)
  if document.frontmatter.targetKind = "memory" then
    validateMemoryDecisionDocumentIntegrity crates lift existsAt document
  else if document.frontmatter.targetKind = "wiki" then
    validateWikiDecisionDocumentIntegrity crates lift existsAt document
  else lift (.error (.validation "Unsupported decision document target_kind"))

end Integrity

end Kuku.Knowledge
