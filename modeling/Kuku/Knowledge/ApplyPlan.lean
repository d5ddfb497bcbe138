/-
# Knowledge.ApplyPlan -- what an apply is going to write

Between the integrity checks and the first write an apply passes over the document twice:
`collectDecisionOutcomes` reads the options that were selected, and `planMemoryWrites` or
`planWikiWrites` renders the output of each yes decision.  Each of them finds the proposals and
their paths on its own.

The vault is only looked at here; it is the list of its files.
-/
import Kuku.Knowledge.DecisionDocument
import Kuku.Theory.Assoc

namespace Kuku.Knowledge

open Kuku.Theory

/-! ## The vault -/

abbrev VaultFiles := Assoc (List String) Content

/-- The components of a path, as `root.join` takes them. -/
def locate (path : String) : List String := Text.split '/' path

namespace VaultFiles

variable (vault : VaultFiles)

/-- `Path::exists`: a file, or a directory with something in it. -/
def pathExists (path : String) : Bool := vault.any fun entry => (locate path).isPrefixOf entry.1

def read (path : String) : Except IoError Content :=
  match Assoc.get vault (locate path) with
  | some content => .ok content
  | none =>
    if vault.pathExists path then .error ⟨.other, "Is a directory (os error 21)"⟩
    else .error .noSuchFile

def entryNames (directory : List String) : List String :=
  vault.filterMap fun entry =>
    if directory.isPrefixOf entry.1 then (entry.1.drop directory.length).head? else none

def exactOrCaseInsensitiveExists (path : String) : Bool :=
  vault.pathExists path ||
    (vault.entryNames (locate path).dropLast).any fun candidate =>
      (locate path).getLast?.any fun name => Text.asciiLower candidate = Text.asciiLower name

end VaultFiles

/-! ## Outcomes -/

structure ZeroWriteOutcome where
  decisionId : String
  targetChangeId : String
  selected : DecisionOptionId
  memoryPath : Option String
  wikiPath : Option String

def selectedDecisionOption (block : DecisionBlock) : Except ServiceError DecisionOptionId :=
  match block.selectedOptionId with
  | some "yes" => .ok .yes
  | some "no" => .ok .no
  | some "other" => .ok .other
  | some value => .error (.validation ("Unsupported selected option id: " ++ value))
  | none => .error (.validation "Required decision is missing selected_option_id")

/-- What a `BTreeMap` collected by id has for an id: the last one. -/
def lastWithId {π : Type} (id : π → String) (proposals : List π) (wanted : String) : Option π :=
  proposals.reverse.find? fun proposal => id proposal = wanted

section Document

variable {Mapping : Type} (document : ParsedDecisionDocument Mapping)

def memoryProposalById (wanted : String) : Option MemoryProposalBlock :=
  lastWithId MemoryProposalBlock.id (document.proposalBlocks.map Parsed.value) wanted

def wikiProposalById (wanted : String) : Option WikiProposalBlock :=
  lastWithId WikiProposalBlock.id (document.wikiProposalBlocks.map Parsed.value) wanted

/-- The output of a decision: a memory path, a wiki path, or none. -/
def outcomePaths (selected : DecisionOptionId) (targetChangeId : String) :
    Except ServiceError (Option String × Option String) :=
  if document.frontmatter.targetKind = "memory" then
    if selected = .yes then
      match memoryProposalById document targetChangeId with
      | some proposal => .ok (some (memoryPathForId proposal.memory.id), none)
      | none => .error (.validation "Decision target has no memory proposal")
    else .ok (none, none)
  else if document.frontmatter.targetKind = "wiki" then
    if selected = .yes then
      match wikiProposalById document targetChangeId with
      | some proposal => .ok (none, some proposal.page.path)
      | none => .error (.validation "Decision target has no wiki proposal")
    else .ok (none, none)
  else .error (.validation "Unsupported decision document target_kind")

def collectOutcome (decision : DecisionBlock) : Except ServiceError ZeroWriteOutcome := do
  let selected ← selectedDecisionOption decision
  if selected = .other ∧ Text.isBlank (decision.otherText.getD "") then
    .error (.validation "Other decisions require non-empty other_text")
  let paths ← outcomePaths document selected decision.targetChangeId
  return { decisionId := decision.id
           targetChangeId := decision.targetChangeId
           selected
           memoryPath := paths.1
           wikiPath := paths.2 }

def collectDecisionOutcomes : Except ServiceError (List ZeroWriteOutcome) :=
  (document.decisionBlocks.map Parsed.value).mapM (collectOutcome document)

end Document

/-! ## Memory items -/

structure PlannedMemoryWrite where
  memoryId : String
  finalPath : String
  stagedPath : String
  bytes : Chars
  checksum : String

def applyTmpPath (docId name : String) : String :=
  ".kuku/knowledge/apply-tmp/" ++ docId ++ "/" ++ name ++ ".md"

section Plan

variable (crates : Crates)

def memoryItemOf (proposal : MemoryProposalBlock) (proposalId decisionDocumentPath
    timestamp : String) : MemoryItem where
  id := proposal.memory.id
  kind := proposal.memory.kind
  title := proposal.memory.title
  status := .active
  tags := proposal.memory.tags
  sourceRefs := proposal.memory.sourceRefs
  createdAt := timestamp
  updatedAt := timestamp
  proposalId
  decisionDocument := decisionDocumentPath
  body := proposal.memory.body

def renderMemoryItemBytes (proposal : MemoryProposalBlock) (proposalId decisionDocumentPath
    timestamp : String) : Except ServiceError Chars :=
  ofModelError (serializeMemoryItem crates
    (memoryItemOf proposal proposalId decisionDocumentPath timestamp))

variable (document : ParsedDecisionDocument crates.Mapping)
  (decisionDocumentPath timestamp : String)

def planMemoryWrite (outcome : ZeroWriteOutcome) : Except ServiceError PlannedMemoryWrite := do
  let some proposal := memoryProposalById document outcome.targetChangeId
    | .error (.validation "Decision target has no proposal")
  let bytes ← renderMemoryItemBytes crates proposal document.frontmatter.proposalId
    decisionDocumentPath timestamp
  return { memoryId := proposal.memory.id
           finalPath := outcome.memoryPath.getD (memoryPathForId proposal.memory.id)
           stagedPath := applyTmpPath document.frontmatter.id proposal.memory.id
           bytes
           checksum := crates.checksum (.text bytes) }

def planMemoryWrites (outcomes : List ZeroWriteOutcome) :
    Except ServiceError (List PlannedMemoryWrite) :=
  (outcomes.filter fun outcome => outcome.selected = .yes).mapM
    (planMemoryWrite crates document decisionDocumentPath timestamp)

/-! ## Wiki pages -/

inductive WikiWriteOperation where
  | create
  | update

structure PlannedWikiWrite where
  finalPath : String
  stagedPath : String
  bytes : Chars
  checksum : String
  operation : WikiWriteOperation
  expectedChecksum : Option String

def wikiWriteOperation (proposal : WikiProposalBlock) : Except ServiceError WikiWriteOperation :=
  if proposal.operation = "create_wiki_page" then .ok .create
  else if proposal.operation = "update_wiki_page" then .ok .update
  else .error (.validation ("Unsupported wiki proposal operation: " ++ proposal.operation))

def wikiPageType (value : String) : Except ServiceError WikiPageType :=
  if value = "source" then .ok .source
  else if value = "concept" then .ok .concept
  else if value = "entity" then .ok .entity
  else if value = "synthesis" then .ok .synthesis
  else .error (.validation ("Unsupported wiki page_type: " ++ value))

/-- The page of a proposal; an update keeps what is not in the proposal. -/
def wikiPageOf (proposal : WikiProposalBlock) (pageType : WikiPageType)
    (existing : Option WikiPage) (proposalId decisionDocumentPath timestamp : String) :
    WikiPage where
  id := (existing.map fun page => page.id).getD (makeKnowledgeId .wiki proposal.page.path)
  pageType
  title := proposal.page.title
  status := (existing.map fun page => page.status).getD .active
  tags := proposal.page.tags
  sourceRefs := proposal.page.sourceRefs
  createdAt := (existing.map fun page => page.createdAt).getD timestamp
  updatedAt := timestamp
  proposalId
  decisionDocument := decisionDocumentPath
  body := proposal.page.body

def renderWikiPageBytes (proposal : WikiProposalBlock) (existing : Option WikiPage)
    (proposalId decisionDocumentPath timestamp : String) : Except ServiceError Chars := do
  let pageType ← wikiPageType proposal.page.pageType
  ofModelError (serializeWikiPage crates
    (wikiPageOf proposal pageType existing proposalId decisionDocumentPath timestamp))

/-- What a yes outcome writes: its proposal, the operation and the path. -/
def wikiTarget (outcome : ZeroWriteOutcome) (paths : List String) :
    Except ServiceError (WikiProposalBlock × WikiWriteOperation × String) := do
  let some proposal := wikiProposalById document outcome.targetChangeId
    | .error (.validation "Decision target has no wiki proposal")
  let operation ← wikiWriteOperation proposal
  let finalPath := outcome.wikiPath.getD proposal.page.path
  if finalPath ∈ paths then
    .error (.validation ("Duplicate wiki output path: " ++ finalPath))
  return (proposal, operation, finalPath)

/-- The page an update goes on with, from what was read at its path. -/
def pageToUpdate (expected finalPath : String) (observed : Except IoError Content) :
    Except ServiceError WikiPage := do
  let content ← observed.mapError fun error =>
    if error.kind = .notFound then
      .validation ("Wiki update path does not exist: " ++ finalPath)
    else .io error
  if crates.checksum content ≠ expected then
    .error ⟨.documentChanged, "Wiki page changed before apply: " ++ finalPath⟩
  let some markdown := crates.textOf content
    | .error (.validation ("Wiki page is not UTF-8: " ++ finalPath))
  (parseWikiPage crates markdown).mapError fun error =>
    .validation (error.field ++ ": " ++ error.message)

def plannedWikiWrite (proposal : WikiProposalBlock) (operation : WikiWriteOperation)
    (finalPath : String) (existing : Option WikiPage) : Except ServiceError PlannedWikiWrite := do
  let bytes ← renderWikiPageBytes crates proposal existing document.frontmatter.proposalId
    decisionDocumentPath timestamp
  return { finalPath
           stagedPath := applyTmpPath document.frontmatter.id
             (crates.sha256 (.text finalPath.toList))
           bytes
           checksum := crates.checksum (.text bytes)
           operation
           expectedChecksum := proposal.page.expectedChecksum }

section Vault

variable {m : Type → Type} [Monad m] (lift : ∀ {α : Type}, Except ServiceError α → m α)
  (existsAt : String → m Bool) (readAt : String → m (Except IoError Content))

/-- The page an update goes on with; a create wants none to be there. -/
def existingWikiPage (operation : WikiWriteOperation) (expectedChecksum : Option String)
    (finalPath : String) : m (Option WikiPage) :=
  match operation, expectedChecksum with
  | .create, _ => do
    if ← existsAt finalPath then
      lift (.error ⟨.alreadyExists, "Wiki output path already exists: " ++ finalPath⟩)
    else pure none
  | .update, none => lift (.error (.validation "Wiki update proposal requires expected_checksum"))
  | .update, some expected => do
    let observed ← readAt finalPath
    some <$> lift (pageToUpdate crates expected finalPath observed)

def planWikiWrite (outcome : ZeroWriteOutcome) (paths : List String) : m PlannedWikiWrite := do
  let (proposal, operation, finalPath) ← lift (wikiTarget crates document outcome paths)
  let existing ← existingWikiPage crates lift existsAt readAt operation
    proposal.page.expectedChecksum finalPath
  lift (plannedWikiWrite crates document decisionDocumentPath timestamp proposal operation
    finalPath existing)

/-- The loop, with the paths that are planned already. -/
def planWikiWritesFrom : List String → List ZeroWriteOutcome → m (List PlannedWikiWrite)
  | _, [] => pure []
  | paths, outcome :: outcomes => do
    let planned ← planWikiWrite crates document decisionDocumentPath timestamp lift existsAt
      readAt outcome paths
    let later ← planWikiWritesFrom (planned.finalPath :: paths) outcomes
    pure (planned :: later)

def planWikiWrites (outcomes : List ZeroWriteOutcome) : m (List PlannedWikiWrite) :=
  planWikiWritesFrom crates document decisionDocumentPath timestamp lift existsAt readAt []
    (outcomes.filter fun outcome => outcome.selected = .yes)

end Vault

end Plan

/-- `plan_wiki_writes` in a vault that nobody changes meanwhile. -/
def planWikiWritesInVault (crates : Crates) (vault : VaultFiles)
    (document : ParsedDecisionDocument crates.Mapping) (decisionDocumentPath timestamp : String)
    (outcomes : List ZeroWriteOutcome) : Except ServiceError (List PlannedWikiWrite) :=
  planWikiWrites crates document decisionDocumentPath timestamp (m := Except ServiceError)
    (fun result => result) (fun path => .ok (vault.exactOrCaseInsensitiveExists path))
    (fun path => .ok (vault.read path)) outcomes

/-- `validate_decision_document_integrity(document, Some(root))`. -/
def validateInVault (crates : Crates) (vault : VaultFiles)
    (document : ParsedDecisionDocument crates.Mapping) :
    Except ServiceError DecisionDocumentIntegrity :=
  validateDecisionDocumentIntegrity crates (m := Except ServiceError) (fun result => result)
    (fun path => .ok (some (vault.pathExists path))) document

end Kuku.Knowledge
