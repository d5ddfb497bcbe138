/-
# Knowledge.Models -- what proposals, decision documents and outputs are made of

The records that cross the knowledge services: the requests, the blocks of a
decision document, and the memory items and wiki pages an apply writes.  An
enumeration of the source that is only ever written to YAML keeps its constructors
and its `as_str`.

Texts that are scanned character by character (a document, a file) are lists of
characters, `Chars`; every other string is a `String`.
-/
import Kuku.Theory.Text

namespace Kuku.Knowledge

/-- A text as the list of its characters. -/
abbrev Chars := List Char

/-- The number of bytes of a text's UTF-8 encoding: `str::len`. -/
def Chars.bytes (chars : Chars) : Nat := (chars.map Char.utf8Size).sum

inductive KnowledgeIdPrefix where
  | memory
  | wiki
  | proposal
  | change
  | decision
  | document

def KnowledgeIdPrefix.asStr : KnowledgeIdPrefix → String
  | .memory => "mem"
  | .wiki => "wiki"
  | .proposal => "prop"
  | .change => "change"
  | .decision => "decision"
  | .document => "doc"

structure SourceRange where
  startLine : UInt32
  endLine : UInt32

structure SourceRef where
  path : String
  title : Option String
  sectionPath : Option (List String)
  range : Option SourceRange
  checksum : Option String
  capturedAt : String

/-! ## Requests -/

inductive DecisionOptionId where
  | yes
  | no
  | other
  deriving DecidableEq

inductive WikiPageType where
  | source
  | concept
  | entity
  | synthesis

/-- The name serde writes. -/
def WikiPageType.asStr : WikiPageType → String
  | .source => "source"
  | .concept => "concept"
  | .entity => "entity"
  | .synthesis => "synthesis"

/-! ## The blocks of a decision document -/

structure MemoryProposalMemory where
  id : String
  kind : Option String
  title : String
  tags : List String
  body : String
  sourceRefs : List SourceRef

structure MemoryProposalBlock where
  id : String
  operation : String
  memory : MemoryProposalMemory

structure WikiProposalPage where
  path : String
  expectedChecksum : Option String
  pageType : String
  title : String
  tags : List String
  body : String
  sourceRefs : List SourceRef

structure WikiProposalBlock where
  id : String
  operation : String
  page : WikiProposalPage

structure DecisionOptionBlock where
  id : String
  label : String
  requiresInput : Option Bool

structure DecisionBlock where
  id : String
  proposalId : String
  targetChangeId : String
  question : String
  selectionMode : String
  required : Bool
  status : String
  selectedOptionId : Option String
  options : List DecisionOptionBlock
  otherText : Option String
  resolvedAt : Option String

/-- The frontmatter fields the code knows: `FrontmatterKnown`, and the frontmatter a
new document is written with. -/
structure FrontmatterKnown where
  id : String
  proposalId : String
  targetKind : String
  requestSource : String
  status : String
  createdAt : String
  updatedAt : String
  sourceRefs : List SourceRef

/-! ## Outputs -/

/-- `MemoryStatus` and `WikiPageStatus`. -/
inductive OutputStatus where
  | active
  | archived
  | superseded

/-- A memory item's fields; the body stands below the frontmatter. -/
structure MemoryFrontmatter where
  id : String
  kind : Option String
  title : String
  status : OutputStatus
  tags : List String
  sourceRefs : List SourceRef
  createdAt : String
  updatedAt : String
  proposalId : String
  decisionDocument : String

structure MemoryItem extends MemoryFrontmatter where
  body : String

structure WikiFrontmatter where
  id : String
  pageType : WikiPageType
  title : String
  status : OutputStatus
  tags : List String
  sourceRefs : List SourceRef
  createdAt : String
  updatedAt : String
  proposalId : String
  decisionDocument : String

structure WikiPage extends WikiFrontmatter where
  body : String

end Kuku.Knowledge
