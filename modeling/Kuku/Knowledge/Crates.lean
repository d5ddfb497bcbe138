/-
# Knowledge.Crates -- what files hold, and what other crates compute

A vault file holds a text, the JSON of an apply journal, or bytes that are no text.
`serde_json` writes and reads journals; a `Content` that is a journal is a file whose
bytes read back as that journal.

The rest of what the knowledge code calls outside the repository is a `Crates`: the
digest, the Unicode normal form, `chrono` and `serde_yaml`.  It is a parameter; what a
result relies on is a hypothesis of that result.
-/
import Kuku.Knowledge.Models

namespace Kuku.Knowledge

open Kuku.Theory

/-! ## The apply journal -/

inductive ApplyJournalState where
  | staged
  | finalized
  | documentSaved
  | cleanupRequired

structure JournalDecisionResult where
  decisionId : String
  targetChangeId : String
  selectedOptionId : DecisionOptionId
  status : String
  memoryPath : Option String
  wikiPath : Option String

/-- A `BTreeMap` from paths to checksums. -/
abbrev Checksums := List (String × String)

structure ApplyJournal where
  applyId : String
  docId : String
  proposalId : String
  decisionDocumentPath : String
  decisionDocumentChecksumBefore : String
  targetKind : String
  state : ApplyJournalState
  plannedMemoryPaths : List String
  plannedWikiPaths : List String
  createdPaths : List String
  updatedPaths : List String
  inflightPublishPath : Option String
  finalizedMemoryPaths : List String
  finalizedWikiPaths : List String
  memoryChecksums : Checksums
  wikiChecksums : Checksums
  wikiUpdateExpectedChecksums : Checksums
  decisionResults : List JournalDecisionResult
  createdAt : String
  updatedAt : String
  error : Option String

/-! ## Files -/

inductive Content where
  | text (chars : Chars)
  | journal (journal : ApplyJournal)
  | bytes (bytes : List UInt8)

/-! ## Other crates -/

/-- `serde_yaml::to_string` and `serde_yaml::from_str` at one type. -/
structure Codec (α : Type) where
  toText : α → Except String Chars
  ofText : Chars → Except String α

structure Crates where
  /-- `hex::encode(Sha256::digest(..))`. -/
  sha256 : Content → String
  /-- The bytes of a journal's JSON, which are a text. -/
  journalText : ApplyJournal → Chars
  /-- Normalization Form C. -/
  nfc : String → String
  /-- `chrono::DateTime::parse_from_rfc3339` succeeds. -/
  isRfc3339 : String → Bool
  /-- `to_rfc3339_opts(SecondsFormat::Secs, true)` of a time in nanoseconds. -/
  formatUtcTimestamp : Nat → String
  /-- `format("%Y-%m-%dT%H%M%SZ")` of a time in nanoseconds. -/
  formatPathTimestamp : Nat → String
  /-- `serde_yaml::Mapping`. -/
  Mapping : Type
  /-- `Mapping::insert` of a string under a string key. -/
  insert : Mapping → String → String → Mapping
  mapping : Codec Mapping
  frontmatter : Codec FrontmatterKnown
  memoryProposal : Codec MemoryProposalBlock
  wikiProposal : Codec WikiProposalBlock
  decision : Codec DecisionBlock
  memoryFrontmatter : Codec MemoryFrontmatter
  wikiFrontmatter : Codec WikiFrontmatter

namespace Crates

variable (crates : Crates)

/-- `sha256_checksum_bytes`. -/
def checksum (content : Content) : String := "sha256:" ++ crates.sha256 content

/-- The text of a file, if its bytes are UTF-8. -/
def textOf : Content → Option Chars
  | .text chars => some chars
  | .journal journal => some (crates.journalText journal)
  | .bytes _ => none

end Crates

/-- Texts that are composed already, and no YAML. -/
def composedCrates : Crates where
  sha256 _ := ""
  journalText _ := []
  nfc := id
  isRfc3339 _ := true
  formatUtcTimestamp _ := "2026-05-07T00:00:00Z"
  formatPathTimestamp _ := "2026-05-07T000000Z"
  Mapping := Unit
  insert _ _ _ := ()
  mapping := ⟨fun _ => .error "", fun _ => .error ""⟩
  frontmatter := ⟨fun _ => .error "", fun _ => .error ""⟩
  memoryProposal := ⟨fun _ => .error "", fun _ => .error ""⟩
  wikiProposal := ⟨fun _ => .error "", fun _ => .error ""⟩
  decision := ⟨fun _ => .error "", fun _ => .error ""⟩
  memoryFrontmatter := ⟨fun _ => .error "", fun _ => .error ""⟩
  wikiFrontmatter := ⟨fun _ => .error "", fun _ => .error ""⟩

end Kuku.Knowledge
