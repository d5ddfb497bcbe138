/-
# Knowledge.Markdown -- ids, vault paths, and the files of memory items and wiki pages

The checks and normal forms of `markdown.rs`: knowledge ids and how they are made from
a title, vault-relative paths, source references, and the serializers of the two kinds
of output.  `validate_safe_vault_relative_path` decodes a path and returns the decoded
one, which its callers may or may not go on with.
-/
import Kuku.Knowledge.Crates

namespace Kuku.Knowledge

open Kuku.Theory Text

structure KnowledgeModelError where
  field : String
  message : String
  deriving DecidableEq

def maxIdBodyLen : Nat := 80
def maxSourcePathChars : Nat := 1024
def maxTitleChars : Nat := 160
def maxSectionPathEntries : Nat := 16
def maxSectionPathEntryChars : Nat := 120
def maxWikiPathChars : Nat := 1024

/-! ## Ids -/

def validIdBody : Chars → Bool
  | [] => false
  | first :: rest =>
    (first.isLower || first.isDigit) && decide ((first :: rest).length ≤ maxIdBodyLen) &&
      rest.all fun c => c.isLower || c.isDigit || c = '_'

def isValidKnowledgeId (value : String) : Bool :=
  match cut ['_'] value.toList with
  | none => false
  | some (kind, body) =>
    decide (String.ofList kind ∈ ["mem", "wiki", "prop", "change", "decision", "doc"]) &&
      validIdBody body

def stripKnownPrefix (value : Chars) : Chars :=
  (["mem_", "wiki_", "prop_", "change_", "decision_", "doc_"].findSome? fun known =>
    stripPrefix known.toList value).getD value

/-- The loop of `sanitize_id_body` and `slugify_title`: ASCII letters and digits in
lower case, and one separator for what stands between two of them. -/
def collapse (separator : Char) : (started lastWasSeparator : Bool) → Chars → Chars
  | _, _, [] => []
  | started, last, c :: rest =>
    if c.isAlphanum then asciiLowerChar c :: collapse separator true false rest
    else if !last && started then separator :: collapse separator started true rest
    else collapse separator started last rest

/-- Separators at the end are dropped, and an empty result is replaced. -/
def orElse (fallback : String) (separator : Char) (chars : Chars) : Chars :=
  match chars.rdropWhile (· = separator) with
  | [] => fallback.toList
  | body => body

def sanitizeIdBody (seed : String) : Chars :=
  (orElse "memory" '_' (collapse '_' false false (stripKnownPrefix seed.toList))).take maxIdBodyLen

def makeKnowledgeId (idKind : KnowledgeIdPrefix) (seed : String) : String :=
  idKind.asStr ++ "_" ++ String.ofList (sanitizeIdBody seed)

/-! ## Vault paths -/

def hexValue (value : UInt8) : Option UInt8 :=
  if 48 ≤ value ∧ value ≤ 57 then some (value - 48)
  else if 97 ≤ value ∧ value ≤ 102 then some (value - 97 + 10)
  else if 65 ≤ value ∧ value ≤ 70 then some (value - 65 + 10)
  else none

/-- The loop of `percent_decode_segment`. -/
def percentDecodeBytes : List UInt8 → Except String (List UInt8)
  | [] => .ok []
  | 37 :: high :: low :: rest => do
    let some h := hexValue high | .error "Malformed percent encoding"
    let some l := hexValue low | .error "Malformed percent encoding"
    let decoded := h <<< 4 ||| l
    if decoded = 47 ∨ decoded = 92 then .error "Percent-encoded separators are not allowed"
    return decoded :: (← percentDecodeBytes rest)
  | byte :: rest =>
    if byte = 37 then .error "Malformed percent encoding"
    else do return byte :: (← percentDecodeBytes rest)

def containsPercentEncoding (bytes : List UInt8) : Bool :=
  bytes.tails.any fun
    | 37 :: high :: low :: _ => (hexValue high).isSome && (hexValue low).isSome
    | _ => false

def percentDecodeSegment (value field : String) : Except KnowledgeModelError String := do
  let output ← (percentDecodeBytes (utf8 value)).mapError (KnowledgeModelError.mk field)
  let some decoded := decodeUtf8 output | .error ⟨field, "Invalid UTF-8"⟩
  if containsPercentEncoding output then
    .error ⟨field, "Repeated percent encoding is not allowed"⟩
  return String.ofList decoded

def asciiUpperChar (c : Char) : Char :=
  if 'a' ≤ c ∧ c ≤ 'z' then Char.ofNat (c.toNat - 32) else c

def isReservedFilename (value : String) : Bool :=
  decide (String.ofList (value.toList.map asciiUpperChar) ∈
    [".", "..", ".DS_STORE", "CON", "PRN", "AUX", "NUL", "COM1", "LPT1"])

/-- `char::is_control`: the Unicode category Cc. -/
def isControl (c : Char) : Bool := c.toNat < 32 || (127 ≤ c.toNat && c.toNat ≤ 159)

/-- A drive letter, a colon and a backslash. -/
def hasWindowsDrivePrefix : Chars → Bool
  | letter :: ':' :: '\\' :: _ => letter.isAlpha
  | _ => false

section Crates

variable (crates : Crates)

/-- One segment of a path, decoded and composed. -/
def normalizeSegment (raw field : String) : Except KnowledgeModelError String := do
  if raw = "" then .error ⟨field, "Path contains an empty segment"⟩
  let decoded ← percentDecodeSegment raw field
  let segment := crates.nfc decoded
  if segment = "." ∨ segment = ".." then .error ⟨field, "Path contains a dot segment"⟩
  if isReservedFilename segment then
    .error ⟨field, "Reserved filename is not allowed: " ++ segment⟩
  if segment.toList.any isControl then
    .error ⟨field, "Path contains NUL or control characters"⟩
  return segment

def validateSafeVaultRelativePath (value field : String) : Except KnowledgeModelError String := do
  let trimmed := trim value
  if trimmed = "" then .error ⟨field, "Path is empty"⟩
  if startsWith trimmed "/" ∨ startsWith trimmed "\\" ∨ hasWindowsDrivePrefix trimmed.toList then
    .error ⟨field, "Absolute paths are not allowed"⟩
  if trimmed.toList.any isControl then
    .error ⟨field, "Path contains NUL or control characters"⟩
  let segments ← ((trimmed.toList.splitOnP fun c => c = '/' ∨ c = '\\').map String.ofList).mapM
    fun raw => normalizeSegment crates raw field
  return join '/' segments

def validateWikiPagePath (value field : String) : Except KnowledgeModelError String := do
  let path ← validateSafeVaultRelativePath crates value field
  if path.toList.length > maxWikiPathChars then .error ⟨field, "Path is too long"⟩
  if !Text.startsWith path "Knowledge/wiki/" then
    .error ⟨field, "Wiki page path must be under Knowledge/wiki/"⟩
  if !Text.endsWith path ".md" then .error ⟨field, "Wiki page path must end with .md"⟩
  return path

/-! ## Fields -/

def validateNonEmptyLimited (value field : String) (maxChars : Nat) :
    Except KnowledgeModelError Unit := do
  if isBlank value then .error ⟨field, "Value is empty"⟩
  if value.toList.length > maxChars then .error ⟨field, "Value is too long"⟩

def isHexDigit (c : Char) : Bool := c.isDigit || ('a' ≤ c && c ≤ 'f') || ('A' ≤ c && c ≤ 'F')

def validateSha256Checksum (value field : String) : Except KnowledgeModelError Unit := do
  let some hex := stripPrefix "sha256:".toList value.toList
    | .error ⟨field, "Invalid checksum prefix"⟩
  if Chars.bytes hex ≠ 64 ∨ !hex.all isHexDigit then .error ⟨field, "Invalid checksum"⟩
  if hex.any Char.isUpper then .error ⟨field, "Checksum hex must be lowercase"⟩

def validateTimestamp (value field : String) : Except KnowledgeModelError Unit := do
  if !crates.isRfc3339 value then .error ⟨field, "Invalid timestamp"⟩
  if !Text.endsWith value "Z" ∨ value.toList.contains '.' then
    .error ⟨field, "Timestamp must be UTC seconds precision"⟩

/-! ## Source references -/

/-- A range is given by lines counted from 1. -/
def rangeIsValid (range : SourceRange) : Bool :=
  !(range.startLine = 0 ∨ range.endLine = 0 ∨ range.startLine > range.endLine)

def validateRange (value : Option SourceRange) : Except KnowledgeModelError Unit := do
  let some range := value | return ()
  if !rangeIsValid range then .error ⟨"source_refs.range", "Invalid source range"⟩

def validateSourceRef (sourceRef : SourceRef) : Except KnowledgeModelError Unit := do
  let path ← validateSafeVaultRelativePath crates sourceRef.path "source_refs.path"
  if path.toList.length > maxSourcePathChars then .error ⟨"source_refs.path", "Path is too long"⟩
  if let some title := sourceRef.title then
    validateNonEmptyLimited title "source_refs.title" maxTitleChars
  if let some entries := sourceRef.sectionPath then
    if entries.length > maxSectionPathEntries then
      .error ⟨"source_refs.section_path", "Too many section path entries"⟩
    entries.forM fun entry =>
      validateNonEmptyLimited entry "source_refs.section_path" maxSectionPathEntryChars
  validateRange sourceRef.range
  if let some checksum := sourceRef.checksum then
    validateSha256Checksum checksum "source_refs.checksum"
  validateTimestamp crates sourceRef.capturedAt "source_refs.captured_at"

/-! ## Memory items and wiki pages -/

/-- The tail of every serializer: no document marker in front, one newline at the end. -/
def canonicalYaml (yaml : Chars) : Chars :=
  let stripped := (stripPrefix "---\n".toList yaml).getD yaml
  if stripped.getLast? = some '\n' then stripped else stripped ++ ['\n']

def replaceCrLf : Chars → Chars
  | [] => []
  | '\r' :: '\n' :: rest => '\n' :: replaceCrLf rest
  | c :: rest => c :: replaceCrLf rest

def normalizeMarkdownBodyForSerialization (value : String) : Chars :=
  let unix := (replaceCrLf value.toList).map fun c => if c = '\r' then '\n' else c
  unix.rdropWhile (· = '\n') ++ ['\n']

def validatePrefixedModelId (value : String) (idKind : KnowledgeIdPrefix) (field : String) :
    Except KnowledgeModelError Unit :=
  match stripPrefix (idKind.asStr ++ "_").toList value.toList with
  | some body => if validIdBody body then .ok () else .error ⟨field, "Invalid Knowledge id"⟩
  | none => .error ⟨field, "Invalid Knowledge id"⟩

/-- The checks `validate_memory_item` and `validate_wiki_page` make after the fields that
only one of them has. -/
def validateOutputFields (tags : List String) (sourceRefs : List SourceRef)
    (createdAt updatedAt proposalId decisionDocument body : String) :
    Except KnowledgeModelError Unit := do
  tags.forM fun tag => validateNonEmptyLimited tag "tags" 40
  sourceRefs.forM (validateSourceRef crates)
  validateTimestamp crates createdAt "created_at"
  validateTimestamp crates updatedAt "updated_at"
  validatePrefixedModelId proposalId .proposal "proposal_id"
  let decisionDocument ← validateSafeVaultRelativePath crates decisionDocument "decision_document"
  if !Text.startsWith decisionDocument "Knowledge/decisions/" then
    .error ⟨"decision_document", "Decision document must be under Knowledge/decisions/"⟩
  if isBlank body then .error ⟨"body", "Body is empty"⟩

def validateMemoryItem (item : MemoryItem) : Except KnowledgeModelError Unit := do
  validatePrefixedModelId item.id .memory "id"
  if let some kind := item.kind then validateNonEmptyLimited kind "kind" 40
  validateNonEmptyLimited item.title "title" maxTitleChars
  validateOutputFields crates item.tags item.sourceRefs item.createdAt item.updatedAt
    item.proposalId item.decisionDocument item.body

def validateWikiPage (page : WikiPage) : Except KnowledgeModelError Unit := do
  validatePrefixedModelId page.id .wiki "id"
  validateNonEmptyLimited page.title "title" maxTitleChars
  validateOutputFields crates page.tags page.sourceRefs page.createdAt page.updatedAt
    page.proposalId page.decisionDocument page.body

def withFrontmatter (yaml body : Chars) : Chars :=
  "---\n".toList ++ yaml ++ "---\n".toList ++ body

def serializeMemoryItem (item : MemoryItem) : Except KnowledgeModelError Chars := do
  validateMemoryItem crates item
  let yaml ← (crates.memoryFrontmatter.toText item.toMemoryFrontmatter).mapError
    (KnowledgeModelError.mk "frontmatter")
  return withFrontmatter (canonicalYaml yaml) (normalizeMarkdownBodyForSerialization item.body)

def serializeWikiPage (page : WikiPage) : Except KnowledgeModelError Chars := do
  validateWikiPage crates page
  let yaml ← (crates.wikiFrontmatter.toText page.toWikiFrontmatter).mapError
    (KnowledgeModelError.mk "frontmatter")
  return withFrontmatter (canonicalYaml yaml) (normalizeMarkdownBodyForSerialization page.body)

def splitFrontmatter (markdown : Chars) : Except KnowledgeModelError (Chars × Chars) :=
  match stripPrefix "---\n".toList markdown with
  | none => .error ⟨"frontmatter", "Missing frontmatter"⟩
  | some rest =>
    match cut "\n---\n".toList rest with
    | none => .error ⟨"frontmatter", "Missing closing frontmatter marker"⟩
    | some parts => .ok parts

def parseWikiPage (markdown : Chars) : Except KnowledgeModelError WikiPage := do
  let (frontmatter, body) ← splitFrontmatter markdown
  let parsed ← (crates.wikiFrontmatter.ofText frontmatter).mapError
    (KnowledgeModelError.mk "frontmatter")
  let page : WikiPage := { parsed with body := String.ofList body }
  validateWikiPage crates page
  return page

end Crates

end Kuku.Knowledge
