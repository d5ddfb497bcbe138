/-
# Sync.CommitSignature -- the bytes a device signs and the server verifies

A device signs the compact JSON of `CommitSignaturePayload` (`crypto.rs`) and sends
the same fields in the request.  The server parses the two ids, normalises the
request, and encodes its own record (`commit.go`); for a retry it encodes the row
it has stored.  Two encoders, two sorts, and a normalisation in between.

* `CommitSignaturePayload.new` and `canonicalJson` are the device's side.
* `publishCommitParams` and `jsonMarshal` complete the server's: the handler, and
  `encoding/json` in the place that `Server.PublishCommit` leaves open.
* `server_verifies_signed_bytes`: for ids of letters, digits, `_` and `-`, the
  server's bytes are the device's, from the request and again from the row.
* `empty_parent_differs`: the server drops an empty id from a list, the device signs
  it.
-/
import Kuku.Server.NormalParams
import Kuku.Server.Uuid

namespace Kuku.Server

open Kuku.Theory

def KukuSyncCommitKind.text : KukuSyncCommitKind → String
  | .incremental => "incremental"
  | .merge => "merge"
  | .checkpoint => "checkpoint"

/-- The fields of `commitSignaturePayload` under their JSON tags.  The slices are those of
the normalisers and of `TEXT[] NOT NULL` columns, which are never nil. -/
def CommitSignaturePayload.record (payload : CommitSignaturePayload) : Json.Record :=
  [("workspace_id", .text (uuidString payload.workspaceID)),
    ("commit_id", .text payload.commitID),
    ("commit_kind", .text payload.commitKind.text),
    ("expected_head_commit_id", .text payload.expectedHeadCommitID),
    ("parent_commit_ids", .texts payload.parentCommitIDs),
    ("author_device_id", .text (uuidString payload.authorDeviceID)),
    ("device_seq", .number payload.deviceSeq),
    ("body_object_id", .text payload.bodyObjectID),
    ("body_ciphertext_sha256", .text payload.bodyCiphertextSHA256),
    ("body_size_bytes", .number payload.bodySizeBytes),
    ("referenced_object_ids", .texts payload.referencedObjectIDs)]

/-- `json.Marshal` of the signed payload. -/
def jsonMarshal (payload : CommitSignaturePayload) : Bytes :=
  Json.encode Json.goEscape payload.record

/-- The request as it arrives. -/
structure PublishCommitRequest where
  workspaceId : String
  commitId : String
  commitKind : SyncCommitKind
  expectedHeadCommitId : String
  parentCommitIds : List String
  authorDeviceId : String
  deviceSeq : Int
  bodyObjectId : String
  bodyCiphertextSha256 : String
  bodySizeBytes : Int
  referencedObjectIds : List String
  signature : Bytes

/-- The handler `PublishCommit` up to the call of the service. -/
def publishCommitParams (request : PublishCommitRequest) :
    Except SyncError PublishCommitParams :=
  match parseUUID request.workspaceId with
  | none => .error .invalidArgument
  | some workspaceID =>
    match parseUUID request.authorDeviceId with
    | none => .error .invalidArgument
    | some authorDeviceID => .ok
        { workspaceID
          commitID := request.commitId
          commitKind := request.commitKind
          expectedHeadCommitID := request.expectedHeadCommitId
          parentCommitIDs := request.parentCommitIds
          authorDeviceID
          deviceSeq := request.deviceSeq
          bodyObjectID := request.bodyObjectId
          bodyCiphertextSHA256 := request.bodyCiphertextSha256
          bodySizeBytes := request.bodySizeBytes
          referencedObjectIDs := request.referencedObjectIds
          signature := request.signature }

end Kuku.Server

namespace Kuku.Sync

open Kuku.Theory

abbrev Bytes := Server.Bytes

/-- `planner.rs`. -/
inductive CommitPlanKind where
  | checkpoint
  | incremental
  | merge

def protoCommitKind : CommitPlanKind → Server.SyncCommitKind
  | .checkpoint => .checkpoint
  | .incremental => .incremental
  | .merge => .merge

def commitKindLabel : CommitPlanKind → String
  | .checkpoint => "checkpoint"
  | .incremental => "incremental"
  | .merge => "merge"

structure CommitSignaturePayload where
  workspaceId : String
  commitId : String
  commitKind : String
  expectedHeadCommitId : String
  parentCommitIds : List String
  authorDeviceId : String
  deviceSeq : Int
  bodyObjectId : String
  bodyCiphertextSha256 : String
  bodySizeBytes : Int
  referencedObjectIds : List String

namespace CommitSignaturePayload

def new (workspaceId commitId commitKind expectedHeadCommitId : String)
    (parentCommitIds : List String) (authorDeviceId : String) (deviceSeq : Int)
    (bodyObjectId bodyCiphertextSha256 : String) (bodySizeBytes : Int)
    (referencedObjectIds : List String) : CommitSignaturePayload where
  workspaceId
  commitId
  commitKind
  expectedHeadCommitId
  parentCommitIds
  authorDeviceId
  deviceSeq
  bodyObjectId
  bodyCiphertextSha256
  bodySizeBytes
  referencedObjectIds := referencedObjectIds.mergeSort (· ≤ ·)

/-- The fields `Serialize` is derived for, in their order. -/
def record (payload : CommitSignaturePayload) : Json.Record :=
  [("workspace_id", .text payload.workspaceId),
    ("commit_id", .text payload.commitId),
    ("commit_kind", .text payload.commitKind),
    ("expected_head_commit_id", .text payload.expectedHeadCommitId),
    ("parent_commit_ids", .texts payload.parentCommitIds),
    ("author_device_id", .text payload.authorDeviceId),
    ("device_seq", .number payload.deviceSeq),
    ("body_object_id", .text payload.bodyObjectId),
    ("body_ciphertext_sha256", .text payload.bodyCiphertextSha256),
    ("body_size_bytes", .number payload.bodySizeBytes),
    ("referenced_object_ids", .texts payload.referencedObjectIds)]

end CommitSignaturePayload

/-- `canonical_json` of the signed payload. -/
def canonicalJson (payload : CommitSignaturePayload) : Bytes :=
  Json.encode Json.serdeEscape payload.record

/-- What a push has at hand when it signs and publishes. -/
structure SignedCommit where
  workspaceId : String
  commitId : String
  planKind : CommitPlanKind
  expectedHead : String
  parents : List String
  deviceId : String
  deviceSeq : Int
  bodyObjectId : String
  ciphertextSha256 : String
  sizeBytes : Int
  referencedObjectIds : List String

namespace SignedCommit

/-- The payload the push signs. -/
def payload (commit : SignedCommit) : CommitSignaturePayload :=
  .new commit.workspaceId commit.commitId (commitKindLabel commit.planKind) commit.expectedHead
    commit.parents commit.deviceId commit.deviceSeq commit.bodyObjectId commit.ciphertextSha256
    commit.sizeBytes commit.referencedObjectIds

/-- The request the push sends. -/
def request (commit : SignedCommit) (signature : Bytes) : Server.PublishCommitRequest where
  workspaceId := commit.workspaceId
  commitId := commit.commitId
  commitKind := protoCommitKind commit.planKind
  expectedHeadCommitId := commit.expectedHead
  parentCommitIds := commit.parents
  authorDeviceId := commit.deviceId
  deviceSeq := commit.deviceSeq
  bodyObjectId := commit.bodyObjectId
  bodyCiphertextSha256 := commit.ciphertextSha256
  bodySizeBytes := commit.sizeBytes
  referencedObjectIds := commit.referencedObjectIds
  signature

/-- The parameters the handler makes of the request once it has read the two ids. -/
def params (commit : SignedCommit) (workspaceID deviceID : Server.Uuid) (signature : Bytes) :
    Server.PublishCommitParams where
  workspaceID
  commitID := commit.commitId
  commitKind := protoCommitKind commit.planKind
  expectedHeadCommitID := commit.expectedHead
  parentCommitIDs := commit.parents
  authorDeviceID := deviceID
  deviceSeq := commit.deviceSeq
  bodyObjectID := commit.bodyObjectId
  bodyCiphertextSHA256 := commit.ciphertextSha256
  bodySizeBytes := commit.sizeBytes
  referencedObjectIDs := commit.referencedObjectIds
  signature

end SignedCommit

/-! ## Texts that both sides leave as they are -/

/-- ASCII letters and digits, `-` and `_`. -/
def isIdChar (c : Char) : Bool :=
  let n := c.toNat
  (48 ≤ n && n ≤ 57) || (65 ≤ n && n ≤ 90) || (97 ≤ n && n ≤ 122) || n == 45 || n == 95

def isIdText (s : String) : Bool := s.toList.all isIdChar

/-- Lower-case hexadecimal digits. -/
def isLowerHex (s : String) : Bool :=
  s.toList.all fun c => (48 ≤ c.toNat && c.toNat ≤ 57) || (97 ≤ c.toNat && c.toNat ≤ 102)

section IdText

variable {c : Char} {s : String}

theorem isSpace_of_isIdChar (isId : isIdChar c = true) : Text.isSpace c = false := by
  simp only [isIdChar, Bool.or_eq_true, Bool.and_eq_true, decide_eq_true_eq, beq_iff_eq] at isId
  simp only [Text.isSpace, Bool.or_eq_false_iff, Bool.and_eq_false_iff, decide_eq_false_iff_not,
    beq_eq_false_iff_ne]
  omega

theorem goEscape_of_isIdChar (isId : isIdChar c = true) : Json.goEscape c = Json.serdeEscape c := by
  have plain : ¬ (c = '<' ∨ c = '>' ∨ c = '&' ∨ c.toNat = 0x2028 ∨ c.toNat = 0x2029) := by
    rintro (rfl | rfl | rfl | far | far)
    · cases isId
    · cases isId
    · cases isId
    · simp [isIdChar, far] at isId
    · simp [isIdChar, far] at isId
  rw [Json.goEscape, if_neg plain]

theorem isIdChar_of_mem (isId : isIdText s = true) (member : c ∈ s.toList) : isIdChar c = true :=
  List.all_eq_true.mp isId c member

theorem trim_idText (isId : isIdText s = true) : Text.trim s = s :=
  Text.trim_eq_self fun _ member => isSpace_of_isIdChar (isIdChar_of_mem isId member)

theorem isIdText_of_isLowerHex (isHex : isLowerHex s = true) : isIdText s = true := by
  apply List.all_eq_true.mpr
  intro c member
  have isDigit := List.all_eq_true.mp isHex c member
  simp only [Bool.or_eq_true, Bool.and_eq_true, decide_eq_true_eq] at isDigit
  simp only [isIdChar, Bool.or_eq_true, Bool.and_eq_true, decide_eq_true_eq, beq_iff_eq]
  omega

theorem asciiLower_lowerHex (isHex : isLowerHex s = true) : Text.asciiLower s = s :=
  Server.asciiLower_of_isDigestChar (List.all_eq_true.mp isHex)

theorem isIdText_uuidString (id : Server.Uuid) : isIdText (Server.uuidString id) = true := by
  have all : ∀ d : Fin 16, isIdChar (Json.hexDigit d) = true := by decide
  apply List.all_eq_true.mpr
  intro c member
  rcases Server.uuidString_char member with rfl | ⟨d, rfl⟩
  · rfl
  · exact all d

/-- A list of ids that are no empty texts is left as it is. -/
theorem normalizeIDsPreserveOrder_ids {ids : List String}
    (areIds : ∀ id ∈ ids, isIdText id = true) (named : ∀ id ∈ ids, id ≠ "") :
    Server.normalizeIDsPreserveOrder ids = ids := by
  have trimmed : ids.map Text.trim = ids := by
    conv_rhs => rw [← List.map_id ids]
    exact List.map_congr_left fun id member => trim_idText (areIds id member)
  rw [Server.normalizeIDsPreserveOrder, trimmed]
  exact List.filter_eq_self.mpr fun id member => decide_eq_true (named id member)

/-- Both sides sort the same way. -/
theorem normalizeIDsSorted_ids {ids : List String} (areIds : ∀ id ∈ ids, isIdText id = true)
    (named : ∀ id ∈ ids, id ≠ "") :
    Server.normalizeIDsSorted ids = ids.mergeSort (· ≤ ·) := by
  rw [Server.normalizeIDsSorted, normalizeIDsPreserveOrder_ids areIds named,
    List.mergeSort_eq_insertionSort]

end IdText

/-! ## The same bytes -/

/-- A request that is accepted is trimmed, lowered, freed of empty ids and sorted. -/
theorem normalizePublishCommitParams_eq {params normalized : Server.PublishCommitParams}
    (accepted : Server.normalizePublishCommitParams params = .ok normalized) :
    normalized = { params with
      commitID := Text.trim params.commitID
      expectedHeadCommitID := Text.trim params.expectedHeadCommitID
      bodyObjectID := Text.trim params.bodyObjectID
      bodyCiphertextSHA256 := Text.asciiLower (Text.trim params.bodyCiphertextSHA256)
      parentCommitIDs := Server.normalizeIDsPreserveOrder params.parentCommitIDs
      referencedObjectIDs := Server.normalizeIDsSorted params.referencedObjectIDs } := by
  unfold Server.normalizePublishCommitParams at accepted
  simp only [bind, Except.bind, pure, Except.pure, throw, throwThe, MonadExceptOf.throw] at accepted
  repeat' split at accepted
  all_goals cases accepted
  rfl

namespace SignedCommit

/-- The texts of a commit as the clients make them: ids of letters, digits, `_` and `-`,
UUIDs in their canonical form, and a digest in lower-case hexadecimal. -/
structure Plain (commit : SignedCommit) : Prop where
  workspaceId : ∃ id, commit.workspaceId = Server.uuidString id
  deviceId : ∃ id, commit.deviceId = Server.uuidString id
  commitId : isIdText commit.commitId = true
  expectedHead : isIdText commit.expectedHead = true
  bodyObjectId : isIdText commit.bodyObjectId = true
  ciphertextSha256 : isLowerHex commit.ciphertextSha256 = true
  parents : ∀ id ∈ commit.parents, isIdText id = true
  referencedObjectIds : ∀ id ∈ commit.referencedObjectIds, isIdText id = true

variable {commit : SignedCommit}

/-- The two encoders agree on the payload of a plain commit. -/
theorem Plain.escapes (plain : commit.Plain) :
    Json.encode Json.goEscape commit.payload.record = canonicalJson commit.payload := by
  have idText : ∀ {s : String}, isIdText s = true → ∀ c ∈ s.toList,
      Json.goEscape c = Json.serdeEscape c :=
    fun isId c member => goEscape_of_isIdChar (isIdChar_of_mem isId member)
  have label : isIdText (commitKindLabel commit.planKind) = true := by
    cases commit.planKind <;> decide
  have lists : ∀ {ids : List String}, (∀ id ∈ ids, isIdText id = true) →
      ∀ c ∈ ids.flatMap String.toList, Json.goEscape c = Json.serdeEscape c := by
    intro ids areIds c member
    obtain ⟨id, inList, isChar⟩ := List.mem_flatMap.mp member
    exact idText (areIds id inList) c isChar
  have uuids : ∀ {s : String}, (∃ id, s = Server.uuidString id) → isIdText s = true := by
    rintro _ ⟨id, rfl⟩
    exact isIdText_uuidString id
  apply Json.encode_congr
  · intro entry member
    apply idText
    simp only [CommitSignaturePayload.record, List.mem_cons, List.not_mem_nil, or_false] at member
    rcases member with rfl | rfl | rfl | rfl | rfl | rfl | rfl | rfl | rfl | rfl | rfl <;>
      dsimp only <;> decide
  · intro entry member
    simp only [CommitSignaturePayload.record, List.mem_cons, List.not_mem_nil, or_false] at member
    rcases member with rfl | rfl | rfl | rfl | rfl | rfl | rfl | rfl | rfl | rfl | rfl
    · exact idText (uuids plain.workspaceId)
    · exact idText plain.commitId
    · exact idText label
    · exact idText plain.expectedHead
    · exact lists plain.parents
    · exact idText (uuids plain.deviceId)
    · exact fun c absent => nomatch absent
    · exact idText plain.bodyObjectId
    · exact idText (isIdText_of_isLowerHex plain.ciphertextSha256)
    · exact fun c absent => nomatch absent
    · refine lists fun id member => plain.referencedObjectIds id ?_
      exact List.mem_mergeSort.mp member

theorem Plain.handled (plain : commit.Plain) {signature : Bytes}
    {params : Server.PublishCommitParams}
    (handled : Server.publishCommitParams (commit.request signature) = .ok params) :
    ∃ workspaceID deviceID, Server.uuidString workspaceID = commit.workspaceId ∧
      Server.uuidString deviceID = commit.deviceId ∧
      params = commit.params workspaceID deviceID signature := by
  have readBack : ∀ {s : String} {id : Server.Uuid}, (∃ id, s = Server.uuidString id) →
      Server.parseUUID s = some id → Server.uuidString id = s := by
    rintro _ id ⟨original, rfl⟩ parsed
    have notNil : original ≠ Server.Uuid.nil := by
      rintro rfl
      have none : Server.parseUUID (Server.uuidString Server.Uuid.nil) = none := by
        rw [Server.parseUUID, Text.trim_eq_self fun c member => (Server.uuidString_ascii member).2,
          Server.uuidParse_uuidString]
        simp
      rw [none] at parsed
      cases parsed
    rw [Server.parseUUID_uuidString notNil] at parsed
    cases parsed
    rfl
  simp only [Server.publishCommitParams] at handled
  split at handled
  · cases handled
  · rename_i workspaceID isWorkspace
    split at handled
    · cases handled
    · rename_i deviceID isDevice
      cases handled
      exact ⟨workspaceID, deviceID, readBack plain.workspaceId isWorkspace,
        readBack plain.deviceId isDevice, rfl⟩

/-- **The server verifies the bytes the device signed.**  For every plain commit whose lists
have no empty id, in any order and with any integers, the service's payload of a request it
accepts is the device's, and so is the payload it computes from the row it stores. -/
theorem server_verifies_signed_bytes (plain : commit.Plain)
    (named : ∀ id ∈ commit.parents ++ commit.referencedObjectIds, id ≠ "")
    {verify : Bytes → Bytes → Bytes → Bool} {signature : Bytes}
    {params normalized : Server.PublishCommitParams}
    (handled : Server.publishCommitParams (commit.request signature) = .ok params)
    (accepted : Server.normalizePublishCommitParams params = .ok normalized) :
    Server.canonicalCommitPayload ⟨verify, Server.jsonMarshal⟩ normalized =
        .ok (canonicalJson commit.payload) ∧
      ∀ kind serverSeq, Server.commitKindToSQL normalized.commitKind = .ok kind →
        Server.canonicalCommitPayloadFromSQL ⟨verify, Server.jsonMarshal⟩
            (Server.newSyncCommit normalized kind serverSeq) =
          .ok (canonicalJson commit.payload) := by
  have named := List.forall_mem_append.mp named
  have isDigest := isIdText_of_isLowerHex plain.ciphertextSha256
  have sorted := normalizeIDsSorted_ids plain.referencedObjectIds named.2
  have sortedAgain : Server.normalizeIDsSorted (commit.referencedObjectIds.mergeSort (· ≤ ·)) =
      commit.referencedObjectIds.mergeSort (· ≤ ·) := by
    rw [normalizeIDsSorted_ids
      (fun id member => plain.referencedObjectIds id (List.mem_mergeSort.mp member))
      (fun id member => named.2 id (List.mem_mergeSort.mp member))]
    exact List.mergeSort_eq_self _ (List.pairwise_mergeSort' _ _)
  obtain ⟨workspaceID, deviceID, isWorkspace, isDevice, rfl⟩ := plain.handled handled
  have isNormal := normalizePublishCommitParams_eq accepted
  simp only [params, trim_idText plain.commitId, trim_idText plain.expectedHead,
    trim_idText plain.bodyObjectId, trim_idText isDigest,
    asciiLower_lowerHex plain.ciphertextSha256,
    normalizeIDsPreserveOrder_ids plain.parents named.1, sorted] at isNormal
  subst isNormal
  have kindOk : ∃ kind, Server.commitKindToSQL (protoCommitKind commit.planKind) = .ok kind ∧
      kind.text = commitKindLabel commit.planKind ∧
      Server.commitKindToProto kind = protoCommitKind commit.planKind := by
    cases commit.planKind
    · exact ⟨.checkpoint, rfl, rfl, rfl⟩
    · exact ⟨.incremental, rfl, rfl, rfl⟩
    · exact ⟨.merge, rfl, rfl, rfl⟩
  obtain ⟨kind, isKind, isLabel, isProto⟩ := kindOk
  have encodes : Server.canonicalCommitPayload ⟨verify, Server.jsonMarshal⟩
      { commit.params workspaceID deviceID signature with
        referencedObjectIDs := commit.referencedObjectIds.mergeSort (· ≤ ·) } =
      .ok (canonicalJson commit.payload) := by
    rw [← plain.escapes]
    simp only [Server.canonicalCommitPayload, params, isKind, bind, Except.bind, pure, Except.pure,
      Server.jsonMarshal, Server.CommitSignaturePayload.record, isWorkspace, isDevice, isLabel]
    rfl
  refine ⟨encodes, ?_⟩
  intro kind' serverSeq isKind'
  rw [isKind] at isKind'
  cases isKind'
  have isHead : Server.textValue (Server.text commit.expectedHead) = commit.expectedHead := by
    rw [Server.text]
    split
    · rename_i isEmpty
      exact isEmpty.symm
    · rfl
  simp only [Server.canonicalCommitPayloadFromSQL, Server.newSyncCommit, isHead, isProto,
    sortedAgain]
  exact encodes

/-- A first commit with two packs. -/
def sample : SignedCommit where
  workspaceId := Server.uuidString 1
  commitId := "commit_1"
  planKind := .checkpoint
  expectedHead := ""
  parents := []
  deviceId := Server.uuidString 2
  deviceSeq := 1
  bodyObjectId := "obj_body"
  ciphertextSha256 := String.ofList (List.replicate 64 'a')
  sizeBytes := 9
  referencedObjectIds := ["obj_b", "obj_a"]

def anySignature : Bytes := List.replicate Server.signatureSize 0

theorem isDigest_sample : Server.IsDigest sample.ciphertextSha256 :=
  Server.isDigest_of_text rfl (by decide) rfl

theorem sample_plain : sample.Plain where
  workspaceId := ⟨_, rfl⟩
  deviceId := ⟨_, rfl⟩
  commitId := by decide
  expectedHead := by decide
  bodyObjectId := by decide
  ciphertextSha256 := List.all_eq_true.mpr isDigest_sample.digits
  parents := by decide
  referencedObjectIds := by decide

theorem handled_of_ids {commit : SignedCommit} (isWorkspace : commit.workspaceId = Server.uuidString 1)
    (isDevice : commit.deviceId = Server.uuidString 2) :
    Server.publishCommitParams (commit.request anySignature) =
      .ok (commit.params 1 2 anySignature) := by
  have first : Server.parseUUID (Server.uuidString 1) = some 1 :=
    Server.parseUUID_uuidString (by decide)
  have second : Server.parseUUID (Server.uuidString 2) = some 2 :=
    Server.parseUUID_uuidString (by decide)
  simp only [Server.publishCommitParams, request, isWorkspace, isDevice, first, second]
  rfl

theorem sample_bytes :
    ∃ normalized, Server.normalizePublishCommitParams (sample.params 1 2 anySignature) =
        .ok normalized ∧
      Server.canonicalCommitPayload ⟨fun _ _ _ => true, Server.jsonMarshal⟩ normalized =
        .ok (canonicalJson sample.payload) := by
  have isTrimmed : (sample.params 1 2 anySignature).IsTrimmed :=
    { commitID := by decide
      expectedHeadCommitID := by decide
      bodyObjectID := by decide
      bodyCiphertextSHA256 := isDigest_sample
      named := by decide
      commitKind := rfl
      parentsDiffer := rfl
      referencesDiffer := by decide
      bodyNotReferenced := by decide }
  exact ⟨_, isTrimmed.normalize_eq, (server_verifies_signed_bytes sample_plain (by decide)
    (handled_of_ids rfl rfl) isTrimmed.normalize_eq).1⟩

def emptyParent : SignedCommit :=
  { sample with planKind := .incremental, parents := [""], referencedObjectIds := [] }

/-- The device signs an empty parent, the server drops it: the bytes differ. -/
theorem empty_parent_differs :
    emptyParent.Plain ∧
    ∃ params normalized,
      Server.publishCommitParams (emptyParent.request anySignature) = .ok params ∧
      Server.normalizePublishCommitParams params = .ok normalized ∧
      Server.canonicalCommitPayload ⟨fun _ _ _ => true, Server.jsonMarshal⟩ normalized ≠
        .ok (canonicalJson emptyParent.payload) := by
  have plain : emptyParent.Plain :=
    { sample_plain with
      parents := by decide
      referencedObjectIds := by decide }
  have isTrimmed : (emptyParent.params 1 2 anySignature).IsTrimmed :=
    { commitID := by decide
      expectedHeadCommitID := by decide
      bodyObjectID := by decide
      bodyCiphertextSHA256 := isDigest_sample
      named := by decide
      commitKind := rfl
      parentsDiffer := by decide
      referencesDiffer := rfl
      bodyNotReferenced := by decide }
  refine ⟨plain, _, _, handled_of_ids rfl rfl, isTrimmed.normalize_eq, ?_⟩
  have isPayload : emptyParent.payload =
      ⟨Server.uuidString 1, "commit_1", "incremental", "", [""], Server.uuidString 2, 1,
        "obj_body", String.ofList (List.replicate 64 'a'), 9, []⟩ := by
    simp [payload, emptyParent, sample, CommitSignaturePayload.new, commitKindLabel]
  rw [isPayload]
  intro same
  have lengths := congrArg (fun bytes => bytes.toOption.map List.length) same
  simp only [Server.canonicalCommitPayload, params, emptyParent, sample, protoCommitKind,
    Server.commitKindToSQL, Server.jsonMarshal, canonicalJson, Json.encode, Text.utf8,
    CommitSignaturePayload.record, Server.CommitSignaturePayload.record, Json.field, Json.value,
    Json.quoted, Server.uuidString, String.toList_ofList, List.map_cons, List.map_nil] at lengths
  revert lengths
  decide +kernel

end SignedCommit

end Kuku.Sync
