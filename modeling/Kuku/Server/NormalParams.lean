/-
# Server.NormalParams -- requests that are in their normal form already

Trimming and lowering leave an id without white space and a digest of 64 lower-case
hexadecimal digits as they are, so a request made of them is its own normal form, and a
publish that begins with it goes on with it.
-/
import Kuku.Server.PublishInterleaving
import Kuku.Theory.Utf8

namespace Kuku.Server

open Kuku.Theory List Bool Text

/-! ## Digests -/

/-- A digit of a SHA-256 in lower-case hexadecimal. -/
def isDigestChar (c : Char) : Bool :=
  (48 ≤ c.toNat && c.toNat ≤ 57) || (97 ≤ c.toNat && c.toNat ≤ 102)

structure IsDigest (s : String) : Prop where
  digits : ∀ c ∈ s.toList, isDigestChar c = true
  length : s.toList.length = 64

section Digest

variable {c : Char} {s : String}

variable (isDigit : isDigestChar c = true)

include isDigit

theorem isSpace_of_isDigestChar : isSpace c = false := by
  simp only [isDigestChar, or_eq_true, and_eq_true, decide_eq_true_eq] at isDigit
  simp only [isSpace, or_eq_false_iff, and_eq_false_iff, decide_eq_false_iff_not,
    beq_eq_false_iff_ne]
  omega

theorem asciiLowerChar_of_isDigestChar : asciiLowerChar c = c := by
  simp only [isDigestChar, or_eq_true, and_eq_true, decide_eq_true_eq] at isDigit
  have notUpper : ¬ ('A' ≤ c ∧ c ≤ 'Z') := by
    rintro ⟨low, high⟩
    have low : 65 ≤ c.toNat := low
    have high : c.toNat ≤ 90 := high
    omega
  rw [asciiLowerChar, if_neg notUpper]

theorem isHexDigit_of_isDigestChar : isHexDigit c = true := by
  simp only [isDigestChar, or_eq_true, and_eq_true, decide_eq_true_eq] at isDigit
  have digit : ('0' ≤ c ∧ c ≤ '9') ∨ ('a' ≤ c ∧ c ≤ 'f') := isDigit
  simp only [isHexDigit, or_eq_true, and_eq_true, decide_eq_true_eq]
  exact .inl digit

theorem isAscii_of_isDigestChar : isAscii c = true := by
  simp only [isDigestChar, or_eq_true, and_eq_true, decide_eq_true_eq] at isDigit
  rw [isAscii, decide_eq_true_eq]
  omega

omit isDigit

theorem asciiLower_of_isDigestChar (digits : ∀ c ∈ s.toList, isDigestChar c = true) :
    asciiLower s = s := by
  have keeps : s.toList.map asciiLowerChar = s.toList := by
    conv_rhs => rw [← map_id s.toList]
    apply map_congr_left
    intro c member
    exact asciiLowerChar_of_isDigestChar (digits c member)
  rw [asciiLower, keeps, String.ofList_toList]

/-- A literal is looked at as the list of its characters. -/
theorem isDigest_of_text {cs : List Char} (isText : s = String.ofList cs)
    (digits : cs.all isDigestChar = true) (length : cs.length = 64) : IsDigest s := by
  subst isText
  exact ⟨by rwa [String.toList_ofList, ← all_eq_true], by rwa [String.toList_ofList]⟩

theorem isDigest_of_halves {first later : String} {cs cs' : List Char}
    (isFirst : first = String.ofList cs) (isLater : later = String.ofList cs')
    (digits : (cs ++ cs').all isDigestChar = true) (length : (cs ++ cs').length = 64) :
    IsDigest (first ++ later) := by
  refine isDigest_of_text ?_ digits length
  rw [isFirst, isLater, String.ofList_append]

namespace IsDigest

variable (isDigest : IsDigest s)
include isDigest

theorem trim_eq : trim s = s :=
  trim_eq_self fun c member => isSpace_of_isDigestChar (isDigest.digits c member)

theorem asciiLower_eq : asciiLower s = s := asciiLower_of_isDigestChar isDigest.digits

theorem utf8_length : (utf8 s).length = 64 := by
  rw [utf8_of_isAscii fun c member =>
    isAscii_of_isDigestChar (isDigest.digits c member), length_map, isDigest.length]

theorem isHex_eq : isHex s = true := by
  rw [isHex, isDigest.length, and_eq_true]
  exact ⟨rfl, all_eq_true.mpr fun c member =>
    isHexDigit_of_isDigestChar (isDigest.digits c member)⟩

end IsDigest

end Digest

/-! ## Requests -/

/-- A request of which `normalizePublishCommitParams` changes the two lists of ids only. -/
structure PublishCommitParams.IsTrimmed (params : PublishCommitParams) : Prop where
  commitID : trim params.commitID = params.commitID
  expectedHeadCommitID : trim params.expectedHeadCommitID = params.expectedHeadCommitID
  bodyObjectID : trim params.bodyObjectID = params.bodyObjectID
  bodyCiphertextSHA256 : IsDigest params.bodyCiphertextSHA256
  named : ¬ (params.workspaceID = Uuid.nil ∨ params.commitID = "" ∨
    params.authorDeviceID = Uuid.nil ∨ params.bodyObjectID = "" ∨
    params.deviceSeq ≤ 0 ∨ params.bodySizeBytes ≤ 0 ∨ params.signature.length ≠ signatureSize)
  commitKind : (commitKindToSQL params.commitKind).isOk = true
  parentsDiffer : hasDuplicate (normalizeIDsPreserveOrder params.parentCommitIDs) = false
  referencesDiffer : hasDuplicate (normalizeIDsSorted params.referencedObjectIDs) = false
  bodyNotReferenced : params.bodyObjectID ∉ normalizeIDsSorted params.referencedObjectIDs

/-- A request that `normalizePublishCommitParams` leaves as it is. -/
structure PublishCommitParams.IsNormal (params : PublishCommitParams) : Prop
    extends params.IsTrimmed where
  parentCommitIDs : normalizeIDsPreserveOrder params.parentCommitIDs = params.parentCommitIDs
  referencedObjectIDs : normalizeIDsSorted params.referencedObjectIDs = params.referencedObjectIDs

theorem PublishCommitParams.IsTrimmed.normalize_eq {params : PublishCommitParams}
    (isTrimmed : params.IsTrimmed) :
    normalizePublishCommitParams params =
      .ok { params with
        parentCommitIDs := normalizeIDsPreserveOrder params.parentCommitIDs
        referencedObjectIDs := normalizeIDsSorted params.referencedObjectIDs } := by
  obtain ⟨kind, isKind⟩ : ∃ kind, commitKindToSQL params.commitKind = .ok kind := by
    have known := isTrimmed.commitKind
    cases converted : commitKindToSQL params.commitKind with
    | error error =>
      rw [converted] at known
      cases known
    | ok kind => exact ⟨kind, rfl⟩
  have digest := isTrimmed.bodyCiphertextSHA256
  simp only [normalizePublishCommitParams, isTrimmed.commitID, isTrimmed.expectedHeadCommitID,
    isTrimmed.bodyObjectID, digest.trim_eq, digest.asciiLower_eq, if_neg isTrimmed.named, isKind,
    digest.utf8_length, digest.isHex_eq, isTrimmed.parentsDiffer, isTrimmed.referencesDiffer,
    isTrimmed.bodyNotReferenced, bind, Except.bind, pure, Except.pure]
  rfl

namespace PublishCommitParams.IsNormal

variable {params : PublishCommitParams} (isNormal : params.IsNormal)
include isNormal

theorem normalize_eq : normalizePublishCommitParams params = .ok params := by
  rw [isNormal.toIsTrimmed.normalize_eq, isNormal.parentCommitIDs, isNormal.referencedObjectIDs]

/-- A publish begins with the normal request. -/
theorem begin_eq (svc : Service) (s : State) (sid : Nat) (userID : Uuid) :
    s.begin svc sid userID params =
      match canonicalCommitPayload svc params with
      | .error e => { s with results := Function.update s.results sid (some (.error e)) }
      | .ok canonicalPayload =>
        { s with
          sessions := Function.update s.sessions sid
            (some { userID, params, canonicalPayload, stage := .authorize, writes := [] }) } := by
  simp only [State.begin, isNormal.normalize_eq, bind, Except.bind]
  cases canonicalCommitPayload svc params with
  | error e => rfl
  | ok canonicalPayload => rfl

/-- A run goes on from there. -/
theorem run_begin (svc : Service) (s : State) (sid : Nat) (userID : Uuid) (labels : List Label) :
    System.run (State.next svc) s (.begin sid userID params :: labels) =
      if (s.sessions sid).isSome then none
      else System.run (State.next svc)
        (match canonicalCommitPayload svc params with
        | .error e => { s with results := Function.update s.results sid (some (.error e)) }
        | .ok canonicalPayload =>
          { s with
            sessions := Function.update s.sessions sid
              (some { userID, params, canonicalPayload, stage := .authorize, writes := [] }) })
        labels := by
  rw [System.run, State.next, isNormal.begin_eq]
  split_ifs with busy
  · rfl
  · rfl

end PublishCommitParams.IsNormal

end Kuku.Server
