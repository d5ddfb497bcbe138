/-
# Sync.Blob -- the frame of an encrypted object

An encrypted object is thirteen bytes of magic, a version, an algorithm, the length of the
nonce, the nonce, the hash of the associated data and what the cipher has made
(`encrypt_blob_with_nonce`, `parse_blob` of `crypto.rs`).  A slice that reaches beyond the end
of its bytes would panic; it is an end of its own here (`Stop.panic`), which `parseBlob` never
comes to.

The cipher, SHA-256 and the JSON of the associated data are parameters.
-/
import Kuku.Sync.Merge
import Kuku.Theory.Except
import Kuku.Theory.Json

namespace Kuku.Sync.Blob

open Kuku.Theory List Text

/-- `[u8; n]`. -/
structure Octets (n : Nat) where
  bytes : List UInt8
  isLength : bytes.length = n
  deriving DecidableEq

inductive Stop where
  | panic
  | error (error : SyncError)

abbrev Checked (α : Type) := Except Stop α

/-- `bytes[start..stop]`. -/
def slice (bytes : List UInt8) (start stop : Nat) : Checked (List UInt8) :=
  if start ≤ stop ∧ stop ≤ bytes.length then .ok ((bytes.drop start).take (stop - start))
  else .error .panic

/-- `bytes[index]`. -/
def byteAt (bytes : List UInt8) (index : Nat) : Checked UInt8 :=
  match bytes[index]? with
  | some byte => .ok byte
  | none => .error .panic

def copyFromSlice (n : Nat) (bytes : List UInt8) : Checked (Octets n) :=
  if isLength : bytes.length = n then .ok ⟨bytes, isLength⟩ else .error .panic

def fail {α : Type} (error : SyncError) : Checked α := .error (.error error)

def blobMagic : List UInt8 := utf8 "KUKUSYNCBLOB" ++ [0]
def blobVersion : UInt8 := 1
def algXchacha20Poly1305 : UInt8 := 1
def xchacha20NonceLen : Nat := 24
def sha256Len : Nat := 32
def blobHeaderFixedLen : Nat := blobMagic.length + 3

structure ParsedEncryptedBlob where
  nonce : Octets xchacha20NonceLen
  aadHash : Octets sha256Len
  ciphertextAndTag : List UInt8

def parseBlob (blob : List UInt8) : Checked ParsedEncryptedBlob := do
  if blob.length < blobHeaderFixedLen + xchacha20NonceLen + sha256Len then
    fail (.crypto "encrypted blob is too short")
  let magic ← slice blob 0 blobMagic.length
  if magic ≠ blobMagic then fail (.crypto "invalid encrypted blob magic")
  let version ← byteAt blob blobMagic.length
  if version ≠ blobVersion then fail (.unsupportedVersion version.toNat)
  let algId ← byteAt blob (blobMagic.length + 1)
  if algId ≠ algXchacha20Poly1305 then fail (.crypto "unsupported encrypted blob algorithm")
  let nonceByte ← byteAt blob (blobMagic.length + 2)
  let nonceLen := nonceByte.toNat
  if nonceLen ≠ xchacha20NonceLen then fail (.crypto "invalid encrypted blob nonce length")
  let nonceStart := blobHeaderFixedLen
  let aadHashStart := nonceStart + nonceLen
  let ciphertextStart := aadHashStart + sha256Len
  if blob.length < ciphertextStart then fail (.crypto "encrypted blob is truncated")
  let nonce ← slice blob nonceStart aadHashStart
  let nonce ← copyFromSlice xchacha20NonceLen nonce
  let aadHash ← slice blob aadHashStart ciphertextStart
  let aadHash ← copyFromSlice sha256Len aadHash
  let ciphertextAndTag ← slice blob ciphertextStart blob.length
  return ⟨nonce, aadHash, ciphertextAndTag⟩

/-- What `encrypt_blob_with_nonce` pushes, one part behind another. -/
def ParsedEncryptedBlob.frame (parsed : ParsedEncryptedBlob) : List UInt8 :=
  blobMagic ++ [blobVersion, algXchacha20Poly1305, UInt8.ofNat xchacha20NonceLen] ++
    parsed.nonce.bytes ++ parsed.aadHash.bytes ++ parsed.ciphertextAndTag

/-- `XChaCha20Poly1305` under a key, for a nonce and associated data. -/
structure Aead where
  encrypt : Octets 32 → Octets xchacha20NonceLen → List UInt8 → List UInt8 → Option (List UInt8)
  decrypt : Octets 32 → Octets xchacha20NonceLen → List UInt8 → List UInt8 → Option (List UInt8)

section Encryption

variable {Aad : Type} (canonicalJson : Aad → Except SyncError (List UInt8))
  (sha256 : List UInt8 → Octets sha256Len) (aead : Aead)

def serialized (aad : Aad) : Checked (List UInt8) := (canonicalJson aad).mapError .error

def encryptBlobWithNonce (key : Octets 32) (aad : Aad) (plaintext : List UInt8)
    (nonce : Octets xchacha20NonceLen) : Checked (List UInt8) := do
  let aad ← serialized canonicalJson aad
  match aead.encrypt key nonce aad plaintext with
  | none => fail (.crypto "encrypt failed")
  | some ciphertext => return ParsedEncryptedBlob.frame ⟨nonce, sha256 aad, ciphertext⟩

def decryptBlob (key : Octets 32) (aad : Aad) (blob : List UInt8) : Checked (List UInt8) := do
  let aad ← serialized canonicalJson aad
  let parsed ← parseBlob blob
  if parsed.aadHash ≠ sha256 aad then fail (.crypto "aad hash mismatch")
  match aead.decrypt key parsed.nonce aad parsed.ciphertextAndTag with
  | none => fail (.crypto "decrypt failed")
  | some plaintext => return plaintext

end Encryption

/-! ## The frame and its reader -/

section Frame

variable {parsed : ParsedEncryptedBlob} {blob front middle back : List UInt8} {i j : Nat}

theorem slice_of_split (isSplit : front ++ middle ++ back = blob) (isStart : front.length = i)
    (isStop : front.length + middle.length = j) : slice blob i j = .ok middle := by
  subst isSplit isStart isStop
  have inside : front.length ≤ front.length + middle.length ∧
      front.length + middle.length ≤ (front ++ middle ++ back).length := by
    simp only [length_append]
    omega
  rw [slice, if_pos inside, append_assoc, drop_left, Nat.add_sub_cancel_left, take_left]

theorem byteAt_of_split {byte : UInt8} (isSplit : front ++ byte :: back = blob)
    (isIndex : front.length = i) : byteAt blob i = .ok byte := by
  subst isSplit isIndex
  rw [byteAt, getElem?_append_right (Nat.le_refl _), Nat.sub_self]
  rfl

theorem copyFromSlice_bytes {n : Nat} (octets : Octets n) :
    copyFromSlice n octets.bytes = .ok octets := by
  rw [copyFromSlice, dif_pos octets.isLength]

/-- What the reader answers for any bytes that are long enough, by their parts. -/
theorem parseBlob_parts {magic rest : List UInt8} {version algId nonceByte : UInt8}
    (isMagic : magic.length = blobMagic.length) (nonce : Octets xchacha20NonceLen)
    (aadHash : Octets sha256Len) :
    parseBlob (magic ++ version :: algId :: nonceByte :: (nonce.bytes ++ aadHash.bytes ++ rest)) =
      if magic ≠ blobMagic then fail (.crypto "invalid encrypted blob magic")
      else if version ≠ blobVersion then fail (.unsupportedVersion version.toNat)
      else if algId ≠ algXchacha20Poly1305 then
        fail (.crypto "unsupported encrypted blob algorithm")
      else if nonceByte.toNat ≠ xchacha20NonceLen then
        fail (.crypto "invalid encrypted blob nonce length")
      else .ok ⟨nonce, aadHash, rest⟩ := by
  have isNonce : nonce.bytes.length = 24 := nonce.isLength
  have isHash : aadHash.bytes.length = 32 := aadHash.isLength
  have isHead : magic.length = 13 := isMagic
  generalize isBlob : magic ++ version :: algId :: nonceByte ::
    (nonce.bytes ++ aadHash.bytes ++ rest) = blob
  have isLength : blob.length = 72 + rest.length := by
    rw [← isBlob]
    simp only [length_append, length_cons, isHead, isNonce, isHash]
    omega
  have hasMagic : slice blob 0 blobMagic.length = .ok magic := by
    have isSplit : [] ++ magic ++ version :: algId :: nonceByte ::
      (nonce.bytes ++ aadHash.bytes ++ rest) = blob := isBlob
    exact slice_of_split isSplit rfl (by rw [length_nil, isMagic, Nat.zero_add])
  have hasVersion : byteAt blob blobMagic.length = .ok version := byteAt_of_split isBlob isMagic
  have hasAlgId : byteAt blob (blobMagic.length + 1) = .ok algId := by
    have isSplit : (magic ++ [version]) ++ algId :: nonceByte ::
        (nonce.bytes ++ aadHash.bytes ++ rest) = blob := by
      rw [append_assoc]
      exact isBlob
    exact byteAt_of_split isSplit (by rw [length_append, isMagic, length_singleton])
  have hasNonceByte : byteAt blob (blobMagic.length + 2) = .ok nonceByte := by
    have isSplit : (magic ++ [version, algId]) ++ nonceByte ::
        (nonce.bytes ++ aadHash.bytes ++ rest) = blob := by
      rw [append_assoc]
      exact isBlob
    exact byteAt_of_split isSplit (by rw [length_append, isMagic]; rfl)
  -- behind the checks the length of the nonce is known, and with it every offset
  have hasNonce : slice blob blobHeaderFixedLen (blobHeaderFixedLen + xchacha20NonceLen) =
      .ok nonce.bytes := by
    have isSplit : (magic ++ [version, algId, nonceByte]) ++ nonce.bytes ++
        (aadHash.bytes ++ rest) = blob := by
      rw [append_assoc, append_assoc, ← append_assoc nonce.bytes]
      exact isBlob
    have isFront : (magic ++ [version, algId, nonceByte]).length = 16 := by
      rw [length_append, isHead]
      rfl
    exact slice_of_split isSplit isFront (by rw [isFront, isNonce]; rfl)
  have hasHash : slice blob (blobHeaderFixedLen + xchacha20NonceLen)
      (blobHeaderFixedLen + xchacha20NonceLen + sha256Len) = .ok aadHash.bytes := by
    have isSplit : (magic ++ [version, algId, nonceByte] ++ nonce.bytes) ++ aadHash.bytes ++
        rest = blob := by
      rw [append_assoc, append_assoc, append_assoc, ← append_assoc nonce.bytes]
      exact isBlob
    have isFront : (magic ++ [version, algId, nonceByte] ++ nonce.bytes).length = 40 := by
      rw [length_append, length_append, isHead, isNonce]
      rfl
    exact slice_of_split isSplit isFront (by rw [isFront, isHash]; rfl)
  have hasRest : slice blob (blobHeaderFixedLen + xchacha20NonceLen + sha256Len) blob.length =
      .ok rest := by
    have isSplit : (magic ++ [version, algId, nonceByte] ++ nonce.bytes ++ aadHash.bytes) ++
        rest ++ [] = blob := by
      rw [append_nil, append_assoc, append_assoc, append_assoc, ← append_assoc nonce.bytes]
      exact isBlob
    have isFront : (magic ++ [version, algId, nonceByte] ++ nonce.bytes ++ aadHash.bytes).length =
        72 := by
      rw [length_append, length_append, length_append, isHead, isNonce, isHash]
      rfl
    exact slice_of_split isSplit isFront (by rw [isFront, isLength])
  have notShort : ¬ blob.length < blobHeaderFixedLen + xchacha20NonceLen + sha256Len := by
    rw [isLength]
    exact Nat.not_lt.mpr (Nat.le_add_right 72 _)
  simp only [parseBlob, if_neg notShort, hasMagic, hasVersion, hasAlgId, hasNonceByte, bind,
    Except.bind, fail]
  split_ifs with _ _ _ isNonceLen isShort
  · rfl
  · rfl
  · rfl
  · rfl
  · rw [not_not.mp isNonceLen] at isShort
    exact absurd isShort notShort
  · rw [not_not] at isNonceLen
    simp only [isNonceLen, hasNonce, hasHash, hasRest, copyFromSlice_bytes]
    rfl

/-- The reader finds each part where the writer has put it. -/
theorem parseBlob_frame (parsed : ParsedEncryptedBlob) : parseBlob parsed.frame = .ok parsed := by
  obtain ⟨nonce, aadHash, ciphertext⟩ := parsed
  have isFrame : ParsedEncryptedBlob.frame ⟨nonce, aadHash, ciphertext⟩ = blobMagic ++
      blobVersion :: algXchacha20Poly1305 :: UInt8.ofNat xchacha20NonceLen ::
        (nonce.bytes ++ aadHash.bytes ++ ciphertext) := by
    simp only [ParsedEncryptedBlob.frame, append_assoc, cons_append, nil_append]
  rw [isFrame, parseBlob_parts rfl]
  rfl

/-- Bytes that are long enough have all the parts of a frame. -/
theorem exists_parts (isLong : blobHeaderFixedLen + xchacha20NonceLen + sha256Len ≤ blob.length) :
    ∃ magic version algId nonceByte, ∃ nonce : Octets xchacha20NonceLen,
      ∃ aadHash : Octets sha256Len, ∃ rest, magic.length = blobMagic.length ∧
        blob = magic ++ version :: algId :: nonceByte :: (nonce.bytes ++ aadHash.bytes ++ rest) := by
  have isLong : 72 ≤ blob.length := isLong
  obtain ⟨version, algId, nonceByte, isBytes⟩ :
      ∃ version algId nonceByte, (blob.drop 13).take 3 = [version, algId, nonceByte] := by
    have isThree : ((blob.drop 13).take 3).length = 3 := by
      rw [length_take, length_drop]
      omega
    exact length_eq_three.mp isThree
  refine ⟨blob.take 13, version, algId, nonceByte, ⟨(blob.drop 16).take 24, ?_⟩,
    ⟨(blob.drop 40).take 32, ?_⟩, blob.drop 72, ?_, ?_⟩
  · rw [length_take, length_drop]
    exact Nat.min_eq_left (by omega)
  · rw [length_take, length_drop]
    exact Nat.min_eq_left (by omega)
  · rw [length_take]
    exact Nat.min_eq_left (by omega)
  · calc blob
        = blob.take 13 ++ ((blob.drop 13).take 3 ++ ((blob.drop 16).take 24 ++
            ((blob.drop 40).take 32 ++ blob.drop 72))) := by
          have behind : ∀ n m, (blob.drop n).take m ++ blob.drop (n + m) = blob.drop n := by
            intro n m
            rw [← drop_drop, take_append_drop]
          rw [behind 40 32, behind 16 24, behind 13 3, take_append_drop]
      _ = _ := by
          rw [isBytes]
          simp only [cons_append, nil_append, append_assoc]

/-- **The reader accepts the frames and nothing else, and never panics.** -/
theorem parseBlob_ok_iff : parseBlob blob = .ok parsed ↔ blob = parsed.frame := by
  constructor
  · intro accepted
    by_cases isLong : blobHeaderFixedLen + xchacha20NonceLen + sha256Len ≤ blob.length
    · obtain ⟨magic, version, algId, nonceByte, nonce, aadHash, rest, isMagic, rfl⟩ :=
        exists_parts isLong
      rw [parseBlob_parts isMagic] at accepted
      split_ifs at accepted with sameMagic sameVersion sameAlg sameNonce
      · cases accepted
      · cases accepted
      · cases accepted
      · cases accepted
      rw [not_not] at sameMagic sameVersion sameAlg sameNonce
      cases accepted
      have isNonceByte : nonceByte = UInt8.ofNat xchacha20NonceLen := by
        rw [← sameNonce, UInt8.ofNat_toNat]
      rw [sameMagic, sameVersion, sameAlg, isNonceByte]
      simp only [ParsedEncryptedBlob.frame, append_assoc, cons_append, nil_append]
    · rw [parseBlob, if_pos (Nat.not_le.mp isLong)] at accepted
      cases accepted
  · rintro rfl
    exact parseBlob_frame parsed

theorem parseBlob_ne_panic : parseBlob blob ≠ .error .panic := by
  intro panics
  by_cases isLong : blobHeaderFixedLen + xchacha20NonceLen + sha256Len ≤ blob.length
  · obtain ⟨magic, version, algId, nonceByte, nonce, aadHash, rest, isMagic, rfl⟩ :=
      exists_parts isLong
    rw [parseBlob_parts isMagic] at panics
    split_ifs at panics <;> cases panics
  · rw [parseBlob, if_pos (Nat.not_le.mp isLong)] at panics
    cases panics

/-- Too short, of another format, or a frame. -/
theorem exists_parsed_iff : (∃ parsed, parseBlob blob = .ok parsed) ↔
    ∃ nonce aadHash rest, nonce.length = xchacha20NonceLen ∧ aadHash.length = sha256Len ∧
      blob = blobMagic ++ [blobVersion, algXchacha20Poly1305, 24] ++ nonce ++ aadHash ++ rest := by
  constructor
  · rintro ⟨parsed, accepted⟩
    exact ⟨parsed.nonce.bytes, parsed.aadHash.bytes, parsed.ciphertextAndTag,
      parsed.nonce.isLength, parsed.aadHash.isLength, parseBlob_ok_iff.mp accepted⟩
  · rintro ⟨nonce, aadHash, rest, isNonce, isHash, isBlob⟩
    exact ⟨⟨⟨nonce, isNonce⟩, ⟨aadHash, isHash⟩, rest⟩, parseBlob_ok_iff.mpr isBlob⟩

end Frame

/-! ## Encryption and its inverse -/

section Encryption

variable {Aad : Type} {canonicalJson : Aad → Except SyncError (List UInt8)}
  {sha256 : List UInt8 → Octets sha256Len} {aead : Aead} {key : Octets 32} {aad : Aad}
  {nonce : Octets xchacha20NonceLen} {plaintext blob json : List UInt8}

theorem serialized_ok : serialized canonicalJson aad = .ok json ↔ canonicalJson aad = .ok json := by
  rw [serialized]
  cases canonicalJson aad with
  | error error => exact ⟨nofun, nofun⟩
  | ok bytes => exact ⟨fun same => congrArg Except.ok (Except.ok.inj same),
      fun same => congrArg Except.ok (Except.ok.inj same)⟩

theorem encryptBlobWithNonce_ok :
    encryptBlobWithNonce canonicalJson sha256 aead key aad plaintext nonce = .ok blob ↔
      ∃ json ciphertext, canonicalJson aad = .ok json ∧
        aead.encrypt key nonce json plaintext = some ciphertext ∧
        blob = ParsedEncryptedBlob.frame ⟨nonce, sha256 json, ciphertext⟩ := by
  rw [encryptBlobWithNonce, bind_ok]
  constructor
  · rintro ⟨json, isJson, encrypted⟩
    cases isCipher : aead.encrypt key nonce json plaintext with
    | none =>
      rw [isCipher] at encrypted
      cases encrypted
    | some ciphertext =>
      rw [isCipher] at encrypted
      cases encrypted
      exact ⟨json, ciphertext, serialized_ok.mp isJson, isCipher, rfl⟩
  · rintro ⟨json, ciphertext, isJson, isCipher, rfl⟩
    refine ⟨json, serialized_ok.mpr isJson, ?_⟩
    rw [isCipher]
    rfl

theorem decryptBlob_frame (isJson : canonicalJson aad = .ok json) (aadHash : Octets sha256Len)
    (ciphertext : List UInt8) :
    decryptBlob canonicalJson sha256 aead key aad
        (ParsedEncryptedBlob.frame ⟨nonce, aadHash, ciphertext⟩) =
      if aadHash ≠ sha256 json then fail (.crypto "aad hash mismatch")
      else
        match aead.decrypt key nonce json ciphertext with
        | none => fail (.crypto "decrypt failed")
        | some plaintext => .ok plaintext := by
  rw [decryptBlob, serialized_ok.mpr isJson, parseBlob_frame]
  simp only [bind, Except.bind]
  split_ifs with differs
  · rfl
  · cases aead.decrypt key nonce json ciphertext <;> rfl

/-- The cipher decrypts what it has encrypted. -/
def Aead.Opens (aead : Aead) : Prop :=
  ∀ key nonce aad plaintext ciphertext, aead.encrypt key nonce aad plaintext = some ciphertext →
    aead.decrypt key nonce aad ciphertext = some plaintext

/-- **The frame is a bijection**: the reader accepts exactly the frames and gives back their
parts, and an encrypted blob is decrypted under the data it was encrypted with and no other. -/
theorem blob_framing (canonicalJson : Aad → Except SyncError (List UInt8))
    (sha256 : List UInt8 → Octets sha256Len) (aead : Aead) (opens : aead.Opens) :
    (∀ blob parsed, parseBlob blob = .ok parsed ↔ blob = parsed.frame) ∧
    (∀ blob, (∃ parsed, parseBlob blob = .ok parsed) ↔
      ∃ nonce aadHash rest, nonce.length = xchacha20NonceLen ∧ aadHash.length = sha256Len ∧
        blob = blobMagic ++ [blobVersion, algXchacha20Poly1305, 24] ++ nonce ++ aadHash ++ rest) ∧
    (∀ blob, parseBlob blob ≠ .error .panic) ∧
    ∀ key aad plaintext nonce blob,
      encryptBlobWithNonce canonicalJson sha256 aead key aad plaintext nonce = .ok blob →
      (∃ json ciphertext, canonicalJson aad = .ok json ∧
        aead.encrypt key nonce json plaintext = some ciphertext ∧
        parseBlob blob = .ok ⟨nonce, sha256 json, ciphertext⟩) ∧
      decryptBlob canonicalJson sha256 aead key aad blob = .ok plaintext ∧
      ∀ other json otherJson, canonicalJson aad = .ok json → canonicalJson other = .ok otherJson →
        (sha256 json = sha256 otherJson → aad = other) → aad ≠ other →
        decryptBlob canonicalJson sha256 aead key other blob =
          .error (.error (.crypto "aad hash mismatch")) := by
  refine ⟨fun _ _ => parseBlob_ok_iff, fun _ => exists_parsed_iff, fun _ => parseBlob_ne_panic, ?_⟩
  intro key aad plaintext nonce blob encrypted
  obtain ⟨json, ciphertext, isJson, isCipher, rfl⟩ := encryptBlobWithNonce_ok.mp encrypted
  refine ⟨⟨json, ciphertext, isJson, isCipher, parseBlob_frame _⟩, ?_, ?_⟩
  · rw [decryptBlob_frame isJson, if_neg (not_not_intro rfl), opens _ _ _ _ _ isCipher]
  · intro other json' otherJson isJson' isOther injective differs
    cases isJson.symm.trans isJson'
    rw [decryptBlob_frame isOther, if_pos fun same => differs (injective same)]
    rfl

end Encryption

/-! ## A pack of one character -/

structure PackAad where
  format : String
  version : Nat
  workspaceId : String
  objectId : String
  objectKind : String
  commitId : String
  deriving DecidableEq

def PackAad.new (workspaceId objectId objectKind commitId : String) : PackAad where
  format := "kuku.sync.pack"
  version := 1
  workspaceId
  objectId
  objectKind
  commitId

/-- `serde_json` writes the fields in their order. -/
def PackAad.json (aad : PackAad) : List UInt8 :=
  Json.encode Json.serdeEscape
    [("format", .text aad.format), ("version", .number aad.version),
      ("workspace_id", .text aad.workspaceId), ("object_id", .text aad.objectId),
      ("object_kind", .text aad.objectKind), ("commit_id", .text aad.commitId)]

def PackAad.canonicalJson (aad : PackAad) : Except SyncError (List UInt8) := .ok aad.json

def sampleAad (commitId : String) : PackAad := .new "w" "o" "content_pack" commitId

def zeros (n : Nat) : Octets n := ⟨List.replicate n 0, length_replicate⟩

def sampleCiphertext : List UInt8 :=
  [91, 234, 231, 242, 37, 75, 192, 245, 124, 51, 164, 150, 20, 88, 196, 112, 137]

/-- SHA-256 of the data of two commits, as it was computed. -/
def sampleSha256 (bytes : List UInt8) : Octets sha256Len :=
  if bytes = (sampleAad "c").json then
    ⟨[26, 7, 220, 202, 18, 109, 65, 188, 21, 194, 101, 27, 90, 135, 102, 181, 157, 240, 65, 71, 236,
      149, 247, 220, 191, 47, 81, 31, 168, 76, 211, 84], rfl⟩
  else if bytes = (sampleAad "d").json then
    ⟨[21, 112, 202, 167, 3, 87, 166, 5, 94, 178, 81, 235, 89, 229, 42, 204, 127, 203, 211, 20, 143,
      35, 187, 78, 234, 204, 1, 75, 217, 43, 135, 107], rfl⟩
  else zeros sha256Len

/-- The cipher at one message under the key and the nonce of zeros, as it was computed. -/
def sampleAead : Aead where
  encrypt key nonce aad plaintext :=
    if key = zeros 32 ∧ nonce = zeros xchacha20NonceLen ∧
        aad = (sampleAad "c").json ∧ plaintext = utf8 "#" then
      some sampleCiphertext
    else none
  decrypt key nonce aad ciphertext :=
    if key = zeros 32 ∧ nonce = zeros xchacha20NonceLen ∧
        aad = (sampleAad "c").json ∧ ciphertext = sampleCiphertext then
      some (utf8 "#")
    else none

theorem sampleAead_opens : sampleAead.Opens := by
  intro key nonce aad plaintext ciphertext encrypted
  simp only [sampleAead] at encrypted ⊢
  split_ifs at encrypted with isSample
  obtain ⟨isKey, isNonce, isAad, rfl⟩ := isSample
  cases encrypted
  rw [if_pos ⟨isKey, isNonce, isAad, rfl⟩]

/-- The data of the two commits differ in the commit's id. -/
theorem sampleAad_json_ne : (sampleAad "c").json ≠ (sampleAad "d").json := by
  simp only [PackAad.json, Json.encode, utf8, String.toList_ofList, sampleAad, PackAad.new,
    map_cons, map_nil, Json.field, Json.value, Json.quoted, intercalate_cons_cons,
    intercalate_singleton, flatMap_append, flatMap_cons, append_assoc,
    cons_append]
  intro same
  simp only [append_cancel_left_eq] at same
  revert same
  decide

theorem sampleSha256_ne : sampleSha256 (sampleAad "c").json ≠ sampleSha256 (sampleAad "d").json := by
  rw [sampleSha256, if_pos rfl, sampleSha256, if_neg sampleAad_json_ne.symm, if_pos rfl]
  decide

/-- What is encrypted for one commit is not taken for another's. -/
theorem blob_framing_pack :
    ∃ blob, encryptBlobWithNonce PackAad.canonicalJson sampleSha256 sampleAead (zeros 32)
        (sampleAad "c") (utf8 "#") (zeros xchacha20NonceLen) = .ok blob ∧
      decryptBlob PackAad.canonicalJson sampleSha256 sampleAead (zeros 32) (sampleAad "c") blob =
        .ok (utf8 "#") ∧
      decryptBlob PackAad.canonicalJson sampleSha256 sampleAead (zeros 32) (sampleAad "d") blob =
        .error (.error (.crypto "aad hash mismatch")) := by
  have isCipher : sampleAead.encrypt (zeros 32) (zeros xchacha20NonceLen) (sampleAad "c").json
      (utf8 "#") = some sampleCiphertext := by
    simp only [sampleAead, and_self, if_true]
  obtain ⟨blob, encrypted⟩ : ∃ blob, encryptBlobWithNonce PackAad.canonicalJson sampleSha256
      sampleAead (zeros 32) (sampleAad "c") (utf8 "#") (zeros xchacha20NonceLen) = .ok blob :=
    ⟨_, encryptBlobWithNonce_ok.mpr ⟨(sampleAad "c").json, sampleCiphertext, rfl, isCipher, rfl⟩⟩
  have framed := (blob_framing PackAad.canonicalJson sampleSha256 sampleAead
    sampleAead_opens).2.2.2 _ _ _ _ _ encrypted
  exact ⟨blob, encrypted, framed.2.1, framed.2.2 (sampleAad "d") (sampleAad "c").json
    (sampleAad "d").json rfl rfl (fun same => absurd same sampleSha256_ne) (by decide)⟩

end Kuku.Sync.Blob
