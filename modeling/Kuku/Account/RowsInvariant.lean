/-
# Account.RowsInvariant -- what the account's rows keep, and what only grows

* `Rows.Inv`: every ciphertext of a row is sealed under the account root key, for that row
  and its version; every commit is sealed under its workspace's key.
* `Rows.Le`: the account key, the workspaces with their keys and the commits are there to
  stay.
* `ServerCall.Sound`: a call that keeps both (`perform_inv`, `perform_le`).

Two things are asked of the calls only where they matter: that a name is sealed for the
row it is stored in (`named`), and that a commit is sealed under the workspace's key
(`bound`).
-/
import Kuku.Account.Vault

namespace Kuku.Account

open Kuku.Theory Kuku.Sync List Text

/-- A ciphertext of a row: absent at version zero, and otherwise sealed under the account
root key for this workspace and version. -/
def Rows.Seals {α : Type} (rows : Rows) (workspaceId : String) (version : Int) :
    Option (Blob WorkspaceAad α) → Prop
  | none => version = 0
  | some blob => 0 < version ∧ ∃ accountKeyId envelope,
      rows.accountKey = some (accountKeyId, envelope) ∧
      blob.accountRootKey = envelope.accountRootKey ∧
      blob.aad = ⟨accountKeyId, workspaceId, version⟩

/-- The workspace's stored key. -/
def Rows.KeyOf (rows : Rows) (workspaceId : String) (key : SymmetricKey) : Prop :=
  ∃ workspace ∈ rows.workspaces, workspace.workspaceId = workspaceId ∧
    ∃ blob, workspace.encryptedWorkspaceKey = some blob ∧ blob.plaintext = key

/-- The account key is this one. -/
def Rows.Unlocks (rows : Rows) (accountKeyId : String) (accountRootKey : SymmetricKey) : Prop :=
  ∃ envelope, rows.accountKey = some (accountKeyId, envelope) ∧
    envelope.accountRootKey = accountRootKey

structure Rows.Inv (host : Host) (named bound : Prop) (rows : Rows) : Prop where
  account : ∀ accountKeyId envelope, rows.accountKey = some (accountKeyId, envelope) →
    envelope.accountKeyId = accountKeyId ∧
      ∃ phrase, requireRecoveryPhrase host phrase = .ok envelope.phrase
  founded : rows.workspaces ≠ [] → rows.accountKey.isSome
  distinct : rows.workspaces.Pairwise fun a b => a.workspaceId ≠ b.workspaceId
  minted : ∀ workspace ∈ rows.workspaces, ∃ n, n < rows.minted ∧ workspace.workspaceId = host.mint n
  keyed : ∀ workspace ∈ rows.workspaces, rows.Seals workspace.workspaceId
    workspace.workspaceKeyVersion workspace.encryptedWorkspaceKey
  metadata : named → ∀ workspace ∈ rows.workspaces, rows.Seals workspace.workspaceId
    workspace.metadataVersion workspace.encryptedMetadata
  commits : bound → ∀ commit ∈ rows.commits, rows.KeyOf commit.workspaceId commit.workspaceKey

/-- What only grows. -/
structure Rows.Le (a b : Rows) : Prop where
  account : ∀ key, a.accountKey = some key → b.accountKey = some key
  workspaces : ∀ workspace ∈ a.workspaces, ∃ later ∈ b.workspaces,
    later.workspaceId = workspace.workspaceId ∧
    ∀ blob, workspace.encryptedWorkspaceKey = some blob → later.encryptedWorkspaceKey = some blob
  commits : ∀ commit ∈ a.commits, commit ∈ b.commits

namespace Rows

variable {host : Host} {named bound : Prop} {a b c rows : Rows}

theorem Le.refl (rows : Rows) : rows.Le rows :=
  ⟨fun _ h => h, fun workspace member => ⟨workspace, member, rfl, fun _ h => h⟩, fun _ h => h⟩

theorem Le.trans (first : a.Le b) (second : b.Le c) : a.Le c := by
  refine ⟨fun key found => second.account key (first.account key found), ?_,
    fun commit member => second.commits commit (first.commits commit member)⟩
  intro workspace member
  obtain ⟨later, isMember, sameId, keeps⟩ := first.workspaces workspace member
  obtain ⟨last, isLast, sameId', keeps'⟩ := second.workspaces later isMember
  exact ⟨last, isLast, sameId'.trans sameId, fun blob found => keeps' blob (keeps blob found)⟩

variable {workspaceId : String}

theorem KeyOf.mono {key : SymmetricKey} (isKey : a.KeyOf workspaceId key) (le : a.Le b) :
    b.KeyOf workspaceId key := by
  obtain ⟨workspace, member, rfl, blob, found, isPlain⟩ := isKey
  obtain ⟨later, isMember, sameId, keeps⟩ := le.workspaces workspace member
  exact ⟨later, isMember, sameId, blob, keeps blob found, isPlain⟩

variable {root : SymmetricKey}

theorem Unlocks.mono {accountKeyId : String} (unlocks : a.Unlocks accountKeyId root) (le : a.Le b) :
    b.Unlocks accountKeyId root := by
  obtain ⟨envelope, found, isRoot⟩ := unlocks
  exact ⟨envelope, le.account _ found, isRoot⟩

theorem Unlocks.founded {accountKeyId : String} (unlocks : rows.Unlocks accountKeyId root) :
    rows.accountKey.isSome := by
  obtain ⟨envelope, found, _⟩ := unlocks
  rw [found]
  rfl

theorem Seals.mono {α : Type} {version : Int} {blob : Option (Blob WorkspaceAad α)}
    (seals : a.Seals workspaceId version blob)
    (account : ∀ key, a.accountKey = some key → b.accountKey = some key) :
    b.Seals workspaceId version blob := by
  cases blob with
  | none => exact seals
  | some blob =>
    obtain ⟨positive, accountKeyId, envelope, found, isRoot, isAad⟩ := seals
    exact ⟨positive, accountKeyId, envelope, account _ found, isRoot, isAad⟩

/-- What is sealed for a row opens with the account root key. -/
theorem Seals.opens {α : Type} {workspaceId accountKeyId : String} {version : Int}
    {blob : Blob WorkspaceAad α} (seals : rows.Seals workspaceId version (some blob))
    (unlocks : rows.Unlocks accountKeyId root) :
    0 < version ∧ blob.decrypt root ⟨accountKeyId, workspaceId, version⟩ = .ok blob.plaintext := by
  obtain ⟨positive, id, envelope, found, isRoot, isAad⟩ := seals
  obtain ⟨other, found', isRoot'⟩ := unlocks
  rw [found] at found'
  cases found'
  refine ⟨positive, ?_⟩
  rw [Blob.decrypt, if_pos ⟨isRoot.trans isRoot', isAad⟩]

/-- The row a workspace id stands for. -/
theorem getWorkspace_ok {operation workspaceId : String} {workspace : Workspace}
    (found : rows.getWorkspace host operation workspaceId = .ok workspace) :
    host.parseUuid (trim workspaceId) = some workspace.workspaceId ∧
      workspace ∈ rows.workspaces ∧ workspace.deleted = false := by
  simp only [getWorkspace] at found
  split at found
  · cases found
  · rename_i id parsed
    split at found <;> cases found
    rename_i isFound
    have isId := find?_some isFound
    have isLive := mem_of_find?_eq_some isFound
    simp only [live, mem_filter, Bool.not_eq_eq_eq_not, Bool.not_true,
      decide_eq_true_eq] at isId isLive
    exact ⟨by rw [parsed, isId], isLive.1, isLive.2⟩

/-! ## One row is written -/

theorem mem_put {workspace other : Workspace} :
    other ∈ (rows.put workspace).workspaces ↔
      other = workspace ∨ (other ∈ rows.workspaces ∧ other.workspaceId ≠ workspace.workspaceId) := by
  simp [put]

instance : Std.Symm fun a b : Workspace => a.workspaceId ≠ b.workspaceId :=
  ⟨fun _ _ differ => differ.symm⟩

theorem put_le {workspace before : Workspace} (inv : rows.Inv host named bound)
    (member : before ∈ rows.workspaces) (sameId : workspace.workspaceId = before.workspaceId)
    (keepsKey : ∀ blob, before.encryptedWorkspaceKey = some blob →
      workspace.encryptedWorkspaceKey = some blob) : rows.Le (rows.put workspace) := by
  refine ⟨fun _ found => found, ?_, fun _ h => h⟩
  intro other isMember
  by_cases isIt : other.workspaceId = workspace.workspaceId
  · have isBefore : other = before := by
      by_contra differ
      exact inv.distinct.forall isMember member differ (isIt.trans sameId)
    subst isBefore
    exact ⟨workspace, mem_put.mpr (.inl rfl), sameId, keepsKey⟩
  · exact ⟨other, mem_put.mpr (.inr ⟨isMember, isIt⟩), rfl, fun _ h => h⟩

theorem Inv.put {workspace before : Workspace} (inv : rows.Inv host named bound)
    (member : before ∈ rows.workspaces) (sameId : workspace.workspaceId = before.workspaceId)
    (keepsKey : ∀ blob, before.encryptedWorkspaceKey = some blob →
      workspace.encryptedWorkspaceKey = some blob)
    (keyed : rows.Seals workspace.workspaceId workspace.workspaceKeyVersion
      workspace.encryptedWorkspaceKey)
    (metadata : named → rows.Seals workspace.workspaceId workspace.metadataVersion
      workspace.encryptedMetadata) : (rows.put workspace).Inv host named bound := by
  have le := put_le inv member sameId keepsKey
  refine ⟨inv.account, fun _ => inv.founded (ne_nil_of_mem member), ?_, ?_, ?_, ?_, ?_⟩
  · simp only [Rows.put, pairwise_cons, mem_filter, decide_eq_true_eq, ne_eq]
    refine ⟨fun other isOther => Ne.symm isOther.2, ?_⟩
    exact inv.distinct.filter _
  · intro other isMember
    rcases mem_put.mp isMember with rfl | ⟨isOther, _⟩
    · rw [sameId]
      exact inv.minted before member
    · exact inv.minted other isOther
  · intro other isMember
    rcases mem_put.mp isMember with rfl | ⟨isOther, _⟩
    · exact keyed.mono le.account
    · exact (inv.keyed other isOther).mono le.account
  · intro isNamed other isMember
    rcases mem_put.mp isMember with rfl | ⟨isOther, _⟩
    · exact (metadata isNamed).mono le.account
    · exact (inv.metadata isNamed other isOther).mono le.account
  · exact fun isBound commit isMember => (inv.commits isBound commit isMember).mono le

/-! ## The calls -/

variable (named bound) (host) in
/-- What a call must be for the rows to keep their invariant. -/
def Sound (rows : Rows) : ServerCall → Prop
  | .createAccountKey envelope =>
    ∃ phrase, requireRecoveryPhrase host phrase = .ok envelope.phrase
  | .createWorkspace => rows.accountKey.isSome
  | .updateWorkspaceMetadata workspaceId blob version _ => named →
      ∀ id, host.parseUuid (trim workspaceId) = some id → 0 < version →
        rows.Seals id version (some blob)
  | .updateWorkspaceKey workspaceId blob version expected => expected = 0 ∧
      ∀ id, host.parseUuid (trim workspaceId) = some id → 0 < version →
        rows.Seals id version (some blob)
  | .publishCommit commit _ _ => bound →
      ∀ id, host.parseUuid (trim commit.workspaceId) = some id → rows.KeyOf id commit.workspaceKey
  | _ => True

theorem Inv.empty : Rows.empty.Inv host named bound := by
  refine ⟨?_, ?_, List.Pairwise.nil, ?_, ?_, ?_, ?_⟩ <;> simp [Rows.empty]

/-- The rows are untouched, or one row is written by a versioned update. -/
theorem updateVersioned_cases (host : Host) (rows : Rows) (operation invalid workspaceId : String)
    (version expected : Int) (current : Workspace → Int) (change : Workspace → Workspace) :
    (∃ error, rows.updateVersioned host operation invalid workspaceId version expected current
      change = (.error error, rows)) ∨
    ∃ workspace ∈ rows.workspaces, workspace.deleted = false ∧
      host.parseUuid (trim workspaceId) = some workspace.workspaceId ∧
      current workspace = expected ∧ 0 ≤ expected ∧ version = expected + 1 ∧
      rows.updateVersioned host operation invalid workspaceId version expected current change =
        (.ok (change workspace), rows.put (change workspace)) := by
  simp only [updateVersioned]
  split
  · exact .inl ⟨_, rfl⟩
  · rename_i valid
    split
    · exact .inl ⟨_, rfl⟩
    · rename_i workspace found
      obtain ⟨parsed, member, isLive⟩ := getWorkspace_ok found
      split
      · rename_i isCurrent
        refine .inr ⟨workspace, member, isLive, parsed, isCurrent, ?_, ?_, rfl⟩ <;> omega
      · exact .inl ⟨_, rfl⟩

variable (inv : rows.Inv host named bound)

include inv

theorem Inv.updateWorkspaceMetadata {blob : Blob WorkspaceAad String} {version expected : Int}
    (sound : rows.Sound host named bound
      (.updateWorkspaceMetadata workspaceId blob version expected)) :
    (rows.updateWorkspaceMetadata host workspaceId blob version expected).2.Inv host named bound ∧
      rows.Le (rows.updateWorkspaceMetadata host workspaceId blob version expected).2 := by
  rcases updateVersioned_cases host rows "UpdateWorkspaceMetadata"
    "invalid sync argument: invalid metadata version" workspaceId version expected
    (·.metadataVersion) fun workspace =>
      { workspace with encryptedMetadata := some blob, metadataVersion := version } with
    ⟨error, same⟩ | ⟨workspace, member, _, parsed, _, nonneg, follows, written⟩
  · simp only [Rows.updateWorkspaceMetadata, same]
    exact ⟨inv, Le.refl rows⟩
  · simp only [Rows.updateWorkspaceMetadata, written]
    refine ⟨inv.put member rfl (fun _ h => h) (inv.keyed workspace member) ?_,
      put_le inv member rfl fun _ h => h⟩
    intro isNamed
    exact sound isNamed _ parsed (by omega)

theorem Inv.updateWorkspaceKey {blob : Blob WorkspaceAad SymmetricKey} {version expected : Int}
    (sound : rows.Sound host named bound (.updateWorkspaceKey workspaceId blob version expected)) :
    (rows.updateWorkspaceKey host workspaceId blob version expected).2.Inv host named bound ∧
      rows.Le (rows.updateWorkspaceKey host workspaceId blob version expected).2 := by
  rcases updateVersioned_cases host rows "UpdateWorkspaceKey"
    "invalid sync argument: invalid workspace key version" workspaceId version expected
    (·.workspaceKeyVersion) fun workspace =>
      { workspace with encryptedWorkspaceKey := some blob, workspaceKeyVersion := version } with
    ⟨error, same⟩ | ⟨workspace, member, _, parsed, isCurrent, nonneg, follows, written⟩
  · simp only [Rows.updateWorkspaceKey, same]
    exact ⟨inv, Le.refl rows⟩
  · simp only [Rows.updateWorkspaceKey, written]
    -- the key is stored for the first time: at version zero there was none
    have noKey : workspace.encryptedWorkspaceKey = none := by
      have seals := inv.keyed workspace member
      cases stored : workspace.encryptedWorkspaceKey with
      | none => rfl
      | some old =>
        rw [stored, isCurrent, sound.1] at seals
        exact absurd seals.1 (by omega)
    have keepsKey : ∀ old, workspace.encryptedWorkspaceKey = some old → some blob = some old := by
      intro old found
      rw [noKey] at found
      cases found
    exact ⟨inv.put member rfl keepsKey (sound.2 _ parsed (by omega))
      fun isNamed => inv.metadata isNamed workspace member, put_le inv member rfl keepsKey⟩

theorem Inv.createWorkspace (founded : rows.accountKey.isSome) :
    (rows.createWorkspace host).2.Inv host named bound ∧ rows.Le (rows.createWorkspace host).2 := by
  have le : rows.Le (rows.createWorkspace host).2 :=
    ⟨fun _ h => h, fun workspace member =>
      ⟨workspace, mem_cons_of_mem _ member, rfl, fun _ h => h⟩, fun _ h => h⟩
  refine ⟨⟨inv.account, fun _ => founded, ?_, ?_, ?_, ?_, ?_⟩, le⟩
  · refine pairwise_cons.mpr ⟨?_, inv.distinct⟩
    intro other member same
    obtain ⟨n, below, isMint⟩ := inv.minted other member
    have : rows.minted = n := host.mint_injective (same.trans isMint)
    omega
  · intro workspace member
    rcases mem_cons.mp member with rfl | isOld
    · exact ⟨rows.minted, Nat.lt_succ_self _, rfl⟩
    · obtain ⟨n, below, isMint⟩ := inv.minted workspace isOld
      exact ⟨n, Nat.lt_succ_of_lt below, isMint⟩
  · intro workspace member
    rcases mem_cons.mp member with rfl | isOld
    · exact rfl
    · exact (inv.keyed workspace isOld).mono le.account
  · intro isNamed workspace member
    rcases mem_cons.mp member with rfl | isOld
    · exact rfl
    · exact (inv.metadata isNamed workspace isOld).mono le.account
  · exact fun isBound commit member => (inv.commits isBound commit member).mono le

theorem Inv.deleteWorkspace (workspaceId : String) :
    (rows.deleteWorkspace host workspaceId).2.Inv host named bound ∧
      rows.Le (rows.deleteWorkspace host workspaceId).2 := by
  simp only [Rows.deleteWorkspace]
  split
  · exact ⟨inv, Le.refl rows⟩
  · rename_i id _
    have le : rows.Le { rows with
        workspaces := rows.workspaces.map fun workspace =>
          if workspace.workspaceId = id then { workspace with deleted := true }
          else workspace } := by
      refine ⟨fun _ h => h, ?_, fun _ h => h⟩
      intro workspace member
      refine ⟨_, mem_map_of_mem member, ?_, ?_⟩ <;> split <;> simp
    refine ⟨⟨inv.account, fun some => inv.founded (by simpa using some), ?_, ?_, ?_, ?_, ?_⟩, le⟩
    · refine pairwise_map.mpr (inv.distinct.imp ?_)
      intro first second differ
      split <;> split <;> exact differ
    · intro workspace member
      obtain ⟨old, isOld, rfl⟩ := mem_map.mp member
      split <;> exact inv.minted old isOld
    · intro workspace member
      obtain ⟨old, isOld, rfl⟩ := mem_map.mp member
      have sealed := (inv.keyed old isOld).mono le.account
      split <;> exact sealed
    · intro isNamed workspace member
      obtain ⟨old, isOld, rfl⟩ := mem_map.mp member
      have sealed := (inv.metadata isNamed old isOld).mono le.account
      split <;> exact sealed
    · exact fun isBound commit member => (inv.commits isBound commit member).mono le

/-- Rows that differ in their devices only. -/
theorem Inv.withDevices {devices : List Device} {minted : Nat} (more : rows.minted ≤ minted) :
    ({ rows with devices := devices, minted } : Rows).Inv host named bound ∧
      rows.Le { rows with devices := devices, minted } := by
  have le : rows.Le { rows with devices := devices, minted } :=
    ⟨fun _ h => h, fun workspace member => ⟨workspace, member, rfl, fun _ h => h⟩, fun _ h => h⟩
  refine ⟨⟨inv.account, inv.founded, inv.distinct, ?_, inv.keyed, inv.metadata, inv.commits⟩, le⟩
  intro workspace member
  obtain ⟨n, below, isMint⟩ := inv.minted workspace member
  exact ⟨n, Nat.lt_of_lt_of_le below more, isMint⟩

theorem Inv.publishCommit {commit : Commit} {expected : String} {key : SigningKey}
    (sound : rows.Sound host named bound (.publishCommit commit expected key)) :
    (rows.publishCommit host commit expected key).2.Inv host named bound ∧
      rows.Le (rows.publishCommit host commit expected key).2 := by
  simp only [Rows.publishCommit]
  repeat' split
  all_goals first | exact ⟨inv, Le.refl rows⟩ | skip
  rename_i workspace found _ _ _ _ _ _
  obtain ⟨parsed, member, _⟩ := getWorkspace_ok found
  let headed := { workspace with headVersion := workspace.headVersion + 1 }
  have written : (rows.put headed).Inv host named bound :=
    inv.put member rfl (fun _ h => h) (inv.keyed workspace member)
      fun isNamed => inv.metadata isNamed workspace member
  have le : rows.Le (rows.put headed) := put_le inv member rfl fun _ h => h
  have le' : rows.Le { rows.put headed with
      commits := rows.commits ++ [{ commit with workspaceId := workspace.workspaceId }] } :=
    ⟨le.account, le.workspaces, fun other isMember => mem_append_left _ isMember⟩
  refine ⟨⟨written.account, written.founded, written.distinct, written.minted, written.keyed,
    written.metadata, ?_⟩, le'⟩
  intro isBound other isMember
  rcases mem_append.mp isMember with isOld | isNew
  · exact (inv.commits isBound other isOld).mono le'
  · rw [mem_singleton.mp isNew]
    exact (sound isBound _ parsed).mono le'

/-- **A sound call keeps the invariant, and nothing is lost.** -/
theorem Inv.perform {call : ServerCall} (sound : rows.Sound host named bound call) :
    (rows.perform host call).2.Inv host named bound ∧ rows.Le (rows.perform host call).2 := by
  cases call with
  | getAccountKeyState => exact ⟨inv, Le.refl rows⟩
  | listAccountKeyEnvelopes => exact ⟨inv, Le.refl rows⟩
  | listWorkspaces => exact ⟨inv, Le.refl rows⟩
  | getHead workspaceId => exact ⟨inv, Le.refl rows⟩
  | listCommits workspaceId => exact ⟨inv, Le.refl rows⟩
  | createAccountKey envelope =>
    simp only [Rows.perform, Rows.createAccountKey]
    split
    · exact ⟨inv, Le.refl rows⟩
    · split
      · exact ⟨inv, Le.refl rows⟩
      · rename_i noKey
        have absent : rows.accountKey = none := by simpa using noKey
        have account : ∀ key, rows.accountKey = some key →
            some (trim envelope.accountKeyId,
              { envelope with
                accountKeyId := trim envelope.accountKeyId
                envelopeId := trim envelope.envelopeId }) = some key := by
          intro key found
          rw [absent] at found
          cases found
        refine ⟨⟨?_, fun _ => rfl, inv.distinct, inv.minted, ?_, ?_, inv.commits⟩,
          account, fun workspace member => ⟨workspace, member, rfl, fun _ h => h⟩, fun _ h => h⟩
        · intro accountKeyId stored isStored
          cases isStored
          exact ⟨rfl, sound⟩
        · exact fun workspace member => (inv.keyed workspace member).mono account
        · exact fun isNamed workspace member =>
            (inv.metadata isNamed workspace member).mono account
  | createWorkspace => exact inv.createWorkspace sound
  | updateWorkspaceMetadata workspaceId blob version expected =>
    exact inv.updateWorkspaceMetadata sound
  | updateWorkspaceKey workspaceId blob version expected => exact inv.updateWorkspaceKey sound
  | deleteWorkspace workspaceId => exact inv.deleteWorkspace workspaceId
  | registerDevice workspaceId key =>
    simp only [Rows.perform, Rows.registerDevice]
    split
    · exact ⟨inv, Le.refl rows⟩
    · exact inv.withDevices (Nat.le_succ _)
  | updateDeviceMetadata workspaceId deviceId blob version expected =>
    simp only [Rows.perform, Rows.updateDeviceMetadata]
    repeat' split
    all_goals first | exact ⟨inv, Le.refl rows⟩ | exact inv.withDevices (Nat.le_refl _)
  | publishCommit commit expected key => exact inv.publishCommit sound

end Rows

end Kuku.Account
