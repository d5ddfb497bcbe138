/-
# Account.RunSafety -- a run publishes under the workspace's key

The pull and the push of `Account.Vault` among any other desktops, and with them every
command: `desktops_safe` says that the invariant holds in every state of every run whose
vaults are configured as `ConfigureOk` says.

A run reads the binding from the status once.  Until it is over nothing of this desktop
changes what the status and the files name (`World.KeepsNames`), so the row it writes and
the key it publishes under stay those of that binding.
-/
import Kuku.Account.BindingSafety

namespace Kuku.Account

open Kuku.Theory Kuku.Sync List Function Option

/-- The rows have grown, and the status and the files are the same. -/
structure World.KeepsNames (device : Nat) (a b : World) : Prop where
  status : (b.clients device).status = (a.clients device).status
  files : (b.clients device).configFiles = (a.clients device).configFiles
  rows : a.rows.Le b.rows

section KeepsNames

variable {device : Nat} {a b c : World}

theorem World.Keeps.names (keeps : a.Keeps device b) : a.KeepsNames device b :=
  ⟨keeps.client.status, keeps.client.configFiles, keeps.rows⟩

theorem World.Rely.names (relied : a.Rely device b) : a.KeepsNames device b := relied.keeps.names

theorem World.KeepsNames.refl (device : Nat) (world : World) : world.KeepsNames device world :=
  (World.Rely.refl device world).names

theorem World.KeepsNames.trans (first : a.KeepsNames device b) (second : b.KeepsNames device c) :
    a.KeepsNames device c :=
  ⟨second.status.trans first.status, second.files.trans first.files,
    first.rows.trans second.rows⟩

theorem World.KeepsNames.setClient {client : Client}
    (status : client.status = (a.clients device).status)
    (files : client.configFiles = (a.clients device).configFiles) :
    a.KeepsNames device (a.setClient device client) := by
  refine ⟨?_, ?_, Rows.Le.refl _⟩ <;> rw [World.setClient_client] <;> assumption

theorem World.KeepsNames.named (keeps : a.KeepsNames device b) {v w d : String}
    (isNamed : (a.clients device).Names v w d) : (b.clients device).Names v w d := by
  simpa only [Client.Names, keeps.status, keeps.files] using isNamed

end KeepsNames

section Run

variable {host : Host} {named bound : Prop} {device : Nat} {s : World} {stopped : World → Prop}
  {input : PipelineInput} {key : SymmetricKey}

variable {rows : Rows} {client : Client}

/-- The workspace id of a binding stands for itself. -/
theorem Client.Fits.parse {v w d id : String} (fits : client.Fits rows v w d)
    (inv : rows.Inv host named bound) (parsed : host.parseUuid (Text.trim w) = some id) :
    id = w := by
  obtain ⟨isTrim, isParsed⟩ := trim_of_workspace inv fits.workspace
  rw [isTrim, isParsed] at parsed
  exact (Option.some.inj parsed).symm

/-- The key of a row the server lists for this workspace is the workspace's. -/
theorem keyOf_listed {account : PreparedAccountKey} {workspace : Workspace} {workspaceId : String}
    {key : SymmetricKey} (member : workspace ∈ rows.workspaces)
    (isId : workspace.workspaceId = workspaceId)
    (opened : workspaceKeyFromAccount account workspace = .ok key) :
    rows.KeyOf workspaceId key := by
  obtain ⟨blob, stored, isPlain⟩ := workspaceKeyFromAccount_ok opened
  exact ⟨workspace, member, isId, blob, stored, isPlain⟩

theorem rememberWorkspaceKey_then {β : Type} {vaultId workspaceId deviceId : String}
    {key : SymmetricKey} {program : Program β} {returned : β → World → Prop}
    (isNamed : bound → (s.clients device).Names vaultId workspaceId deviceId)
    (isKey : s.rows.KeyOf workspaceId key) (stops : ∀ s', s.KeepsNames device s' → stopped s')
    (continues : ∀ s', s.KeepsNames device s' →
      Safely host named bound device stopped program returned s') :
    Safely host named bound device stopped
      (do
        let _ : Unit ← store (.rememberWorkspaceKey vaultId key)
        program) returned s := by
  refine holds_store ?_ (fun s' relied => stops s' relied.names) ?_
  · intro s₁ relied₁ inv₁
    refine (inv₁.clients device).rememberWorkspaceKey ?_
    intro isBound w d isNamed'
    have sameW := (((inv₁.clients device).binding isBound).agree isNamed'
      (relied₁.names.named (isNamed isBound))).1
    rw [sameW]
    exact isKey.mono relied₁.rows
  · intro s₁ relied₁ _
    exact continues _ (relied₁.names.trans (World.KeepsNames.setClient rfl rfl))

theorem workspaceKeyForRun_safe {vaultId workspaceId deviceId : String}
    {accountKeyId passphrase : Option String} {remember : Bool}
    (isNamed : bound → (s.clients device).Names vaultId workspaceId deviceId)
    (stops : ∀ s', s.KeepsNames device s' → stopped s') :
    Safely host named bound device stopped
      (workspaceKeyForRun host vaultId workspaceId accountKeyId remember passphrase)
      (fun key s' => s.KeepsNames device s' ∧ (bound → s'.rows.KeyOf workspaceId key)) s := by
  refine holds_read (fun _ => rfl) (fun s' relied => stops s' relied.names) ?_
  intro s₁ relied₁ inv₁
  split
  · rename_i key found
    refine Prog.Holds.returns ⟨relied₁.names, ?_⟩
    intro isBound
    exact ((inv₁.clients device).binding isBound).slot (relied₁.names.named (isNamed isBound)) found
  have isNamed₁ : bound → (s₁.clients device).Names vaultId workspaceId deviceId :=
    fun isBound => relied₁.names.named (isNamed isBound)
  have stops₁ : ∀ s', s₁.KeepsNames device s' → stopped s' :=
    fun s' keeps => stops s' (relied₁.names.trans keeps)
  -- the key comes from the account root key, or from the phrase
  have unwrapped : ∀ s' (key : SymmetricKey), s₁.KeepsNames device s' →
      s'.rows.KeyOf workspaceId key →
      Safely host named bound device stopped
        (if remember then do
          let _ : Unit ← store (.rememberWorkspaceKey vaultId key)
          pure (some key)
        else pure (some key))
        (fun found s'' => s₁.KeepsNames device s'' ∧
          ∀ key', found = some key' → s''.rows.KeyOf workspaceId key') s' := by
    intro s' key keeps isKey
    split
    · refine rememberWorkspaceKey_then (fun isBound => keeps.named (isNamed₁ isBound)) isKey
        (fun s'' later => stops₁ s'' (keeps.trans later)) ?_
      intro s'' later
      refine Prog.Holds.returns ⟨keeps.trans later, ?_⟩
      rintro _ ⟨⟩
      exact isKey.mono later.rows
    · refine Prog.Holds.returns ⟨keeps, ?_⟩
      rintro _ ⟨⟩
      exact isKey
  refine Prog.Holds.andThen (?fromRoot : Safely host named bound device stopped _
    (fun found s' => s₁.KeepsNames device s' ∧
      ∀ key, found = some key → s'.rows.KeyOf workspaceId key) s₁) ?_
  case fromRoot =>
    cases accountKeyId with
    | none => exact Prog.Holds.returns ⟨World.KeepsNames.refl device s₁, by simp⟩
    | some accountKeyId =>
      refine holds_read (fun _ => rfl) (fun s' relied => stops₁ s' relied.names) ?_
      intro s₂ relied₂ _
      split
      · exact Prog.Holds.returns ⟨relied₂.names, by simp⟩
      · refine Prog.Holds.catchingThen (workspaceById_safe
          fun s' (later : s₂.Keeps device s') => later) ?_ ?_
        · rintro workspace s₃ ⟨later₃, member, isId⟩
          have keeps₃ := relied₂.names.trans later₃.names
          refine Prog.Holds.exceptThen (stops₁ s₃ keeps₃) ?_
          intro key opened
          exact unwrapped s₃ key keeps₃ (keyOf_listed member isId opened)
        · intro error s₃ later₃
          exact Prog.Holds.returns ⟨relied₂.names.trans later₃.names, by simp⟩
  rintro found s₂ ⟨keeps₂, isFound⟩
  have all₂ := relied₁.names.trans keeps₂
  cases found with
  | some key => exact Prog.Holds.returns ⟨all₂, fun _ => isFound key rfl⟩
  | none =>
    dsimp only
    split
    · exact Prog.Holds.throws (stops s₂ all₂)
    · rename_i phrase _
      cases accountKeyId with
      | none => exact Prog.Holds.throws (stops s₂ all₂)
      | some accountKeyId =>
        refine Prog.Holds.andThen (unlockAccountRootKey_safe
          fun s' later => stops s' (all₂.trans later.names)) ?_
        rintro root s₃ ⟨later₃, unlocks⟩
        have all₃ := all₂.trans later₃.names
        refine Prog.Holds.andThen (rememberAccount_safe unlocks
          fun s' later => stops s' (all₃.trans later.names)) ?_
        intro _ s₄ later₄
        have all₄ := all₃.trans later₄.names
        refine Prog.Holds.andThen (workspaceById_safe
          fun s' later => stops s' (all₄.trans later.names)) ?_
        rintro workspace s₅ ⟨later₅, member, isId⟩
        have all₅ := all₄.trans later₅.names
        refine Prog.Holds.exceptThen (stops s₅ all₅) ?_
        intro key opened
        have isKey := keyOf_listed member isId opened
        split
        · refine rememberWorkspaceKey_then (fun isBound => all₅.named (isNamed isBound)) isKey
            (fun s' later => stops s' (all₅.trans later)) ?_
          intro s₆ later₆
          have all₆ := all₅.trans later₆
          refine holds_keychain (fun _ => ⟨rfl, rfl, rfl, rfl, fun _ _ h => h⟩)
            (fun s' relied => stops s' (all₆.trans relied.names)) ?_
          intro s₇ relied₇ _
          exact Prog.Holds.returns
            ⟨(all₆.trans relied₇.names).trans (World.KeepsNames.setClient rfl rfl),
              fun _ => isKey.mono (later₆.rows.trans relied₇.rows)⟩
        · exact Prog.Holds.returns ⟨all₅, fun _ => isKey⟩

/-! ## The row of a run -/

/-- The row that a run writes: the input's, and true of the rows. -/
structure Rows.IsRow (rows : Rows) (input : PipelineInput) (vault : SyncVaultRecord) : Prop where
  vaultId : vault.vaultId = input.vaultId
  workspace : vault.remoteWorkspaceId = input.workspaceId
  device : vault.deviceId = input.deviceId
  records : rows.Records vault

/-- The vault is bound as the input says, and its row is the input's. -/
structure Client.InRun (client : Client) (input : PipelineInput) : Prop where
  named : client.Names input.vaultId input.workspaceId input.deviceId
  row : ∀ vault, client.vaults input.vaultId = some vault →
    vault.remoteWorkspaceId = input.workspaceId ∧ vault.deviceId = input.deviceId

variable {head : SyncHead}

theorem isRow_ensureRecord {newLocalHead : Option String} (binding : client.Binding rows)
    (isNamed : client.Names input.vaultId input.workspaceId input.deviceId)
    (isHead : ∀ commit, emptyToNone head.currentHeadCommitId = some commit →
      rows.HasCommit input.workspaceId commit)
    (isLocal : ∀ commit, newLocalHead = some commit → rows.HasCommit input.workspaceId commit) :
    rows.IsRow input (ensureRecord (client.vaults input.vaultId) input head newLocalHead) := by
  refine ⟨?_, rfl, rfl, records_ensureRecord ?_ isHead isLocal⟩
  · cases found : client.vaults input.vaultId with
    | none => rfl
    | some vault => exact (binding.row found).1
  · intro vault found
    exact ⟨(binding.row found).2, binding.compatible isNamed found⟩

variable {vault : SyncVaultRecord}

theorem Rows.IsRow.setRemoteHead (isRow : rows.IsRow input vault) {head : Option String}
    (isHead : ∀ commit, head = some commit → rows.HasCommit input.workspaceId commit) :
    rows.IsRow input { vault with remoteHeadCommitId := head } :=
  ⟨isRow.vaultId, isRow.workspace, isRow.device,
    isRow.records.setRemoteHead fun commit found => isRow.workspace ▸ isHead commit found⟩

/-- The row is written at the start of a pull or a push. -/
theorem upsertVault_then {β : Type} {program : Program β} {returned : β → World → Prop}
    (isNamed : bound → (s.clients device).Names input.vaultId input.workspaceId input.deviceId)
    (isRow : bound → s.rows.IsRow input vault) (stops : ∀ s', s.KeepsNames device s' → stopped s')
    (continues : ∀ s', s.KeepsNames device s' → (bound → (s'.clients device).InRun input) →
      Safely host named bound device stopped program returned s') :
    Safely host named bound device stopped
      (do
        let _ : Unit ← store (.upsertVault vault)
        program) returned s := by
  refine holds_store ?_ (fun s' relied => stops s' relied.names) ?_
  · intro s₁ relied₁ inv₁
    refine (inv₁.clients device).setVault ?_
    intro isBound
    have isRow' := isRow isBound
    refine ⟨rfl, isRow'.records.mono relied₁.rows, ?_⟩
    intro w d isNamed'
    rw [isRow'.vaultId] at isNamed'
    obtain ⟨rfl, rfl⟩ := ((inv₁.clients device).binding isBound).agree isNamed'
      (relied₁.names.named (isNamed isBound))
    exact .inl ⟨isRow'.workspace, isRow'.device⟩
  · intro s₁ relied₁ _
    have keeps : s.KeepsNames device (s₁.setClient device
        ((s₁.clients device).perform (.upsertVault vault)).2) :=
      relied₁.names.trans (World.KeepsNames.setClient rfl rfl)
    refine continues _ keeps fun isBound => ⟨keeps.named (isNamed isBound), ?_⟩
    intro vault' found
    have isRow' := isRow isBound
    simp only [World.setClient_client, Client.perform, Client.setVaults, isRow'.vaultId,
      update_self, Option.some.injEq] at found
    subst found
    exact ⟨isRow'.workspace, isRow'.device⟩

/-- The heads of the row, and its sequence number, are moved. -/
theorem Client.Good.moveVault (good : client.Good bound rows) (inRun : bound → client.InRun input)
    {move : SyncVaultRecord → SyncVaultRecord}
    (same : ∀ vault, (move vault).vaultId = vault.vaultId ∧
      (move vault).remoteWorkspaceId = vault.remoteWorkspaceId ∧
      (move vault).deviceId = vault.deviceId)
    (records : bound → ∀ vault, vault.remoteWorkspaceId = input.workspaceId →
      vault.deviceId = input.deviceId → rows.Records vault → rows.Records (move vault)) :
    (client.setVaults (Function.update client.vaults input.vaultId
      ((client.vaults input.vaultId).map move))).Good bound rows := by
  cases found : client.vaults input.vaultId with
  | none =>
    rw [map_none, ← found, update_eq_self]
    exact good
  | some vault =>
    refine good.setVault ?_
    intro isBound
    obtain ⟨sameV, sameW, sameD⟩ := same vault
    obtain ⟨isW, isD⟩ := (inRun isBound).row vault found
    obtain ⟨isV, isTrue⟩ := ((good.binding isBound).row found)
    refine ⟨sameV.trans isV, records isBound vault isW isD isTrue, ?_⟩
    intro w d isNamed
    obtain ⟨rfl, rfl⟩ := (good.binding isBound).agree isNamed (inRun isBound).named
    exact .inl ⟨sameW.trans isW, sameD.trans isD⟩

theorem Client.InRun.moveVault (inRun : client.InRun input)
    {move : SyncVaultRecord → SyncVaultRecord}
    (same : ∀ vault, (move vault).remoteWorkspaceId = vault.remoteWorkspaceId ∧
      (move vault).deviceId = vault.deviceId) :
    (client.setVaults (Function.update client.vaults input.vaultId
      ((client.vaults input.vaultId).map move))).InRun input := by
  refine ⟨inRun.named, ?_⟩
  intro vault found
  simp only [Client.setVaults, update_self, map_eq_some_iff] at found
  obtain ⟨before, isBefore, rfl⟩ := found
  obtain ⟨sameW, sameD⟩ := same before
  obtain ⟨isW, isD⟩ := inRun.row before isBefore
  exact ⟨sameW.trans isW, sameD.trans isD⟩

/-! ## The pull -/

/-- What the head of the run's workspace says is one of its commits. -/
theorem getHead_hasCommit {v d workspaceId : String} (inv : s.Inv host named bound)
    (isNamed : bound → (s.clients device).Names v workspaceId d) (isBound : bound)
    (answered : s.rows.getHead host workspaceId = .ok head) (commit : String)
    (isHead : emptyToNone head.currentHeadCommitId = some commit) :
    s.rows.HasCommit workspaceId commit := by
  simp only [Rows.getHead] at answered
  cases found : s.rows.getWorkspace host "GetHead" workspaceId with
  | error error =>
    rw [found] at answered
    cases answered
  | ok workspace =>
    rw [found] at answered
    cases answered
    obtain ⟨parsed, _, _⟩ := Rows.getWorkspace_ok found
    have fits := ((inv.clients device).binding isBound).fits (isNamed isBound)
    have isHead' : emptyToNone (s.rows.headOf workspace.workspaceId).currentHeadCommitId =
      some commit := isHead
    rw [fits.parse inv.rows parsed] at isHead'
    exact headOf_hasCommit isHead'

theorem listCommits_hasCommit {commits : List Commit} {v d workspaceId : String}
    (inv : s.Inv host named bound)
    (isNamed : bound → (s.clients device).Names v workspaceId d) (isBound : bound)
    (answered : s.rows.listCommits host workspaceId = .ok commits) :
    ∀ commit ∈ commits, s.rows.HasCommit workspaceId commit.commitId := by
  simp only [Rows.listCommits] at answered
  cases found : s.rows.getWorkspace host "ListCommits" workspaceId with
  | error error =>
    rw [found] at answered
    cases answered
  | ok workspace =>
    rw [found] at answered
    cases answered
    obtain ⟨parsed, _, _⟩ := Rows.getWorkspace_ok found
    have fits := ((inv.clients device).binding isBound).fits (isNamed isBound)
    intro commit member
    simp only [Rows.commitsOf, mem_filter, decide_eq_true_eq] at member
    rw [fits.parse inv.rows parsed] at member
    exact ⟨commit, member.1, member.2, rfl⟩

theorem applyCommits_safe {commits : List Commit} (inRun : bound → (s.clients device).InRun input)
    (known : bound → ∀ commit ∈ commits, s.rows.HasCommit input.workspaceId commit.commitId)
    (stops : ∀ s', s.KeepsNames device s' → stopped s') :
    Safely host named bound device stopped (applyCommits input.vaultId key commits)
      (fun _ s' => s.KeepsNames device s') s := by
  induction commits generalizing s with
  | nil => exact Prog.Holds.returns (World.KeepsNames.refl device s)
  | cons commit rest ih =>
    simp only [applyCommits]
    split
    · have inRun' : ∀ s', s.Rely device s' → bound → (s'.clients device).InRun input := by
        intro s' relied isBound
        rw [relied.client]
        exact inRun isBound
      have knownHere : ∀ s', s.Rely device s' → bound →
          s'.rows.HasCommit input.workspaceId commit.commitId :=
        fun s' relied isBound => (known isBound commit mem_cons_self).mono relied.rows
      refine holds_store ?_ (fun s' relied => stops s' relied.names) ?_
      · intro s₁ relied₁ inv₁
        refine (inv₁.clients device).moveVault (inRun' s₁ relied₁) (fun _ => ⟨rfl, rfl, rfl⟩) ?_
        intro isBound vault isW _ isTrue
        have isHead : s₁.rows.HasCommit vault.remoteWorkspaceId commit.commitId :=
          isW ▸ knownHere s₁ relied₁ isBound
        refine ⟨?_, ?_, isTrue.seq⟩ <;>
          · rintro _ ⟨⟩
            exact isHead
      · intro s₁ relied₁ _
        have keeps : s.KeepsNames device (s₁.setClient device
            ((s₁.clients device).perform
              (.updateVaultAfterPull input.vaultId commit.commitId)).2) :=
          relied₁.names.trans (World.KeepsNames.setClient rfl rfl)
        refine (ih ?_ ?_ fun s' later => stops s' (keeps.trans later)).mono ?_
        · intro isBound
          rw [World.setClient_client]
          exact (inRun' s₁ relied₁ isBound).moveVault fun _ => ⟨rfl, rfl⟩
        · intro isBound other member
          exact (known isBound other (mem_cons_of_mem _ member)).mono relied₁.rows
        · intro answer s' reached
          cases answer with
          | ok _ => exact keeps.trans reached
          | error _ => exact reached
    · exact Prog.Holds.throws (stops s (World.KeepsNames.refl device s))

theorem pullRemoteChanges_safe
    (isNamed : bound → (s.clients device).Names input.vaultId input.workspaceId input.deviceId)
    (stops : ∀ s', s.KeepsNames device s' → stopped s') :
    Safely host named bound device stopped (pullRemoteChanges input key)
      (fun _ s' => s.KeepsNames device s') s := by
  refine holds_server (fun _ _ _ => trivial) (fun s' relied => stops s' relied.names) ?_
  intro s₁ head relied₁ inv₁ answered grows₁
  have keeps₁ := (relied₁.trans grows₁).names
  have isHead : bound → ∀ commit, emptyToNone head.currentHeadCommitId = some commit →
      s₁.rows.HasCommit input.workspaceId commit :=
    fun isBound => getHead_hasCommit inv₁
      (fun isBound => relied₁.names.named (isNamed isBound)) isBound answered
  refine holds_read (fun _ => rfl) (fun s' relied => stops s' (keeps₁.trans relied.names)) ?_
  intro s₂ relied₂ inv₂
  have keeps₂ := keeps₁.trans relied₂.names
  have named₂ := fun isBound => keeps₂.named (isNamed isBound)
  refine upsertVault_then named₂ ?_ (fun s' later => stops s' (keeps₂.trans later)) ?_
  · intro isBound
    have isHead₂ := fun commit found =>
      ((isHead isBound commit found).mono grows₁.rows).mono relied₂.rows
    refine (isRow_ensureRecord ((inv₂.clients device).binding isBound) (named₂ isBound) isHead₂
      ?_).setRemoteHead isHead₂
    rintro _ ⟨⟩
  · intro s₃ later₃ inRun₃
    have keeps₃ := keeps₂.trans later₃
    split
    · exact Prog.Holds.returns keeps₃
    · refine holds_server (fun _ _ _ => trivial)
        (fun s' relied => stops s' (keeps₃.trans relied.names)) ?_
      intro s₄ commits relied₄ inv₄ listed grows₄
      have keeps₄ := keeps₃.trans (relied₄.trans grows₄).names
      refine Prog.Holds.exceptThen (stops _ keeps₄) ?_
      intro replay selected
      have inRun₄ : bound → ((s₄.setRows (s₄.rows.perform host (.listCommits
          input.workspaceId)).2).clients device).InRun input := by
        intro isBound
        rw [World.setRows_clients, relied₄.client]
        exact inRun₃ isBound
      refine (applyCommits_safe inRun₄ ?_ fun s' later => stops s' (keeps₄.trans later)).mono ?_
      · intro isBound commit member
        have isCommit := listCommits_hasCommit inv₄ (fun isBound => inRun₄ isBound |>.named)
          isBound listed commit ((selectReplayCommits_suffix _ selected).mem member)
        exact isCommit.mono grows₄.rows
      · intro answer s' reached
        cases answer with
        | ok _ => exact keeps₄.trans reached
        | error _ => exact reached

/-! ## The push -/

variable {signing : SigningKey}

theorem publishCommit_ok {commit : Commit} {expected : String}
    (published : (rows.publishCommit host commit expected signing).1 = .ok ()) :
    ∃ id, host.parseUuid (Text.trim commit.workspaceId) = some id ∧
      { commit with workspaceId := id } ∈
        (rows.publishCommit host commit expected signing).2.commits := by
  simp only [Rows.publishCommit] at published ⊢
  repeat' split at published
  all_goals cases published
  rename_i workspace found _ device _ signed isHead isNew
  obtain ⟨parsed, _, _⟩ := Rows.getWorkspace_ok found
  refine ⟨workspace.workspaceId, parsed, ?_⟩
  rw [if_neg signed, if_neg isHead, if_neg isNew]
  exact mem_append_right _ (mem_singleton.mpr rfl)

variable {plan : Option String}

theorem publishPlan_safe {checkpoint : Bool} (inRun : bound → (s.clients device).InRun input)
    (isKey : bound → s.rows.KeyOf input.workspaceId key)
    (stops : ∀ s', s.KeepsNames device s' → stopped s') :
    Safely host named bound device stopped
      (publishPlan vault input head key signing checkpoint plan)
      (fun _ s' => s.KeepsNames device s') s := by
  cases plan with
  | none => exact Prog.Holds.returns (World.KeepsNames.refl device s)
  | some commitId =>
    have parses : ∀ s', s.Rely device s' → s'.Inv host named bound → bound → ∀ id,
        host.parseUuid (Text.trim input.workspaceId) = some id → id = input.workspaceId := by
      intro s' relied inv isBound id parsed
      have isNamed := relied.names.named (inRun isBound).named
      exact (((inv.clients device).binding isBound).fits isNamed).parse inv.rows parsed
    refine holds_server ?_ (fun s' relied => stops s' relied.names) ?_
    · intro s' relied inv isBound id parsed
      rw [parses s' relied inv isBound id parsed]
      exact (isKey isBound).mono relied.rows
    intro s₁ _ relied₁ inv₁ published grows₁
    have keeps₁ := (relied₁.trans grows₁).names
    obtain ⟨id, parsed, isPublished⟩ := publishCommit_ok published
    have inRun₁ : ∀ s' : World, s'.clients device = s₁.clients device → bound →
        (s'.clients device).InRun input := by
      intro s' same isBound
      rw [same, relied₁.client]
      exact inRun isBound
    rw [← Prog.bind_pure (store _)]
    refine holds_store ?_ (fun s' relied => stops s' (keeps₁.trans relied.names)) ?_
    · intro s₂ relied₂ inv₂
      refine (inv₂.clients device).moveVault (inRun₁ s₂ relied₂.client) (fun _ => ⟨rfl, rfl, rfl⟩) ?_
      intro isBound record isW isD _
      have sameId := parses s₁ relied₁ inv₁ isBound id parsed
      have member := relied₂.rows.commits _ isPublished
      have isHead : s₂.rows.HasCommit record.remoteWorkspaceId commitId :=
        ⟨_, member, sameId.trans isW.symm, rfl⟩
      refine ⟨?_, ?_, .inr ⟨_, member, sameId.trans isW.symm, isD.symm, rfl⟩⟩ <;>
        · rintro _ ⟨⟩
          exact isHead
    · intro s₂ relied₂ _
      exact Prog.Holds.returns
        ((keeps₁.trans relied₂.names).trans (World.KeepsNames.setClient rfl rfl))

/-- Both pushes write the row and publish what is planned under its sequence number. -/
theorem push_safe (row : Option SyncVaultRecord → SyncHead → SyncVaultRecord)
    (check : SyncVaultRecord → SyncHead → Except SyncError Unit) (checkpoint : SyncHead → Bool)
    (isNamed : bound → (s.clients device).Names input.vaultId input.workspaceId input.deviceId)
    (isRow : ∀ (rows : Rows) (client : Client) (head : SyncHead), client.Binding rows →
      client.Names input.vaultId input.workspaceId input.deviceId →
      (∀ commit, emptyToNone head.currentHeadCommitId = some commit →
        rows.HasCommit input.workspaceId commit) →
      rows.IsRow input (row (client.vaults input.vaultId) head))
    (isKey : bound → s.rows.KeyOf input.workspaceId key)
    (stops : ∀ s', s.KeepsNames device s' → stopped s') :
    Safely host named bound device stopped
      (do
        let head : SyncHead ← server (.getHead input.workspaceId)
        let existing : Option SyncVaultRecord ← store (.getVault input.vaultId)
        let _ : Unit ← store (.upsertVault (row existing head))
        Prog.ofExcept (check (row existing head) head)
        publishPlan (row existing head) input head key signing (checkpoint head) plan)
      (fun _ s' => s.KeepsNames device s') s := by
  refine holds_server (fun _ _ _ => trivial) (fun s' relied => stops s' relied.names) ?_
  intro s₁ head relied₁ inv₁ answered grows₁
  have keeps₁ := (relied₁.trans grows₁).names
  refine holds_read (fun _ => rfl) (fun s' relied => stops s' (keeps₁.trans relied.names)) ?_
  intro s₂ relied₂ inv₂
  have keeps₂ := keeps₁.trans relied₂.names
  have named₂ := fun isBound => keeps₂.named (isNamed isBound)
  refine upsertVault_then named₂ ?_ (fun s' later => stops s' (keeps₂.trans later)) ?_
  · intro isBound
    refine isRow s₂.rows (s₂.clients device) head ((inv₂.clients device).binding isBound)
      (named₂ isBound) ?_
    intro commit isHead
    have known := getHead_hasCommit inv₁ (fun isBound => relied₁.names.named (isNamed isBound))
      isBound answered commit isHead
    exact (known.mono grows₁.rows).mono relied₂.rows
  · intro s₃ later₃ inRun₃
    have keeps₃ := keeps₂.trans later₃
    refine Prog.Holds.exceptThen (stops s₃ keeps₃) ?_
    intro _ _
    refine (publishPlan_safe inRun₃ (fun isBound => (isKey isBound).mono keeps₃.rows)
      fun s' later => stops s' (keeps₃.trans later)).mono ?_
    intro answer s' reached
    cases answer with
    | ok _ => exact keeps₃.trans reached
    | error _ => exact reached

theorem pushLocalChanges_safe
    (isNamed : bound → (s.clients device).Names input.vaultId input.workspaceId input.deviceId)
    (isKey : bound → s.rows.KeyOf input.workspaceId key)
    (stops : ∀ s', s.KeepsNames device s' → stopped s') :
    Safely host named bound device stopped (pushLocalChanges input key signing plan)
      (fun _ s' => s.KeepsNames device s') s := by
  refine push_safe (fun existing head => ensureVaultRecord existing input head)
    (fun vault head => ensureLocalHeadCanPush vault head.currentHeadCommitId)
    (fun head => head.currentHeadCommitId = "") isNamed ?_ isKey stops
  intro rows client head binding isNamed' isHead
  exact isRow_ensureRecord binding isNamed' isHead isHead

theorem pushMergeCommit_safe {localParent : String}
    (isNamed : bound → (s.clients device).Names input.vaultId input.workspaceId input.deviceId)
    (isKey : bound → s.rows.KeyOf input.workspaceId key)
    (stops : ∀ s', s.KeepsNames device s' → stopped s') :
    Safely host named bound device stopped
      (pushMergeCommit input key signing localParent plan)
      (fun _ s' => s.KeepsNames device s') s := by
  refine push_safe (fun existing head => ensureMergeVaultRecord existing input head)
    (fun vault head => ensureMergeParentCanPush vault head.currentHeadCommitId localParent)
    (fun _ => false) isNamed ?_ isKey stops
  intro rows client head binding isNamed' isHead
  exact (isRow_ensureRecord binding isNamed' isHead isHead).setRemoteHead isHead

/-! ## The run -/

theorem requiredStatusValue_ok {value field result : String}
    (isResult : requiredStatusValue value field = .ok result) : result = Text.trim value := by
  simp only [requiredStatusValue] at isResult
  split at isResult <;> cases isResult
  rename_i isTrimmed
  exact (nonEmptyTrimmed_some isTrimmed).1

/-- A run leaves the status as it found it. -/
theorem runSyncOnce_safe {run : RunInput} :
    Safely host named bound device (fun _ => True) (runSyncOnce host run)
      (fun status s' => (s'.clients device).status = status) s := by
  refine holds_read (fun _ => rfl) (fun _ _ => trivial) ?_
  intro s₁ _ inv₁
  split
  · exact Prog.Holds.throws trivial
  rename_i config isConfig
  split
  · exact Prog.Holds.throws trivial
  refine Prog.Holds.exceptThen trivial ?_
  intro vaultId isV
  refine Prog.Holds.exceptThen trivial ?_
  intro workspaceId isW
  refine Prog.Holds.exceptThen trivial ?_
  intro deviceId isD
  refine Prog.Holds.exceptThen trivial ?_
  intro vaultRoot _
  refine Prog.Holds.exceptThen trivial ?_
  intro _ _
  have isNamed : bound → (s₁.clients device).Names vaultId workspaceId deviceId := by
    intro isBound
    have isFit := ((inv₁.clients device).binding isBound).fits
      (.inl ⟨config, isConfig, rfl, rfl, rfl⟩)
    rw [requiredStatusValue_ok isV, requiredStatusValue_ok isW, requiredStatusValue_ok isD,
      trim_of_opens isFit.opens, isFit.device, (trim_of_workspace inv₁.rows isFit.workspace).1]
    exact .inl ⟨config, isConfig, rfl, rfl, rfl⟩
  refine Prog.Holds.andThen (workspaceKeyForRun_safe isNamed fun _ _ => trivial) ?_
  rintro key s₂ ⟨keeps₂, isKey₂⟩
  refine holds_read (fun _ => rfl) (fun _ _ => trivial) ?_
  intro s₃ relied₃ _
  have keeps₃ := keeps₂.trans relied₃.names
  have isKey₃ := fun isBound => (isKey₂ isBound).mono relied₃.rows
  split
  · exact Prog.Holds.throws trivial
  let input : PipelineInput := ⟨vaultId, vaultRoot, workspaceId, deviceId⟩
  have namedAt : ∀ s', s₁.KeepsNames device s' → bound →
      (s'.clients device).Names input.vaultId input.workspaceId input.deviceId :=
    fun s' keeps isBound => keeps.named (isNamed isBound)
  refine Prog.Holds.andThen (pullRemoteChanges_safe (namedAt s₃ keeps₃) fun _ _ => trivial) ?_
  intro _ s₄ later₄
  have keeps₄ := keeps₃.trans later₄
  refine holds_read (fun _ => rfl) (fun _ _ => trivial) ?_
  intro s₅ relied₅ _
  have keeps₅ := keeps₄.trans relied₅.names
  have isKey₅ := fun isBound => (isKey₃ isBound).mono (later₄.rows.trans relied₅.rows)
  refine Prog.Holds.catchingThen (pushLocalChanges_safe (namedAt s₅ keeps₅) isKey₅
    fun s' later => later) ?_ ?_
  · intro _ s₆ later₆
    exact Prog.Holds.returns (keeps₅.trans later₆).status
  · intro error s₆ later₆
    have keeps₆ := keeps₅.trans later₆
    have isKey₆ := fun isBound => (isKey₅ isBound).mono later₆.rows
    dsimp only
    split
    · refine Prog.Holds.andThen (pullRemoteChanges_safe (namedAt s₆ keeps₆) fun _ _ => trivial) ?_
      intro _ s₇ later₇
      have keeps₇ := keeps₆.trans later₇
      have isKey₇ := fun isBound => (isKey₆ isBound).mono later₇.rows
      split
      · refine Prog.Holds.andThen
          (pushLocalChanges_safe (namedAt s₇ keeps₇) isKey₇ fun _ _ => trivial) ?_
        exact fun _ s₈ later₈ => Prog.Holds.returns (keeps₇.trans later₈).status
      · refine Prog.Holds.andThen
          (pushMergeCommit_safe (namedAt s₇ keeps₇) isKey₇ fun _ _ => trivial) ?_
        exact fun _ s₈ later₈ => Prog.Holds.returns (keeps₇.trans later₈).status
    · exact Prog.Holds.throws trivial

theorem clearBindingIfCurrentWorkspaceMissing_safe {error : SyncError} :
    Safely host named bound device (fun _ => True) (clearBindingIfCurrentWorkspaceMissing error)
      (fun _ _ => True) s := by
  refine holds_read (fun _ => rfl) (fun _ _ => trivial) ?_
  intro s₁ _ _
  split
  · exact Prog.Holds.returns trivial
  split
  · split
    · exact Prog.Holds.returns trivial
    · refine holds_server (fun _ _ _ => trivial) (fun _ _ => trivial) ?_
      intro s₂ _ _ _ _ _
      split
      · exact Prog.Holds.returns trivial
      · exact clearCurrentWorkspaceBinding_safe
  · exact Prog.Holds.returns trivial

theorem syncRunOnce_safe {run : RunInput} (inv : s.Inv host named bound) :
    Safely host named bound device (fun _ => True) (syncRunOnce host run) (fun _ _ => True) s := by
  have keepsInv : ∀ s (call : Call) (how : Delivery), World.Inv host named bound s → True →
      World.May host named bound device s call →
      World.Inv host named bound (World.exec host device call how s).2 :=
    fun s call how inv _ isMay => (inv.exec isMay).1
  have ran : Safely host named bound device (fun _ => True) (runSyncOnce host run)
      (fun status s' => (s'.clients device).status = status ∧ s'.Inv host named bound) s := by
    refine (runSyncOnce_safe.invariant keepsInv inv).mono ?_
    intro answer s' reached
    cases answer with
    | ok status => exact reached
    | error error => trivial
  refine Prog.Holds.catchingThen ran ?_ ?_
  · rintro status s₁ ⟨isStatus, inv₁⟩
    exact persistRuntimeStatus_safe (congrArg Status.config isStatus) inv₁
  · intro error s₁ _
    refine Prog.Holds.catchingThen clearBindingIfCurrentWorkspaceMissing_safe ?_ ?_
    · exact fun _ _ _ => Prog.Holds.throws trivial
    · exact fun _ _ _ => Prog.Holds.throws trivial

end Run

/-! ## All commands -/

/-- The condition on the commands of a run: a workspace is renamed by the text of its id,
and a vault is configured as `ConfigureOk` says. -/
def commandsOk (host : Host) (named bound : Prop) :
    Machine.Condition World Nat Command Delivery Empty Call where
  start device world
    | .renameWorkspace request => named → request.Canonical host
    | .configureVault _ config => bound → ConfigureOk (world.clients device) config
    | _ => True
  call _ _ _ _ := True
  env _ _ := True

/-- **The invariant holds in every state of every run of any number of desktops.** -/
theorem desktops_safe {host : Host} {named bound : Prop}
    {c : Machine.Config World Nat Call.Res SyncError Unit}
    (reached : ((desktops host).system (· = World.initial)).ReachableBy
      (commandsOk host named bound).meets c) :
    c.shared.Inv host named bound := by
  have initial : ∀ s, s = World.initial → World.Inv host named bound s := by
    rintro _ rfl
    exact World.Inv.initial
  have calls : ∀ (device : Nat) (call : Call) (how : Delivery) (s : World),
      World.Inv host named bound s → (commandsOk host named bound).call device s call how →
      World.May host named bound device s call →
      World.Inv host named bound ((desktops host).exec device call how s).2 ∧
        ∀ other, other ≠ device → World.Rely other s ((desktops host).exec device call how s).2 :=
    fun _ _ _ _ inv _ isMay => inv.exec isMay
  have starts : ∀ (device : Nat) (command : Command) (s : World), World.Inv host named bound s →
      (commandsOk host named bound).start device s command →
      ((desktops host).program device command).Holds
        ((desktops host).context (commandsOk host named bound) (World.Inv host named bound)
          World.Rely (World.May host named bound) device)
        (Prog.ends (fun _ => True) fun _ _ => True) s := by
    intro device command s inv isOk
    cases command with
    | listWorkspaces passphrase => exact syncListWorkspaces_safe
    | createWorkspace entropy request => exact syncCreateWorkspace_safe
    | renameWorkspace request => exact syncRenameWorkspace_safe isOk
    | deleteWorkspace workspaceId => exact syncDeleteWorkspace_safe
    | configureVault entropy config => exact syncConfigureVault_safe isOk
    | disconnectVault => exact syncDisconnectVault_safe
    | setEnabled enabled => exact syncSetEnabled_safe
    | openVault rootPath => exact restoreVaultConfigForRoot_safe
    | runOnce run => exact syncRunOnce_safe inv
  have stable : ∀ (device : Nat) (answer : Except SyncError Unit) (s s' : World),
      Prog.ends (fun _ : World => True) (fun _ _ => True) answer s → World.Rely device s s' →
        Prog.ends (fun _ : World => True) (fun _ _ => True) answer s' := by
    intro _ answer _ _ _ _
    cases answer <;> trivial
  have trans : ∀ (device : Nat) (a b c : World), World.Rely device a b → World.Rely device b c →
      World.Rely device a c := fun _ _ _ _ => World.Rely.trans
  exact (Machine.safe initial trans stable (fun event => nomatch event) calls
    (fun device s inv => inv.crash device) (fun device s _ => World.Rely.refl device s) starts
    reached).1

/-! ## Concrete runs -/

/-- Desktop `0` runs a command whose calls go this way. -/
def runs (command : Command) (calls : List Delivery) :
    List (Machine.Label Nat Command Delivery Empty) :=
  .start 0 command :: calls.map (.call 0) ++ [.finish 0]

def answers (n : Nat) : List Delivery := List.replicate n .answered

/-- No program is running and nothing is stored. -/
def idle : Machine.Config World Nat Call.Res SyncError Unit where
  shared := .initial
  running _ := none

theorem reachable_idle {host : Host}
    {ok : Machine.Config World Nat Call.Res SyncError Unit →
      Machine.Label Nat Command Delivery Empty → Prop} :
    ((desktops host).system (· = World.initial)).ReachableBy ok idle :=
  .start ⟨rfl, fun _ => rfl⟩

/-- A step that is no start of a command with a condition. -/
def unconditional : Machine.Label Nat Command Delivery Empty → Bool
  | .start _ (.renameWorkspace _) => false
  | .start _ (.configureVault _ _) => false
  | _ => true

theorem meets_of_unconditional {host : Host} {named bound : Prop}
    {label : Machine.Label Nat Command Delivery Empty} (isFree : unconditional label = true)
    (c : Machine.Config World Nat Call.Res SyncError Unit) :
    (commandsOk host named bound).meets c label := by
  cases label with
  | start device command =>
    cases command with
    | renameWorkspace request => cases isFree
    | configureVault entropy config => cases isFree
    | _ => trivial
  | call device how => exact fun _ _ _ => trivial
  | _ => trivial

end Kuku.Account
