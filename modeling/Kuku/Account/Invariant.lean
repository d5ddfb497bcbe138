/-
# Account.Invariant -- what a desktop's stores keep, and the rules for its programs

* `Client.Good`: every account root key in the keychain is the account's, and, under
  `bound`, the binding of every vault is one: whatever names a vault (the status or a
  file) names the same workspace and device, the remembered key is that workspace's, and
  the row's heads and sequence number belong to the workspace and device the row names.
* `rely`: the other desktops do not touch this one's stores, and the rows only grow.
* `holds_server`, `holds_store`: a program makes its next call; the server's call is sound
  and the stores are good after the store's.
-/
import Kuku.Account.RowsInvariant

namespace Kuku.Account

open Kuku.Theory Kuku.Sync Function

/-- The status or a file binds the vault to this workspace and device. -/
def Client.Names (client : Client) (vaultId workspaceId deviceId : String) : Prop :=
  (∃ config, client.status.config = some config ∧ config.vaultId = vaultId ∧
    config.remoteWorkspaceId = workspaceId ∧ config.deviceId = deviceId) ∨
  ∃ rootPath file, client.configFiles rootPath = some file ∧ file.vaultId = vaultId ∧
    file.remoteWorkspaceId = workspaceId ∧ file.deviceId = deviceId

/-- A row that has not been synced. -/
def Unsynced (vault : SyncVaultRecord) : Prop :=
  vault.localHeadCommitId = none ∧ vault.remoteHeadCommitId = none ∧ vault.nextDeviceSeq = 1

instance (vault : SyncVaultRecord) : Decidable (Unsynced vault) :=
  inferInstanceAs (Decidable (_ ∧ _ ∧ _))

/-- The commit is one of the workspace's. -/
def Rows.HasCommit (rows : Rows) (workspaceId commitId : String) : Prop :=
  ∃ commit ∈ rows.commits, commit.workspaceId = workspaceId ∧ commit.commitId = commitId

/-- The row's heads are commits of its workspace, and its sequence number is the first or
follows a commit of its device. -/
structure Rows.Records (rows : Rows) (vault : SyncVaultRecord) : Prop where
  localHead : ∀ head, vault.localHeadCommitId = some head →
    rows.HasCommit vault.remoteWorkspaceId head
  remoteHead : ∀ head, vault.remoteHeadCommitId = some head →
    rows.HasCommit vault.remoteWorkspaceId head
  seq : vault.nextDeviceSeq = 1 ∨ ∃ commit ∈ rows.commits,
    commit.workspaceId = vault.remoteWorkspaceId ∧ commit.authorDeviceId = vault.deviceId ∧
      vault.nextDeviceSeq = commit.deviceSeq + 1

/-- A vault is bound to one workspace and device. -/
structure Client.Binding (rows : Rows) (client : Client) : Prop where
  text : ∀ {v w d}, client.Names v w d → openSyncDbForVault v = .ok () ∧ Text.trim d = d ∧
    ∃ workspace ∈ rows.workspaces, workspace.workspaceId = w
  agree : ∀ {v w d w' d'}, client.Names v w d → client.Names v w' d' → w = w' ∧ d = d'
  slot : ∀ {v w d key}, client.Names v w d → client.keychain.workspaceKeys v = some key →
    rows.KeyOf w key
  row : ∀ {v vault}, client.vaults v = some vault → vault.vaultId = v ∧ rows.Records vault
  compatible : ∀ {v w d vault}, client.Names v w d → client.vaults v = some vault →
    (vault.remoteWorkspaceId = w ∧ vault.deviceId = d) ∨ Unsynced vault

structure Client.Good (bound : Prop) (rows : Rows) (client : Client) : Prop where
  root : ∀ {id key}, client.keychain.accountRootKeys id = some key → rows.Unlocks id key
  binding : bound → client.Binding rows

/-- **The invariant of the rows and all desktops.** -/
structure World.Inv (host : Host) (named bound : Prop) (world : World) : Prop where
  rows : world.rows.Inv host named bound
  clients : ∀ device, (world.clients device).Good bound world.rows

/-- What a desktop relies on. -/
structure World.Rely (device : Nat) (a b : World) : Prop where
  client : b.clients device = a.clients device
  rows : a.rows.Le b.rows

/-- The calls a desktop may make. -/
def World.May (host : Host) (named bound : Prop) (device : Nat) (world : World) : Call → Prop
  | .server call => world.rows.Sound host named bound call
  | .store call => ((world.clients device).perform call).2.Good bound world.rows

/-- The client's stores are replaced. -/
def World.setClient (world : World) (device : Nat) (client : Client) : World :=
  { world with clients := Function.update world.clients device client }

def World.setRows (world : World) (rows : Rows) : World :=
  { world with rows := rows }

@[simp] theorem World.setClient_rows (world : World) (device : Nat) (client : Client) :
    (world.setClient device client).rows = world.rows := rfl

@[simp] theorem World.setClient_client (world : World) (device : Nat) (client : Client) :
    (world.setClient device client).clients device = client := by
  simp [World.setClient]

@[simp] theorem World.setRows_rows (world : World) (rows : Rows) :
    (world.setRows rows).rows = rows := rfl

@[simp] theorem World.setRows_clients (world : World) (rows : Rows) :
    (world.setRows rows).clients = world.clients := rfl

/-! ## Growth of the rows -/

section Growth

variable {a b : Rows} {bound : Prop}

theorem Rows.HasCommit.mono {workspaceId commitId : String} (has : a.HasCommit workspaceId commitId)
    (le : a.Le b) : b.HasCommit workspaceId commitId := by
  obtain ⟨commit, member, isHead⟩ := has
  exact ⟨commit, le.commits commit member, isHead⟩

theorem Rows.Records.mono {vault : SyncVaultRecord} (records : a.Records vault) (le : a.Le b) :
    b.Records vault := by
  refine ⟨fun head isHead => (records.localHead head isHead).mono le,
    fun head isHead => (records.remoteHead head isHead).mono le, ?_⟩
  rcases records.seq with first | ⟨commit, member, isSeq⟩
  · exact .inl first
  · exact .inr ⟨commit, le.commits commit member, isSeq⟩

theorem Client.Binding.mono {client : Client} (binding : client.Binding a) (le : a.Le b) :
    client.Binding b := by
  refine ⟨?_, binding.agree, fun named slot => (binding.slot named slot).mono le,
    fun found => ⟨(binding.row found).1, (binding.row found).2.mono le⟩, binding.compatible⟩
  intro v w d named
  obtain ⟨opens, isTrimmed, workspace, member, rfl⟩ := binding.text named
  obtain ⟨later, isMember, sameId, _⟩ := le.workspaces workspace member
  exact ⟨opens, isTrimmed, later, isMember, sameId⟩

theorem Client.Good.mono {client : Client} (good : client.Good bound a) (le : a.Le b) :
    client.Good bound b :=
  ⟨fun found => (good.root found).mono le, fun isBound => (good.binding isBound).mono le⟩

end Growth

theorem World.Rely.refl (device : Nat) (world : World) : world.Rely device world :=
  ⟨rfl, Rows.Le.refl _⟩

theorem World.Rely.trans {device : Nat} {a b c : World} (first : a.Rely device b)
    (second : b.Rely device c) : a.Rely device c :=
  ⟨second.client.trans first.client, first.rows.trans second.rows⟩

/-! ## Every call keeps the invariant -/

section Calls

variable {host : Host} {named bound : Prop} {world : World} {device : Nat}

theorem World.Inv.setClient (inv : world.Inv host named bound) {client : Client}
    (good : client.Good bound world.rows) : (world.setClient device client).Inv host named bound := by
  refine ⟨inv.rows, ?_⟩
  intro other
  by_cases same : other = device
  · subst same
    simpa using good
  · simpa [World.setClient, update_of_ne same] using inv.clients other

theorem World.Inv.setRows (inv : world.Inv host named bound) {rows : Rows}
    (rowsInv : rows.Inv host named bound) (le : world.rows.Le rows) :
    (world.setRows rows).Inv host named bound :=
  ⟨rowsInv, fun other => (inv.clients other).mono le⟩

theorem World.rely_setClient {other : Nat} (differ : other ≠ device) (client : Client) :
    world.Rely other (world.setClient device client) :=
  ⟨by simp [World.setClient, update_of_ne differ], Rows.Le.refl _⟩

/-- What a call does: the rows are performed on, the stores are performed on, or nothing. -/
theorem World.exec_cases (call : Call) (how : Delivery) :
    (∃ error, World.exec host device call how world = (.error error, world)) ∨
    (∃ c, call = .server c ∧
      (World.exec host device call how world).2 = world.setRows (world.rows.perform host c).2) ∨
    ∃ c, call = .store c ∧
      (World.exec host device call how world).2 =
        world.setClient device ((world.clients device).perform c).2 := by
  cases call with
  | server c =>
    cases how with
    | answered => exact .inr (.inl ⟨c, rfl, rfl⟩)
    | rejected error => exact .inl ⟨error, rfl⟩
    | lost error => exact .inr (.inl ⟨c, rfl, rfl⟩)
  | store c =>
    cases how with
    | answered => exact .inr (.inr ⟨c, rfl, rfl⟩)
    | rejected error =>
      cases isMemory : World.infallible c with
      | true => exact .inr (.inr ⟨c, rfl, by simp [World.exec, isMemory]; rfl⟩)
      | false => exact .inl ⟨error, by simp [World.exec, isMemory]⟩
    | lost error =>
      cases isMemory : World.infallible c with
      | true => exact .inr (.inr ⟨c, rfl, by simp [World.exec, isMemory]; rfl⟩)
      | false => exact .inl ⟨error, by simp [World.exec, isMemory]⟩

theorem World.Inv.exec (inv : world.Inv host named bound) {call : Call} {how : Delivery}
    (isMay : world.May host named bound device call) :
    (World.exec host device call how world).2.Inv host named bound ∧
      ∀ other, other ≠ device → world.Rely other (World.exec host device call how world).2 := by
  rcases World.exec_cases call how with ⟨error, same⟩ | ⟨c, rfl, after⟩ | ⟨c, rfl, after⟩
  · rw [same]
    exact ⟨inv, fun other _ => World.Rely.refl other world⟩
  · rw [after]
    obtain ⟨rowsInv, le⟩ := inv.rows.perform isMay
    exact ⟨inv.setRows rowsInv le, fun other _ => ⟨rfl, le⟩⟩
  · rw [after]
    exact ⟨inv.setClient isMay, fun other differ => World.rely_setClient differ _⟩

/-- A crash forgets the status, and with it a name of the vault. -/
theorem World.Inv.crash (inv : world.Inv host named bound) (device : Nat) :
    (World.crash device world).Inv host named bound ∧
      ∀ other, other ≠ device → world.Rely other (World.crash device world) := by
  have forgets : ∀ {v w d}, ({ world.clients device with status := ⟨none, false⟩ } : Client).Names
      v w d → (world.clients device).Names v w d := by
    intro v w d isNamed
    rcases isNamed with ⟨config, isConfig, _⟩ | byFile
    · cases isConfig
    · exact .inr byFile
  have good := inv.clients device
  refine ⟨inv.setClient ⟨good.root, ?_⟩, fun other differ => World.rely_setClient differ _⟩
  intro isBound
  have binding := good.binding isBound
  exact ⟨fun isNamed => binding.text (forgets isNamed),
    fun first second => binding.agree (forgets first) (forgets second),
    fun isNamed slot => binding.slot (forgets isNamed) slot,
    fun found => binding.row found,
    fun isNamed found => binding.compatible (forgets isNamed) found⟩

theorem World.Inv.initial : World.initial.Inv host named bound := by
  refine ⟨Rows.Inv.empty, ?_⟩
  intro device
  have noName : ∀ {v w d}, ¬ Client.fresh.Names v w d := by
    intro v w d isNamed
    rcases isNamed with ⟨_, isConfig, _⟩ | ⟨_, _, found, _⟩
    · cases isConfig
    · cases found
  constructor
  · intro id key found
    cases found
  · intro _
    exact ⟨fun isNamed => absurd isNamed noName, fun isNamed => absurd isNamed noName,
      fun isNamed => absurd isNamed noName, (by intro v vault found; cases found),
      fun isNamed => absurd isNamed noName⟩

end Calls

/-! ## The rules for programs -/

section Rules

variable {host : Host} {named bound : Prop} {device : Nat}

/-- What the programs of a desktop are proved against.  The conditions of a run are on the
commands it starts, so every call may go any way. -/
abbrev context (host : Host) (named bound : Prop) (device : Nat) :
    Prog.Context Delivery World Call.Res SyncError where
  exec := World.exec host device
  allowed _ _ _ := True
  inv := World.Inv host named bound
  rely := World.Rely device
  may := World.May host named bound device

variable {β : Type} {s : World} {stopped : World → Prop} {returned : β → World → Prop}

theorem holds_server {call : ServerCall} {f : call.Res → Program β}
    (sound : ∀ s', s.Rely device s' → s'.Inv host named bound → s'.rows.Sound host named bound call)
    (stops : ∀ s', s.Rely device s' → stopped s')
    (continues : ∀ s' value, s.Rely device s' → s'.Inv host named bound →
      (s'.rows.perform host call).1 = .ok value →
      s'.Rely device (s'.setRows (s'.rows.perform host call).2) →
      (f value).Holds (context host named bound device) (Prog.ends stopped returned)
        (s'.setRows (s'.rows.perform host call).2)) :
    (server call >>= f).Holds (context host named bound device) (Prog.ends stopped returned) s := by
  have grows : ∀ s', s.Rely device s' → s'.Inv host named bound →
      s'.Rely device (s'.setRows (s'.rows.perform host call).2) :=
    fun s' relied inv => ⟨rfl, (inv.rows.perform (sound s' relied inv)).2⟩
  refine Prog.Holds.perform sound ?_ ?_
  · intro s' how error relied inv _ _
    cases how with
    | answered => exact stops _ (relied.trans (grows s' relied inv))
    | rejected e => exact stops s' relied
    | lost e => exact stops _ (relied.trans (grows s' relied inv))
  · intro s' how value relied inv _ answered
    cases how with
    | answered => exact continues s' value relied inv answered (grows s' relied inv)
    | rejected e => cases answered
    | lost e => cases answered

theorem holds_store {call : StoreCall} {f : call.Res → Program β}
    (good : ∀ s', s.Rely device s' → s'.Inv host named bound →
      ((s'.clients device).perform call).2.Good bound s'.rows)
    (stops : ∀ s', s.Rely device s' → stopped s')
    (continues : ∀ s', s.Rely device s' → s'.Inv host named bound →
      (f ((s'.clients device).perform call).1).Holds (context host named bound device)
        (Prog.ends stopped returned)
        (s'.setClient device ((s'.clients device).perform call).2)) :
    (store call >>= f).Holds (context host named bound device) (Prog.ends stopped returned) s := by
  have performed : ∀ s' value, s.Rely device s' → s'.Inv host named bound →
      (s'.perform host device (.store call)).1 = .ok value →
      (f value).Holds (context host named bound device) (Prog.ends stopped returned)
        (s'.perform host device (.store call)).2 := by
    intro s' value relied inv answered
    cases answered
    exact continues s' relied inv
  refine Prog.Holds.perform good ?_ ?_
  · intro s' how error relied inv _ answered
    cases how with
    | answered => cases answered
    | rejected e =>
      simp only [World.exec] at answered ⊢
      split at answered
      · cases answered
      · rename_i fallible
        rw [if_neg fallible]
        exact stops s' relied
    | lost e =>
      simp only [World.exec] at answered ⊢
      split at answered
      · cases answered
      · rename_i fallible
        rw [if_neg fallible]
        exact stops s' relied
  · intro s' how value relied inv _ answered
    cases how with
    | answered => exact performed s' value relied inv answered
    | rejected e =>
      simp only [World.exec] at answered ⊢
      split at answered
      · rename_i memory
        rw [if_pos memory]
        exact performed s' value relied inv answered
      · cases answered
    | lost e =>
      simp only [World.exec] at answered ⊢
      split at answered
      · rename_i memory
        rw [if_pos memory]
        exact performed s' value relied inv answered
      · cases answered

theorem World.setClient_self (world : World) (device : Nat) :
    world.setClient device (world.clients device) = world := by
  simp [World.setClient]

/-- A call that only reads a store. -/
theorem holds_read {call : StoreCall} {f : call.Res → Program β}
    (reads : ∀ client : Client, (client.perform call).2 = client)
    (stops : ∀ s', s.Rely device s' → stopped s')
    (continues : ∀ s', s.Rely device s' → s'.Inv host named bound →
      (f ((s'.clients device).perform call).1).Holds (context host named bound device)
        (Prog.ends stopped returned) s') :
    (store call >>= f).Holds (context host named bound device) (Prog.ends stopped returned) s := by
  refine holds_store ?_ stops ?_
  · intro s' _ inv
    rw [reads]
    exact inv.clients device
  · intro s' relied inv
    rw [reads, World.setClient_self]
    exact continues s' relied inv

end Rules

end Kuku.Account
