/-
# Account.WorkspaceKey -- one recoverable key per workspace

`World.OneKey` is what a second desktop with the recovery phrase relies on: every commit
of a workspace is sealed under the key that the workspace's row gives with the account
root key, and the row of a vault carries the heads and the sequence number of the
workspace and the device it names.

It holds in every run whose vaults are configured as `ConfigureOk` says
(`oneKey_of_configured`), and it fails when a vault is switched to another workspace while
it is bound: the row keeps the old heads, and a switch that stops half way leaves the old
binding with the new key (`not_oneKey_after_switch`).
-/
import Kuku.Account.RunSafety

namespace Kuku.Account

open Kuku.Theory Kuku.Sync Option

/-- What a run has published opens with the key the recovery phrase leads to. -/
def Rows.Recoverable (host : Host) (rows : Rows) : Prop :=
  ∀ commit ∈ rows.commits, ∃ accountKeyId envelope,
    rows.accountKey = some (accountKeyId, envelope) ∧
    (∃ phrase, unwrapAccountRootKey host envelope phrase = .ok envelope.accountRootKey) ∧
    ∃ workspace ∈ rows.workspaces, workspace.workspaceId = commit.workspaceId ∧
      workspaceKeyFromAccount ⟨accountKeyId, envelope.accountRootKey, none⟩ workspace =
        .ok commit.workspaceKey

/-- The row of every vault belongs to the workspace and the device it names. -/
def World.OwnRows (world : World) : Prop :=
  ∀ device vaultId vault, (world.clients device).vaults vaultId = some vault →
    world.rows.Records vault

structure World.OneKey (host : Host) (world : World) : Prop where
  recoverable : world.rows.Recoverable host
  rows : world.OwnRows

variable {host : Host}

/-- The key of a workspace is the one its row gives with the account root key. -/
theorem Rows.KeyOf.recovered {named bound : Prop} {rows : Rows} {workspaceId : String}
    {key : SymmetricKey} (inv : rows.Inv host named bound) (isKey : rows.KeyOf workspaceId key) :
    ∃ accountKeyId envelope,
      rows.accountKey = some (accountKeyId, envelope) ∧
      ∃ workspace ∈ rows.workspaces, workspace.workspaceId = workspaceId ∧
        workspaceKeyFromAccount ⟨accountKeyId, envelope.accountRootKey, none⟩ workspace =
          .ok key := by
  obtain ⟨workspace, member, isId, blob, stored, isPlain⟩ := isKey
  have seals := inv.keyed workspace member
  rw [stored] at seals
  obtain ⟨_, accountKeyId, envelope, account, _, _⟩ := id seals
  obtain ⟨positive, opened⟩ := seals.opens ⟨envelope, account, rfl⟩
  refine ⟨accountKeyId, envelope, account, workspace, member, isId, ?_⟩
  have notMissing : ¬ workspace.workspaceKeyVersion ≤ 0 := by omega
  simp only [workspaceKeyFromAccount, stored, if_neg notMissing, workspaceAad]
  rw [← isPlain]
  exact opened

theorem World.Inv.oneKey {named : Prop} {world : World} (inv : world.Inv host named True) :
    world.OneKey host := by
  constructor
  · intro commit member
    obtain ⟨accountKeyId, envelope, account, recovered⟩ :=
      (inv.rows.commits trivial commit member).recovered inv.rows
    obtain ⟨phrase, isPhrase⟩ := (inv.rows.account accountKeyId envelope account).2
    exact ⟨accountKeyId, envelope, account, ⟨phrase, unwrapAccountRootKey_of_phrase isPhrase⟩,
      recovered⟩
  · intro device vaultId vault found
    exact (((inv.clients device).binding trivial).row found).2

/-- **Every commit opens with the key the recovery phrase leads to, and every row is its
workspace's and device's**, in every state of every run of any number of desktops in which
vaults are configured as `ConfigureOk` says. -/
theorem oneKey_of_configured {host : Host} {c : Machine.Config World Nat Call.Res SyncError Unit}
    (reached : ((desktops host).system (· = World.initial)).ReachableBy
      (commandsOk host False True).meets c) :
    c.shared.OneKey host :=
  (desktops_safe reached).oneKey

/-! ## A vault that is bound, synced and switched -/

/-- A vault is bound to a new workspace, under a key of this number. -/
def bindNew (number : Nat) : Command :=
  .configureVault ⟨0, 0, BitVec.ofNat 256 number, BitVec.ofNat 256 number⟩
    { vaultId := "v"
      rootPath := "/v"
      remoteWorkspaceId := ""
      deviceId := ""
      accountKeyId := some "k"
      workspaceName := none
      deviceName := none
      rememberWorkspaceKey := true
      passphrase := some "p" }

def bindAndEnable : List (Machine.Label Nat Command Delivery Empty) :=
  runs (bindNew 1) (answers 16) ++ runs (.setEnabled true) (answers 5)

/-- A run publishes one commit. -/
def publishOnce : List (Machine.Label Nat Command Delivery Empty) :=
  runs (.runOnce ⟨none, some "c", none⟩) (answers 15)

/-- A commit that the key of its workspace's row does not open. -/
theorem not_recoverable {rows : Rows}
    (foreign : ∃ commit ∈ rows.commits, ∀ workspace ∈ rows.workspaces,
      workspace.workspaceId = commit.workspaceId →
        workspace.encryptedWorkspaceKey.map (·.plaintext) ≠ some commit.workspaceKey) :
    ¬ rows.Recoverable host := by
  intro recoverable
  obtain ⟨commit, isCommit, differs⟩ := foreign
  obtain ⟨_, _, _, _, workspace, member, isId, opened⟩ := recoverable commit isCommit
  obtain ⟨blob, stored, isPlain⟩ := workspaceKeyFromAccount_ok opened
  apply differs workspace member isId
  rw [stored, map_some, isPlain]

/-- A switch that fails at the signing key leaves the old binding with the new key, and the
next run publishes under it; a switch that succeeds leaves the new binding with the head
of the old one. -/
theorem not_oneKey_after_switch :
    (∃ c, ((desktops default).system (· = World.initial)).Reachable c ∧
      ¬ c.shared.rows.Recoverable default) ∧
    ∃ c, ((desktops default).system (· = World.initial)).Reachable c ∧ ¬ c.shared.OwnRows := by
  constructor
  · let stopped := runs (bindNew 2) (answers 11 ++ [.rejected (.crypto "keychain")])
    have ran : (System.run (desktops default).next idle
        (bindAndEnable ++ stopped ++ publishOnce)).map (fun c =>
          decide (∃ commit ∈ c.shared.rows.commits, ∀ workspace ∈ c.shared.rows.workspaces,
            workspace.workspaceId = commit.workspaceId →
              workspace.encryptedWorkspaceKey.map (·.plaintext) ≠ some commit.workspaceKey)) =
        some true := by
      decide +kernel
    obtain ⟨c, reached, foreign⟩ := map_eq_some_iff.mp ran
    exact ⟨c, System.reachable_of_run reachable_idle reached,
      not_recoverable (of_decide_eq_true foreign)⟩
  · have ran : (System.run (desktops default).next idle
        (bindAndEnable ++ publishOnce ++ runs (bindNew 2) (answers 14))).map (fun c =>
          ((c.shared.clients 0).vaults "v").map fun vault =>
            (vault.localHeadCommitId, decide (∀ commit ∈ c.shared.rows.commits,
              commit.workspaceId ≠ vault.remoteWorkspaceId))) =
        some (some (some "c", true)) := by
      decide +kernel
    obtain ⟨c, reached, foreign⟩ := map_eq_some_iff.mp ran
    obtain ⟨vault, found, isForeign⟩ := map_eq_some_iff.mp foreign
    refine ⟨c, System.reachable_of_run reachable_idle reached, ?_⟩
    intro own
    obtain ⟨isHead, noCommit⟩ := Prod.mk.inj isForeign
    obtain ⟨commit, member, sameWorkspace, _⟩ := (own 0 "v" vault found).localHead "c" isHead
    exact of_decide_eq_true noCommit commit member sameWorkspace

theorem configureOk_fresh (config : VaultConfig) : ConfigureOk Client.fresh config := by
  refine .inl ⟨?_, fun vault found => nomatch found⟩
  rintro w d (⟨_, isConfig, _⟩ | ⟨_, _, found, _⟩)
  · cases isConfig
  · cases found

theorem oneKey_of_bound_and_synced :
    ∃ c, ((desktops default).system (· = World.initial)).ReachableBy
        (commandsOk default False True).meets c ∧
      c.shared.rows.commits.length = 1 ∧ c.shared.OneKey default := by
  have ran : (System.run (desktops default).next idle (bindAndEnable ++ publishOnce)).map
      (fun c => c.shared.rows.commits.length) = some 1 := by
    decide +kernel
  obtain ⟨c, reached, published⟩ := map_eq_some_iff.mp ran
  obtain ⟨bound, isBound, rest⟩ := bind_eq_some_iff.mp reached
  have binds : (commandsOk default False True).meets idle (.start 0 (bindNew 1)) :=
    fun _ => configureOk_fresh _
  have free : ∀ label ∈ (bindAndEnable ++ publishOnce).tail, unconditional label = true := by
    decide
  have reachable := (System.ReachableBy.step reachable_idle binds isBound).run
    (fun label member => meets_of_unconditional (free label member)) rest
  exact ⟨c, reachable, published, oneKey_of_configured reachable⟩

end Kuku.Account
