/-
# Desktop.PluginPermissions -- the plugin authorizations on disk

Every call about the authorization of a plugin loads `auth-permissions.json`, grants what
the default plugins have never been asked, and may write the file back: a check does so for a
plugin that asks for the first time, a decision always.  Nothing holds the file between the
load and the write.  A call is modelled by its file steps, in any interleaving with those of
other calls.

The state also remembers what the claims are about and the code does not keep: the decisions
recorded for each plugin, the plugins whose authorization has been withdrawn, and the answers.

* `withdrawal_sticks`: if every call writes the file in the state in which it has read it, a
  withdrawn plugin is answered no and no recorded decision is lost, in every run.
* `not_withdrawal_sticks`: a plugin's first request brings back what another has lost.
-/
import Kuku.Theory.Assoc
import Kuku.Theory.Runs
import Kuku.Theory.Slots

namespace Kuku.Desktop

open Kuku.Theory List Function Option

/-! ## The file -/

abbrev PluginId := List Char

structure AuthPermissions where
  requestedPlugins : List PluginId := []
  authorizedPlugins : Assoc PluginId Bool := []
  deriving DecidableEq

def defaultAuthorizedPluginIds : List PluginId := ["ai-chat".toList, "core-sync".toList]

namespace AuthPermissions

def decision (permissions : AuthPermissions) (plugin : PluginId) : Option Bool :=
  permissions.authorizedPlugins.get plugin

def isAuthorized (permissions : AuthPermissions) (plugin : PluginId) : Bool :=
  (permissions.decision plugin).getD false

/-- `requested_plugins.insert`. -/
def request (permissions : AuthPermissions) (plugin : PluginId) : AuthPermissions :=
  if plugin ∈ permissions.requestedPlugins then permissions
  else { permissions with requestedPlugins := plugin :: permissions.requestedPlugins }

def authorize (permissions : AuthPermissions) (plugin : PluginId) (authorized : Bool) :
    AuthPermissions :=
  { permissions with authorizedPlugins := permissions.authorizedPlugins.set plugin authorized }

/-- One round of the loop over the default plugins. -/
def applyDefault (permissions : AuthPermissions) (plugin : PluginId) : AuthPermissions :=
  let requested := permissions.request plugin
  if (requested.decision plugin).isNone then requested.authorize plugin true else requested

/-- `apply_default_plugin_permissions`.  It has changed something if the result differs. -/
def applyDefaults (permissions : AuthPermissions) : AuthPermissions :=
  defaultAuthorizedPluginIds.foldl applyDefault permissions

/-- `list_plugin_authorizations` from loaded permissions. -/
def listed (permissions : AuthPermissions) : List (PluginId × Bool) :=
  (permissions.requestedPlugins ++ permissions.authorizedPlugins.map Prod.fst).dedup.map
    fun plugin => (plugin, permissions.isAuthorized plugin)

variable {permissions : AuthPermissions} {plugin other : PluginId} {authorized : Bool}

@[simp] theorem decision_request :
    (permissions.request other).decision plugin = permissions.decision plugin := by
  unfold request
  split <;> rfl

theorem decision_authorize : (permissions.authorize other authorized).decision plugin =
    if other = plugin then some authorized else permissions.decision plugin := by
  split
  · rename_i same
    subst same
    exact Assoc.get_set_self
  · rename_i differs
    exact Assoc.get_set_of_ne (Ne.symm differs)

theorem decision_applyDefault (decided : permissions.decision plugin = some authorized) :
    (permissions.applyDefault other).decision plugin = some authorized := by
  unfold applyDefault
  dsimp only
  split
  · rename_i undecided
    have differs : other ≠ plugin := by
      rintro rfl
      rw [decision_request, decided] at undecided
      cases undecided
    rw [decision_authorize, if_neg differs, decision_request, decided]
  · rw [decision_request, decided]

theorem decision_applyDefaults (decided : permissions.decision plugin = some authorized) :
    permissions.applyDefaults.decision plugin = some authorized := by
  have loop : ∀ (plugins : List PluginId) (permissions : AuthPermissions),
      permissions.decision plugin = some authorized →
        (plugins.foldl applyDefault permissions).decision plugin = some authorized := by
    intro plugins
    induction plugins with
    | nil => exact fun _ decided => decided
    | cons first rest ih =>
      intro permissions decided
      exact ih _ (decision_applyDefault decided)
  exact loop _ _ decided

end AuthPermissions

/-! ## Calls -/

inductive PermissionCall where
  | list
  | isAuthorized (plugin : PluginId)
  | setAuthorized (plugin : PluginId) (authorized : Bool)

/-- What a call writes next: the defaults while it loads, or its own change. -/
inductive Pending where
  | defaults
  | change

/-- A call between its file steps: `seen` is the file as it last read or wrote it, `written`
what it is about to write.  `denied` says that its plugin was withdrawn when it started. -/
structure OngoingCall where
  call : PermissionCall
  seen : AuthPermissions
  pending : Pending
  written : AuthPermissions
  denied : Bool

/-- An answer of `is_plugin_authorized`, and whether the plugin was withdrawn when it started. -/
structure Answered where
  plugin : PluginId
  denied : Bool
  authorized : Bool
  deriving DecidableEq

structure Permissions where
  file : Option AuthPermissions
  calls : Slots Nat OngoingCall := fun _ => none
  recorded : PluginId → Option Bool := fun _ => none
  withdrawn : PluginId → Bool := fun _ => false
  answers : List Answered := []
  listings : List (List (PluginId × Bool)) := []

inductive PermissionStep where
  | load (id : Nat) (call : PermissionCall)
  | write (id : Nat)
  | fail (id : Nat)

namespace Permissions

/-- `read_permissions`: a missing file is empty. -/
def read (s : Permissions) : AuthPermissions := s.file.getD {}

def finish (s : Permissions) (id : Nat) : Permissions :=
  { s with calls := Function.update s.calls id none }

def await (s : Permissions) (id : Nat) (ongoing : OngoingCall) : Permissions :=
  { s with calls := Function.update s.calls id (some ongoing) }

/-- What a call does with the permissions it has loaded. -/
def loaded (s : Permissions) (id : Nat) (call : PermissionCall) (permissions : AuthPermissions)
    (denied : Bool) : Permissions :=
  match call with
  | .list => { s.finish id with listings := permissions.listed :: s.listings }
  | .isAuthorized plugin =>
    let answered :=
      { s with answers := ⟨plugin, denied, permissions.isAuthorized plugin⟩ :: s.answers }
    -- only persist when the requested set changed
    if plugin ∈ permissions.requestedPlugins then answered.finish id
    else answered.await id ⟨call, permissions, .change, permissions.request plugin, denied⟩
  | .setAuthorized plugin authorized =>
    s.await id ⟨call, permissions, .change,
      (permissions.request plugin).authorize plugin authorized, denied⟩

/-- The plugin of the call is withdrawn when the call starts. -/
def isDenied (s : Permissions) : PermissionCall → Bool
  | .list => false
  | .isAuthorized plugin => s.withdrawn plugin
  | .setAuthorized plugin _ => s.withdrawn plugin

/-- A new grant ends a withdrawal when it is called. -/
def called (s : Permissions) : PermissionCall → Permissions
  | .setAuthorized plugin true =>
    { s with withdrawn := Function.update s.withdrawn plugin false }
  | _ => s

/-- A decision counts as recorded when it is written, and a withdrawal as returned then. -/
def returned (s : Permissions) : PermissionCall → Permissions
  | .setAuthorized plugin authorized =>
    { s with
      recorded := Function.update s.recorded plugin (some authorized)
      withdrawn := if authorized then s.withdrawn else Function.update s.withdrawn plugin true }
  | _ => s

/-- The file is written.  A default that is in it for the first time counts as recorded. -/
def wrote (s : Permissions) (written : AuthPermissions) : Permissions :=
  { s with
    file := some written
    recorded := fun plugin => (s.recorded plugin).or (written.decision plugin) }

def next (s : Permissions) : PermissionStep → Option Permissions
  | .load id call =>
    match s.calls id with
    | some _ => none
    | none =>
      let permissions := s.read
      let withDefaults := permissions.applyDefaults
      let denied := s.isDenied call
      let started := s.called call
      if withDefaults = permissions then some (started.loaded id call permissions denied)
      else some (started.await id ⟨call, permissions, .defaults, withDefaults, denied⟩)
  | .write id =>
    match s.calls id with
    | none => none
    | some ongoing =>
      let written := s.wrote ongoing.written
      match ongoing.pending with
      | .defaults => some (written.loaded id ongoing.call ongoing.written ongoing.denied)
      | .change => some ((written.returned ongoing.call).finish id)
  | .fail id =>
    match s.calls id with
    | none => none
    | some _ => some (s.finish id)

/-- No calls are going on, and the decisions recorded are those in the file. -/
def Fresh (s : Permissions) : Prop :=
  s.calls = (fun _ => none) ∧ s.recorded = s.read.decision ∧ s.withdrawn = (fun _ => false) ∧
    s.answers = []

def system : System Permissions PermissionStep := System.ofStep Fresh next

/-! ## The property -/

/-- Withdrawn plugins are answered no, and recorded decisions are in the file. -/
structure Sticks (s : Permissions) : Prop where
  denied : ∀ answer ∈ s.answers, answer.denied = true → answer.authorized = false
  kept : ∀ plugin authorized, s.recorded plugin = some authorized →
    s.read.decision plugin = some authorized

/-! ## The condition -/

/-- The decisions agree for every plugin but `except`. -/
def agreeExcept (except : Option PluginId) (one two : AuthPermissions) : Bool :=
  (one.authorizedPlugins.map Prod.fst ++ two.authorizedPlugins.map Prod.fst).all fun plugin =>
    some plugin = except || one.decision plugin = two.decision plugin

/-- The plugin that a write decides on itself. -/
def decides (ongoing : OngoingCall) : Option PluginId :=
  match ongoing.pending, ongoing.call with
  | .change, .setAuthorized plugin _ => some plugin
  | _, _ => none

/-- The write overtakes a withdrawal of the plugin that it grants. -/
def revives (s : Permissions) (ongoing : OngoingCall) : Bool :=
  match ongoing.pending, ongoing.call with
  | .change, .setAuthorized plugin true => s.withdrawn plugin
  | _, _ => false

/-- When a call writes, the file has the decisions that the call has seen, its own apart, and
no withdrawal of the plugin it grants has returned since it was called. -/
def undisturbed (s : Permissions) : PermissionStep → Bool
  | .write id =>
    match s.calls id with
    | some ongoing =>
      agreeExcept (decides ongoing) s.read ongoing.seen && !s.revives ongoing
    | none => true
  | _ => true

/-! ## The invariant -/

/-- Every decision of one is a decision of the other. -/
def KeepsDecisions (before after : AuthPermissions) : Prop :=
  ∀ plugin authorized, before.decision plugin = some authorized →
    after.decision plugin = some authorized

/-- What a call is about to write follows from what it has seen. -/
structure Sound (ongoing : OngoingCall) : Prop where
  defaults : ongoing.pending = .defaults → ongoing.written = ongoing.seen.applyDefaults
  change : ongoing.pending = .change → ∀ plugin, some plugin ≠ decides ongoing →
    ongoing.written.decision plugin = ongoing.seen.decision plugin
  decided : ∀ plugin authorized, ongoing.pending = .change →
    ongoing.call = .setAuthorized plugin authorized →
      ongoing.written.decision plugin = some authorized
  denied : ∀ plugin, ongoing.denied = true → ongoing.call = .isAuthorized plugin →
    ongoing.seen.decision plugin = some false

structure PermissionsInvariant (s : Permissions) : Prop where
  denied : ∀ answer ∈ s.answers, answer.denied = true → answer.authorized = false
  kept : ∀ plugin authorized, s.recorded plugin = some authorized →
    s.read.decision plugin = some authorized
  withdrawn : ∀ plugin, s.withdrawn plugin = true → s.read.decision plugin = some false
  calls : s.calls.Every fun _ ongoing => Sound ongoing

variable {s s' : Permissions} {id : Nat} {call : PermissionCall} {ongoing : OngoingCall}
  {permissions one two : AuthPermissions} {except : Option PluginId} {plugin : PluginId}

theorem agreeExcept_decision (agree : agreeExcept except one two = true)
    (other : some plugin ≠ except) : one.decision plugin = two.decision plugin := by
  by_cases isKey : plugin ∈ one.authorizedPlugins.map Prod.fst ++ two.authorizedPlugins.map Prod.fst
  · have same := List.all_eq_true.mp agree plugin isKey
    simpa [other] using same
  · rw [mem_append, not_or] at isKey
    rw [AuthPermissions.decision, AuthPermissions.decision, Assoc.get_eq_none isKey.1,
      Assoc.get_eq_none isKey.2]

theorem Fresh.invariant (fresh : s.Fresh) : PermissionsInvariant s := by
  obtain ⟨noCalls, areRecords, noWithdrawals, noAnswers⟩ := fresh
  constructor
  · simp [noAnswers]
  · intro plugin authorized isRecorded
    rwa [areRecords] at isRecorded
  · simp [noWithdrawals]
  · simp [noCalls]

variable (inv : PermissionsInvariant s)

include inv

theorem PermissionsInvariant.sticks : Sticks s := ⟨inv.denied, inv.kept⟩

theorem PermissionsInvariant.finish : PermissionsInvariant (s.finish id) :=
  { inv with calls := inv.calls.clear id }

theorem PermissionsInvariant.await (sound : Sound ongoing) :
    PermissionsInvariant (s.await id ongoing) :=
  { inv with calls := inv.calls.fill sound }

/-- A new answer, that is no if its plugin was withdrawn. -/
theorem PermissionsInvariant.answer {answer : Answered}
    (denied : answer.denied = true → answer.authorized = false) :
    PermissionsInvariant { s with answers := answer :: s.answers } := by
  refine { inv with denied := ?_ }
  intro other among
  rcases mem_cons.mp among with rfl | earlier
  · exact denied
  · exact inv.denied other earlier

omit inv

variable {written : AuthPermissions}

/-- The change of a call keeps every decision but its own. -/
theorem sound_change (call : PermissionCall) (permissions : AuthPermissions) {denied : Bool}
    (isDenied : ∀ plugin, denied = true → call = .isAuthorized plugin →
      permissions.decision plugin = some false)
    (isWritten : (∃ plugin, call = .isAuthorized plugin ∧ written = permissions.request plugin) ∨
      (∃ plugin authorized, call = .setAuthorized plugin authorized ∧
        written = (permissions.request plugin).authorize plugin authorized)) :
    Sound ⟨call, permissions, .change, written, denied⟩ := by
  constructor
  case defaults => exact fun isDefaults => nomatch isDefaults
  case denied => exact isDenied
  case change =>
    intro _ other isOther
    rcases isWritten with ⟨plugin, rfl, rfl⟩ | ⟨plugin, authorized, rfl, rfl⟩
    · exact AuthPermissions.decision_request
    · have differs : plugin ≠ other := by
        rintro rfl
        exact isOther rfl
      rw [AuthPermissions.decision_authorize, if_neg differs, AuthPermissions.decision_request]
  case decided =>
    rintro own authorized _ rfl
    rcases isWritten with ⟨plugin, isOther, _⟩ | ⟨plugin, _, isCall, rfl⟩
    · cases isOther
    · cases isCall
      rw [AuthPermissions.decision_authorize, if_pos rfl]

variable (inv : PermissionsInvariant s)

include inv

/-- The end of a load, whether it had to write the defaults or not. -/
theorem PermissionsInvariant.loaded {denied : Bool}
    (isDenied : ∀ plugin, denied = true → call = .isAuthorized plugin →
      permissions.decision plugin = some false) :
    PermissionsInvariant (s.loaded id call permissions denied) := by
  cases call with
  | list =>
    have finished : PermissionsInvariant (s.finish id) := inv.finish
    exact { finished with }
  | isAuthorized plugin =>
    have answered : PermissionsInvariant
        { s with answers := ⟨plugin, denied, permissions.isAuthorized plugin⟩ :: s.answers } := by
      apply inv.answer
      intro wasDenied
      rw [AuthPermissions.isAuthorized, isDenied plugin wasDenied rfl]
      rfl
    unfold Permissions.loaded
    dsimp only
    split
    · exact answered.finish
    · exact answered.await (sound_change _ _ isDenied (.inl ⟨plugin, rfl, rfl⟩))
  | setAuthorized plugin authorized =>
    exact inv.await (sound_change _ _ isDenied (.inr ⟨plugin, authorized, rfl, rfl⟩))

theorem PermissionsInvariant.called : PermissionsInvariant (s.called call) := by
  cases call with
  | setAuthorized plugin authorized =>
    cases authorized with
    | true =>
      refine { inv with withdrawn := ?_ }
      intro other isWithdrawn
      by_cases same : other = plugin
      · subst same
        simp [Permissions.called] at isWithdrawn
      · change Function.update s.withdrawn plugin false other = true at isWithdrawn
        rw [update_of_ne same] at isWithdrawn
        exact inv.withdrawn other isWithdrawn
    | false => exact inv
  | _ => exact inv

/-- A withdrawn plugin is denied by the file that a call starts with. -/
theorem PermissionsInvariant.isDenied :
    ∀ plugin, s.isDenied call = true → call = .isAuthorized plugin →
      s.read.decision plugin = some false := by
  rintro plugin denied rfl
  exact inv.withdrawn plugin denied

/-- A file with all the decisions of the one before it. -/
theorem PermissionsInvariant.write (keeps : KeepsDecisions s.read written) :
    PermissionsInvariant (s.wrote written) where
  denied := inv.denied
  kept := by
    intro plugin authorized isRecorded
    change (s.recorded plugin).or (written.decision plugin) = some authorized at isRecorded
    change written.decision plugin = some authorized
    cases earlier : s.recorded plugin with
    | none => simpa [earlier] using isRecorded
    | some decided =>
      have same : decided = authorized := by simpa [earlier] using isRecorded
      exact same ▸ keeps _ _ (inv.kept plugin decided earlier)
  withdrawn := fun plugin isWithdrawn => keeps _ _ (inv.withdrawn plugin isWithdrawn)
  calls := inv.calls

/-- A file that differs by the decision of the call that has written it. -/
theorem PermissionsInvariant.decide {authorized : Bool}
    (own : written.decision plugin = some authorized)
    (others : ∀ other, plugin ≠ other → s.read.decision other = written.decision other)
    (inForce : authorized = true → s.withdrawn plugin = false) :
    PermissionsInvariant ((s.wrote written).returned (.setAuthorized plugin authorized)) where
  denied := inv.denied
  kept := by
    intro other granted isRecorded
    change (Function.update (s.wrote written).recorded plugin (some authorized)) other =
      some granted at isRecorded
    change written.decision other = some granted
    by_cases same : plugin = other
    · subst same
      rw [update_self] at isRecorded
      exact own.trans isRecorded
    · rw [update_of_ne (Ne.symm same)] at isRecorded
      change (s.recorded other).or (written.decision other) = some granted at isRecorded
      cases earlier : s.recorded other with
      | none => simpa [earlier] using isRecorded
      | some decided =>
        have isSame : decided = granted := by simpa [earlier] using isRecorded
        exact isSame ▸ (others other same).symm.trans (inv.kept other decided earlier)
  withdrawn := by
    intro other isWithdrawn
    change written.decision other = some false
    by_cases same : plugin = other
    · subst same
      cases authorized with
      | false => exact own
      | true =>
        have stillIs : s.withdrawn plugin = true := isWithdrawn
        rw [inForce rfl] at stillIs
        cases stillIs
    · have wasWithdrawn : s.withdrawn other = true := by
        cases authorized with
        | true => exact isWithdrawn
        | false =>
          change Function.update s.withdrawn plugin true other = true at isWithdrawn
          rwa [update_of_ne (Ne.symm same)] at isWithdrawn
      exact (others other same).symm.trans (inv.withdrawn other wasWithdrawn)
  calls := inv.calls

theorem PermissionsInvariant.next {step : PermissionStep} (allowed : undisturbed s step = true)
    (stepped : s.next step = some s') :
    PermissionsInvariant s' := by
  cases step with
  | load id call =>
    simp only [Permissions.next] at stepped
    split at stepped
    · cases stepped
    · have isDenied : ∀ plugin, s.isDenied call = true → call = .isAuthorized plugin →
          s.read.decision plugin = some false := inv.isDenied
      split at stepped
      · cases stepped
        exact inv.called.loaded isDenied
      · cases stepped
        refine inv.called.await ⟨fun _ => rfl, ?_, ?_, isDenied⟩
        · exact fun isChange => nomatch isChange
        · exact fun _ _ isChange => nomatch isChange
  | write id =>
    simp only [Permissions.next] at stepped
    simp only [undisturbed] at allowed
    cases isCall : s.calls id with
    | none =>
      rw [isCall] at stepped
      cases stepped
    | some ongoing =>
      rw [isCall] at stepped allowed
      simp only [Bool.and_eq_true, Bool.not_eq_true'] at allowed
      obtain ⟨agree, inForce⟩ := allowed
      have sound := inv.calls id ongoing isCall
      obtain ⟨call, seen, pending, written, denied⟩ := ongoing
      cases pending with
      | defaults =>
        cases stepped
        have isWritten : written = seen.applyDefaults := sound.defaults rfl
        have keeps : KeepsDecisions s.read written := by
          intro plugin authorized decided
          rw [isWritten]
          apply AuthPermissions.decision_applyDefaults
          rw [← decided]
          exact (agreeExcept_decision agree (fun isOwn => nomatch isOwn)).symm
        refine (inv.write keeps).loaded ?_
        intro plugin wasDenied isCheck
        rw [isWritten]
        exact AuthPermissions.decision_applyDefaults (sound.denied plugin wasDenied isCheck)
      | change =>
        cases stepped
        apply PermissionsInvariant.finish
        cases call with
        | setAuthorized plugin authorized =>
          refine inv.decide (sound.decided plugin authorized rfl rfl) ?_ ?_
          · intro other differs
            have isOther : some other ≠ some plugin := fun same =>
              differs (Option.some.inj same).symm
            exact (agreeExcept_decision agree isOther).trans (sound.change rfl other isOther).symm
          · rintro rfl
            exact inForce
        | list =>
          refine inv.write ?_
          intro other authorized decided
          have isOther : some other ≠ none := fun isNone => nomatch isNone
          exact (sound.change rfl other isOther).trans
            ((agreeExcept_decision agree isOther).symm.trans decided)
        | isAuthorized plugin =>
          refine inv.write ?_
          intro other authorized decided
          have isOther : some other ≠ none := fun isNone => nomatch isNone
          exact (sound.change rfl other isOther).trans
            ((agreeExcept_decision agree isOther).symm.trans decided)
  | fail id =>
    simp only [Permissions.next] at stepped
    split at stepped
    · cases stepped
    · cases stepped
      exact inv.finish

/-! ## Every run -/

omit inv

/-- **A withdrawal sticks, and no decision is lost**, in every run in which each call writes
the file as it has seen it. -/
theorem withdrawal_sticks
    (reached : system.ReachableBy (fun s step => undisturbed s step = true) s) : Sticks s := by
  refine PermissionsInvariant.sticks (System.ReachableBy.keeps PermissionsInvariant ?_ ?_ reached)
  · exact fun _ fresh => Fresh.invariant fresh
  · exact fun _ _ _ inv allowed stepped => inv.next allowed stepped

/-- The permissions file after both default plugins have been granted. -/
def granted : AuthPermissions := AuthPermissions.applyDefaults {}

def quiet : Permissions := { file := some granted, recorded := granted.decision }

theorem fresh_quiet : quiet.Fresh := ⟨rfl, rfl, rfl, rfl⟩

def sync : PluginId := "core-sync".toList

/-- The authorization of the sync plugin is withdrawn while another plugin asks for the first
time; afterwards the sync plugin is authorized again, and the withdrawal is not in the file. -/
theorem not_withdrawal_sticks :
    ∃ s, system.Reachable s ∧ ⟨sync, true, true⟩ ∈ s.answers ∧
      s.recorded sync = some false ∧ s.read.decision sync = some true ∧ ¬ Sticks s := by
  have ran : (System.run next quiet [.load 0 (.isAuthorized ['p']), .load 1 (.setAuthorized sync false),
      .write 1, .write 0, .load 2 (.isAuthorized sync)]).map
        (fun s => (s.answers.head?, s.recorded sync, s.read.decision sync)) =
      some (some ⟨sync, true, true⟩, some false, some true) := by
    decide +kernel
  obtain ⟨s, ran, reported⟩ := map_eq_some_iff.mp ran
  simp only [Prod.mk.injEq] at reported
  obtain ⟨answered, recorded, inFile⟩ := reported
  have isAnswer : ⟨sync, true, true⟩ ∈ s.answers := mem_of_mem_head? answered
  refine ⟨s, System.reachable_of_run (.start fresh_quiet) ran, isAnswer, recorded, inFile, ?_⟩
  intro sticks
  cases sticks.denied _ isAnswer rfl

/-- One call after the other: the withdrawal is answered. -/
theorem withdrawal_sticks_in_turn :
    ∃ s, system.ReachableBy (fun s step => undisturbed s step = true) s ∧
      ⟨sync, true, false⟩ ∈ s.answers ∧ Sticks s := by
  have ran : (System.runWhile undisturbed next quiet [.load 0 (.isAuthorized ['p']), .write 0,
      .load 1 (.setAuthorized sync false), .write 1, .load 2 (.isAuthorized sync)]).map
        (fun s => s.answers.head?) = some (some ⟨sync, true, false⟩) := by
    decide +kernel
  obtain ⟨s, ran, answered⟩ := map_eq_some_iff.mp ran
  have reached : system.ReachableBy (fun s step => undisturbed s step = true) s :=
    System.reachableBy_of_runWhile (.start fresh_quiet) ran
  exact ⟨s, reached, mem_of_mem_head? answered, withdrawal_sticks reached⟩

end Permissions

end Kuku.Desktop
