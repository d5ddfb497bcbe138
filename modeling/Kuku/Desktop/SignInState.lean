/-
# Desktop.SignInState -- the stored tokens and the cached profile of the desktop app

`auth_logout`, `auth_reset`, the completion of a login, `refresh_stored_tokens` and
`fetch_and_cache_profile`, each as a sequence of steps: a storage read, a storage write, a
storage deletion or a network reply.  The steps of different calls interleave, and any call may
end with an error at any step.  A token is sent to the server in the step that has read it.  A
read of the tokens may first move those of the legacy file, which takes a read, a write and a
deletion more; whatever uses the tokens read is the continuation of the read.

A refresh token is a number and the account it belongs to; an answer of the server has a
number never used before.  A pair whose access or refresh token is unset in the answer is
stored like any other.  The mode of a refresh decides only whether the call ends early.

The state remembers whether a logout or reset has returned since a login last stored its
tokens, every write of tokens with the pair it has replaced, and every refresh token sent with
what was stored then.

* `never_mixed_up`: if every write of tokens or of a profile finds what its call has read, and no
  login stores its tokens over the profile of another account or in the middle of a logout, then
  all four parts of the property hold in every state a run reaches.
* `not_never_mixed_up`: a run against each part.
-/
import Kuku.Theory.Runs
import Kuku.Theory.Slots

namespace Kuku.Desktop

open Kuku.Theory List Function Option

structure RefreshToken where
  account : Nat
  number : Nat
  deriving DecidableEq

/-- The tokens of one answer of the server; an unset refresh token is `none`. -/
structure StoredTokens where
  account : Nat
  hasAccess : Bool
  refresh : Option Nat
  deriving DecidableEq

def StoredTokens.refreshToken (tokens : StoredTokens) : Option RefreshToken :=
  tokens.refresh.map (RefreshToken.mk tokens.account)

/-- `read_available_tokens`, of a pair that was read: its refresh token, if both are set. -/
def StoredTokens.available (tokens : StoredTokens) : Option RefreshToken :=
  if tokens.hasAccess then tokens.refreshToken else none

theorem StoredTokens.refreshToken_of_available {tokens : StoredTokens} {token : RefreshToken}
    (isAvailable : tokens.available = some token) : tokens.refreshToken = some token := by
  unfold available at isAvailable
  split at isAvailable
  · exact isAvailable
  · cases isAvailable

theorem StoredTokens.account_of_refreshToken {tokens : StoredTokens} {token : RefreshToken}
    (isToken : tokens.refreshToken = some token) : token.account = tokens.account := by
  obtain ⟨number, -, rfl⟩ := map_eq_some_iff.mp isToken
  rfl

/-- What a call does with the tokens it reads. -/
inductive AfterRead where
  | observe
  | current (observed : RefreshToken)
  | replaceIf (expected : RefreshToken) (refreshed : StoredTokens)
  | clearIf (expected : RefreshToken)
  | answer
  | fetchProfile

/-- Why `clear_tokens` runs. -/
inductive Clearing where
  | logout
  | reset
  | unauthenticated

/-- The next step of a call. -/
inductive AuthStatement where
  -- `read_tokens`
  | readSecure (after : AfterRead)
  | readLegacy (after : AfterRead)
  | writeMigrated (tokens : StoredTokens) (after : AfterRead)
  | removeMigrated (tokens : StoredTokens) (after : AfterRead)
  -- `complete_auth_deep_link`
  | exchange (account : Nat)
  | storeLogin (tokens : StoredTokens)
  -- `refresh_stored_tokens`
  | lock (observed : RefreshToken)
  | refreshReply (sent : RefreshToken)
  | writeRefreshed (displaced : StoredTokens) (sent : RefreshToken) (refreshed : StoredTokens)
  -- `fetch_and_cache_profile`
  | profileReply (account : Nat)
  | writeProfile (account : Nat)
  -- `clear_tokens`, and `clear_permissions` of a reset
  | deleteTokens (why : Clearing)
  | removeLegacy (why : Clearing)
  | removeProfile (why : Clearing)
  | clearPermissions

inductive AuthCall where
  | logout
  | reset
  | completeLogin (state account : Nat)
  | refresh
  | fetchProfile

/-- What has written tokens. -/
inductive Writer where
  | login
  | refresh (sent : RefreshToken)
  | migration
  deriving DecidableEq

structure TokenWrite where
  displaced : Option StoredTokens
  tokens : StoredTokens
  writer : Writer
  deriving DecidableEq

structure TokenSent where
  token : RefreshToken
  again : Bool
  stored : Option StoredTokens
  deriving DecidableEq

structure AuthState where
  stored : Option StoredTokens
  legacy : Option StoredTokens
  /-- The account of the cached profile. -/
  profile : Option Nat
  pendingState : Option Nat := none
  refreshLock : Option Nat := none
  nextNumber : Nat
  calls : Slots Nat AuthStatement := fun _ => none
  signedOut : Bool := false
  /-- The logouts and resets that have deleted the tokens and not returned. -/
  deleting : List Nat := []
  /-- The resets that have removed the profile and not returned. -/
  resetting : List Nat := []
  writes : List TokenWrite := []
  sent : List TokenSent := []

inductive AuthStep where
  | openLogin (state : Nat)
  | call (id : Nat) (call : AuthCall)
  | execute (id : Nat)
  /-- The server answers an exchange or a refresh with a pair. -/
  | reply (id : Nat) (hasAccess hasRefresh : Bool)
  | unauthenticated (id : Nat)
  | fail (id : Nat)

namespace AuthState

def goOn (s : AuthState) (id : Nat) (statement : AuthStatement) : AuthState :=
  { s with calls := Function.update s.calls id (some statement) }

/-- The call ends, and its guard is dropped. -/
def finish (s : AuthState) (id : Nat) : AuthState :=
  { s with
    calls := Function.update s.calls id none
    refreshLock := if s.refreshLock = some id then none else s.refreshLock
    deleting := s.deleting.filter (· ≠ id)
    resetting := s.resetting.filter (· ≠ id) }

/-- A logout or a reset returns. -/
def signOut (s : AuthState) (id : Nat) : AuthState := { s.finish id with signedOut := true }

def writeTokens (s : AuthState) (tokens : StoredTokens) (writer : Writer) : AuthState :=
  { s with stored := some tokens, writes := ⟨s.stored, tokens, writer⟩ :: s.writes }

def send (s : AuthState) (token : RefreshToken) : AuthState :=
  { s with sent := ⟨token, s.sent.any fun earlier => earlier.token = token, s.stored⟩ :: s.sent }

/-- The tokens of an answer; its refresh token has a new number. -/
def answered (s : AuthState) (account : Nat) (hasAccess hasRefresh : Bool) : StoredTokens :=
  ⟨account, hasAccess, if hasRefresh then some s.nextNumber else none⟩

/-- The rest of a call, once it has read the tokens. -/
def resume (s : AuthState) (id : Nat) (result : Option StoredTokens) : AfterRead → AuthState
  | .observe =>
    match result.bind StoredTokens.available with
    | none => s.finish id
    | some observed => s.goOn id (.lock observed)
  | .current observed =>
    match result.bind StoredTokens.available with
    | none => s.finish id
    | some current =>
      if current = observed then (s.send current).goOn id (.refreshReply current)
      else s.finish id
  | .replaceIf expected refreshed =>
    match result with
    | none => s.goOn id (.readSecure .answer)
    | some tokens =>
      if tokens.refreshToken = some expected then
        s.goOn id (.writeRefreshed tokens expected refreshed)
      else s.goOn id (.readSecure .answer)
  | .clearIf expected =>
    match result with
    | none => s.finish id
    | some tokens =>
      if tokens.refreshToken = some expected then s.goOn id (.deleteTokens .unauthenticated)
      else s.finish id
  | .answer => s.finish id
  | .fetchProfile =>
    match result with
    | none => s.finish id
    | some tokens =>
      if tokens.hasAccess then s.goOn id (.profileReply tokens.account) else s.finish id

def execute (s : AuthState) (id : Nat) : AuthStatement → Option AuthState
  | .readSecure after =>
    match s.stored with
    | some tokens => some (s.resume id (some tokens) after)
    | none => some (s.goOn id (.readLegacy after))
  | .readLegacy after =>
    match s.legacy with
    | some tokens => some (s.goOn id (.writeMigrated tokens after))
    | none => some (s.resume id none after)
  | .writeMigrated tokens after =>
    some ((s.writeTokens tokens .migration).goOn id (.removeMigrated tokens after))
  | .removeMigrated tokens after =>
    -- the removal of a file that is not there is an error
    match s.legacy with
    | some _ => some ({ s with legacy := none }.resume id (some tokens) after)
    | none => some (s.finish id)
  | .storeLogin tokens =>
    some ({ s.writeTokens tokens .login with signedOut := false }.goOn id
      (.readSecure .fetchProfile))
  | .lock observed =>
    if s.refreshLock.isNone then
      some ({ s with refreshLock := some id }.goOn id (.readSecure (.current observed)))
    else none
  | .writeRefreshed _ sent refreshed => some ((s.writeTokens refreshed (.refresh sent)).finish id)
  | .profileReply account => some (s.goOn id (.writeProfile account))
  | .writeProfile account => some ({ s with profile := some account }.finish id)
  | .deleteTokens .unauthenticated =>
    some ({ s with stored := none }.goOn id (.removeLegacy .unauthenticated))
  | .deleteTokens why =>
    some ({ s with stored := none, deleting := id :: s.deleting }.goOn id (.removeLegacy why))
  | .removeLegacy why => some ({ s with legacy := none }.goOn id (.removeProfile why))
  | .removeProfile .logout => some ({ s with profile := none }.signOut id)
  | .removeProfile .reset =>
    some ({ s with profile := none, resetting := id :: s.resetting }.goOn id .clearPermissions)
  | .removeProfile .unauthenticated => some ({ s with profile := none }.finish id)
  | .clearPermissions => some (s.signOut id)
  | .exchange _ | .refreshReply _ => none

def next (s : AuthState) : AuthStep → Option AuthState
  | .openLogin state => some { s with pendingState := some state }
  | .call id call =>
    match s.calls id with
    | some _ => none
    | none =>
      match call with
      | .logout => some (s.goOn id (.deleteTokens .logout))
      | .reset => some ({ s with pendingState := none }.goOn id (.deleteTokens .reset))
      | .completeLogin state account =>
        -- `validate_auth_state` takes the pending state
        if s.pendingState = some state then
          some ({ s with pendingState := none }.goOn id (.exchange account))
        else some { s with pendingState := none }
      | .refresh => some (s.goOn id (.readSecure .observe))
      | .fetchProfile => some (s.goOn id (.readSecure .fetchProfile))
  | .execute id => (s.calls id).bind fun statement => s.execute id statement
  | .reply id hasAccess hasRefresh =>
    match s.calls id with
    | some (.exchange account) =>
      some ({ s with nextNumber := s.nextNumber + 1 }.goOn id
        (.storeLogin (s.answered account hasAccess hasRefresh)))
    | some (.refreshReply sent) =>
      some ({ s with nextNumber := s.nextNumber + 1 }.goOn id
        (.readSecure (.replaceIf sent (s.answered sent.account hasAccess hasRefresh))))
    | _ => none
  | .unauthenticated id =>
    match s.calls id with
    | some (.refreshReply sent) => some (s.goOn id (.readSecure (.clearIf sent)))
    | _ => none
  | .fail id =>
    match s.calls id with
    | none => none
    | some _ => some (s.finish id)

/-- Any tokens and any legacy file, with a profile of the same account. -/
structure Fresh (s : AuthState) : Prop where
  profile : ∀ tokens account, s.stored = some tokens → s.profile = some account →
    account = tokens.account
  calls : s.calls = fun _ => none
  signedOut : s.signedOut = false
  deleting : s.deleting = []
  resetting : s.resetting = []
  writes : s.writes = []
  sent : s.sent = []

def system : System AuthState AuthStep := System.ofStep Fresh next

/-! ## The property and the condition -/

structure NeverMixedUp (s : AuthState) : Prop where
  /-- After a logout or a reset nothing is stored until a login is completed. -/
  signedOut : s.signedOut = true → s.stored = none ∧ s.profile = none
  /-- Tokens are replaced only by another login or by a refresh of themselves. -/
  replaced : ∀ write ∈ s.writes, ∀ old, write.displaced = some old →
    old = write.tokens ∨ write.writer = .login ∨
      ∃ token, write.writer = .refresh token ∧ old.refreshToken = some token
  /-- A refresh token is sent again only while no other pair is stored. -/
  sent : ∀ sent ∈ s.sent, sent.again = true → ∀ tokens, sent.stored = some tokens →
    tokens.refreshToken = some sent.token
  /-- The profile belongs to the account of the tokens. -/
  profile : ∀ tokens account, s.stored = some tokens → s.profile = some account →
    account = tokens.account

/-- No profile of another account is cached. -/
def profileOf (s : AuthState) (account : Nat) : Bool := s.profile.all fun cached => cached = account

/-- What a write is about to replace is what its call has read, the profile cached and the
tokens stored are of one account, and no logout is between its deletions. -/
def undisturbed (s : AuthState) : AuthStep → Bool
  | .execute id =>
    match s.calls id with
    | some (.storeLogin tokens) => s.profileOf tokens.account && s.deleting.isEmpty
    | some (.writeMigrated tokens _) =>
      s.legacy = some tokens && s.stored.all (fun stored => stored = tokens) &&
        s.profileOf tokens.account && s.deleting.isEmpty
    | some (.removeMigrated tokens (.current _)) =>
      s.stored.all fun stored => stored = tokens
    | some (.writeRefreshed displaced _ _) => s.stored = some displaced
    | some (.writeProfile account) =>
      !s.signedOut && s.resetting.isEmpty && s.stored.all fun stored => stored.account = account
    | _ => true
  | _ => true

/-! ## The invariant -/

/-- A refreshed pair is of the account of the token that was sent. -/
def Sound : AfterRead → Prop
  | .replaceIf sent refreshed => refreshed.account = sent.account
  | _ => True

/-- What the next step of a call says about the state. -/
def Fits (s : AuthState) (id : Nat) : AuthStatement → Prop
  | .readSecure after => Sound after
  | .readLegacy after => Sound after
  | .writeMigrated _ after => Sound after
  | .removeMigrated _ after => Sound after
  | .writeRefreshed displaced sent refreshed =>
    refreshed.account = sent.account ∧ displaced.refreshToken = some sent
  | .removeLegacy why => why ≠ .unauthenticated → id ∈ s.deleting
  | .removeProfile why => why ≠ .unauthenticated → id ∈ s.deleting ∧ s.legacy = none
  | .clearPermissions => id ∈ s.deleting ∧ id ∈ s.resetting ∧ s.legacy = none
  | _ => True

structure StorageFits (s : AuthState) : Prop where
  own : s.NeverMixedUp
  legacy : s.signedOut = true → s.legacy = none
  deleting : s.deleting ≠ [] → s.stored = none
  resetting : s.resetting ≠ [] → s.profile = none

structure AuthInvariant (s : AuthState) : Prop where
  storage : s.StorageFits
  calls : s.calls.Every fun id statement => s.Fits id statement

/-- What a step of one call leaves to the other calls. -/
structure Leaves (id : Nat) (s s' : AuthState) : Prop where
  deleting : ∀ other, other ≠ id → other ∈ s.deleting → other ∈ s'.deleting
  resetting : ∀ other, other ≠ id → other ∈ s.resetting → other ∈ s'.resetting
  legacy : s.legacy = none → s'.legacy = none

variable {s s' : AuthState} {id : Nat} {statement : AuthStatement} {after : AfterRead}

theorem Leaves.refl (id : Nat) (s : AuthState) : Leaves id s s :=
  ⟨fun _ _ among => among, fun _ _ among => among, fun gone => gone⟩

theorem Fits.left {other : Nat} (leaves : Leaves id s s') (differs : other ≠ id)
    (fits : s.Fits other statement) : s'.Fits other statement := by
  cases statement with
  | removeLegacy why => exact fun isOut => leaves.deleting other differs (fits isOut)
  | removeProfile why =>
    intro isOut
    obtain ⟨among, gone⟩ := fits isOut
    exact ⟨leaves.deleting other differs among, leaves.legacy gone⟩
  | clearPermissions =>
    obtain ⟨among, amongToo, gone⟩ := fits
    exact ⟨leaves.deleting other differs among, leaves.resetting other differs amongToo,
      leaves.legacy gone⟩
  | _ => exact fits

/-! ### How a call goes on -/

theorem AuthInvariant.goOn (inv : AuthInvariant s) (calls : s'.calls = s.calls)
    (leaves : Leaves id s s') (storage : s'.StorageFits) (fits : s'.Fits id statement) :
    AuthInvariant (s'.goOn id statement) := by
  refine ⟨{ storage with own := { storage.own with } }, ?_⟩
  intro other going isGoing
  change Function.update s'.calls id (some statement) other = some going at isGoing
  by_cases same : other = id
  · subst same
    rw [update_self] at isGoing
    cases isGoing
    exact fits
  · rw [update_of_ne same, calls] at isGoing
    exact Fits.left { leaves with } same (inv.calls other going isGoing)

theorem AuthInvariant.finish (inv : AuthInvariant s) (calls : s'.calls = s.calls)
    (leaves : Leaves id s s') (storage : s'.StorageFits) : AuthInvariant (s'.finish id) := by
  have dropped : ∀ ids : List Nat, ids.filter (· ≠ id) ≠ [] → ids ≠ [] := by
    rintro ids some rfl
    exact some rfl
  refine ⟨{ storage with
    own := { storage.own with }
    deleting := fun among => storage.deleting (dropped _ among)
    resetting := fun among => storage.resetting (dropped _ among) }, ?_⟩
  intro other going isGoing
  change Function.update s'.calls id none other = some going at isGoing
  by_cases same : other = id
  · subst same
    rw [update_self] at isGoing
    cases isGoing
  · rw [update_of_ne same, calls] at isGoing
    refine Fits.left ?_ same (inv.calls other going isGoing)
    exact
      { leaves with
        deleting := fun third differs among => mem_filter.mpr
          ⟨leaves.deleting third differs among, decide_eq_true differs⟩
        resetting := fun third differs among => mem_filter.mpr
          ⟨leaves.resetting third differs among, decide_eq_true differs⟩ }

/-- A logout or a reset returns with nothing stored. -/
theorem AuthInvariant.signOut (inv : AuthInvariant s) (calls : s'.calls = s.calls)
    (leaves : Leaves id s s') (storage : s'.StorageFits) (stored : s'.stored = none)
    (profile : s'.profile = none) (legacy : s'.legacy = none) :
    AuthInvariant (s'.signOut id) := by
  have ended := inv.finish calls leaves storage
  refine ⟨{ ended.storage with
    own := { ended.storage.own with signedOut := fun _ => ⟨stored, profile⟩ }
    legacy := fun _ => legacy }, ?_⟩
  exact ended.calls.mono fun _ _ _ fits => fits

theorem StorageFits.send (storage : s.StorageFits) (token : RefreshToken)
    (isStored : ∀ tokens, s.stored = some tokens → tokens.refreshToken = some token) :
    (s.send token).StorageFits := by
  refine { storage with own := { storage.own with sent := ?_ } }
  intro sent among isAgain tokens
  rcases mem_cons.mp among with rfl | earlier
  · exact isStored tokens
  · exact storage.own.sent sent earlier isAgain tokens

/-- The rest of a call, when what it has read is what is stored, if it is about to send it. -/
theorem AuthInvariant.resume (inv : AuthInvariant s) (leaves : Leaves id s s')
    (storage : s'.StorageFits) (calls : s'.calls = s.calls) {result : Option StoredTokens}
    (sound : Sound after)
    (isStored : ∀ observed, after = .current observed → ∀ tokens, result = some tokens →
      ∀ stored, s'.stored = some stored → stored = tokens) :
    AuthInvariant (s'.resume id result after) := by
  cases after with
  | observe =>
    simp only [AuthState.resume]
    split
    · exact inv.finish calls leaves storage
    · exact inv.goOn calls leaves storage trivial
  | current observed =>
    simp only [AuthState.resume]
    split
    · exact inv.finish calls leaves storage
    · rename_i token isRead
      obtain ⟨tokens, isResult, isAvailable⟩ := bind_eq_some_iff.mp isRead
      have isToken := StoredTokens.refreshToken_of_available isAvailable
      split
      · refine inv.goOn calls { leaves with } (storage.send token ?_) trivial
        intro stored isNow
        rw [isStored observed rfl tokens isResult stored isNow]
        exact isToken
      · exact inv.finish calls leaves storage
  | replaceIf expected refreshed =>
    simp only [AuthState.resume]
    split
    · exact inv.goOn calls leaves storage trivial
    · split
      · rename_i isExpected
        exact inv.goOn calls leaves storage ⟨sound, isExpected⟩
      · exact inv.goOn calls leaves storage trivial
  | clearIf expected =>
    simp only [AuthState.resume]
    split
    · exact inv.finish calls leaves storage
    · split
      · exact inv.goOn calls leaves storage trivial
      · exact inv.finish calls leaves storage
  | answer => exact inv.finish calls leaves storage
  | fetchProfile =>
    simp only [AuthState.resume]
    split
    · exact inv.finish calls leaves storage
    · split
      · exact inv.goOn calls leaves storage trivial
      · exact inv.finish calls leaves storage

/-! ### What a write does to the storage -/

variable (storage : s.StorageFits)

include storage

theorem StorageFits.writeTokens {tokens : StoredTokens} {writer : Writer}
    (profile : ∀ account, s.profile = some account → account = tokens.account)
    (signedIn : s.signedOut = false) (deleting : s.deleting = [])
    (displaced : ∀ old, s.stored = some old → old = tokens ∨ writer = .login ∨
      ∃ token, writer = .refresh token ∧ old.refreshToken = some token) :
    (s.writeTokens tokens writer).StorageFits := by
  constructor
  case own =>
    constructor
    case signedOut =>
      intro isOut
      change s.signedOut = true at isOut
      rw [signedIn] at isOut
      cases isOut
    case replaced =>
      intro write among old isOld
      rcases mem_cons.mp among with rfl | earlier
      · exact displaced old isOld
      · exact storage.own.replaced write earlier old isOld
    case sent => exact storage.own.sent
    case profile =>
      rintro now account ⟨⟩ isCached
      exact profile account isCached
  case legacy => exact storage.legacy
  case deleting => exact fun among => absurd deleting among
  case resetting => exact storage.resetting

theorem StorageFits.deleteTokens : StorageFits { s with stored := none } :=
  { storage with
    own := { storage.own with
      signedOut := fun isOut => ⟨rfl, (storage.own.signedOut isOut).2⟩
      profile := fun _ _ isStored => nomatch isStored }
    deleting := fun _ => rfl }

theorem StorageFits.removeProfile : StorageFits { s with profile := none } :=
  { storage with
    own := { storage.own with
      signedOut := fun isOut => ⟨(storage.own.signedOut isOut).1, rfl⟩
      profile := fun _ _ _ isCached => nomatch isCached }
    resetting := fun _ => rfl }

theorem StorageFits.removeLegacy : StorageFits { s with legacy := none } :=
  { storage with own := { storage.own with }, legacy := fun _ => rfl }

theorem StorageFits.signIn : StorageFits { s with signedOut := false } :=
  { storage with
    own := { storage.own with signedOut := fun isOut => nomatch isOut }
    legacy := fun isOut => nomatch isOut }

/-- While tokens are stored no logout has deleted them. -/
theorem StorageFits.signedIn {tokens : StoredTokens} (isStored : s.stored = some tokens) :
    s.signedOut = false ∧ s.deleting = [] := by
  constructor
  · cases isOut : s.signedOut with
    | false => rfl
    | true =>
      rw [(storage.own.signedOut isOut).1] at isStored
      cases isStored
  · by_contra some
    rw [storage.deleting some] at isStored
    cases isStored

omit storage

theorem profileOf_iff {account : Nat} : s.profileOf account = true ↔
    ∀ cached, s.profile = some cached → cached = account := by
  unfold profileOf
  cases s.profile <;> simp

/-! ### Every step -/

theorem AuthInvariant.execute (inv : AuthInvariant s) (isCall : s.calls id = some statement)
    (allowed : undisturbed s (.execute id) = true) (ran : s.execute id statement = some s') :
    AuthInvariant s' := by
  have fits := inv.calls id statement isCall
  have leaves := Leaves.refl id s
  have storage := inv.storage
  simp only [undisturbed, isCall] at allowed
  cases statement with
  | readSecure after =>
    simp only [AuthState.execute] at ran
    split at ran
    · rename_i tokens isStored
      cases ran
      refine inv.resume leaves storage rfl fits ?_
      rintro _ _ _ ⟨⟩ stored isNow
      exact Option.some.inj (isNow.symm.trans isStored)
    · cases ran
      exact inv.goOn rfl leaves storage fits
  | readLegacy after =>
    simp only [AuthState.execute] at ran
    split at ran
    · cases ran
      exact inv.goOn rfl leaves storage fits
    · cases ran
      exact inv.resume leaves storage rfl fits fun _ _ _ isNone => nomatch isNone
  | writeMigrated tokens after =>
    cases ran
    simp only [Bool.and_eq_true, decide_eq_true_eq, List.isEmpty_iff, profileOf_iff] at allowed
    obtain ⟨⟨⟨isLegacy, isStored⟩, profile⟩, deleting⟩ := allowed
    have signedIn : s.signedOut = false := by
      cases isOut : s.signedOut with
      | false => rfl
      | true =>
        rw [storage.legacy isOut] at isLegacy
        cases isLegacy
    refine inv.goOn rfl { leaves with } (storage.writeTokens profile signedIn deleting ?_) fits
    intro old isOld
    rw [isOld] at isStored
    exact .inl (of_decide_eq_true isStored)
  | removeMigrated tokens after =>
    simp only [AuthState.execute] at ran
    split at ran
    · cases ran
      have leftOut : Leaves id s { s with legacy := none } :=
        { leaves with legacy := fun _ => rfl }
      refine inv.resume leftOut storage.removeLegacy rfl fits ?_
      rintro observed rfl _ ⟨⟩ stored isNow
      change s.stored = some stored at isNow
      rw [isNow] at allowed
      exact of_decide_eq_true allowed
    · cases ran
      exact inv.finish rfl leaves storage
  | storeLogin tokens =>
    cases ran
    simp only [Bool.and_eq_true, List.isEmpty_iff, profileOf_iff] at allowed
    obtain ⟨profile, deleting⟩ := allowed
    exact inv.goOn rfl { leaves with }
      (storage.signIn.writeTokens profile rfl deleting fun _ _ => .inr (.inl rfl)) trivial
  | lock observed =>
    simp only [AuthState.execute] at ran
    split at ran
    · cases ran
      exact inv.goOn rfl { leaves with } { storage with own := { storage.own with } } trivial
    · cases ran
  | writeRefreshed displaced sent refreshed =>
    cases ran
    obtain ⟨sameAccount, isSent⟩ := fits
    have isStored : s.stored = some displaced := of_decide_eq_true allowed
    have ofOver : refreshed.account = displaced.account :=
      sameAccount.trans (StoredTokens.account_of_refreshToken isSent)
    obtain ⟨signedIn, deleting⟩ := storage.signedIn isStored
    refine inv.finish rfl { leaves with } (storage.writeTokens ?_ signedIn deleting ?_)
    · intro account isCached
      exact (storage.own.profile displaced account isStored isCached).trans ofOver.symm
    · intro old isOld
      have isOver : old = displaced := Option.some.inj (isOld.symm.trans isStored)
      exact .inr (.inr ⟨sent, rfl, isOver ▸ isSent⟩)
  | profileReply account =>
    cases ran
    exact inv.goOn rfl leaves storage trivial
  | writeProfile account =>
    cases ran
    simp only [Bool.and_eq_true, Bool.not_eq_true', List.isEmpty_iff] at allowed
    obtain ⟨⟨signedIn, resetting⟩, isStored⟩ := allowed
    have notOut : s.signedOut ≠ true := by simp [signedIn]
    have agrees : ∀ tokens cached, s.stored = some tokens → some account = some cached →
        cached = tokens.account := by
      rintro tokens _ isNow ⟨⟩
      rw [isNow] at isStored
      exact (of_decide_eq_true isStored).symm
    have cached : StorageFits { s with profile := some account } :=
      { storage with
        own := { storage.own with
          signedOut := fun isOut => absurd isOut notOut
          profile := agrees }
        resetting := fun among => absurd resetting among }
    exact inv.finish rfl { leaves with } cached
  | deleteTokens why =>
    have further : StorageFits { s with stored := none, deleting := id :: s.deleting } :=
      { storage.deleteTokens with
        own := { storage.deleteTokens.own with }
        deleting := fun _ => rfl }
    have leavesMore : Leaves id s { s with stored := none, deleting := id :: s.deleting } :=
      { leaves with deleting := fun _ _ among => mem_cons_of_mem _ among }
    cases why with
    | unauthenticated =>
      cases ran
      exact inv.goOn rfl { leaves with } storage.deleteTokens fun isOut => absurd rfl isOut
    | logout =>
      cases ran
      exact inv.goOn rfl leavesMore further fun _ => mem_cons_self
    | reset =>
      cases ran
      exact inv.goOn rfl leavesMore further fun _ => mem_cons_self
  | removeLegacy why =>
    cases ran
    have leftOut : Leaves id s { s with legacy := none } :=
      { leaves with legacy := fun _ => rfl }
    exact inv.goOn rfl leftOut storage.removeLegacy fun isOut => ⟨fits isOut, rfl⟩
  | removeProfile why =>
    cases why with
    | unauthenticated =>
      cases ran
      exact inv.finish rfl { leaves with } storage.removeProfile
    | logout =>
      cases ran
      obtain ⟨among, legacy⟩ := fits (fun isOther => nomatch isOther)
      exact inv.signOut rfl { leaves with } storage.removeProfile
        (storage.deleting (ne_nil_of_mem among)) rfl legacy
    | reset =>
      cases ran
      obtain ⟨among, legacy⟩ := fits (fun isOther => nomatch isOther)
      have further : StorageFits { s with profile := none, resetting := id :: s.resetting } :=
        { storage.removeProfile with
          own := { storage.removeProfile.own with }
          resetting := fun _ => rfl }
      have leavesMore : Leaves id s { s with profile := none, resetting := id :: s.resetting } :=
        { leaves with resetting := fun _ _ among => mem_cons_of_mem _ among }
      exact inv.goOn rfl leavesMore further ⟨among, mem_cons_self, legacy⟩
  | clearPermissions =>
    cases ran
    obtain ⟨among, amongToo, legacy⟩ := fits
    exact inv.signOut rfl leaves storage (storage.deleting (ne_nil_of_mem among))
      (storage.resetting (ne_nil_of_mem amongToo)) legacy
  | exchange account => cases ran
  | refreshReply sent => cases ran

theorem AuthInvariant.next {step : AuthStep} (inv : AuthInvariant s)
    (allowed : undisturbed s step = true) (stepped : s.next step = some s') : AuthInvariant s' := by
  have storage := inv.storage
  cases step with
  | openLogin state =>
    cases stepped
    exact ⟨{ storage with own := { storage.own with } }, inv.calls.mono fun _ _ _ fits => fits⟩
  | call id call =>
    have leaves := Leaves.refl id s
    simp only [AuthState.next] at stepped
    split at stepped
    · cases stepped
    · cases call with
      | logout =>
        cases stepped
        exact inv.goOn rfl leaves storage trivial
      | reset =>
        cases stepped
        exact inv.goOn rfl { leaves with } { storage with own := { storage.own with } } trivial
      | completeLogin state account =>
        dsimp only at stepped
        split at stepped
        · cases stepped
          exact inv.goOn rfl { leaves with } { storage with own := { storage.own with } } trivial
        · cases stepped
          exact ⟨{ storage with own := { storage.own with } },
            inv.calls.mono fun _ _ _ fits => fits⟩
      | refresh =>
        cases stepped
        exact inv.goOn rfl leaves storage trivial
      | fetchProfile =>
        cases stepped
        exact inv.goOn rfl leaves storage trivial
  | execute id =>
    obtain ⟨statement, isCall, ran⟩ := bind_eq_some_iff.mp stepped
    exact inv.execute isCall allowed ran
  | reply id hasAccess hasRefresh =>
    have leaves := Leaves.refl id s
    simp only [AuthState.next] at stepped
    split at stepped
    · cases stepped
      exact inv.goOn rfl { leaves with } { storage with own := { storage.own with } } trivial
    · cases stepped
      exact inv.goOn rfl { leaves with } { storage with own := { storage.own with } } rfl
    · cases stepped
  | unauthenticated id =>
    simp only [AuthState.next] at stepped
    split at stepped
    · cases stepped
      exact inv.goOn rfl (Leaves.refl id s) storage trivial
    · cases stepped
  | fail id =>
    simp only [AuthState.next] at stepped
    split at stepped
    · cases stepped
    · cases stepped
      exact inv.finish rfl (Leaves.refl id s) storage

theorem Fresh.invariant (fresh : Fresh s) : AuthInvariant s where
  storage :=
    { own :=
        { signedOut := by simp [fresh.signedOut]
          replaced := by simp [fresh.writes]
          sent := by simp [fresh.sent]
          profile := fresh.profile }
      legacy := by simp [fresh.signedOut]
      deleting := by simp [fresh.deleting]
      resetting := by simp [fresh.resetting] }
  calls := by simp [fresh.calls]

/-! ## Every run -/

/-- **The sign-in state is never resurrected or mixed up**, in every run whose writes find what
their calls have read. -/
theorem never_mixed_up
    (reached : system.ReachableBy (fun s step => undisturbed s step = true) s) : NeverMixedUp s := by
  have inv := System.ReachableBy.keeps AuthInvariant
    (fun _ fresh => Fresh.invariant fresh)
    (fun _ _ _ inv allowed stepped => inv.next allowed stepped) reached
  exact inv.storage.own

/-- Nothing is stored, or a legacy file. -/
def started (legacy : Option StoredTokens) : AuthState where
  stored := none
  legacy
  profile := none
  nextNumber := 1

theorem fresh_started (legacy : Option StoredTokens) : (started legacy).Fresh where
  profile := fun _ _ isStored => nomatch isStored
  calls := rfl
  signedOut := rfl
  deleting := rfl
  resetting := rfl
  writes := rfl
  sent := rfl

/-- The steps of a call, one after the other. -/
def steps (id n : Nat) : List AuthStep := List.replicate n (.execute id)

/-- A login, up to the storing of its tokens. -/
def login (id account : Nat) : List AuthStep :=
  [.openLogin 0, .call id (.completeLogin 0 account), .reply id true true, .execute id]

def logout (id : Nat) : List AuthStep := .call id .logout :: steps id 3

/-- A refresh, up to the comparison of what is stored with what was sent. -/
def refresh (id : Nat) : List AuthStep :=
  .call id .refresh :: steps id 3 ++ [.reply id true true, .execute id]

/-- A profile is requested, the user logs out, and the profile is cached. -/
def profileAfterLogout : List AuthStep := login 0 7 ++ steps 0 1 ++ logout 1 ++ steps 0 2

/-- A refreshed pair is stored after the logout that has deleted the pair it was compared with. -/
def tokensAfterLogout : List AuthStep := login 0 7 ++ refresh 1 ++ logout 2 ++ steps 1 1

def refreshOverLogin : List AuthStep := login 0 7 ++ refresh 1 ++ login 2 8 ++ steps 1 1

/-- A login with another account, without a logout before it. -/
def otherAccount : List AuthStep := login 0 7 ++ steps 0 3 ++ login 1 8

/-- A legacy pair is being moved by call `0` and has been sent by call `1`, without an answer;
call `2` moves it again, in the middle of a logout, a login stores a newer pair, and the legacy
pair is sent again. -/
def legacySentAgain : List AuthStep :=
  .call 0 .refresh :: steps 0 3 ++ .call 1 .refresh :: steps 1 3 ++ [.fail 1] ++
    .call 2 .refresh :: steps 2 2 ++ [.call 3 .logout, .execute 3] ++ steps 2 3 ++ login 4 8 ++
    steps 2 1

def afterRun (legacy : Option StoredTokens) (ls : List AuthStep) : Option AuthState :=
  System.run next (started legacy) ls

/-- A profile, or tokens, are stored after a logout; tokens are replaced by a refresh of others; a
token is sent again while a newer one is stored; a profile stays beside the tokens of another
account. -/
theorem not_never_mixed_up :
    (afterRun none profileAfterLogout).map (fun s => (s.signedOut, s.profile)) =
      some (true, some 7) ∧
    (afterRun none tokensAfterLogout).map (fun s => (s.signedOut, s.stored)) =
      some (true, some ⟨7, true, some 2⟩) ∧
    (afterRun none refreshOverLogin).map (fun s => s.writes.head?) =
      some (some ⟨some ⟨8, true, some 3⟩, ⟨7, true, some 2⟩, .refresh ⟨7, 1⟩⟩) ∧
    (afterRun (some ⟨7, true, some 0⟩) legacySentAgain).map (fun s => s.sent.head?) =
      some (some ⟨⟨7, 0⟩, true, some ⟨8, true, some 1⟩⟩) ∧
    (afterRun none otherAccount).map (fun s => (s.stored, s.profile)) =
      some (some ⟨8, true, some 2⟩, some 7) ∧
    ¬ ∀ s, system.Reachable s → NeverMixedUp s := by
  have mixed : (afterRun none otherAccount).map (fun s => (s.stored, s.profile)) =
      some (some ⟨8, true, some 2⟩, some 7) := by
    decide +kernel
  refine ⟨by decide +kernel, by decide +kernel, by decide +kernel, by decide +kernel, mixed, ?_⟩
  intro always
  obtain ⟨s, ran, reported⟩ := map_eq_some_iff.mp mixed
  rw [Prod.mk.injEq] at reported
  have reached : system.Reachable s := System.reachable_of_run (.start (fresh_started none)) ran
  cases (always s reached).profile _ _ reported.1 reported.2

/-- A login, a refresh and a logout, one after the other. -/
theorem never_mixed_up_in_turn :
    ∃ s, system.ReachableBy (fun s step => undisturbed s step = true) s ∧
      s.signedOut = true ∧ s.writes.length = 2 ∧ NeverMixedUp s := by
  have ran : (System.runWhile undisturbed next (started none)
      (login 0 7 ++ steps 0 3 ++ refresh 1 ++ steps 1 1 ++ logout 2)).map
        (fun s => (s.signedOut, s.writes.length)) = some (true, 2) := by
    decide +kernel
  obtain ⟨s, ran, reported⟩ := map_eq_some_iff.mp ran
  rw [Prod.mk.injEq] at reported
  have reached : system.ReachableBy (fun s step => undisturbed s step = true) s :=
    System.reachableBy_of_runWhile (.start (fresh_started none)) ran
  exact ⟨s, reached, reported.1, reported.2, never_mixed_up reached⟩

end AuthState

end Kuku.Desktop
