/-
# Auth.Revocation -- sign-ins, refreshes and the end of sessions

`EmailVerify`, `ExchangeDesktopToken` and `OAuthCallback` from the look-up of the user on,
`refreshTokens`, `SignOut`, `DeleteAccount` and `ValidateSession`, each as the sequence of its
SQL statements under READ COMMITTED.  A statement reads what was committed when it began.  An
`UPDATE` inside a transaction finds its rows in one step and then, row by row, waits for the
row's lock, looks again whether the row is revoked, and locks it; the rows of a table joined to
it are not looked at again.  A new refresh token, and the deletion of the user, are visible from
the commit on.  Any call may end with an error at any step (an expired session or token, a
deadlock), and then leaves its rows as they were.

The state remembers the sessions signed out, the accounts deleted, and every pair handed out and
every session validated, with whether its session was signed out and its account deleted then.

* `revocation_final`: if, whenever a revocation commits, every session it is about is revoked
  with it and no call is under way that will hand out a pair for it, all three parts of the
  property hold in every state a run reaches.
* `refresh_once`: in every run, each refresh token yields at most one pair.
* `not_revocation_final`: a sign-in beside the deletion of the account, and a refresh beside a
  logout.
-/
import Kuku.Auth.Tables
import Kuku.Theory.Assoc
import Kuku.Theory.RowLocks

namespace Kuku.Auth

open Kuku.Theory List Nat

structure TokenOwner where
  session : Nat
  user : Nat

/-- Marked rows are revoked. -/
abbrev RefreshTokenRow := LockedRow TokenOwner

/-- The value is the user. -/
abbrev SessionRow := LockedRow Nat

/-- What a revocation is about. -/
inductive RevocationScope where
  | session (id : Nat)
  | user (id : Nat)
  deriving DecidableEq

def RevocationScope.covers (session user : Nat) : RevocationScope → Bool
  | .session id => id = session
  | .user id => id = user

/-- How a sign-in names its user: the user of a token or identity, or an address. -/
inductive SignInUser where
  | byId (id : Nat)
  | byEmail (email : Email)

/-- The next statement of a call, with the values the call has read before. -/
inductive SessionStatement where
  -- a sign-in
  | findUser (who : SignInUser)
  | createUser (email : Email)
  | createSession (user : AuthUser)
  | createRefreshToken (user : AuthUser) (session : Nat)
  -- `ValidateSession`
  | validate (session : Nat)
  -- `refreshTokens`
  | consume (tokenId : Nat)
  | lockToken (token : RefreshTokenRow)
  | refreshUser (token : RefreshTokenRow)
  | touchSession (token : RefreshTokenRow)
  | commitRefresh (token : RefreshTokenRow)
  -- `SignOut` and `DeleteAccount`
  | revokeTokens (scope : RevocationScope)
  | lockTokens (scope : RevocationScope) (rest : List Nat)
  | revokeSessions (scope : RevocationScope)
  | lockSessions (scope : RevocationScope) (rest : List Nat)
  | commitRevocation (scope : RevocationScope)

inductive SessionCall where
  | signIn (who : SignInUser)
  | validateSession (session : Nat)
  | refreshTokens (tokenId : Nat)
  | signOut (session : Nat)
  | deleteAccount (user : Nat)

inductive HandOut where
  | signIn
  | refresh (tokenId : Nat)
  | validated
  deriving DecidableEq

structure HandedOut where
  kind : HandOut
  session : Nat
  user : Nat
  signedOut : Bool
  deleted : Bool
  deriving DecidableEq

structure SessionTables where
  users : List AuthUser
  sessions : List SessionRow := []
  tokens : List RefreshTokenRow := []
  nextId : Nat
  calls : Assoc Nat SessionStatement := []
  signedOut : List Nat := []
  deletedUsers : List Nat := []
  handedOut : List HandedOut := []

inductive SessionStep where
  | call (id : Nat) (call : SessionCall)
  | execute (id : Nat)
  | fail (id : Nat)

namespace SessionTables

def goOn (s : SessionTables) (id : Nat) (statement : SessionStatement) : SessionTables :=
  { s with calls := s.calls.set id statement }

/-- The call ends, and its transaction, if it is in one, is rolled back. -/
def finish (s : SessionTables) (id : Nat) : SessionTables :=
  { s with
    calls := s.calls.remove id
    tokens := LockedRow.release s.tokens id
    sessions := LockedRow.release s.sessions id }

/-- The rows that the call has updated, as the others see them from now on. -/
def commit (s : SessionTables) (id : Nat) : SessionTables :=
  { s with
    tokens := LockedRow.commit s.tokens id
    sessions := LockedRow.commit s.sessions id }

def lockTokenRow (s : SessionTables) (tokenId id : Nat) : SessionTables :=
  { s with tokens := LockedRow.acquire s.tokens tokenId ⟨id, true⟩ }

def lockSessionRow (s : SessionTables) (session id : Nat) (revokes : Bool) : SessionTables :=
  { s with sessions := LockedRow.acquire s.sessions session ⟨id, revokes⟩ }

def handOut (s : SessionTables) (kind : HandOut) (session user : Nat) : SessionTables :=
  { s with
    handedOut := ⟨kind, session, user, s.signedOut.contains session,
      s.deletedUsers.contains user⟩ :: s.handedOut }

def addUser (s : SessionTables) (user : AuthUser) : SessionTables :=
  { s with users := s.users ++ [user], nextId := s.nextId + 1 }

def addSession (s : SessionTables) (user : Nat) : SessionTables :=
  { s with sessions := s.sessions ++ [⟨s.nextId, user, false, none⟩], nextId := s.nextId + 1 }

def addToken (s : SessionTables) (owner : TokenOwner) : SessionTables :=
  { s with tokens := s.tokens ++ [⟨s.nextId, owner, false, none⟩], nextId := s.nextId + 1 }

/-- A revocation commits; that of an account deletes the user. -/
def endScope (s : SessionTables) : RevocationScope → SessionTables
  | .session session => { s with signedOut := session :: s.signedOut }
  | .user userId =>
    { s with
      deletedUsers := userId :: s.deletedUsers
      users := s.users.map fun user =>
        if user.id = userId then { user with deleted := true } else user }

def findUser (s : SessionTables) : SignInUser → Option AuthUser
  | .byId id => getUserByID s.users id
  | .byEmail email => getUserByEmail s.users email

/-- The session of a token is not revoked. -/
def sessionValid (s : SessionTables) (session : Nat) : Bool :=
  s.sessions.any fun row => row.id = session && !row.marked

def execute (s : SessionTables) (id : Nat) : SessionStatement → Option SessionTables
  | .findUser who =>
    match s.findUser who, who with
    | some user, _ => some (s.goOn id (.createSession user))
    | none, .byEmail email => some (s.goOn id (.createUser email))
    | none, .byId _ => some (s.finish id)
  | .createUser email =>
    match Auth.createUser s.users s.nextId email with
    | some user => some ((s.addUser user).goOn id (.createSession user))
    | none => some (s.finish id)
  | .createSession user =>
    some ((s.addSession user.id).goOn id (.createRefreshToken user s.nextId))
  | .createRefreshToken user session =>
    some (((s.addToken ⟨session, user.id⟩).handOut .signIn session user.id).finish id)
  | .validate session =>
    -- the update of `refreshed_at` does not fail when the session is revoked meanwhile
    match s.sessions.find? fun row => row.id = session && !row.marked with
    | some row => some ((s.handOut .validated session row.value).finish id)
    | none => some (s.finish id)
  | .consume tokenId =>
    match LockedRow.find s.tokens tokenId with
    | none => some (s.finish id)
    | some token =>
      if !token.marked && s.sessionValid token.value.session then
        some (s.goOn id (.lockToken token))
      else some (s.finish id)
  | .lockToken token =>
    match LockedRow.find s.tokens token.id with
    | none => some (s.finish id)
    | some row =>
      if row.isHeldByOther id then none
      else if row.marked then some (s.finish id)
      else some ((s.lockTokenRow token.id id).goOn id (.refreshUser token))
  | .refreshUser token =>
    match getUserByID s.users token.value.user with
    | some _ => some (s.goOn id (.touchSession token))
    | none => some (s.finish id)
  | .touchSession token =>
    match LockedRow.find s.sessions token.value.session with
    | none => some (s.goOn id (.commitRefresh token))
    | some row =>
      if row.marked then some (s.goOn id (.commitRefresh token))
      else if row.isHeldByOther id then none
      else some ((s.lockSessionRow row.id id false).goOn id (.commitRefresh token))
  | .commitRefresh token =>
    some ((((s.commit id).addToken token.value).handOut (.refresh token.id) token.value.session
      token.value.user).finish id)
  | .revokeTokens scope =>
    some (s.goOn id (.lockTokens scope ((s.tokens.filter fun row =>
      scope.covers row.value.session row.value.user && !row.marked).map LockedRow.id)))
  | .lockTokens scope [] => some (s.goOn id (.revokeSessions scope))
  | .lockTokens scope (tokenId :: rest) =>
    match LockedRow.find s.tokens tokenId with
    | none => some (s.goOn id (.lockTokens scope rest))
    | some row =>
      if row.isHeldByOther id then none
      else if row.marked then some (s.goOn id (.lockTokens scope rest))
      else some ((s.lockTokenRow tokenId id).goOn id (.lockTokens scope rest))
  | .revokeSessions scope =>
    some (s.goOn id (.lockSessions scope ((s.sessions.filter fun row =>
      scope.covers row.id row.value && !row.marked).map LockedRow.id)))
  | .lockSessions scope [] => some (s.goOn id (.commitRevocation scope))
  | .lockSessions scope (session :: rest) =>
    match LockedRow.find s.sessions session with
    | none => some (s.goOn id (.lockSessions scope rest))
    | some row =>
      if row.isHeldByOther id then none
      else if row.marked then some (s.goOn id (.lockSessions scope rest))
      else some ((s.lockSessionRow session id true).goOn id (.lockSessions scope rest))
  | .commitRevocation scope => some (((s.commit id).endScope scope).finish id)

/-- A logout or a deletion is asked for with a session of the user, so its row is there. -/
def firstStatement (s : SessionTables) : SessionCall → Option SessionStatement
  | .signIn who => some (.findUser who)
  | .validateSession session => some (.validate session)
  | .refreshTokens tokenId => some (.consume tokenId)
  | .signOut session =>
    if s.sessions.any fun row => row.id = session then some (.revokeTokens (.session session))
    else none
  | .deleteAccount user =>
    if s.users.any fun row => row.id = user then some (.revokeTokens (.user user)) else none

def next (s : SessionTables) : SessionStep → Option SessionTables
  | .call id call =>
    match s.calls.get id with
    | some _ => none
    | none => (s.firstStatement call).map fun statement => s.goOn id statement
  | .execute id => (s.calls.get id).bind fun statement => s.execute id statement
  | .fail id => (s.calls.get id).map fun _ => s.finish id

/-- Any users. -/
structure Fresh (s : SessionTables) : Prop where
  below : ∀ user ∈ s.users, user.id < s.nextId
  sessions : s.sessions = []
  tokens : s.tokens = []
  calls : s.calls = []
  signedOut : s.signedOut = []
  deletedUsers : s.deletedUsers = []
  handedOut : s.handedOut = []

def system : System SessionTables SessionStep := System.ofStep Fresh next

/-! ## The property and the condition -/

def refreshed (s : SessionTables) : List Nat :=
  s.handedOut.filterMap fun handed =>
    match handed.kind with
    | .refresh tokenId => some tokenId
    | _ => none

structure RevocationFinal (s : SessionTables) : Prop where
  /-- Each refresh token yields at most one pair. -/
  once : s.refreshed.Nodup
  /-- A session that is signed out is not validated, and its tokens yield no pair. -/
  signedOut : ∀ handed ∈ s.handedOut, handed.kind ≠ .signIn → handed.signedOut = false
  /-- No session of a deleted account is validated, and no pair is handed out for it. -/
  deleted : ∀ handed ∈ s.handedOut, handed.deleted = false

/-- The call will hand out a pair for the scope, although the revocation `id` has committed. -/
def willHandOut (s : SessionTables) (id : Nat) (scope : RevocationScope) : SessionStatement → Bool
  | .createSession user => scope = .user user.id
  | .createRefreshToken user _ => scope = .user user.id
  | .lockToken token =>
    scope = .session token.value.session && s.tokens.any fun row =>
      row.id = token.id && !row.marked && row.lock ≠ some ⟨id, true⟩
  | .refreshUser token => scope = .session token.value.session
  | .touchSession token => scope.covers token.value.session token.value.user
  | .commitRefresh token => scope.covers token.value.session token.value.user
  | _ => false

/-- When a revocation commits, every session of its scope is revoked with it, and no call under
way will hand out a pair for the scope. -/
def undisturbed (s : SessionTables) : SessionStep → Bool
  | .execute id =>
    match s.calls.get id with
    | some (.commitRevocation scope) =>
      s.sessions.all (fun row =>
        !scope.covers row.id row.value || row.marked || row.lock = some ⟨id, true⟩) &&
      s.calls.all fun entry => !s.willHandOut id scope entry.2
    | _ => true
  | _ => true

variable {s s' : SessionTables} {id : Nat} {statement : SessionStatement}

/-! ## A refresh token yields one pair -/

/-- The token that a call has consumed. -/
def consumed : SessionStatement → Option Nat
  | .refreshUser token => some token.id
  | .touchSession token => some token.id
  | .commitRefresh token => some token.id
  | _ => none

/-- The call has locked the token's row, to revoke it. -/
def Holds (s : SessionTables) (id tokenId : Nat) : Prop :=
  ∃ row, LockedRow.find s.tokens tokenId = some row ∧ row.marked = false ∧
    row.lock = some ⟨id, true⟩

structure OnceFits (s : SessionTables) : Prop where
  below : ∀ row ∈ s.tokens, row.id < s.nextId
  used : ∀ tokenId ∈ s.refreshed, tokenId < s.nextId ∧
    ∀ row, LockedRow.find s.tokens tokenId = some row → row.marked = true
  once : s.refreshed.Nodup

structure OnceInvariant (s : SessionTables) : Prop where
  fits : s.OnceFits
  calls : s.calls.Every fun id statement => ∀ tokenId, consumed statement = some tokenId →
    s.Holds id tokenId

/-- What a step of one call does to the tokens. -/
abbrev TokensGrown (id : Nat) (s s' : SessionTables) : Prop :=
  LockedRow.Grown id s.nextId s'.nextId s.tokens s'.tokens

theorem TokensGrown.refl (id : Nat) (s : SessionTables) : TokensGrown id s s :=
  (LockedRow.Kept.refl id s.tokens).grown (Nat.le_refl _)

theorem Holds.grown (grown : TokensGrown id s s') {other tokenId : Nat} (differs : other ≠ id)
    (holds : s.Holds other tokenId) : s'.Holds other tokenId := by
  obtain ⟨row, found, unmarked, isLocked⟩ := holds
  obtain ⟨after, isFound, kept⟩ := grown.find found
  have isOther : row.isHeldByOther id = true := by
    simp [LockedRow.isHeldByOther, isLocked, differs]
  have same := kept.others isOther
  exact ⟨after, isFound, same ▸ unmarked, same ▸ isLocked⟩

theorem OnceFits.grown (fits : s.OnceFits) (grown : TokensGrown id s s')
    (same : s'.refreshed = s.refreshed) : s'.OnceFits := by
  refine ⟨grown.below fits.below, ?_, same ▸ fits.once⟩
  intro tokenId among
  rw [same] at among
  obtain ⟨isOld, marked⟩ := fits.used tokenId among
  refine ⟨Nat.lt_of_lt_of_le isOld grown.grows, ?_⟩
  intro row found
  obtain ⟨before, wasFound, kept⟩ := grown.found isOld found
  exact kept.marked (marked before wasFound)

variable (inv : OnceInvariant s)

include inv

theorem OnceInvariant.goOn (calls : s'.calls = s.calls) (grown : TokensGrown id s s')
    (fits : s'.OnceFits)
    (holds : ∀ tokenId, consumed statement = some tokenId → s'.Holds id tokenId) :
    OnceInvariant (s'.goOn id statement) := by
  refine ⟨{ fits with }, ?_⟩
  change (s'.calls.set id statement).Every _
  rw [calls]
  refine inv.calls.set ?_ holds
  intro other going differs held tokenId isConsumed
  exact Holds.grown grown differs (held tokenId isConsumed)

theorem OnceInvariant.finish (calls : s'.calls = s.calls) (grown : TokensGrown id s s')
    (fits : s'.OnceFits) : OnceInvariant (s'.finish id) := by
  have released : TokensGrown id s' (s'.finish id) := (LockedRow.kept_release id).grown (Nat.le_refl _)
  refine ⟨fits.grown released rfl, ?_⟩
  change (s'.calls.remove id).Every _
  rw [calls]
  refine inv.calls.remove ?_
  intro other going differs held tokenId isConsumed
  exact Holds.grown released differs (Holds.grown grown differs (held tokenId isConsumed))

/-- A call goes on without a change of the tokens. -/
theorem OnceInvariant.proceed (calls : s'.calls = s.calls) (tokens : s'.tokens = s.tokens)
    (nextId : s.nextId ≤ s'.nextId) (same : s'.refreshed = s.refreshed)
    (held : ∀ tokenId, consumed statement = some tokenId → s.Holds id tokenId) :
    OnceInvariant (s'.goOn id statement) := by
  have grown : TokensGrown id s s' := by
    rw [TokensGrown, tokens]
    exact (LockedRow.Kept.refl id s.tokens).grown nextId
  refine inv.goOn calls grown (inv.fits.grown grown same) ?_
  intro tokenId isConsumed
  rw [Holds, tokens]
  exact held tokenId isConsumed

theorem OnceInvariant.lockToken {row : RefreshTokenRow} {tokenId : Nat}
    (found : LockedRow.find s.tokens tokenId = some row) (isFree : row.isHeldByOther id = false)
    (unmarked : row.marked = false)
    (consumes : ∀ other, consumed statement = some other → other = tokenId) :
    OnceInvariant ((s.lockTokenRow tokenId id).goOn id statement) := by
  have grown : TokensGrown id s (s.lockTokenRow tokenId id) :=
    LockedRow.kept_acquire.grown (Nat.le_refl _)
  refine inv.goOn rfl grown (inv.fits.grown grown rfl) ?_
  intro other isConsumed
  rw [consumes other isConsumed]
  exact ⟨_, LockedRow.find_acquire found isFree, unmarked, rfl⟩

theorem OnceInvariant.execute (isCall : s.calls.get id = some statement)
    (ran : s.execute id statement = some s') : OnceInvariant s' := by
  have held := inv.calls.get isCall
  have still := TokensGrown.refl id s
  have ends : OnceInvariant (s.finish id) := inv.finish rfl still inv.fits
  have least := Nat.le_refl s.nextId
  cases statement with
  | findUser who =>
    simp only [SessionTables.execute] at ran
    split at ran
    · cases ran
      exact inv.proceed rfl rfl least rfl (fun _ isNone => nomatch isNone)
    · cases ran
      exact inv.proceed rfl rfl least rfl (fun _ isNone => nomatch isNone)
    · cases ran
      exact ends
  | createUser email =>
    simp only [SessionTables.execute] at ran
    split at ran
    · cases ran
      exact inv.proceed rfl rfl (le_succ _) rfl (fun _ isNone => nomatch isNone)
    · cases ran
      exact ends
  | createSession user =>
    cases ran
    exact inv.proceed rfl rfl (le_succ _) rfl (fun _ isNone => nomatch isNone)
  | createRefreshToken user session =>
    cases ran
    have grown : TokensGrown id s (s.addToken ⟨session, user.id⟩) :=
      (LockedRow.Kept.refl id s.tokens).append rfl
    exact inv.finish rfl { grown with } (inv.fits.grown grown rfl)
  | validate session =>
    simp only [SessionTables.execute] at ran
    split at ran
    · cases ran
      exact inv.finish rfl still { inv.fits with }
    · cases ran
      exact ends
  | consume tokenId =>
    simp only [SessionTables.execute] at ran
    split at ran
    · cases ran
      exact ends
    · split at ran
      · cases ran
        exact inv.proceed rfl rfl least rfl (fun _ isNone => nomatch isNone)
      · cases ran
        exact ends
  | lockToken token =>
    simp only [SessionTables.execute] at ran
    split at ran
    · cases ran
      exact ends
    · rename_i row found
      split at ran
      · cases ran
      · rename_i isFree
        split at ran
        · cases ran
          exact ends
        · rename_i unmarked
          cases ran
          refine inv.lockToken found (by simpa using isFree) (by simpa using unmarked) ?_
          rintro other ⟨⟩
          rfl
  | refreshUser token =>
    simp only [SessionTables.execute] at ran
    split at ran
    · cases ran
      exact inv.proceed rfl rfl least rfl held
    · cases ran
      exact ends
  | touchSession token =>
    simp only [SessionTables.execute] at ran
    split at ran
    · cases ran
      exact inv.proceed rfl rfl least rfl held
    · split at ran
      · cases ran
        exact inv.proceed rfl rfl least rfl held
      · split at ran
        · cases ran
        · cases ran
          exact inv.proceed rfl rfl least rfl held
  | commitRefresh token =>
    cases ran
    obtain ⟨row, found, unmarked, isLocked⟩ := held token.id rfl
    have grown : TokensGrown id s ((s.commit id).addToken token.value) :=
      (LockedRow.kept_commit id).append rfl
    have fits := inv.fits.grown grown rfl
    have isFound : LockedRow.find ((s.commit id).addToken token.value).tokens token.id =
        some (LockedRow.commitRow id row) := by
      apply LockedRow.find_append
      rw [commit, LockedRow.find_commit, found]
      rfl
    obtain ⟨among, isId⟩ := LockedRow.find_eq found
    have isNew : token.id ∉ s.refreshed := by
      intro earlier
      rw [(inv.fits.used token.id earlier).2 row found] at unmarked
      cases unmarked
    refine inv.finish rfl { grown with } ⟨fits.below, ?_, nodup_cons.mpr ⟨isNew, fits.once⟩⟩
    intro tokenId isRefreshed
    rcases mem_cons.mp isRefreshed with rfl | earlier
    · refine ⟨lt_succ_of_lt (isId ▸ inv.fits.below row among), ?_⟩
      intro after isAfter
      rw [← Option.some.inj (isFound.symm.trans isAfter)]
      exact LockedRow.marked_commitRow isLocked
    · exact fits.used tokenId earlier
  | revokeTokens scope =>
    cases ran
    exact inv.proceed rfl rfl least rfl (fun _ isNone => nomatch isNone)
  | lockTokens scope rest =>
    cases rest with
    | nil =>
      cases ran
      exact inv.proceed rfl rfl least rfl (fun _ isNone => nomatch isNone)
    | cons tokenId rest =>
      simp only [SessionTables.execute] at ran
      split at ran
      · cases ran
        exact inv.proceed rfl rfl least rfl (fun _ isNone => nomatch isNone)
      · rename_i row found
        split at ran
        · cases ran
        · rename_i isFree
          split at ran
          · cases ran
            exact inv.proceed rfl rfl least rfl (fun _ isNone => nomatch isNone)
          · rename_i unmarked
            cases ran
            refine inv.lockToken found (by simpa using isFree) (by simpa using unmarked) ?_
            exact fun _ isNone => nomatch isNone
  | revokeSessions scope =>
    cases ran
    exact inv.proceed rfl rfl least rfl (fun _ isNone => nomatch isNone)
  | lockSessions scope rest =>
    cases rest with
    | nil =>
      cases ran
      exact inv.proceed rfl rfl least rfl (fun _ isNone => nomatch isNone)
    | cons session rest =>
      simp only [SessionTables.execute] at ran
      split at ran
      · cases ran
        exact inv.proceed rfl rfl least rfl (fun _ isNone => nomatch isNone)
      · split at ran
        · cases ran
        · split at ran
          · cases ran
            exact inv.proceed rfl rfl least rfl (fun _ isNone => nomatch isNone)
          · cases ran
            exact inv.proceed rfl rfl least rfl (fun _ isNone => nomatch isNone)
  | commitRevocation scope =>
    have grown : TokensGrown id s ((s.commit id).endScope scope) := by
      cases scope <;> exact (LockedRow.kept_commit id).grown (Nat.le_refl _)
    have calls : ((s.commit id).endScope scope).calls = s.calls := by cases scope <;> rfl
    have same : ((s.commit id).endScope scope).refreshed = s.refreshed := by cases scope <;> rfl
    cases ran
    exact inv.finish calls grown (inv.fits.grown grown same)

theorem OnceInvariant.next {step : SessionStep} (stepped : s.next step = some s') :
    OnceInvariant s' := by
  cases step with
  | call id call =>
    simp only [SessionTables.next] at stepped
    split at stepped
    · cases stepped
    · obtain ⟨statement, isFirst, rfl⟩ := Option.map_eq_some_iff.mp stepped
      refine inv.proceed rfl rfl (Nat.le_refl _) rfl ?_
      intro tokenId isConsumed
      cases call with
      | signOut session =>
        simp only [firstStatement] at isFirst
        split at isFirst
        · cases isFirst
          cases isConsumed
        · cases isFirst
      | deleteAccount user =>
        simp only [firstStatement] at isFirst
        split at isFirst
        · cases isFirst
          cases isConsumed
        · cases isFirst
      | _ =>
        cases isFirst
        cases isConsumed
  | execute id =>
    obtain ⟨statement, isCall, ran⟩ := Option.bind_eq_some_iff.mp stepped
    exact inv.execute isCall ran
  | fail id =>
    obtain ⟨statement, -, rfl⟩ := Option.map_eq_some_iff.mp stepped
    exact inv.finish rfl (TokensGrown.refl id s) inv.fits

omit inv

/-- **Each refresh token yields at most one pair**, in every run. -/
theorem refresh_once (reached : system.Reachable s) : s.refreshed.Nodup := by
  have inv := System.ReachableBy.keeps OnceInvariant
    (fun _ fresh =>
      { fits :=
          { below := by simp [fresh.tokens]
            used := by simp [refreshed, fresh.handedOut]
            once := by simp [refreshed, fresh.handedOut] }
        calls := by simp [fresh.calls] })
    (fun _ _ _ inv _ stepped => inv.next stepped) reached
  exact inv.fits.once

/-! ## Nothing is handed out after a revocation -/

def scopeId : RevocationScope → Nat
  | .session id => id
  | .user id => id

/-- What the values that a call has read say about the tables. -/
def Fits (s : SessionTables) : SessionStatement → Prop
  | .createSession user => user.id ∉ s.deletedUsers
  | .createRefreshToken user _ => user.id ∉ s.deletedUsers
  | .lockToken token => token.id < s.nextId ∧ (token.value.session ∈ s.signedOut →
      ∀ row ∈ s.tokens, row.id = token.id → row.marked = true)
  | .refreshUser token => token.value.session ∉ s.signedOut
  | .touchSession token => token.value.session ∉ s.signedOut ∧ token.value.user ∉ s.deletedUsers
  | .commitRefresh token => token.value.session ∉ s.signedOut ∧ token.value.user ∉ s.deletedUsers
  | .revokeTokens scope => scopeId scope < s.nextId
  | .lockTokens scope _ => scopeId scope < s.nextId
  | .revokeSessions scope => scopeId scope < s.nextId
  | .lockSessions scope _ => scopeId scope < s.nextId
  | .commitRevocation scope => scopeId scope < s.nextId
  | _ => True

structure FinalFits (s : SessionTables) : Prop where
  users : ∀ user ∈ s.users, user.id < s.nextId ∧ (user.id ∈ s.deletedUsers → user.deleted = true)
  sessions : ∀ row ∈ s.sessions, row.id < s.nextId ∧
    (row.id ∈ s.signedOut → row.marked = true) ∧ (row.value ∈ s.deletedUsers → row.marked = true)
  tokens : ∀ row ∈ s.tokens, row.id < s.nextId
  signedOut : ∀ session ∈ s.signedOut, session < s.nextId
  deletedUsers : ∀ userId ∈ s.deletedUsers, userId < s.nextId
  handedOut : ∀ handed ∈ s.handedOut,
    (handed.kind ≠ .signIn → handed.signedOut = false) ∧ handed.deleted = false

structure FinalInvariant (s : SessionTables) : Prop where
  fits : s.FinalFits
  calls : s.calls.Every fun _ statement => s.Fits statement

/-- What a step that revokes nothing does, seen from the other calls. -/
structure Leaves (id : Nat) (s s' : SessionTables) : Prop where
  tokens : TokensGrown id s s'
  signedOut : s'.signedOut = s.signedOut
  deletedUsers : s'.deletedUsers = s.deletedUsers

theorem Leaves.refl (id : Nat) (s : SessionTables) : Leaves id s s :=
  ⟨TokensGrown.refl id s, rfl, rfl⟩

/-- The tokens are as they were. -/
theorem Leaves.of_tokens (tokens : s'.tokens = s.tokens) (nextId : s.nextId ≤ s'.nextId)
    (signedOut : s'.signedOut = s.signedOut) (deletedUsers : s'.deletedUsers = s.deletedUsers) :
    Leaves id s s' := by
  refine ⟨?_, signedOut, deletedUsers⟩
  rw [TokensGrown, tokens]
  exact (LockedRow.Kept.refl id s.tokens).grown nextId

theorem Fits.left (leaves : Leaves id s s') (fits : s.Fits statement) : s'.Fits statement := by
  have least := leaves.tokens.grows
  cases statement with
  | createSession user => exact fun among => fits (leaves.deletedUsers ▸ among)
  | createRefreshToken user session => exact fun among => fits (leaves.deletedUsers ▸ among)
  | lockToken token =>
    obtain ⟨isOld, marked⟩ := fits
    refine ⟨Nat.lt_of_lt_of_le isOld least, ?_⟩
    intro isOut row among isToken
    rcases leaves.tokens.mem among with ⟨before, wasAmong, kept⟩ | ⟨isNew, -⟩
    · exact kept.marked (marked (leaves.signedOut ▸ isOut) before wasAmong
        (kept.id.symm.trans isToken))
    · exact absurd isOld (Nat.not_lt.mpr (isToken ▸ isNew))
  | refreshUser token => exact fun among => fits (leaves.signedOut ▸ among)
  | touchSession token =>
    exact ⟨fun among => fits.1 (leaves.signedOut ▸ among),
      fun among => fits.2 (leaves.deletedUsers ▸ among)⟩
  | commitRefresh token =>
    exact ⟨fun among => fits.1 (leaves.signedOut ▸ among),
      fun among => fits.2 (leaves.deletedUsers ▸ among)⟩
  | revokeTokens scope => exact Nat.lt_of_lt_of_le fits least
  | lockTokens scope rest => exact Nat.lt_of_lt_of_le fits least
  | revokeSessions scope => exact Nat.lt_of_lt_of_le fits least
  | lockSessions scope rest => exact Nat.lt_of_lt_of_le fits least
  | commitRevocation scope => exact Nat.lt_of_lt_of_le fits least
  | _ => trivial

/-! ### What the statements do to the tables -/

theorem FinalFits.keptTokens (fits : s.FinalFits) {tokens : List RefreshTokenRow}
    (kept : LockedRow.Kept id s.tokens tokens) : FinalFits { s with tokens := tokens } :=
  { fits with tokens := (kept.grown (Nat.le_refl _)).below fits.tokens }

theorem FinalFits.keptSessions (fits : s.FinalFits) {sessions : List SessionRow}
    (kept : LockedRow.Kept id s.sessions sessions) : FinalFits { s with sessions := sessions } := by
  refine { fits with sessions := ?_ }
  intro row among
  obtain ⟨before, wasAmong, rowKept⟩ := kept.mem among
  obtain ⟨below, signedOut, deleted⟩ := fits.sessions before wasAmong
  rw [rowKept.id, rowKept.value]
  exact ⟨below, fun isOut => rowKept.marked (signedOut isOut),
    fun isDeleted => rowKept.marked (deleted isDeleted)⟩

theorem FinalFits.commit (fits : s.FinalFits) (id : Nat) : (s.commit id).FinalFits :=
  (fits.keptTokens (LockedRow.kept_commit id)).keptSessions (LockedRow.kept_commit id)

variable {user : AuthUser}

theorem FinalFits.addUser (fits : s.FinalFits) (isNew : user.id = s.nextId) :
    (s.addUser user).FinalFits := by
  have least := lt_succ_self s.nextId
  constructor
  case users =>
    intro other among
    rcases mem_append.mp among with earlier | isLast
    · exact ⟨lt_succ_of_lt (fits.users other earlier).1, (fits.users other earlier).2⟩
    · rw [mem_singleton.mp isLast]
      refine ⟨isNew ▸ least, fun isDeleted => ?_⟩
      exact absurd (fits.deletedUsers _ isDeleted) (isNew ▸ Nat.lt_irrefl _)
  case sessions =>
    intro row among
    obtain ⟨below, others⟩ := fits.sessions row among
    exact ⟨lt_succ_of_lt below, others⟩
  case tokens => exact fun row among => lt_succ_of_lt (fits.tokens row among)
  case signedOut => exact fun session among => lt_succ_of_lt (fits.signedOut session among)
  case deletedUsers => exact fun user among => lt_succ_of_lt (fits.deletedUsers user among)
  case handedOut => exact fits.handedOut

theorem FinalFits.addSession (fits : s.FinalFits) {userId : Nat}
    (notDeleted : userId ∉ s.deletedUsers) : (s.addSession userId).FinalFits := by
  have least := lt_succ_self s.nextId
  constructor
  case users =>
    intro user among
    obtain ⟨below, deleted⟩ := fits.users user among
    exact ⟨lt_succ_of_lt below, deleted⟩
  case sessions =>
    intro row among
    rcases mem_append.mp among with earlier | isLast
    · obtain ⟨below, others⟩ := fits.sessions row earlier
      exact ⟨lt_succ_of_lt below, others⟩
    · rw [mem_singleton.mp isLast]
      refine ⟨least, fun isOut => ?_, fun isDeleted => absurd isDeleted notDeleted⟩
      exact absurd (fits.signedOut _ isOut) (Nat.lt_irrefl _)
  case tokens => exact fun row among => lt_succ_of_lt (fits.tokens row among)
  case signedOut => exact fun session among => lt_succ_of_lt (fits.signedOut session among)
  case deletedUsers => exact fun user among => lt_succ_of_lt (fits.deletedUsers user among)
  case handedOut => exact fits.handedOut

theorem FinalFits.addToken (fits : s.FinalFits) (owner : TokenOwner) :
    (s.addToken owner).FinalFits := by
  constructor
  case users =>
    intro user among
    obtain ⟨below, deleted⟩ := fits.users user among
    exact ⟨lt_succ_of_lt below, deleted⟩
  case sessions =>
    intro row among
    obtain ⟨below, others⟩ := fits.sessions row among
    exact ⟨lt_succ_of_lt below, others⟩
  case tokens => exact ((LockedRow.Kept.refl 0 s.tokens).append rfl).below fits.tokens
  case signedOut => exact fun session among => lt_succ_of_lt (fits.signedOut session among)
  case deletedUsers => exact fun user among => lt_succ_of_lt (fits.deletedUsers user among)
  case handedOut => exact fits.handedOut

/-- A pair is handed out, or a session validated, that no revocation is about. -/
theorem FinalFits.handOut (fits : s.FinalFits) {kind : HandOut} {session user : Nat}
    (notOut : kind ≠ .signIn → session ∉ s.signedOut) (notDeleted : user ∉ s.deletedUsers) :
    (s.handOut kind session user).FinalFits := by
  refine { fits with handedOut := ?_ }
  intro handed among
  rcases mem_cons.mp among with rfl | earlier
  · exact ⟨fun isOther => by simpa using notOut isOther, by simpa using notDeleted⟩
  · exact fits.handedOut handed earlier

/-! ### How a call goes on -/

theorem FinalInvariant.goOn (inv : FinalInvariant s) (calls : s'.calls = s.calls)
    (leaves : Leaves id s s') (fits : s'.FinalFits) (holds : s'.Fits statement) :
    FinalInvariant (s'.goOn id statement) := by
  have further : Leaves id s (s'.goOn id statement) := { leaves with }
  refine ⟨{ fits with }, ?_⟩
  change (s'.calls.set id statement).Every _
  rw [calls]
  exact inv.calls.set (fun _ _ _ held => Fits.left further held) holds

theorem FinalInvariant.finish (inv : FinalInvariant s) (calls : s'.calls = s.calls)
    (leaves : Leaves id s s') (fits : s'.FinalFits) : FinalInvariant (s'.finish id) := by
  have released : Leaves id s' (s'.finish id) :=
    ⟨(LockedRow.kept_release id).grown (Nat.le_refl _), rfl, rfl⟩
  have ended : (s'.finish id).FinalFits :=
    { (fits.keptTokens (LockedRow.kept_release id)).keptSessions (LockedRow.kept_release id) with }
  refine ⟨ended, ?_⟩
  change (s'.calls.remove id).Every _
  rw [calls]
  exact inv.calls.remove fun _ _ _ held => Fits.left released (Fits.left leaves held)

/-- A call goes on, and the tables are as they were, up to the locks of sessions. -/
theorem FinalInvariant.proceed (inv : FinalInvariant s) (holds : s.Fits statement) :
    FinalInvariant (s.goOn id statement) :=
  inv.goOn rfl (Leaves.refl id s) inv.fits holds

theorem leaves_lockTokenRow (tokenId : Nat) : Leaves id s (s.lockTokenRow tokenId id) :=
  ⟨LockedRow.kept_acquire.grown (Nat.le_refl _), rfl, rfl⟩

theorem FinalInvariant.lockToken (inv : FinalInvariant s) (tokenId : Nat)
    (holds : s.Fits statement) :
    FinalInvariant ((s.lockTokenRow tokenId id).goOn id statement) :=
  inv.goOn rfl (leaves_lockTokenRow tokenId) (inv.fits.keptTokens LockedRow.kept_acquire)
    (Fits.left (leaves_lockTokenRow tokenId) holds)

theorem leaves_lockSessionRow (session : Nat) (revokes : Bool) :
    Leaves id s (s.lockSessionRow session id revokes) :=
  { Leaves.refl id s with }

theorem FinalInvariant.lockSession (inv : FinalInvariant s) (session : Nat) (revokes : Bool)
    (holds : s.Fits statement) :
    FinalInvariant ((s.lockSessionRow session id revokes).goOn id statement) :=
  inv.goOn rfl (leaves_lockSessionRow session revokes)
    (inv.fits.keptSessions LockedRow.kept_acquire)
    (Fits.left (leaves_lockSessionRow session revokes) holds)

/-- A user that is found is not deleted. -/
theorem FinalFits.found (fits : s.FinalFits) {who : SignInUser}
    (isFound : s.findUser who = some user) : user.id ∉ s.deletedUsers := by
  have live : user ∈ s.users ∧ user.deleted = false := by
    cases who with
    | byId id =>
      obtain ⟨among, -, isLive⟩ := getUserByID_eq isFound
      exact ⟨among, isLive⟩
    | byEmail email =>
      obtain ⟨among, -, isLive⟩ := getUserByEmail_eq isFound
      exact ⟨among, isLive⟩
  intro isDeleted
  have gone := (fits.users user live.1).2 isDeleted
  rw [live.2] at gone
  cases gone

theorem FinalFits.foundById (fits : s.FinalFits) {userId : Nat}
    (isFound : getUserByID s.users userId = some user) : userId ∉ s.deletedUsers := by
  have isFoundToo : s.findUser (.byId userId) = some user := isFound
  rw [← (getUserByID_eq isFound).2.1]
  exact fits.found isFoundToo

/-! ### A revocation commits -/

variable {scope : RevocationScope}

theorem notSignedOut_endScope {session : Nat} (differs : scope ≠ .session session)
    (notOut : session ∉ s.signedOut) :
    session ∉ (s.endScope scope).signedOut := by
  cases scope with
  | user userId => exact notOut
  | session out =>
    intro among
    rcases mem_cons.mp among with rfl | earlier
    · exact differs rfl
    · exact notOut earlier

theorem notDeleted_endScope {user : Nat} (differs : scope ≠ .user user)
    (notDeleted : user ∉ s.deletedUsers) : user ∉ (s.endScope scope).deletedUsers := by
  cases scope with
  | session session => exact notDeleted
  | user deleted =>
    intro among
    rcases mem_cons.mp among with rfl | earlier
    · exact differs rfl
    · exact notDeleted earlier

theorem ne_of_covers {session user : Nat} (covers : scope.covers session user = false) :
    scope ≠ .session session ∧ scope ≠ .user user := by
  constructor
  · rintro rfl
    simp [RevocationScope.covers] at covers
  · rintro rfl
    simp [RevocationScope.covers] at covers

theorem FinalFits.endScope (fits : s.FinalFits) (below : scopeId scope < s.nextId)
    (revoked : ∀ row ∈ s.sessions, scope.covers row.id row.value = true → row.marked = true) :
    (s.endScope scope).FinalFits := by
  cases scope with
  | session session =>
    refine { fits with sessions := ?_, signedOut := ?_ }
    · intro row among
      obtain ⟨isBelow, signedOut, deleted⟩ := fits.sessions row among
      refine ⟨isBelow, ?_, deleted⟩
      intro isOut
      rcases mem_cons.mp isOut with isSession | earlier
      · exact revoked row among (by simp [RevocationScope.covers, isSession])
      · exact signedOut earlier
    · intro other among
      rcases mem_cons.mp among with rfl | earlier
      · exact below
      · exact fits.signedOut other earlier
  | user userId =>
    refine { fits with users := ?_, sessions := ?_, deletedUsers := ?_ }
    · intro user among
      obtain ⟨before, wasAmong, rfl⟩ := mem_map.mp among
      obtain ⟨isBelow, deleted⟩ := fits.users before wasAmong
      split
      · exact ⟨isBelow, fun _ => rfl⟩
      · rename_i differs
        refine ⟨isBelow, fun isDeleted => ?_⟩
        rcases mem_cons.mp isDeleted with isUser | earlier
        · exact absurd isUser differs
        · exact deleted earlier
    · intro row among
      obtain ⟨isBelow, signedOut, deleted⟩ := fits.sessions row among
      refine ⟨isBelow, signedOut, ?_⟩
      intro isDeleted
      rcases mem_cons.mp isDeleted with isUser | earlier
      · exact revoked row among (by simp [RevocationScope.covers, isUser])
      · exact deleted earlier
    · intro other among
      rcases mem_cons.mp among with rfl | earlier
      · exact below
      · exact fits.deletedUsers other earlier

/-- What a call that will hand out nothing for the scope has read still fits. -/
theorem Fits.endScope (fits : s.Fits statement) (quiet : s.willHandOut id scope statement = false) :
    ((s.commit id).endScope scope).Fits statement := by
  have leaves : Leaves id s (s.commit id) :=
    ⟨(LockedRow.kept_commit id).grown (Nat.le_refl _), rfl, rfl⟩
  have kept := Fits.left leaves fits
  cases statement with
  | createSession user => exact notDeleted_endScope (of_decide_eq_false quiet) kept
  | createRefreshToken user session => exact notDeleted_endScope (of_decide_eq_false quiet) kept
  | lockToken token =>
    cases scope with
    | user userId => exact kept
    | session session =>
      refine ⟨kept.1, ?_⟩
      intro isOut after among isToken
      rcases mem_cons.mp isOut with same | earlier
      · obtain ⟨before, wasAmong, rfl⟩ := mem_map.mp among
        have rowKept := LockedRow.rowKept_commit id before
        simp only [willHandOut, same, decide_true, Bool.true_and, any_eq_false] at quiet
        have isQuiet := quiet before wasAmong
        simp only [Bool.and_eq_true, decide_eq_true_eq, Bool.not_eq_true', not_and, ne_eq,
          Decidable.not_not] at isQuiet
        cases isMarked : before.marked with
        | true => exact rowKept.marked isMarked
        | false =>
          have isBefore := rowKept.id.symm.trans isToken
          exact LockedRow.marked_commitRow (isQuiet ⟨isBefore, isMarked⟩)
      · exact kept.2 earlier after among isToken
  | refreshUser token => exact notSignedOut_endScope (of_decide_eq_false quiet) kept
  | touchSession token =>
    obtain ⟨notSession, notUser⟩ := ne_of_covers quiet
    exact ⟨notSignedOut_endScope notSession kept.1, notDeleted_endScope notUser kept.2⟩
  | commitRefresh token =>
    obtain ⟨notSession, notUser⟩ := ne_of_covers quiet
    exact ⟨notSignedOut_endScope notSession kept.1, notDeleted_endScope notUser kept.2⟩
  | findUser who => trivial
  | createUser email => trivial
  | validate session => trivial
  | consume tokenId => trivial
  | _ => cases scope <;> exact kept

theorem FinalInvariant.commitRevocation (inv : FinalInvariant s) (below : scopeId scope < s.nextId)
    (revoked : ∀ row ∈ s.sessions, scope.covers row.id row.value = true →
      row.marked = true ∨ row.lock = some ⟨id, true⟩)
    (quiet : ∀ entry ∈ s.calls, s.willHandOut id scope entry.2 = false) :
    FinalInvariant (((s.commit id).endScope scope).finish id) := by
  have ended : ((s.commit id).endScope scope).FinalFits := by
    refine (inv.fits.commit id).endScope below ?_
    intro after among covers
    obtain ⟨before, wasAmong, rfl⟩ := mem_map.mp among
    have rowKept := LockedRow.rowKept_commit id before
    rw [rowKept.id, rowKept.value] at covers
    rcases revoked before wasAmong covers with isMarked | isLocked
    · exact rowKept.marked isMarked
    · exact LockedRow.marked_commitRow isLocked
  have calls : ((s.commit id).endScope scope).calls = s.calls := by cases scope <;> rfl
  have middle : FinalInvariant ((s.commit id).endScope scope) := by
    refine ⟨ended, ?_⟩
    rw [calls]
    exact fun entry among => Fits.endScope (inv.calls entry among) (quiet entry among)
  exact middle.finish rfl (Leaves.refl id _) ended

/-! ### Every statement -/

theorem FinalInvariant.execute (inv : FinalInvariant s) (isCall : s.calls.get id = some statement)
    (allowed : undisturbed s (.execute id) = true) (ran : s.execute id statement = some s') :
    FinalInvariant s' := by
  have held := inv.calls.get isCall
  have still := Leaves.refl id s
  have ends : FinalInvariant (s.finish id) := inv.finish rfl still inv.fits
  simp only [undisturbed, isCall] at allowed
  cases statement with
  | findUser who =>
    simp only [SessionTables.execute] at ran
    split at ran
    · rename_i user isFound
      cases ran
      exact inv.proceed (inv.fits.found isFound)
    · cases ran
      exact inv.proceed trivial
    · cases ran
      exact ends
  | createUser email =>
    simp only [SessionTables.execute] at ran
    split at ran
    · rename_i user created
      obtain ⟨rfl, -⟩ := createUser_eq created
      cases ran
      refine inv.goOn rfl (.of_tokens rfl (le_succ _) rfl rfl) (inv.fits.addUser rfl) ?_
      exact fun isDeleted => absurd (inv.fits.deletedUsers _ isDeleted) (Nat.lt_irrefl _)
    · cases ran
      exact ends
  | createSession user =>
    cases ran
    exact inv.goOn rfl (.of_tokens rfl (le_succ _) rfl rfl) (inv.fits.addSession held) held
  | createRefreshToken user session =>
    cases ran
    have leaves : Leaves id s (s.addToken ⟨session, user.id⟩) :=
      ⟨(LockedRow.Kept.refl id s.tokens).append rfl, rfl, rfl⟩
    exact inv.finish rfl { leaves with }
      ((inv.fits.addToken _).handOut (fun isOther => absurd rfl isOther) held)
  | validate session =>
    simp only [SessionTables.execute] at ran
    split at ran
    · rename_i row found
      cases ran
      have among := mem_of_find?_eq_some found
      have isValid := find?_some found
      simp only [Bool.and_eq_true, decide_eq_true_eq, Bool.not_eq_true'] at isValid
      obtain ⟨isSession, unmarked⟩ := isValid
      obtain ⟨-, signedOut, deleted⟩ := inv.fits.sessions row among
      refine inv.finish rfl { still with } (inv.fits.handOut ?_ ?_)
      · intro _ isOut
        rw [signedOut (isSession ▸ isOut)] at unmarked
        cases unmarked
      · intro isDeleted
        rw [deleted isDeleted] at unmarked
        cases unmarked
    · cases ran
      exact ends
  | consume tokenId =>
    simp only [SessionTables.execute] at ran
    split at ran
    · cases ran
      exact ends
    · rename_i token found
      split at ran
      · rename_i isValid
        cases ran
        obtain ⟨among, -⟩ := LockedRow.find_eq found
        refine inv.proceed ⟨inv.fits.tokens token among, ?_⟩
        intro isOut
        simp only [Bool.and_eq_true, sessionValid, any_eq_true, decide_eq_true_eq,
          Bool.not_eq_true'] at isValid
        obtain ⟨-, row, isRow, isSession, unmarked⟩ := isValid
        rw [(inv.fits.sessions row isRow).2.1 (isSession ▸ isOut)] at unmarked
        cases unmarked
      · cases ran
        exact ends
  | lockToken token =>
    simp only [SessionTables.execute] at ran
    split at ran
    · cases ran
      exact ends
    · rename_i row found
      split at ran
      · cases ran
      · split at ran
        · cases ran
          exact ends
        · rename_i unmarked
          cases ran
          obtain ⟨among, isToken⟩ := LockedRow.find_eq found
          refine inv.lockToken token.id ?_
          exact fun isOut => unmarked (held.2 isOut row among isToken)
  | refreshUser token =>
    simp only [SessionTables.execute] at ran
    split at ran
    · rename_i user found
      cases ran
      have notDeleted := inv.fits.foundById found
      exact inv.proceed ⟨held, notDeleted⟩
    · cases ran
      exact ends
  | touchSession token =>
    simp only [SessionTables.execute] at ran
    split at ran
    · cases ran
      exact inv.proceed held
    · split at ran
      · cases ran
        exact inv.proceed held
      · split at ran
        · cases ran
        · cases ran
          exact inv.lockSession _ _ held
  | commitRefresh token =>
    cases ran
    have leaves : Leaves id s ((s.commit id).addToken token.value) :=
      ⟨(LockedRow.kept_commit id).append rfl, rfl, rfl⟩
    exact inv.finish rfl { leaves with }
      (((inv.fits.commit id).addToken _).handOut (fun _ => held.1) held.2)
  | revokeTokens scope =>
    cases ran
    exact inv.proceed held
  | lockTokens scope rest =>
    cases rest with
    | nil =>
      cases ran
      exact inv.proceed held
    | cons tokenId rest =>
      simp only [SessionTables.execute] at ran
      split at ran
      · cases ran
        exact inv.proceed held
      · split at ran
        · cases ran
        · split at ran
          · cases ran
            exact inv.proceed held
          · cases ran
            exact inv.lockToken tokenId held
  | revokeSessions scope =>
    cases ran
    exact inv.proceed held
  | lockSessions scope rest =>
    cases rest with
    | nil =>
      cases ran
      exact inv.proceed held
    | cons session rest =>
      simp only [SessionTables.execute] at ran
      split at ran
      · cases ran
        exact inv.proceed held
      · split at ran
        · cases ran
        · split at ran
          · cases ran
            exact inv.proceed held
          · cases ran
            exact inv.lockSession _ _ held
  | commitRevocation scope =>
    cases ran
    simp only [Bool.and_eq_true, all_eq_true, Bool.not_eq_true'] at allowed
    obtain ⟨revoked, quiet⟩ := allowed
    refine inv.commitRevocation held ?_ quiet
    intro row among covers
    have isRevoked := revoked row among
    simpa [covers] using isRevoked

theorem FinalInvariant.next {step : SessionStep} (inv : FinalInvariant s)
    (allowed : undisturbed s step = true) (stepped : s.next step = some s') :
    FinalInvariant s' := by
  cases step with
  | call id call =>
    simp only [SessionTables.next] at stepped
    split at stepped
    · cases stepped
    · obtain ⟨statement, isFirst, rfl⟩ := Option.map_eq_some_iff.mp stepped
      refine inv.proceed ?_
      cases call with
      | signOut session =>
        simp only [firstStatement] at isFirst
        split at isFirst
        · rename_i isThere
          cases isFirst
          obtain ⟨row, among, isSession⟩ := any_eq_true.mp isThere
          have below := (inv.fits.sessions row among).1
          rwa [of_decide_eq_true isSession] at below
        · cases isFirst
      | deleteAccount userId =>
        simp only [firstStatement] at isFirst
        split at isFirst
        · rename_i isThere
          cases isFirst
          obtain ⟨user, among, isUser⟩ := any_eq_true.mp isThere
          have below := (inv.fits.users user among).1
          rwa [of_decide_eq_true isUser] at below
        · cases isFirst
      | signIn who => cases isFirst; trivial
      | validateSession session => cases isFirst; trivial
      | refreshTokens tokenId => cases isFirst; trivial
  | execute id =>
    obtain ⟨statement, isCall, ran⟩ := Option.bind_eq_some_iff.mp stepped
    exact inv.execute isCall allowed ran
  | fail id =>
    obtain ⟨statement, -, rfl⟩ := Option.map_eq_some_iff.mp stepped
    exact inv.finish rfl (Leaves.refl id s) inv.fits

theorem Fresh.invariant (fresh : Fresh s) : FinalInvariant s where
  fits :=
    { users := fun user among => ⟨fresh.below user among, by simp [fresh.deletedUsers]⟩
      sessions := by simp [fresh.sessions]
      tokens := by simp [fresh.tokens]
      signedOut := by simp [fresh.signedOut]
      deletedUsers := by simp [fresh.deletedUsers]
      handedOut := by simp [fresh.handedOut] }
  calls := by simp [fresh.calls]

/-- **Revocation is final**, in every run in which a revocation commits only when its sessions
are revoked with it and no call under way will hand out a pair for it. -/
theorem revocation_final
    (reached : system.ReachableBy (fun s step => undisturbed s step = true) s) :
    RevocationFinal s := by
  have inv := System.ReachableBy.keeps FinalInvariant
    (fun _ fresh => Fresh.invariant fresh)
    (fun _ _ _ inv allowed stepped => inv.next allowed stepped) reached
  exact
    { once := refresh_once (reached.mono fun _ _ _ => trivial)
      signedOut := fun handed among => (inv.fits.handedOut handed among).1
      deleted := fun handed among => (inv.fits.handedOut handed among).2 }

def oneUser : SessionTables where
  users := [⟨0, "a@x".toList, false⟩]
  nextId := 1

theorem fresh_oneUser : oneUser.Fresh where
  below := by decide
  sessions := rfl
  tokens := rfl
  calls := rfl
  signedOut := rfl
  deletedUsers := rfl
  handedOut := rfl

/-- Some statements of a call, one after the other. -/
def statements (id n : Nat) : List SessionStep := List.replicate n (.execute id)

/-- The account is deleted after a sign-in has found it and before the session is created. -/
def signInBesideDeletion : List SessionStep :=
  .call 0 (.signIn (.byId 0)) :: statements 0 1 ++ .call 1 (.deleteAccount 0) :: statements 1 5 ++
    statements 0 2 ++ [.call 2 (.validateSession 1), .execute 2]

/-- A logout waits for a refresh, does not see the token that the refresh has made, and commits
while that token is being refreshed. -/
def refreshBesideLogout : List SessionStep :=
  .call 0 (.signIn (.byId 0)) :: statements 0 3 ++ .call 1 (.refreshTokens 2) :: statements 1 4 ++
    .call 2 (.signOut 1) :: statements 2 1 ++ statements 1 1 ++ statements 2 2 ++
    .call 3 (.refreshTokens 3) :: statements 3 3 ++ statements 2 4 ++ statements 3 2

/-- A pair is handed out for a deleted account and its session is validated; a refresh token of a
session that is signed out yields a pair. -/
theorem not_revocation_final :
    (System.run next oneUser signInBesideDeletion).map (fun s => s.handedOut) =
      some [⟨.validated, 1, 0, false, true⟩, ⟨.signIn, 1, 0, false, true⟩] ∧
    (System.run next oneUser refreshBesideLogout).map (fun s => s.handedOut.head?) =
      some (some ⟨.refresh 3, 1, 0, true, false⟩) ∧
    ¬ ∀ s, system.Reachable s → RevocationFinal s := by
  have refreshes : (System.run next oneUser refreshBesideLogout).map (fun s => s.handedOut.head?) =
      some (some ⟨.refresh 3, 1, 0, true, false⟩) := by
    decide +kernel
  refine ⟨by decide +kernel, refreshes, ?_⟩
  intro always
  obtain ⟨s, ran, reported⟩ := Option.map_eq_some_iff.mp refreshes
  have among : ⟨.refresh 3, 1, 0, true, false⟩ ∈ s.handedOut := mem_of_mem_head? reported
  have reached : system.Reachable s := System.reachable_of_run (.start fresh_oneUser) ran
  have isFinal := (always s reached).signedOut _ among (fun isSignIn => nomatch isSignIn)
  cases isFinal

/-- A sign-in, a refresh, a logout and the deletion of the account, one after the other. -/
theorem revocation_final_in_turn :
    ∃ s, system.ReachableBy (fun s step => undisturbed s step = true) s ∧
      s.signedOut = [1] ∧ s.deletedUsers = [0] ∧ s.handedOut.length = 2 ∧ RevocationFinal s := by
  have ran : (System.runWhile undisturbed next oneUser (
      .call 0 (.signIn (.byId 0)) :: statements 0 3 ++ .call 0 (.refreshTokens 2) :: statements 0 5 ++
        .call 0 (.signOut 1) :: statements 0 7 ++ .call 0 (.refreshTokens 3) :: statements 0 1 ++
        .call 0 (.deleteAccount 0) :: statements 0 5)).map
        (fun s => (s.signedOut, s.deletedUsers, s.handedOut.length)) = some ([1], [0], 2) := by
    decide +kernel
  obtain ⟨s, ran, reported⟩ := Option.map_eq_some_iff.mp ran
  simp only [Prod.mk.injEq] at reported
  obtain ⟨signedOut, deleted, count⟩ := reported
  have reached : system.ReachableBy (fun s step => undisturbed s step = true) s :=
    System.reachableBy_of_runWhile (.start fresh_oneUser) ran
  exact ⟨s, reached, signedOut, deleted, count, revocation_final reached⟩

end SessionTables

end Kuku.Auth
