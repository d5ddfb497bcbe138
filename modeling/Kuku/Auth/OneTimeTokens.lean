/-
# Auth.OneTimeTokens -- signing in with one-time tokens

`EmailAuth`, `EmailResend`, `EmailVerify`, `CreateDesktopToken` and `ExchangeDesktopToken`,
each as the sequence of its SQL statements.  A statement is atomic, the statements of
different calls interleave, and any statement may fail.  Statements that change no table
modelled here (the last sign-in, the audit log) are left out.

Addresses are normalized, as the calls do first.  A call of `EmailVerify` is labelled with
the address for which its client has requested a code, which the server does not look at; its
argument has six characters, as the handler checks.  The state remembers, besides the tables,
the state for which a desktop token was created, every consumption of tokens, every session
with the token it was opened for, and what the calls that failed with `ErrInvalidCode` had
consumed.

* `signs_in_own_account`: if no live code of another address equals a code that is verified,
  and what is exchanged is one live row, and no desktop token created for another state, all
  four parts of the property hold in every state a run reaches.
* `not_signs_in_own_account`: two addresses with one code, and a desktop token under another
  state.
-/
import Kuku.Auth.Tables

namespace Kuku.Auth

open Kuku.Theory List Function Nat

/-! ## Statements -/

/-- What a caller presents a one-time token with. -/
inductive Presented where
  | email (address : Email)
  | desktop (state : Secret)
  deriving DecidableEq

/-- The next statement of a call, with the values the call has read before. -/
inductive Statement where
  -- `EmailAuth`
  | createEmailFlow (email : Email) (code : List Char)
  | codeUser (email : Email) (code : List Char)
  | invalidateCodes (email : Email) (code : List Char) (userId : Option Nat)
  | createCode (email : Email) (code : List Char) (userId : Option Nat)
  -- `EmailResend`
  | resendFlow (flow : Secret) (code : List Char)
  -- `EmailVerify`
  | consumeCode (address : Email) (code : List Char)
  | codeUserById (address : Email) (token : OneTimeToken) (userId : Nat)
  | codeUserByEmail (address : Email) (token : OneTimeToken)
  | createCodeUser (address : Email) (token : OneTimeToken)
  -- `CreateDesktopToken`
  | desktopState (userId : Nat) (state : Secret)
  | desktopUser (userId : Nat) (state : Secret)
  | createDesktopToken (user : AuthUser) (state : Secret)
  -- `DesktopAuthURL`
  | createDesktopFlow
  -- `ExchangeDesktopToken`
  | exchangeState (token state : Secret)
  | consumeDesktopToken (token state : Secret)
  | exchangeUser (token : OneTimeToken) (state : Secret) (userId : Nat)
  -- `createSessionAndTokens`
  | createSession (presented : Presented) (token : OneTimeToken) (user : AuthUser)
  | createRefreshToken

inductive SignInCall where
  | emailAuth (email : Email) (code : List Char)
  | emailResend (flow : Secret) (code : List Char)
  | emailVerify (address : Email) (code : List Char)
  | desktopAuthURL
  | createDesktopToken (userId : Nat) (state : Secret)
  | exchangeDesktopToken (token state : Secret)

structure OpenedSession where
  presented : Presented
  token : OneTimeToken
  user : AuthUser

/-- One execution of `ConsumeOneTimeToken`: the rows it has marked used. -/
structure Consumption where
  presented : Presented
  marked : List OneTimeToken

structure SignIns where
  now : Nat := 0
  users : List AuthUser
  tokens : List OneTimeToken := []
  flows : List FlowState := []
  nextId : Nat
  nextSecure : Nat := 0
  calls : Slots Nat Statement := fun _ => none
  createdFor : Nat → Option Secret := fun _ => none
  consumptions : List Consumption := []
  sessions : List OpenedSession := []
  invalid : List (List OneTimeToken) := []

inductive SignInStep where
  | call (id : Nat) (call : SignInCall)
  /-- `pick` is the row that a consumption returns. -/
  | execute (id : Nat) (pick : Nat)
  | fail (id : Nat)
  | tick

namespace SignIns

def otpExpiry : Nat := 600

def flowExpiry : Nat := 600

/-- `EmailAuth` begins with a flow for the normalized address. -/
def firstStatement : SignInCall → Statement
  | .emailAuth email code => .createEmailFlow email code
  | .emailResend flow code => .resendFlow flow code
  | .emailVerify address code => .consumeCode address code
  | .desktopAuthURL => .createDesktopFlow
  | .createDesktopToken userId state => .desktopState userId state
  | .exchangeDesktopToken token state => .exchangeState token state

def finish (s : SignIns) (id : Nat) : SignIns :=
  { s with calls := Function.update s.calls id none }

def goOn (s : SignIns) (id : Nat) (statement : Statement) : SignIns :=
  { s with calls := Function.update s.calls id (some statement) }

/-- The call fails with `ErrInvalidCode`, after it has marked these rows. -/
def failInvalid (s : SignIns) (id : Nat) (marked : List OneTimeToken) : SignIns :=
  { s with invalid := marked :: s.invalid, calls := Function.update s.calls id none }

def getFlowStateByCode (s : SignIns) (code : Secret) : Option FlowState :=
  s.flows.find? fun flow => flow.authCode = code && decide (s.now < flow.expiresAt)

/-- The rows that `ConsumeOneTimeToken` marks. -/
def matching (s : SignIns) (hash : Secret) : List OneTimeToken :=
  s.tokens.filter fun token => token.tokenHash = hash && token.isLive s.now

def markUsed (s : SignIns) (hash : Secret) : List OneTimeToken :=
  s.tokens.map fun token =>
    if token.tokenHash = hash && token.isLive s.now then { token with used := true } else token

/-- `ConsumeOneTimeToken`: every matching row is marked, one of them is returned. -/
def consume (s : SignIns) (presented : Presented) (hash : Secret) : SignIns :=
  { s with
    tokens := s.markUsed hash
    consumptions := ⟨presented, s.matching hash⟩ :: s.consumptions }

def invalidate (s : SignIns) (email : Email) : SignIns :=
  { s with
    tokens := s.tokens.map fun token =>
      if token.email = email && token.tokenType = .emailAuth then { token with used := true }
      else token }

/-- A new row of `one_time_tokens`. -/
def issue (s : SignIns) (userId : Option Nat) (email : Email) (tokenType : OneTimeTokenType)
    (hash : Secret) (state : Option Secret) : SignIns :=
  { s with
    tokens := s.tokens ++ [⟨s.nextId, userId, email, tokenType, hash, false, s.now + otpExpiry⟩]
    nextId := s.nextId + 1
    createdFor := Function.update s.createdFor s.nextId state }

/-- A new row for a secure token. -/
def issueSecure (s : SignIns) (user : AuthUser) (state : Secret) : SignIns :=
  { s.issue (some user.id) user.email .desktopAuth (.secure s.nextSecure) (some state) with
    nextSecure := s.nextSecure + 1 }

def addUser (s : SignIns) (user : AuthUser) : SignIns :=
  { s with users := s.users ++ [user], nextId := s.nextId + 1 }

def addSession (s : SignIns) (session : OpenedSession) : SignIns :=
  { s with sessions := session :: s.sessions }

def createFlow (s : SignIns) (method : OneTimeTokenType) (email : Option Email) : SignIns :=
  { s with
    flows := ⟨.secure s.nextSecure, method, email, s.now + flowExpiry⟩ :: s.flows
    nextSecure := s.nextSecure + 1 }

def execute (s : SignIns) (id pick : Nat) : Statement → SignIns
  | .createEmailFlow email code =>
    if !email.contains '@' then s.failInvalid id []
    else (s.createFlow .emailAuth (some email)).goOn id (.codeUser email code)
  | .codeUser email code =>
    s.goOn id (.invalidateCodes email code ((getUserByEmail s.users email).map AuthUser.id))
  | .invalidateCodes email code userId =>
    (s.invalidate email).goOn id (.createCode email code userId)
  | .createCode email code userId =>
    -- the code is sent, and the call returns its flow
    (s.issue userId email .emailAuth (.code code) none).finish id
  | .resendFlow flow code =>
    match s.getFlowStateByCode flow with
    | none => s.finish id
    | some found =>
      match found.authenticationMethod, found.email with
      | .emailAuth, some email => s.goOn id (.createEmailFlow email code)
      | _, _ => s.failInvalid id []
  | .consumeCode address code =>
    match (s.matching (.code code))[pick]? with
    | none => s.failInvalid id []
    | some token =>
      (s.consume (.email address) (.code code)).goOn id
        (match token.userId with
        | some userId => .codeUserById address token userId
        | none => .codeUserByEmail address token)
  | .codeUserById address token userId =>
    match getUserByID s.users userId with
    | some user => s.goOn id (.createSession (.email address) token user)
    | none => s.finish id
  | .codeUserByEmail address token =>
    match getUserByEmail s.users token.email with
    | some user => s.goOn id (.createSession (.email address) token user)
    | none => s.goOn id (.createCodeUser address token)
  | .createCodeUser address token =>
    match createUser s.users s.nextId token.email with
    | some user =>
      (s.addUser user).goOn id (.createSession (.email address) token user)
    | none => s.finish id
  | .createDesktopFlow => (s.createFlow .desktopAuth none).finish id
  | .desktopState userId state =>
    match s.getFlowStateByCode state with
    | some _ => s.goOn id (.desktopUser userId state)
    | none => s.finish id
  | .desktopUser userId state =>
    match getUserByID s.users userId with
    | some user => s.goOn id (.createDesktopToken user state)
    | none => s.finish id
  | .createDesktopToken user state =>
    (s.issueSecure user state).finish id
  | .exchangeState token state =>
    match s.getFlowStateByCode state with
    | some _ => s.goOn id (.consumeDesktopToken token state)
    | none => s.finish id
  | .consumeDesktopToken hash state =>
    match (s.matching hash)[pick]? with
    | none => s.failInvalid id []
    | some token =>
      let consumed := s.consume (.desktop state) hash
      match token.tokenType, token.userId with
      | .desktopAuth, some userId => consumed.goOn id (.exchangeUser token state userId)
      | _, _ => consumed.failInvalid id (s.matching hash)
  | .exchangeUser token state userId =>
    match getUserByID s.users userId with
    | some user => s.goOn id (.createSession (.desktop state) token user)
    | none => s.finish id
  | .createSession presented token user =>
    (s.addSession ⟨presented, token, user⟩).goOn id .createRefreshToken
  | .createRefreshToken => s.finish id

/-- The row that a consumption returns is one of those it has marked. -/
def canPick (s : SignIns) (pick : Nat) : Statement → Bool
  | .consumeCode _ code => pick < (s.matching (.code code)).length || (s.matching (.code code)).isEmpty
  | .consumeDesktopToken hash _ => pick < (s.matching hash).length || (s.matching hash).isEmpty
  | _ => true

def next (s : SignIns) : SignInStep → Option SignIns
  | .call id call =>
    match s.calls id with
    | some _ => none
    | none => some (s.goOn id (firstStatement call))
  | .execute id pick =>
    match s.calls id with
    | none => none
    | some statement => if s.canPick pick statement then some (s.execute id pick statement) else none
  | .fail id =>
    match s.calls id with
    | none => none
    | some _ => some (s.finish id)
  | .tick => some { s with now := s.now + 1 }

/-- Any users, with different ids and addresses, and nothing else. -/
structure Fresh (s : SignIns) : Prop where
  ids : ∀ one ∈ s.users, ∀ two ∈ s.users, one.id = two.id → one = two
  below : ∀ user ∈ s.users, user.id < s.nextId
  tokens : s.tokens = []
  calls : s.calls = fun _ => none
  sessions : s.sessions = []
  consumptions : s.consumptions = []
  invalid : s.invalid = []

def system : System SignIns SignInStep := System.ofStep Fresh next

/-! ## The property -/

structure OwnAccount (s : SignIns) : Prop where
  /-- Every one-time token leads to at most one session. -/
  once : (s.sessions.map fun session => session.token.id).Nodup
  /-- Verifying marks no token of another address. -/
  marked : ∀ consumption ∈ s.consumptions, ∀ address, consumption.presented = .email address →
    ∀ token ∈ consumption.marked, token.email = address
  /-- Verifying opens sessions of the client's own account. -/
  account : ∀ session ∈ s.sessions, ∀ address, session.presented = .email address →
    session.user.email = address
  /-- A desktop token opens a session only with the state it was created for. -/
  desktop : ∀ session ∈ s.sessions, session.token.tokenType = .desktopAuth →
    ∃ state, session.presented = .desktop state ∧ s.createdFor session.token.id = some state
  /-- A call that fails with `ErrInvalidCode` has marked at most the row that was presented. -/
  invalid : ∀ marked ∈ s.invalid, marked.length ≤ 1

/-! ## The condition -/

/-- A code that is verified is the live code of no other address; what is exchanged is the
live secret of at most one row, and if that is a desktop token, it was created for the state. -/
def ownTokens (s : SignIns) : SignInStep → Bool
  | .execute id _ =>
    match s.calls id with
    | some (.consumeCode address code) =>
      (s.matching (.code code)).all fun token => token.email = address
    | some (.consumeDesktopToken hash state) =>
      decide ((s.matching hash).length ≤ 1) && (s.matching hash).all fun token =>
        token.tokenType ≠ .desktopAuth || s.createdFor token.id = some state
    | _ => true
  | _ => true

/-! ## The invariant -/

/-- There is a user with this id and address. -/
def HasUser (s : SignIns) (userId : Nat) (email : Email) : Prop :=
  ∃ user ∈ s.users, user.id = userId ∧ user.email = email

/-- The token's row is used. -/
def Spent (s : SignIns) (tokenId : Nat) : Prop :=
  tokenId < s.nextId ∧ ∀ token ∈ s.tokens, token.id = tokenId → token.used = true

def sessionTokens (s : SignIns) : List Nat := s.sessions.map fun session => session.token.id

/-- The token that a call has consumed and opened no session for yet. -/
def heldToken : Statement → Option Nat
  | .codeUserById _ token _ => some token.id
  | .codeUserByEmail _ token => some token.id
  | .createCodeUser _ token => some token.id
  | .exchangeUser token _ _ => some token.id
  | .createSession _ token _ => some token.id
  | _ => none

/-- What the values that a call has read say about the tables. -/
def Fits (s : SignIns) : Statement → Prop
  | .invalidateCodes email _ userId => ∀ id, userId = some id → s.HasUser id email
  | .createCode email _ userId => ∀ id, userId = some id → s.HasUser id email
  | .codeUserById address token userId =>
    s.Spent token.id ∧ token.email = address ∧ token.tokenType = .emailAuth ∧
      s.HasUser userId token.email
  | .codeUserByEmail address token =>
    s.Spent token.id ∧ token.email = address ∧ token.tokenType = .emailAuth
  | .createCodeUser address token =>
    s.Spent token.id ∧ token.email = address ∧ token.tokenType = .emailAuth
  | .createDesktopToken user _ => s.HasUser user.id user.email
  | .exchangeUser token state _ =>
    s.Spent token.id ∧ token.tokenType = .desktopAuth ∧ s.createdFor token.id = some state
  | .createSession presented token user =>
    s.Spent token.id ∧ (∀ address, presented = .email address → user.email = address) ∧
      (token.tokenType = .desktopAuth →
        ∃ state, presented = .desktop state ∧ s.createdFor token.id = some state)
  | _ => True

/-- What holds of the tables and the records between the statements. -/
structure TablesFit (s : SignIns) : Prop where
  ids : ∀ one ∈ s.users, ∀ two ∈ s.users, one.id = two.id → one = two
  below : ∀ user ∈ s.users, user.id < s.nextId
  tokenIds : (s.tokens.map OneTimeToken.id).Nodup
  tokensBelow : ∀ token ∈ s.tokens, token.id < s.nextId
  owner : ∀ token ∈ s.tokens, ∀ userId, token.userId = some userId → s.HasUser userId token.email
  secure : ∀ token ∈ s.tokens, ∀ code, token.tokenHash = .code code → token.tokenType = .emailAuth
  spent : ∀ session ∈ s.sessions, s.Spent session.token.id
  own : s.OwnAccount

structure SignInsInvariant (s : SignIns) : Prop where
  tables : s.TablesFit
  calls : s.calls.Every fun _ statement => s.Fits statement
  apart : s.calls.Apart heldToken
  unopened : s.calls.Every fun _ statement =>
    ∀ id, heldToken statement = some id → id ∉ s.sessionTokens

/-- What one statement may do to the tables, seen from the other calls. -/
structure Grows (s s' : SignIns) : Prop where
  users : ∀ user ∈ s.users, user ∈ s'.users
  nextId : s.nextId ≤ s'.nextId
  spent : ∀ id, s.Spent id → s'.Spent id
  createdFor : ∀ id, id < s.nextId → s'.createdFor id = s.createdFor id
  calls : s'.calls = s.calls

variable {s s' : SignIns} {id pick : Nat} {statement old : Statement}

theorem HasUser.grows (grows : Grows s s') {userId : Nat} {email : Email}
    (has : s.HasUser userId email) : s'.HasUser userId email := by
  obtain ⟨user, among, isUser⟩ := has
  exact ⟨user, grows.users user among, isUser⟩

theorem Fits.grows (grows : Grows s s') (fits : s.Fits statement) : s'.Fits statement := by
  cases statement with
  | invalidateCodes email code userId => exact fun id isId => (fits id isId).grows grows
  | createCode email code userId => exact fun id isId => (fits id isId).grows grows
  | codeUserById address token userId =>
    obtain ⟨spent, isAddress, isType, has⟩ := fits
    exact ⟨grows.spent _ spent, isAddress, isType, has.grows grows⟩
  | codeUserByEmail address token => exact ⟨grows.spent _ fits.1, fits.2⟩
  | createCodeUser address token => exact ⟨grows.spent _ fits.1, fits.2⟩
  | createDesktopToken user state => exact HasUser.grows grows fits
  | exchangeUser token state userId =>
    obtain ⟨spent, isType, isState⟩ := fits
    exact ⟨grows.spent _ spent, isType, (grows.createdFor _ spent.1).trans isState⟩
  | createSession presented token user =>
    obtain ⟨spent, account, desktop⟩ := fits
    refine ⟨grows.spent _ spent, account, fun isDesktop => ?_⟩
    obtain ⟨state, isPresented, isState⟩ := desktop isDesktop
    exact ⟨state, isPresented, (grows.createdFor _ spent.1).trans isState⟩
  | _ => trivial

/-! ### How a call goes on -/

variable (inv : SignInsInvariant s)

include inv

/-- A call ends, after what its last statement did to the tables. -/
theorem SignInsInvariant.finish (grows : Grows s s') (tables : s'.TablesFit)
    (unopened : ∀ other statement, other ≠ id → s.calls other = some statement →
      ∀ tokenId, heldToken statement = some tokenId → tokenId ∉ s'.sessionTokens) :
    SignInsInvariant (s'.finish id) := by
  have fits : s'.calls.Every fun _ statement => s'.Fits statement := by
    rw [grows.calls]
    exact inv.calls.mono fun _ _ _ fits => fits.grows grows
  have apart : s'.calls.Apart heldToken := grows.calls ▸ inv.apart
  refine ⟨{ tables with own := { tables.own with } }, fits.clear id, apart.clear id, ?_⟩
  intro other statement isCall
  change Function.update s'.calls id none other = some statement at isCall
  by_cases same : other = id
  · subst same
    rw [update_self] at isCall
    cases isCall
  · rw [update_of_ne same, grows.calls] at isCall
    exact unopened other statement same isCall

/-- A call goes on with a token it holds already, or that nobody else holds. -/
theorem SignInsInvariant.goOn (isCall : s.calls id = some old) (grows : Grows s s')
    (tables : s'.TablesFit) (fits : s'.Fits statement)
    (unopened : ∀ other statement, other ≠ id → s.calls other = some statement →
      ∀ tokenId, heldToken statement = some tokenId → tokenId ∉ s'.sessionTokens)
    (held : ∀ tokenId, heldToken statement = some tokenId →
      tokenId ∉ s'.sessionTokens ∧ (heldToken old = some tokenId ∨
        ∀ other holds, s.calls other = some holds → heldToken holds ≠ some tokenId)) :
    SignInsInvariant (s'.goOn id statement) := by
  have others : s'.calls.Every fun _ statement => s'.Fits statement := by
    rw [grows.calls]
    exact inv.calls.mono fun _ _ _ fits => fits.grows grows
  have apart : s'.calls.Apart heldToken := grows.calls ▸ inv.apart
  refine ⟨{ tables with own := { tables.own with } }, others.fill fits, ?_, ?_⟩
  · refine Slots.Apart.fill apart ?_
    intro tokenId isHeld other holds differs isOther
    rw [grows.calls] at isOther
    rcases (held tokenId isHeld).2 with mine | nobody
    · intro theirs
      exact differs (inv.apart other id holds old tokenId isOther isCall theirs mine)
    · exact nobody other holds isOther
  · intro other going isGoing
    change Function.update s'.calls id (some statement) other = some going at isGoing
    by_cases same : other = id
    · subst same
      rw [update_self] at isGoing
      cases isGoing
      exact fun tokenId isHeld => (held tokenId isHeld).1
    · rw [update_of_ne same, grows.calls] at isGoing
      exact unopened other going same isGoing

/-- A call ends by a statement that opens no session. -/
theorem SignInsInvariant.endCall (grows : Grows s s') (tables : s'.TablesFit)
    (same : s'.sessions = s.sessions) :
    SignInsInvariant (s'.finish id) := by
  refine inv.finish grows tables ?_
  intro other statement _ isCall tokenId isHeld
  rw [sessionTokens, same]
  exact inv.unopened other statement isCall tokenId isHeld

/-- A call goes on, with no other token, by a statement that opens no session. -/
theorem SignInsInvariant.proceed (isCall : s.calls id = some old) (grows : Grows s s')
    (tables : s'.TablesFit) (same : s'.sessions = s.sessions) (fits : s'.Fits statement)
    (held : ∀ tokenId, heldToken statement = some tokenId → heldToken old = some tokenId) :
    SignInsInvariant (s'.goOn id statement) := by
  refine inv.goOn isCall grows tables fits ?_ ?_
  · intro other going _ isGoing tokenId isHeld
    rw [sessionTokens, same]
    exact inv.unopened other going isGoing tokenId isHeld
  · intro tokenId isHeld
    have mine := held tokenId isHeld
    rw [sessionTokens, same]
    exact ⟨inv.unopened id old isCall tokenId mine, .inl mine⟩

/-! ### What the statements do to the tables -/

omit inv

theorem Grows.refl (s : SignIns) : Grows s s :=
  ⟨fun _ among => among, Nat.le_refl _, fun _ spent => spent, fun _ _ => rfl, rfl⟩

theorem grows_createFlow (method : OneTimeTokenType) (email : Option Email) :
    Grows s (s.createFlow method email) :=
  { Grows.refl s with spent := fun _ spent => spent }

theorem TablesFit.createFlow (tables : s.TablesFit) (method : OneTimeTokenType)
    (email : Option Email) : (s.createFlow method email).TablesFit :=
  { tables with own := { tables.own with } }

section Marking

variable {mark : OneTimeToken → OneTimeToken}
  (marks : ∀ token, mark token = token ∨ mark token = { token with used := true })

include marks

theorem mark_id (token : OneTimeToken) : (mark token).id = token.id := by
  rcases marks token with same | marked
  · rw [same]
  · rw [marked]

theorem grows_mark : Grows s { s with tokens := s.tokens.map mark } := by
  refine { Grows.refl s with spent := ?_ }
  rintro id ⟨below, spent⟩
  refine ⟨below, ?_⟩
  intro token among isId
  obtain ⟨before, wasAmong, rfl⟩ := mem_map.mp among
  rw [mark_id marks] at isId
  rcases marks before with same | marked
  · rw [same]
    exact spent before wasAmong isId
  · rw [marked]

theorem TablesFit.markTokens (tables : s.TablesFit) :
    TablesFit { s with tokens := s.tokens.map mark } := by
  have ids : (s.tokens.map mark).map OneTimeToken.id = s.tokens.map OneTimeToken.id := by
    rw [map_map]
    exact map_congr_left fun token _ => mark_id marks token
  constructor
  case ids => exact tables.ids
  case below => exact tables.below
  case tokenIds => exact ids ▸ tables.tokenIds
  case tokensBelow =>
    intro token among
    obtain ⟨before, wasAmong, rfl⟩ := mem_map.mp among
    rw [mark_id marks]
    exact tables.tokensBelow before wasAmong
  case owner =>
    intro token among userId isOwner
    obtain ⟨before, wasAmong, rfl⟩ := mem_map.mp among
    have owned := tables.owner before wasAmong userId
    rcases marks before with same | marked
    · rw [same] at isOwner ⊢
      exact owned isOwner
    · rw [marked] at isOwner ⊢
      exact owned isOwner
  case secure =>
    intro token among code isCode
    obtain ⟨before, wasAmong, rfl⟩ := mem_map.mp among
    have isType := tables.secure before wasAmong code
    rcases marks before with same | marked
    · rw [same] at isCode ⊢
      exact isType isCode
    · rw [marked] at isCode ⊢
      exact isType isCode
  case spent =>
    intro session among
    exact (grows_mark marks).spent _ (tables.spent session among)
  case own => exact { tables.own with }

end Marking

theorem markUsed_marks (hash : Secret) (token : OneTimeToken) :
    (if token.tokenHash = hash && token.isLive s.now then { token with used := true } else token) =
        token ∨
      (if token.tokenHash = hash && token.isLive s.now then { token with used := true } else token) =
        { token with used := true } := by
  split
  · exact .inr rfl
  · exact .inl rfl

theorem grows_invalidate (email : Email) : Grows s (s.invalidate email) := by
  refine grows_mark ?_
  intro token
  split
  · exact .inr rfl
  · exact .inl rfl

theorem TablesFit.invalidate (tables : s.TablesFit) (email : Email) :
    (s.invalidate email).TablesFit := by
  refine tables.markTokens ?_
  intro token
  split
  · exact .inr rfl
  · exact .inl rfl

/-- A new row has a new id. -/
theorem grows_issue (userId : Option Nat) (email : Email) (tokenType : OneTimeTokenType)
    (hash : Secret) (state : Option Secret) :
    Grows s (s.issue userId email tokenType hash state) where
  users := fun _ among => among
  nextId := le_succ _
  spent := by
    rintro id ⟨below, spent⟩
    refine ⟨lt_succ_of_lt below, ?_⟩
    intro token among isId
    rcases mem_append.mp among with earlier | isNew
    · exact spent token earlier isId
    · rw [mem_singleton.mp isNew] at isId
      exact absurd isId (Nat.ne_of_gt below)
  createdFor := by
    intro id below
    exact update_of_ne (Nat.ne_of_lt below) _ _
  calls := rfl

variable {hash : Secret}

theorem TablesFit.issue (tables : s.TablesFit) {userId : Option Nat} {email : Email}
    (tokenType : OneTimeTokenType) (state : Option Secret)
    (owner : ∀ id, userId = some id → s.HasUser id email)
    (secure : ∀ code, hash = .code code → tokenType = .emailAuth) :
    (s.issue userId email tokenType hash state).TablesFit := by
  have grows := grows_issue (s := s) userId email tokenType hash state
  constructor
  case ids => exact tables.ids
  case below => exact fun user among => lt_succ_of_lt (tables.below user among)
  case tokenIds =>
    change ((s.tokens ++ [_]).map OneTimeToken.id).Nodup
    rw [map_append, nodup_append]
    refine ⟨tables.tokenIds, nodup_singleton _, ?_⟩
    intro id earlier other isNew same
    obtain ⟨token, among, rfl⟩ := mem_map.mp earlier
    have isNext : other = s.nextId := mem_singleton.mp isNew
    exact absurd (same.trans isNext) (Nat.ne_of_lt (tables.tokensBelow token among))
  case tokensBelow =>
    intro token among
    rcases mem_append.mp among with earlier | isNew
    · exact lt_succ_of_lt (tables.tokensBelow token earlier)
    · rw [mem_singleton.mp isNew]
      exact lt_succ_self _
  case owner =>
    intro token among id isOwner
    rcases mem_append.mp among with earlier | isNew
    · exact (tables.owner token earlier id isOwner).grows grows
    · rw [mem_singleton.mp isNew] at isOwner ⊢
      exact (owner id isOwner).grows grows
  case secure =>
    intro token among code isCode
    rcases mem_append.mp among with earlier | isNew
    · exact tables.secure token earlier code isCode
    · rw [mem_singleton.mp isNew] at isCode ⊢
      exact secure code isCode
  case spent => exact fun session among => grows.spent _ (tables.spent session among)
  case own =>
    refine { tables.own with desktop := ?_ }
    intro session among isDesktop
    obtain ⟨presentedState, isPresented, isState⟩ := tables.own.desktop session among isDesktop
    have below := (tables.spent session among).1
    exact ⟨presentedState, isPresented, (grows.createdFor _ below).trans isState⟩

theorem grows_addUser (user : AuthUser) : Grows s (s.addUser user) where
  users := fun _ among => mem_append_left _ among
  nextId := le_succ _
  spent := fun _ spent => ⟨lt_succ_of_lt spent.1, spent.2⟩
  createdFor := fun _ _ => rfl
  calls := rfl

variable {user : AuthUser}

theorem TablesFit.addUser (tables : s.TablesFit) (isNew : user.id = s.nextId) :
    (s.addUser user).TablesFit := by
  have grows := grows_addUser (s := s) user
  have differs : ∀ one ∈ s.users, one.id ≠ user.id := by
    intro one among
    rw [isNew]
    exact Nat.ne_of_lt (tables.below one among)
  constructor
  case ids =>
    intro one amongOne two amongTwo same
    rcases mem_append.mp amongOne with earlierOne | isOne <;>
      rcases mem_append.mp amongTwo with earlierTwo | isTwo
    · exact tables.ids one earlierOne two earlierTwo same
    · exact absurd (same.trans (congrArg _ (mem_singleton.mp isTwo))) (differs one earlierOne)
    · exact absurd (same.symm.trans (congrArg _ (mem_singleton.mp isOne))) (differs two earlierTwo)
    · rw [mem_singleton.mp isOne, mem_singleton.mp isTwo]
  case below =>
    intro one among
    rcases mem_append.mp among with earlier | isLast
    · exact lt_succ_of_lt (tables.below one earlier)
    · rw [mem_singleton.mp isLast, isNew]
      exact lt_succ_self _
  case tokenIds => exact tables.tokenIds
  case tokensBelow => exact fun token among => lt_succ_of_lt (tables.tokensBelow token among)
  case owner =>
    exact fun token among id isOwner => (tables.owner token among id isOwner).grows grows
  case secure => exact tables.secure
  case spent => exact fun session among => grows.spent _ (tables.spent session among)
  case own => exact { tables.own with }

/-! ### Consumption -/

theorem grows_consume (presented : Presented) (hash : Secret) :
    Grows s (s.consume presented hash) :=
  { grows_mark (s := s) (markUsed_marks hash) with }

variable {token : OneTimeToken}

/-- The rows that a consumption marks are the rows that were live. -/
theorem mem_matching :
    token ∈ s.matching hash ↔
      token ∈ s.tokens ∧ token.tokenHash = hash ∧ token.used = false ∧ s.now < token.expiresAt := by
  simp [matching, OneTimeToken.isLive]

/-- A row that is consumed is spent from then on. -/
theorem spent_of_matching (tables : s.TablesFit) (isMatch : token ∈ s.matching hash)
    (presented : Presented) :
    (s.consume presented hash).Spent token.id := by
  obtain ⟨among, isHash, unused, inTime⟩ := mem_matching.mp isMatch
  refine ⟨tables.tokensBelow token among, ?_⟩
  intro other isOther same
  obtain ⟨before, wasAmong, rfl⟩ := mem_map.mp isOther
  rw [mark_id (markUsed_marks (s := s) hash)] at same
  have isToken : before = token := inj_on_of_nodup_map tables.tokenIds wasAmong among same
  subst isToken
  have live : (before.tokenHash = hash && before.isLive s.now) = true := by
    simp [isHash, OneTimeToken.isLive, unused, inTime]
  rw [if_pos live]

/-- A live row is held by no call and belongs to no session. -/
theorem unheld_of_matching (inv : SignInsInvariant s) (isMatch : token ∈ s.matching hash) :
    token.id ∉ s.sessionTokens ∧
      ∀ other holds, s.calls other = some holds → heldToken holds ≠ some token.id := by
  obtain ⟨among, -, unused, -⟩ := mem_matching.mp isMatch
  have notSpent : ¬ s.Spent token.id := by
    intro spent
    rw [spent.2 token among rfl] at unused
    cases unused
  constructor
  · intro isSession
    obtain ⟨session, isOpen, isToken⟩ := mem_map.mp isSession
    exact notSpent (isToken ▸ inv.tables.spent session isOpen)
  · intro other holds isCall isHeld
    apply notSpent
    have fits := inv.calls other holds isCall
    cases holds with
    | codeUserById _ held _ => exact Option.some.inj isHeld ▸ fits.1
    | codeUserByEmail _ held => exact Option.some.inj isHeld ▸ fits.1
    | createCodeUser _ held => exact Option.some.inj isHeld ▸ fits.1
    | exchangeUser held _ _ => exact Option.some.inj isHeld ▸ fits.1
    | createSession _ held _ => exact Option.some.inj isHeld ▸ fits.1
    | _ => cases isHeld

theorem TablesFit.consume (tables : s.TablesFit) {presented : Presented}
    (own : ∀ address, presented = .email address → ∀ token ∈ s.matching hash,
      token.email = address) : (s.consume presented hash).TablesFit := by
  have spent := tables.markTokens (markUsed_marks (s := s) hash)
  refine { spent with own := { spent.own with marked := ?_ } }
  intro consumption among
  rcases mem_cons.mp among with rfl | earlier
  · exact own
  · exact tables.own.marked consumption earlier

theorem TablesFit.failInvalid (tables : s.TablesFit) {marked : List OneTimeToken}
    (few : marked.length ≤ 1) : TablesFit { s with invalid := marked :: s.invalid } := by
  refine { tables with own := { tables.own with invalid := ?_ } }
  intro other among
  rcases mem_cons.mp among with rfl | earlier
  · exact few
  · exact tables.own.invalid other earlier

/-- A call fails with `ErrInvalidCode`, after it has marked at most one row. -/
theorem SignInsInvariant.failInvalid (inv : SignInsInvariant s) (grows : Grows s s')
    (tables : s'.TablesFit) (same : s'.sessions = s.sessions) {marked : List OneTimeToken}
    (few : marked.length ≤ 1) : SignInsInvariant (s'.failInvalid id marked) := by
  have further : Grows s { s' with invalid := marked :: s'.invalid } :=
    { grows with spent := grows.spent }
  exact inv.endCall further (tables.failInvalid few) same

/-! ### Sessions -/

theorem TablesFit.addSession (tables : s.TablesFit) {presented : Presented}
    (fits : s.Fits (.createSession presented token user)) (isNew : token.id ∉ s.sessionTokens) :
    (s.addSession ⟨presented, token, user⟩).TablesFit := by
  obtain ⟨spent, account, desktop⟩ := fits
  refine { tables with spent := ?_, own := { tables.own with once := ?_, account := ?_, desktop := ?_ } }
  · intro session among
    rcases mem_cons.mp among with rfl | earlier
    · exact spent
    · exact tables.spent session earlier
  · exact nodup_cons.mpr ⟨isNew, tables.own.once⟩
  · intro session among
    rcases mem_cons.mp among with rfl | earlier
    · exact account
    · exact tables.own.account session earlier
  · intro session among
    rcases mem_cons.mp among with rfl | earlier
    · exact desktop
    · exact tables.own.desktop session earlier

theorem grows_addSession (session : OpenedSession) : Grows s (s.addSession session) :=
  { Grows.refl s with spent := fun _ spent => spent }

theorem grows_issueSecure (user : AuthUser) (state : Secret) : Grows s (s.issueSecure user state) :=
  { grows_issue (s := s) (some user.id) user.email .desktopAuth (.secure s.nextSecure) (some state)
    with }

theorem TablesFit.issueSecure (tables : s.TablesFit) (state : Secret)
    (owner : s.HasUser user.id user.email) : (s.issueSecure user state).TablesFit := by
  have issued : (s.issue (some user.id) user.email .desktopAuth (.secure s.nextSecure)
      (some state)).TablesFit := by
    apply tables.issue
    · intro id isId
      exact Option.some.inj isId ▸ owner
    · exact fun code isCode => nomatch isCode
  exact { issued with own := { issued.own with } }

/-! ### Every statement -/

theorem SignInsInvariant.execute (inv : SignInsInvariant s) (isCall : s.calls id = some statement)
    (allowed : ownTokens s (.execute id pick) = true) :
    SignInsInvariant (s.execute id pick statement) := by
  have fits := inv.calls id statement isCall
  have still := Grows.refl s
  cases statement with
  | createEmailFlow email code =>
    simp only [SignIns.execute]
    split
    · exact inv.failInvalid still inv.tables rfl (zero_le _)
    · exact inv.proceed isCall (grows_createFlow _ _) (inv.tables.createFlow _ _) rfl trivial
        (fun _ isHeld => nomatch isHeld)
  | codeUser email code =>
    refine inv.proceed isCall still inv.tables rfl ?_ (fun _ isHeld => nomatch isHeld)
    intro userId isId
    obtain ⟨user, found, isUser⟩ := Option.map_eq_some_iff.mp isId
    obtain ⟨among, isEmail, -⟩ := getUserByEmail_eq found
    exact ⟨user, among, isUser, isEmail⟩
  | invalidateCodes email code userId =>
    refine inv.proceed isCall (grows_invalidate email) (inv.tables.invalidate email) rfl ?_
      (fun _ isHeld => nomatch isHeld)
    exact fun id isId => (fits id isId).grows (grows_invalidate email)
  | createCode email code userId =>
    refine inv.endCall (grows_issue _ _ _ _ _) ?_ rfl
    exact inv.tables.issue _ _ fits (fun _ _ => rfl)
  | resendFlow flow code =>
    simp only [SignIns.execute]
    split
    · exact inv.endCall still inv.tables rfl
    · split
      · exact inv.proceed isCall still inv.tables rfl trivial (fun _ isHeld => nomatch isHeld)
      · exact inv.failInvalid still inv.tables rfl (zero_le _)
  | consumeCode address code =>
    simp only [ownTokens, isCall, all_eq_true, decide_eq_true_eq] at allowed
    simp only [SignIns.execute]
    split
    · exact inv.failInvalid still inv.tables rfl (zero_le _)
    · rename_i token isPicked
      have isMatch := mem_of_getElem? isPicked
      obtain ⟨among, isHash, -⟩ := mem_matching.mp isMatch
      have spent := spent_of_matching inv.tables isMatch (.email address)
      have isAddress := allowed token isMatch
      have isType := inv.tables.secure token among code isHash
      have tables : (s.consume (.email address) (.code code)).TablesFit := by
        apply inv.tables.consume
        intro other isOther
        cases isOther
        exact allowed
      have grows := grows_consume (s := s) (.email address) (.code code)
      have unheld := unheld_of_matching inv isMatch
      refine inv.goOn isCall grows tables ?_ ?_ ?_
      · cases isOwner : token.userId with
        | none => exact ⟨spent, isAddress, isType⟩
        | some userId =>
          have owner := inv.tables.owner token among userId isOwner
          exact ⟨spent, isAddress, isType, owner.grows grows⟩
      · exact fun other going _ isGoing => inv.unopened other going isGoing
      · intro tokenId isHeld
        have isToken : token.id = tokenId := by
          cases isOwner : token.userId with
          | none => rw [isOwner] at isHeld; exact Option.some.inj isHeld
          | some userId => rw [isOwner] at isHeld; exact Option.some.inj isHeld
        subst isToken
        exact ⟨unheld.1, .inr unheld.2⟩
  | codeUserById address token userId =>
    obtain ⟨spent, isAddress, isType, has⟩ := fits
    simp only [SignIns.execute]
    split
    · rename_i user found
      obtain ⟨among, isId, -⟩ := getUserByID_eq found
      obtain ⟨owner, amongOwner, isOwner, ownEmail⟩ := has
      have isUser : user = owner :=
        inv.tables.ids user among owner amongOwner (isId.trans isOwner.symm)
      refine inv.proceed isCall still inv.tables rfl ?_ (fun _ isHeld => isHeld)
      refine ⟨spent, ?_, ?_⟩
      · rintro other ⟨⟩
        rw [isUser, ownEmail, isAddress]
      · rw [isType]
        exact fun isDesktop => nomatch isDesktop
    · exact inv.endCall still inv.tables rfl
  | codeUserByEmail address token =>
    obtain ⟨spent, isAddress, isType⟩ := fits
    simp only [SignIns.execute]
    split
    · rename_i user found
      obtain ⟨-, isEmail, -⟩ := getUserByEmail_eq found
      refine inv.proceed isCall still inv.tables rfl ?_ (fun _ isHeld => isHeld)
      refine ⟨spent, ?_, ?_⟩
      · rintro other ⟨⟩
        exact isEmail.trans isAddress
      · rw [isType]
        exact fun isDesktop => nomatch isDesktop
    · exact inv.proceed isCall still inv.tables rfl ⟨spent, isAddress, isType⟩
        (fun _ isHeld => isHeld)
  | createCodeUser address token =>
    obtain ⟨spent, isAddress, isType⟩ := fits
    simp only [SignIns.execute]
    split
    · rename_i user created
      obtain ⟨rfl, -⟩ := createUser_eq created
      have grows := grows_addUser (s := s) ⟨s.nextId, token.email, false⟩
      refine inv.proceed isCall grows (inv.tables.addUser rfl) rfl ?_ (fun _ isHeld => isHeld)
      refine ⟨grows.spent _ spent, ?_, ?_⟩
      · rintro other ⟨⟩
        exact isAddress
      · rw [isType]
        exact fun isDesktop => nomatch isDesktop
    · exact inv.endCall still inv.tables rfl
  | createDesktopFlow => exact inv.endCall (grows_createFlow _ _) (inv.tables.createFlow _ _) rfl
  | desktopState userId state =>
    simp only [SignIns.execute]
    split
    · exact inv.proceed isCall still inv.tables rfl trivial (fun _ isHeld => nomatch isHeld)
    · exact inv.endCall still inv.tables rfl
  | desktopUser userId state =>
    simp only [SignIns.execute]
    split
    · rename_i user found
      have among := (getUserByID_eq found).1
      exact inv.proceed isCall still inv.tables rfl ⟨user, among, rfl, rfl⟩
        (fun _ isHeld => nomatch isHeld)
    · exact inv.endCall still inv.tables rfl
  | createDesktopToken user state =>
    exact inv.endCall (grows_issueSecure user state) (inv.tables.issueSecure state fits) rfl
  | exchangeState token state =>
    simp only [SignIns.execute]
    split
    · exact inv.proceed isCall still inv.tables rfl trivial (fun _ isHeld => nomatch isHeld)
    · exact inv.endCall still inv.tables rfl
  | consumeDesktopToken hash state =>
    simp only [ownTokens, isCall, Bool.and_eq_true, all_eq_true, decide_eq_true_eq,
      Bool.or_eq_true] at allowed
    obtain ⟨few, created⟩ := allowed
    simp only [SignIns.execute]
    split
    · exact inv.failInvalid still inv.tables rfl (zero_le _)
    · rename_i token isPicked
      have isMatch := mem_of_getElem? isPicked
      have spent := spent_of_matching inv.tables isMatch (.desktop state)
      have tables : (s.consume (.desktop state) hash).TablesFit :=
        inv.tables.consume fun _ isEmail => nomatch isEmail
      have grows := grows_consume (s := s) (.desktop state) hash
      have unheld := unheld_of_matching inv isMatch
      split
      · rename_i userId isType isOwner
        have isState : s.createdFor token.id = some state := by
          rcases created token isMatch with isOther | isState
          · exact absurd isType isOther
          · exact isState
        refine inv.goOn isCall grows tables ⟨spent, isType, isState⟩ ?_ ?_
        · exact fun other going _ isGoing => inv.unopened other going isGoing
        · rintro tokenId ⟨⟩
          exact ⟨unheld.1, .inr unheld.2⟩
      · exact inv.failInvalid grows tables rfl few
  | exchangeUser token state userId =>
    obtain ⟨spent, isType, isState⟩ := fits
    simp only [SignIns.execute]
    split
    · refine inv.proceed isCall still inv.tables rfl ?_ (fun _ isHeld => isHeld)
      exact ⟨spent, (fun _ isEmail => nomatch isEmail), fun _ => ⟨state, rfl, isState⟩⟩
    · exact inv.endCall still inv.tables rfl
  | createSession presented token user =>
    have isNew := inv.unopened id _ isCall token.id rfl
    have grows := grows_addSession (s := s) ⟨presented, token, user⟩
    refine inv.goOn isCall grows (inv.tables.addSession fits isNew) trivial ?_
      (fun _ isHeld => nomatch isHeld)
    intro other going differs isGoing tokenId isHeld isOpen
    rcases mem_cons.mp isOpen with isToken | earlier
    · subst isToken
      exact differs (inv.apart other id going _ token.id isGoing isCall isHeld rfl)
    · exact inv.unopened other going isGoing tokenId isHeld earlier
  | createRefreshToken => exact inv.endCall still inv.tables rfl

/-- A call begins, with no token. -/
theorem SignInsInvariant.called (inv : SignInsInvariant s) (call : SignInCall) :
    SignInsInvariant (s.goOn id (firstStatement call)) := by
  have fits : s.Fits (firstStatement call) := by cases call <;> trivial
  have holdsNone : heldToken (firstStatement call) = none := by cases call <;> rfl
  refine ⟨{ inv.tables with own := { inv.tables.own with } }, inv.calls.fill fits, ?_,
    inv.unopened.fill ?_⟩
  · refine Slots.Apart.fill inv.apart ?_
    intro tokenId isHeld
    rw [holdsNone] at isHeld
    cases isHeld
  · intro tokenId isHeld
    rw [holdsNone] at isHeld
    cases isHeld

theorem SignInsInvariant.next {step : SignInStep} (inv : SignInsInvariant s)
    (allowed : ownTokens s step = true) (stepped : s.next step = some s') :
    SignInsInvariant s' := by
  cases step with
  | call id call =>
    simp only [SignIns.next] at stepped
    split at stepped
    · cases stepped
    · cases stepped
      exact inv.called call
  | execute id pick =>
    simp only [SignIns.next] at stepped
    split at stepped
    · cases stepped
    · rename_i statement isCall
      split at stepped
      · cases stepped
        exact inv.execute isCall allowed
      · cases stepped
  | fail id =>
    simp only [SignIns.next] at stepped
    split at stepped
    · cases stepped
    · cases stepped
      exact inv.endCall (Grows.refl s) inv.tables rfl
  | tick =>
    cases stepped
    exact { inv with
      tables := { inv.tables with own := { inv.tables.own with } }
      calls := inv.calls.mono fun _ _ _ fits => fits.grows { Grows.refl s with } }

theorem Fresh.invariant (fresh : Fresh s) : SignInsInvariant s where
  tables :=
    { ids := fresh.ids
      below := fresh.below
      tokenIds := by simp [fresh.tokens]
      tokensBelow := by simp [fresh.tokens]
      owner := by simp [fresh.tokens]
      secure := by simp [fresh.tokens]
      spent := by simp [fresh.sessions]
      own :=
        { once := by simp [fresh.sessions]
          marked := by simp [fresh.consumptions]
          account := by simp [fresh.sessions]
          desktop := by simp [fresh.sessions]
          invalid := by simp [fresh.invalid] } }
  calls := by simp [fresh.calls]
  apart := by simp [fresh.calls]
  unopened := by simp [fresh.calls]

/-! ## Every run -/

/-- **A one-time token signs in the account it was issued for**, in every run in which a code
that is verified is the live code of no other address, and what is exchanged is one live row,
and no desktop token of another state. -/
theorem signs_in_own_account
    (reached : system.ReachableBy (fun s step => ownTokens s step = true) s) : OwnAccount s := by
  have inv := System.ReachableBy.keeps SignInsInvariant
    (fun _ fresh => Fresh.invariant fresh)
    (fun _ _ _ inv allowed stepped => inv.next allowed stepped) reached
  exact inv.tables.own

def twoAccounts : SignIns where
  users := [⟨0, "a@x".toList, false⟩, ⟨1, "b@x".toList, false⟩]
  nextId := 2

theorem fresh_twoAccounts : twoAccounts.Fresh where
  ids := by decide
  below := by decide
  tokens := rfl
  calls := rfl
  sessions := rfl
  consumptions := rfl
  invalid := rfl

/-- The statements of a call, one after the other. -/
def whole (id : Nat) (call : SignInCall) (pick statements : Nat) : List SignInStep :=
  .call id call :: List.replicate statements (.execute id pick)

def code : List Char := "123456".toList

def oneCode : List SignInStep :=
  whole 0 (.emailAuth "a@x".toList code) 0 4 ++ whole 0 (.emailAuth "b@x".toList code) 0 4

/-- What three runs report: a session of another account, a session under another state, and the
rows of two addresses that one exchange has marked. -/
theorem run_twoAccounts :
    (System.run next twoAccounts (oneCode ++
        whole 0 (.emailVerify "a@x".toList code) 1 4)).map (fun s =>
      s.sessions.map fun session => (session.presented, session.user.email)) =
        some [(.email "a@x".toList, "b@x".toList)] ∧
    (System.run next twoAccounts (whole 0 .desktopAuthURL 0 1 ++ whole 0 .desktopAuthURL 0 1 ++
        whole 0 (.createDesktopToken 0 (.secure 0)) 0 3 ++
        whole 0 (.exchangeDesktopToken (.secure 2) (.secure 1)) 0 5)).map (fun s =>
      s.sessions.map fun session =>
        (session.token.tokenType, session.presented, s.createdFor session.token.id)) =
          some [(.desktopAuth, .desktop (.secure 1), some (.secure 0))] ∧
    (System.run next twoAccounts (oneCode ++ whole 0 .desktopAuthURL 0 1 ++
        whole 0 (.exchangeDesktopToken (.code code) (.secure 2)) 0 2)).map (fun s =>
      s.invalid.map fun marked => marked.map OneTimeToken.email) =
        some [["a@x".toList, "b@x".toList]] := by
  decide +kernel

/-- The client of the first address signs in to the second account. -/
theorem other_account : ∃ s session, system.Reachable s ∧ session ∈ s.sessions ∧
    session.presented = .email "a@x".toList ∧ session.user.email = "b@x".toList := by
  obtain ⟨s, ran, reported⟩ := Option.map_eq_some_iff.mp run_twoAccounts.1
  obtain ⟨session, isSession, isReported⟩ := map_eq_singleton_iff.mp reported
  rw [Prod.mk.injEq] at isReported
  exact ⟨s, session, System.reachable_of_run (.start fresh_twoAccounts) ran, by simp [isSession],
    isReported⟩

/-- A desktop token is accepted under a state for which none was created. -/
theorem other_state : ∃ s session, system.Reachable s ∧ session ∈ s.sessions ∧
    session.token.tokenType = .desktopAuth ∧ session.presented = .desktop (.secure 1) ∧
      s.createdFor session.token.id = some (.secure 0) := by
  obtain ⟨s, ran, reported⟩ := Option.map_eq_some_iff.mp run_twoAccounts.2.1
  obtain ⟨session, isSession, isReported⟩ := map_eq_singleton_iff.mp reported
  simp only [Prod.mk.injEq] at isReported
  exact ⟨s, session, System.reachable_of_run (.start fresh_twoAccounts) ran, by simp [isSession],
    isReported⟩

/-- The exchange of a code fails after it has marked the rows of both addresses. -/
theorem others_marked : ∃ s marked, system.Reachable s ∧ marked ∈ s.invalid ∧
    marked.map OneTimeToken.email = ["a@x".toList, "b@x".toList] := by
  obtain ⟨s, ran, reported⟩ := Option.map_eq_some_iff.mp run_twoAccounts.2.2
  obtain ⟨marked, isInvalid, isReported⟩ := map_eq_singleton_iff.mp reported
  exact ⟨s, marked, System.reachable_of_run (.start fresh_twoAccounts) ran, by simp [isInvalid],
    isReported⟩

/-- Two addresses have one code and the client of the first signs in to the second account; a
desktop token is exchanged under another state; the exchange of a code marks the rows of two
addresses and fails. -/
theorem not_signs_in_own_account :
    (∃ s, system.Reachable s ∧ ∃ session ∈ s.sessions, ∃ address,
      session.presented = .email address ∧ session.user.email ≠ address) ∧
    (∃ s, system.Reachable s ∧ ∃ session ∈ s.sessions,
      session.token.tokenType = .desktopAuth ∧ ∃ state, session.presented = .desktop state ∧
        s.createdFor session.token.id ≠ some state) ∧
    (∃ s, system.Reachable s ∧ ∃ marked ∈ s.invalid, 1 < marked.length) ∧
    ¬ ∀ s, system.Reachable s → OwnAccount s := by
  obtain ⟨s, session, reached, isOpen, isPresented, isEmail⟩ := other_account
  obtain ⟨t, exchanged, reachedToo, isExchanged, isType, underState, isState⟩ := other_state
  obtain ⟨u, marked, reachedLast, isInvalid, emails⟩ := others_marked
  have differs : session.user.email ≠ "a@x".toList := by
    rw [isEmail]
    decide
  refine ⟨⟨s, reached, session, isOpen, _, isPresented, differs⟩,
    ⟨t, reachedToo, exchanged, isExchanged, isType, _, underState, ?_⟩,
    ⟨u, reachedLast, marked, isInvalid, ?_⟩, ?_⟩
  · rw [isState]
    decide
  · rw [← length_map (f := OneTimeToken.email), emails]
    decide
  · exact fun always => differs ((always s reached).account session isOpen _ isPresented)

/-- Each client verifies its own code. -/
theorem signs_in_own_account_each :
    ∃ s, system.ReachableBy (fun s step => ownTokens s step = true) s ∧
      s.sessions.map (fun session => session.user.email) = ["b@x".toList, "a@x".toList] ∧
      OwnAccount s := by
  have ran : (System.runWhile ownTokens next twoAccounts (
      whole 0 (.emailAuth "a@x".toList code) 0 4 ++
      whole 0 (.emailVerify "a@x".toList code) 0 4 ++
      whole 0 (.emailAuth "b@x".toList code) 0 4 ++
      whole 0 (.emailVerify "b@x".toList code) 0 4)).map (fun s =>
        s.sessions.map fun session => session.user.email) =
      some ["b@x".toList, "a@x".toList] := by
    decide +kernel
  obtain ⟨s, ran, reported⟩ := Option.map_eq_some_iff.mp ran
  have reached : system.ReachableBy (fun s step => ownTokens s step = true) s :=
    System.reachableBy_of_runWhile (.start fresh_twoAccounts) ran
  exact ⟨s, reached, reported, signs_in_own_account reached⟩

end SignIns

end Kuku.Auth
