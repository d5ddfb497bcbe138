/-
# Auth.Accounts -- which account a verified address reaches

`EmailAuth`, `EmailVerify`, `OAuthCallback` and `DeleteAccount`, each as the sequence of its SQL
statements on users, identities and codes.  A statement is atomic, the statements of different
calls interleave, and any call may fail for a reason outside the tables (an expired code among
them).  The deletion of an account is a transaction whose one effect here is
`SoftDeleteUser`.  Secrets, sessions and flows are in `Auth.OneTimeTokens`.

`lower` is the lower case of one character.  `EmailAuth` applies it to the address,
`OAuthCallback` does not.

The state remembers every sign-in whose address was proven and what it has led to: a user, or
nothing, if a look-up by id found no row or a row could not be inserted.

* `reaches_one_account`: if no sign-in meets an account of its address in another letter case, a
  deleted account, the insertion of a concurrent sign-in, or an identity whose profile has
  changed its address, then every address has at most one account and every sign-in reaches it.
* `not_reaches_one_account`: a run for each of them.
-/
import Kuku.Auth.Tables

namespace Kuku.Auth

open Kuku.Theory List Option

inductive Provider where
  | google
  | github
  deriving DecidableEq

structure OAuthProfile where
  provider : Provider
  providerId : List Char
  email : Email
  deriving DecidableEq

structure Identity where
  userId : Nat
  provider : Provider
  providerId : List Char
  email : Email

def Identity.isOf (profile : OAuthProfile) (identity : Identity) : Bool :=
  identity.provider = profile.provider && identity.providerId = profile.providerId

structure EmailCode where
  id : Nat
  userId : Option Nat
  email : Email

/-- How an address is proven. -/
inductive Proof where
  | code (email : Email)
  | oauth (profile : OAuthProfile)
  deriving DecidableEq

def Proof.address : Proof → Email
  | .code email => email
  | .oauth profile => profile.email

/-- The next statement of a call, with the values the call has read before. -/
inductive AccountStatement where
  -- `EmailAuth`
  | codeUser (email : Email)
  | invalidateCodes (email : Email) (userId : Option Nat)
  | createCode (email : Email) (userId : Option Nat)
  -- `EmailVerify`
  | consumeCode (codeId : Nat)
  -- `getOrCreateOAuthUser`
  | getIdentity (profile : OAuthProfile)
  | updateIdentity (profile : OAuthProfile) (userId : Nat)
  | createIdentity (profile : OAuthProfile) (user : AuthUser)
  -- `getOrCreateEmailUser`
  | userById (proven : Proof) (userId : Nat)
  | userByEmail (proven : Proof)
  | createUser (proven : Proof)
  -- `DeleteAccount`
  | softDeleteUser (userId : Nat)

inductive AccountCall where
  | emailAuth (email : Email)
  | emailVerify (codeId : Nat)
  | oauthCallback (profile : OAuthProfile)
  | deleteAccount (userId : Nat)

/-- A sign-in with a proven address, and the user that was found or created for it. -/
structure AddressSignIn where
  proven : Proof
  result : Option AuthUser
  deriving DecidableEq

structure Accounts where
  users : List AuthUser := []
  identities : List Identity := []
  codes : List EmailCode := []
  nextId : Nat := 0
  calls : Slots Nat AccountStatement := fun _ => none
  signIns : List AddressSignIn := []

inductive AccountStep where
  | call (id : Nat) (call : AccountCall)
  | execute (id : Nat)
  | fail (id : Nat)

namespace Accounts

section Model

variable (lower : Char → Char)

/-- `strings.ToLower`. -/
def toLower (email : Email) : Email := email.map lower

def firstStatement : AccountCall → AccountStatement
  | .emailAuth email => .codeUser (toLower lower email)
  | .emailVerify codeId => .consumeCode codeId
  | .oauthCallback profile => .getIdentity profile
  | .deleteAccount userId => .softDeleteUser userId

/-- The checks before the first statement. -/
def accepts : AccountCall → Bool
  | .emailAuth email => (toLower lower email).contains '@'
  | .oauthCallback profile => !profile.providerId.isEmpty && !profile.email.isEmpty
  | _ => true

def finish (s : Accounts) (id : Nat) : Accounts :=
  { s with calls := Function.update s.calls id none }

def goOn (s : Accounts) (id : Nat) (statement : AccountStatement) : Accounts :=
  { s with calls := Function.update s.calls id (some statement) }

/-- A sign-in ends with a user, or with an error of the tables. -/
def report (s : Accounts) (id : Nat) (proven : Proof) (result : Option AuthUser) : Accounts :=
  { s with signIns := ⟨proven, result⟩ :: s.signIns, calls := Function.update s.calls id none }

/-- `getOrCreateEmailUser` returns this user. -/
def gotUser (s : Accounts) (id : Nat) (proven : Proof) (user : AuthUser) : Accounts :=
  match proven with
  | .code _ => s.report id proven (some user)
  | .oauth profile => s.goOn id (.createIdentity profile user)

def addUser (s : Accounts) (user : AuthUser) : Accounts :=
  { s with users := s.users ++ [user], nextId := s.nextId + 1 }

def addCode (s : Accounts) (email : Email) (userId : Option Nat) : Accounts :=
  { s with codes := s.codes ++ [⟨s.nextId, userId, email⟩], nextId := s.nextId + 1 }

def addIdentity (s : Accounts) (identity : Identity) : Accounts :=
  { s with identities := s.identities ++ [identity] }

def updateIdentityLastSignIn (s : Accounts) (profile : OAuthProfile) : Accounts :=
  { s with
    identities := s.identities.map fun identity =>
      if identity.isOf profile then { identity with email := profile.email } else identity }

def softDelete (s : Accounts) (userId : Nat) : Accounts :=
  { s with
    users := s.users.map fun user =>
      if user.id = userId then { user with deleted := true } else user }

def removeCodes (s : Accounts) (removed : EmailCode → Bool) : Accounts :=
  { s with codes := s.codes.filter fun code => !removed code }

def execute (s : Accounts) (id : Nat) : AccountStatement → Accounts
  | .codeUser email =>
    s.goOn id (.invalidateCodes email ((getUserByEmail s.users email).map AuthUser.id))
  | .invalidateCodes email userId =>
    (s.removeCodes fun code => code.email = email).goOn id (.createCode email userId)
  | .createCode email userId => (s.addCode email userId).finish id
  | .consumeCode codeId =>
    match s.codes.find? fun code => code.id = codeId with
    | none => s.finish id
    | some code =>
      (s.removeCodes fun other => other.id = codeId).goOn id
        (match code.userId with
        | some userId => .userById (.code code.email) userId
        | none => .userByEmail (.code code.email))
  | .getIdentity profile =>
    match s.identities.find? (Identity.isOf profile) with
    | some identity => s.goOn id (.updateIdentity profile identity.userId)
    | none => s.goOn id (.userByEmail (.oauth profile))
  | .updateIdentity profile userId =>
    (s.updateIdentityLastSignIn profile).goOn id (.userById (.oauth profile) userId)
  | .createIdentity profile user =>
    if s.identities.any (Identity.isOf profile) then s.report id (.oauth profile) none
    else
      (s.addIdentity ⟨user.id, profile.provider, profile.providerId, profile.email⟩).report id
        (.oauth profile) (some user)
  | .userById proven userId => s.report id proven (getUserByID s.users userId)
  | .userByEmail proven =>
    match getUserByEmail s.users proven.address with
    | some user => s.gotUser id proven user
    | none => s.goOn id (.createUser proven)
  | .createUser proven =>
    match Auth.createUser s.users s.nextId proven.address with
    | some user => (s.addUser user).gotUser id proven user
    | none => s.report id proven none
  | .softDeleteUser userId => (s.softDelete userId).finish id

def next (s : Accounts) : AccountStep → Option Accounts
  | .call id call =>
    match s.calls id with
    | some _ => none
    | none => if accepts lower call then some (s.goOn id (firstStatement lower call)) else some s
  | .execute id =>
    match s.calls id with
    | none => none
    | some statement => some (s.execute id statement)
  | .fail id =>
    match s.calls id with
    | none => none
    | some _ => some (s.finish id)

def system : System Accounts AccountStep := System.ofStep (fun s => s = {}) (next lower)

/-! ## The property and the condition -/

structure OneAccount (s : Accounts) : Prop where
  /-- At most one account that is not deleted, whatever the letter case of the address. -/
  oneUser : ∀ one ∈ s.users, ∀ two ∈ s.users, one.deleted = false → two.deleted = false →
    toLower lower one.email = toLower lower two.email → one = two
  /-- A sign-in with a proven address leads to the account of that address. -/
  reaches : ∀ signIn ∈ s.signIns, ∃ user, signIn.result = some user ∧
    toLower lower user.email = toLower lower signIn.proven.address

/-- A sign-in meets no account of its address in another letter case, no deleted account, no row
that a concurrent sign-in has inserted, and no identity whose profile had another address. -/
def undisturbed (s : Accounts) : AccountStep → Bool
  | .execute id =>
    match s.calls id with
    | some (.getIdentity profile) =>
      s.identities.all fun identity =>
        !identity.isOf profile || toLower lower identity.email = toLower lower profile.email
    | some (.userById _ userId) =>
      s.users.all fun user => user.id ≠ userId || !user.deleted
    | some (.createUser proven) =>
      s.users.all fun user =>
        toLower lower user.email ≠ toLower lower proven.address ||
          user.deleted && user.email ≠ proven.address
    | some (.createIdentity profile _) =>
      s.identities.all fun identity => !identity.isOf profile
    | _ => true
  | _ => true

/-! ## The invariant -/

/-- There is a user with this id, whose address is this one in some letter case. -/
def Leads (s : Accounts) (userId : Nat) (address : Email) : Prop :=
  ∃ user ∈ s.users, user.id = userId ∧ toLower lower user.email = toLower lower address

/-- What the values that a call has read say about the tables. -/
def Fits (s : Accounts) : AccountStatement → Prop
  | .invalidateCodes email userId => ∀ id, userId = some id → Leads lower s id email
  | .createCode email userId => ∀ id, userId = some id → Leads lower s id email
  | .updateIdentity profile userId => Leads lower s userId profile.email ∧
      ∃ identity ∈ s.identities, identity.isOf profile = true ∧ identity.userId = userId
  | .createIdentity profile user => Leads lower s user.id profile.email ∧
      toLower lower user.email = toLower lower profile.email
  | .userById proven userId => Leads lower s userId proven.address
  | _ => True

structure TablesFit (s : Accounts) : Prop where
  ids : ∀ one ∈ s.users, ∀ two ∈ s.users, one.id = two.id → one = two
  below : ∀ user ∈ s.users, user.id < s.nextId
  codes : ∀ code ∈ s.codes, ∀ userId, code.userId = some userId → Leads lower s userId code.email
  identities : ∀ identity ∈ s.identities, Leads lower s identity.userId identity.email
  /-- The constraint on `(provider, provider_id)`. -/
  keys : ∀ profile, ∀ one ∈ s.identities, ∀ two ∈ s.identities,
    one.isOf profile = true → two.isOf profile = true → one.userId = two.userId
  one : OneAccount lower s

structure AccountsInvariant (s : Accounts) : Prop where
  tables : TablesFit lower s
  calls : s.calls.Every fun _ statement => Fits lower s statement

/-- What one statement may do to the tables, seen from the other calls. -/
structure Grows (s s' : Accounts) : Prop where
  leads : ∀ userId address, Leads lower s userId address → Leads lower s' userId address
  identities : ∀ identity ∈ s.identities, ∃ now ∈ s'.identities,
    now.userId = identity.userId ∧ ∀ profile, now.isOf profile = identity.isOf profile
  calls : s'.calls = s.calls

end Model

variable {lower : Char → Char} {s s' : Accounts} {id : Nat} {statement old : AccountStatement}

theorem Grows.refl (lower : Char → Char) (s : Accounts) : Grows lower s s :=
  ⟨fun _ _ leads => leads, fun identity among => ⟨identity, among, rfl, fun _ => rfl⟩, rfl⟩

theorem Fits.grows (grows : Grows lower s s') (fits : Fits lower s statement) :
    Fits lower s' statement := by
  cases statement with
  | invalidateCodes email userId => exact fun id isId => grows.leads _ _ (fits id isId)
  | createCode email userId => exact fun id isId => grows.leads _ _ (fits id isId)
  | updateIdentity profile userId =>
    obtain ⟨leads, identity, among, isOf, isUser⟩ := fits
    obtain ⟨now, isNow, same, sameKey⟩ := grows.identities identity among
    exact ⟨grows.leads _ _ leads, now, isNow, (sameKey profile).trans isOf, same.trans isUser⟩
  | createIdentity profile user => exact ⟨grows.leads _ _ fits.1, fits.2⟩
  | userById proven userId => exact grows.leads _ _ fits
  | _ => trivial

/-! ### How a call goes on -/

theorem AccountsInvariant.finish (inv : AccountsInvariant lower s) (grows : Grows lower s s')
    (tables : TablesFit lower s') : AccountsInvariant lower (s'.finish id) := by
  have fits : s'.calls.Every fun _ statement => Fits lower s' statement := by
    rw [grows.calls]
    exact inv.calls.mono fun _ _ _ fits => fits.grows grows
  exact ⟨{ tables with one := { tables.one with } }, fits.clear id⟩

theorem AccountsInvariant.goOn (inv : AccountsInvariant lower s) (grows : Grows lower s s')
    (tables : TablesFit lower s') (fits : Fits lower s' statement) :
    AccountsInvariant lower (s'.goOn id statement) := by
  have others : s'.calls.Every fun _ statement => Fits lower s' statement := by
    rw [grows.calls]
    exact inv.calls.mono fun _ _ _ fits => fits.grows grows
  exact ⟨{ tables with one := { tables.one with } }, others.fill fits⟩

variable {user : AuthUser}

/-- A sign-in ends with the account of its address. -/
theorem AccountsInvariant.report (inv : AccountsInvariant lower s) (grows : Grows lower s s')
    (tables : TablesFit lower s') {proven : Proof}
    (same : toLower lower user.email = toLower lower proven.address) :
    AccountsInvariant lower (s'.report id proven (some user)) := by
  have ended : AccountsInvariant lower (s'.finish id) := inv.finish grows tables
  refine { ended with tables := { ended.tables with one := { ended.tables.one with reaches := ?_ } } }
  intro signIn among
  rcases mem_cons.mp among with rfl | earlier
  · exact ⟨user, rfl, same⟩
  · exact tables.one.reaches signIn earlier

theorem AccountsInvariant.gotUser (inv : AccountsInvariant lower s) (grows : Grows lower s s')
    (tables : TablesFit lower s') {proven : Proof} (among : user ∈ s'.users)
    (same : toLower lower user.email = toLower lower proven.address) :
    AccountsInvariant lower (s'.gotUser id proven user) := by
  cases proven with
  | code email => exact inv.report grows tables same
  | oauth profile => exact inv.goOn grows tables ⟨⟨user, among, rfl, same⟩, same⟩

/-! ### What the statements do to the tables -/

theorem grows_removeCodes (removed : EmailCode → Bool) : Grows lower s (s.removeCodes removed) :=
  { Grows.refl lower s with leads := fun _ _ leads => leads }

theorem TablesFit.removeCodes (tables : TablesFit lower s) (removed : EmailCode → Bool) :
    TablesFit lower (s.removeCodes removed) :=
  { tables with
    codes := fun code among => tables.codes code (mem_of_mem_filter among)
    one := { tables.one with } }

theorem grows_addCode (email : Email) (userId : Option Nat) :
    Grows lower s (s.addCode email userId) :=
  { Grows.refl lower s with leads := fun _ _ leads => leads }

theorem TablesFit.addCode (tables : TablesFit lower s) {email : Email} {userId : Option Nat}
    (owner : ∀ id, userId = some id → Leads lower s id email) :
    TablesFit lower (s.addCode email userId) := by
  refine { tables with below := ?_, codes := ?_, one := { tables.one with } }
  · exact fun user among => Nat.lt_succ_of_lt (tables.below user among)
  · intro code among id isOwner
    rcases mem_append.mp among with earlier | isNew
    · exact tables.codes code earlier id isOwner
    · rw [mem_singleton.mp isNew] at isOwner ⊢
      exact owner id isOwner

theorem grows_addUser (user : AuthUser) : Grows lower s (s.addUser user) :=
  { Grows.refl lower s with
    leads := fun _ _ ⟨other, among, isOther⟩ =>
      ⟨other, mem_append_left _ among, isOther⟩ }

/-- A new user for an address that no account has in any letter case. -/
theorem TablesFit.addUser (tables : TablesFit lower s) (isNew : user.id = s.nextId)
    (free : ∀ other ∈ s.users, other.deleted = false →
      toLower lower other.email ≠ toLower lower user.email) :
    TablesFit lower (s.addUser user) := by
  have grows : Grows lower s (s.addUser user) := grows_addUser user
  have differs : ∀ other ∈ s.users, other.id ≠ user.id := by
    intro other among
    rw [isNew]
    exact Nat.ne_of_lt (tables.below other among)
  constructor
  case ids =>
    intro one amongOne two amongTwo same
    rcases mem_append.mp amongOne with earlierOne | isOne <;>
      rcases mem_append.mp amongTwo with earlierTwo | isTwo
    · exact tables.ids one earlierOne two earlierTwo same
    · exact absurd (same.trans (congrArg _ (mem_singleton.mp isTwo))) (differs one earlierOne)
    · exact absurd (same.symm.trans (congrArg _ (mem_singleton.mp isOne))) (differs two earlierTwo)
    · rw [mem_singleton.mp isOne, mem_singleton.mp isTwo]
  case below =>
    intro one among
    rcases mem_append.mp among with earlier | isLast
    · exact Nat.lt_succ_of_lt (tables.below one earlier)
    · rw [mem_singleton.mp isLast, isNew]
      exact Nat.lt_succ_self _
  case codes =>
    exact fun code among userId isOwner => grows.leads _ _ (tables.codes code among userId isOwner)
  case identities =>
    exact fun identity among => grows.leads _ _ (tables.identities identity among)
  case keys => exact tables.keys
  case one =>
    refine { tables.one with oneUser := ?_ }
    intro one amongOne two amongTwo liveOne liveTwo same
    rcases mem_append.mp amongOne with earlierOne | isOne <;>
      rcases mem_append.mp amongTwo with earlierTwo | isTwo
    · exact tables.one.oneUser one earlierOne two earlierTwo liveOne liveTwo same
    · rw [mem_singleton.mp isTwo] at same
      exact absurd same (free one earlierOne liveOne)
    · rw [mem_singleton.mp isOne] at same
      exact absurd same.symm (free two earlierTwo liveTwo)
    · rw [mem_singleton.mp isOne, mem_singleton.mp isTwo]

theorem grows_addIdentity (identity : Identity) : Grows lower s (s.addIdentity identity) :=
  { Grows.refl lower s with
    leads := fun _ _ leads => leads
    identities := fun other among =>
      ⟨other, mem_append_left _ among, rfl, fun _ => rfl⟩ }

variable {userId : Nat}

theorem TablesFit.addIdentity (tables : TablesFit lower s) {profile : OAuthProfile}
    (leads : Leads lower s userId profile.email)
    (isNew : ∀ identity ∈ s.identities, identity.isOf profile = false) :
    TablesFit lower
      (s.addIdentity ⟨userId, profile.provider, profile.providerId, profile.email⟩) := by
  -- no row has the key of the new one
  have differs : ∀ identity ∈ s.identities, ∀ other : OAuthProfile,
      identity.isOf other = true →
        Identity.isOf other ⟨userId, profile.provider, profile.providerId, profile.email⟩ ≠ true := by
    intro identity among other isOf same
    simp only [Identity.isOf, Bool.and_eq_true, decide_eq_true_eq] at isOf same
    have notOf := isNew identity among
    simp [Identity.isOf, isOf.1, isOf.2, same.1, same.2] at notOf
  refine { tables with identities := ?_, keys := ?_, one := { tables.one with } }
  · intro identity among
    rcases mem_append.mp among with earlier | isLast
    · exact tables.identities identity earlier
    · rw [mem_singleton.mp isLast]
      exact leads
  · intro other one amongOne two amongTwo isOne isTwo
    rcases mem_append.mp amongOne with earlierOne | lastOne <;>
      rcases mem_append.mp amongTwo with earlierTwo | lastTwo
    · exact tables.keys other one earlierOne two earlierTwo isOne isTwo
    · rw [mem_singleton.mp lastTwo] at isTwo
      exact absurd isTwo (differs one earlierOne other isOne)
    · rw [mem_singleton.mp lastOne] at isOne
      exact absurd isOne (differs two earlierTwo other isTwo)
    · rw [mem_singleton.mp lastOne, mem_singleton.mp lastTwo]

theorem grows_updateIdentity (profile : OAuthProfile) :
    Grows lower s (s.updateIdentityLastSignIn profile) := by
  refine { Grows.refl lower s with leads := fun _ _ leads => leads, identities := ?_ }
  intro identity among
  refine ⟨_, mem_map_of_mem among, ?_⟩
  split
  · exact ⟨rfl, fun _ => rfl⟩
  · exact ⟨rfl, fun _ => rfl⟩

theorem TablesFit.updateIdentity (tables : TablesFit lower s) {profile : OAuthProfile}
    (fits : Fits lower s (.updateIdentity profile userId)) :
    TablesFit lower (s.updateIdentityLastSignIn profile) := by
  obtain ⟨leads, held, amongHeld, isHeld, isUser⟩ := fits
  have updated : ∀ identity ∈ (s.updateIdentityLastSignIn profile).identities,
      ∃ before ∈ s.identities, identity.userId = before.userId ∧
        (∀ other, identity.isOf other = before.isOf other) ∧
        (identity = before ∨ before.isOf profile = true ∧ identity.email = profile.email) := by
    intro identity among
    obtain ⟨before, wasAmong, rfl⟩ := List.mem_map.mp among
    refine ⟨before, wasAmong, ?_⟩
    split
    · rename_i isOf
      exact ⟨rfl, fun _ => rfl, .inr ⟨isOf, rfl⟩⟩
    · exact ⟨rfl, fun _ => rfl, .inl rfl⟩
  refine { tables with identities := ?_, keys := ?_, one := { tables.one with } }
  · intro identity among
    obtain ⟨before, wasAmong, sameUser, -, same | ⟨isOf, isEmail⟩⟩ := updated identity among
    · rw [same]
      exact tables.identities before wasAmong
    · rw [isEmail, sameUser, tables.keys profile before wasAmong held amongHeld isOf isHeld, isUser]
      exact leads
  · intro other one amongOne two amongTwo isOne isTwo
    obtain ⟨beforeOne, wasOne, userOne, keyOne, -⟩ := updated one amongOne
    obtain ⟨beforeTwo, wasTwo, userTwo, keyTwo, -⟩ := updated two amongTwo
    rw [userOne, userTwo]
    exact tables.keys other beforeOne wasOne beforeTwo wasTwo ((keyOne other).symm.trans isOne)
      ((keyTwo other).symm.trans isTwo)

/-- The rows after a deletion are the rows before, some of them deleted. -/
theorem mem_softDelete (among : user ∈ (s.softDelete userId).users) :
    ∃ before ∈ s.users, user.id = before.id ∧ user.email = before.email ∧
      (user = before ∨ before.id = userId ∧ user.deleted = true) := by
  obtain ⟨before, wasAmong, rfl⟩ := List.mem_map.mp among
  refine ⟨before, wasAmong, ?_⟩
  split
  · rename_i isUser
    exact ⟨rfl, rfl, .inr ⟨isUser, rfl⟩⟩
  · exact ⟨rfl, rfl, .inl rfl⟩

theorem grows_softDelete (userId : Nat) : Grows lower s (s.softDelete userId) := by
  refine { Grows.refl lower s with leads := ?_ }
  rintro id address ⟨user, among, isUser, same⟩
  refine ⟨_, mem_map_of_mem among, ?_⟩
  split
  · exact ⟨isUser, same⟩
  · exact ⟨isUser, same⟩

theorem TablesFit.softDelete (tables : TablesFit lower s) (userId : Nat) :
    TablesFit lower (s.softDelete userId) := by
  have grows : Grows lower s (s.softDelete userId) := grows_softDelete userId
  constructor
  case ids =>
    intro one amongOne two amongTwo same
    obtain ⟨beforeOne, wasOne, rfl⟩ := List.mem_map.mp amongOne
    obtain ⟨beforeTwo, wasTwo, rfl⟩ := List.mem_map.mp amongTwo
    have kept : ∀ user : AuthUser,
        (if user.id = userId then { user with deleted := true } else user).id = user.id := by
      intro user
      split <;> rfl
    rw [kept, kept] at same
    rw [tables.ids beforeOne wasOne beforeTwo wasTwo same]
  case below =>
    intro user among
    obtain ⟨before, wasAmong, isId, -⟩ := mem_softDelete among
    rw [isId]
    exact tables.below before wasAmong
  case codes =>
    exact fun code among id isOwner => grows.leads _ _ (tables.codes code among id isOwner)
  case identities =>
    exact fun identity among => grows.leads _ _ (tables.identities identity among)
  case keys => exact tables.keys
  case one =>
    refine { tables.one with oneUser := ?_ }
    intro one amongOne two amongTwo liveOne liveTwo same
    obtain ⟨beforeOne, wasOne, -, -, rfl | ⟨-, goneOne⟩⟩ := mem_softDelete amongOne
    · obtain ⟨beforeTwo, wasTwo, -, -, rfl | ⟨-, goneTwo⟩⟩ := mem_softDelete amongTwo
      · exact tables.one.oneUser one wasOne two wasTwo liveOne liveTwo same
      · rw [goneTwo] at liveTwo
        cases liveTwo
    · rw [goneOne] at liveOne
      cases liveOne

theorem TablesFit.userFound (tables : TablesFit lower s) {address : Email}
    (leads : Leads lower s userId address)
    (live : ∀ user ∈ s.users, user.id ≠ userId ∨ user.deleted = false) :
    ∃ user, getUserByID s.users userId = some user ∧
      toLower lower user.email = toLower lower address := by
  obtain ⟨user, among, isUser, same⟩ := leads
  have isLive := (live user among).resolve_left (fun differs => differs isUser)
  cases found : getUserByID s.users userId with
  | none =>
    have missed := List.find?_eq_none.mp found user among
    simp [isUser, isLive] at missed
  | some other =>
    obtain ⟨amongOther, isOther, -⟩ := getUserByID_eq found
    have isSame := tables.ids other amongOther user among (isOther.trans isUser.symm)
    exact ⟨other, rfl, isSame ▸ same⟩

/-! ### Every statement -/

theorem AccountsInvariant.execute (inv : AccountsInvariant lower s)
    (isCall : s.calls id = some statement) (allowed : undisturbed lower s (.execute id) = true) :
    AccountsInvariant lower (s.execute id statement) := by
  have fits := inv.calls id statement isCall
  have still := Grows.refl lower s
  simp only [undisturbed, isCall] at allowed
  cases statement with
  | codeUser email =>
    refine inv.goOn still inv.tables ?_
    intro userId isId
    obtain ⟨user, found, isUser⟩ := map_eq_some_iff.mp isId
    obtain ⟨among, isEmail, -⟩ := getUserByEmail_eq found
    exact ⟨user, among, isUser, congrArg _ isEmail⟩
  | invalidateCodes email userId =>
    have grows : Grows lower s (s.removeCodes fun code => code.email = email) := grows_removeCodes _
    exact inv.goOn grows (inv.tables.removeCodes _) (fits.grows grows)
  | createCode email userId => exact inv.finish (grows_addCode _ _) (inv.tables.addCode fits)
  | consumeCode codeId =>
    simp only [Accounts.execute]
    split
    · exact inv.finish still inv.tables
    · rename_i code found
      have among := mem_of_find?_eq_some found
      refine inv.goOn (grows_removeCodes _) (inv.tables.removeCodes _) ?_
      cases isOwner : code.userId with
      | none => trivial
      | some userId => exact inv.tables.codes code among userId isOwner
  | getIdentity profile =>
    simp only [Accounts.execute]
    split
    · rename_i identity found
      have among := mem_of_find?_eq_some found
      have isOf := find?_some found
      have same := List.all_eq_true.mp allowed identity among
      simp only [isOf, Bool.not_true, Bool.false_or, decide_eq_true_eq] at same
      obtain ⟨user, isUser, isId, isEmail⟩ := inv.tables.identities identity among
      exact inv.goOn still inv.tables
        ⟨⟨user, isUser, isId, isEmail.trans same⟩, identity, among, isOf, rfl⟩
    · exact inv.goOn still inv.tables trivial
  | updateIdentity profile userId =>
    exact inv.goOn (grows_updateIdentity _) (inv.tables.updateIdentity fits)
      ((grows_updateIdentity profile).leads _ _ fits.1)
  | createIdentity profile user =>
    have isNew : ∀ identity ∈ s.identities, identity.isOf profile = false := by
      intro identity among
      have notOf := List.all_eq_true.mp allowed identity among
      rwa [Bool.not_eq_true'] at notOf
    simp only [Accounts.execute]
    split
    · rename_i taken
      obtain ⟨identity, among, isOf⟩ := List.any_eq_true.mp taken
      rw [isNew identity among] at isOf
      cases isOf
    · exact inv.report (grows_addIdentity _) (inv.tables.addIdentity fits.1 isNew) fits.2
  | userById proven userId =>
    have live : ∀ user ∈ s.users, user.id ≠ userId ∨ user.deleted = false := by
      intro user among
      have isLive := List.all_eq_true.mp allowed user among
      simpa using isLive
    obtain ⟨user, found, same⟩ := inv.tables.userFound fits live
    simp only [Accounts.execute, found]
    exact inv.report still inv.tables same
  | userByEmail proven =>
    simp only [Accounts.execute]
    split
    · rename_i user found
      obtain ⟨among, isEmail, -⟩ := getUserByEmail_eq found
      exact inv.gotUser still inv.tables among (congrArg _ isEmail)
    · exact inv.goOn still inv.tables trivial
  | createUser proven =>
    have free : ∀ user ∈ s.users,
        toLower lower user.email ≠ toLower lower proven.address ∨
          user.deleted = true ∧ user.email ≠ proven.address := by
      intro user among
      have isFree := List.all_eq_true.mp allowed user among
      simpa using isFree
    simp only [Accounts.execute]
    split
    · rename_i user created
      obtain ⟨rfl, -⟩ := createUser_eq created
      refine inv.gotUser (grows_addUser _) (inv.tables.addUser rfl ?_)
        (mem_append_right _ (mem_singleton.mpr rfl)) rfl
      intro other among live same
      rcases free other among with differs | ⟨deleted, -⟩
      · exact differs same
      · rw [live] at deleted
        cases deleted
    · rename_i refused
      unfold Auth.createUser at refused
      split at refused
      · rename_i taken
        obtain ⟨other, among, isEmail⟩ := List.any_eq_true.mp taken
        have same := of_decide_eq_true isEmail
        rcases free other among with differs | ⟨-, differs⟩
        · exact absurd (congrArg _ same) differs
        · exact absurd same differs
      · cases refused
  | softDeleteUser userId =>
    exact inv.finish (grows_softDelete userId) (inv.tables.softDelete userId)

theorem AccountsInvariant.next {step : AccountStep} (inv : AccountsInvariant lower s)
    (allowed : undisturbed lower s step = true) (stepped : s.next lower step = some s') :
    AccountsInvariant lower s' := by
  have still := Grows.refl lower s
  cases step with
  | call id call =>
    simp only [Accounts.next] at stepped
    split at stepped
    · cases stepped
    · split at stepped
      · cases stepped
        exact inv.goOn still inv.tables (by cases call <;> trivial)
      · cases stepped
        exact inv
  | execute id =>
    simp only [Accounts.next] at stepped
    split at stepped
    · cases stepped
    · rename_i statement isCall
      cases stepped
      exact inv.execute isCall allowed
  | fail id =>
    simp only [Accounts.next] at stepped
    split at stepped
    · cases stepped
    · cases stepped
      exact inv.finish still inv.tables

theorem invariant_empty : AccountsInvariant lower {} where
  tables :=
    { ids := by simp
      below := by simp
      codes := by simp
      identities := by simp
      keys := by simp
      one := ⟨by simp, by simp⟩ }
  calls := by simp

/-! ## Every run -/

/-- **A proven address reaches its one account**, in every run in which no sign-in meets what
`undisturbed` excludes. -/
theorem reaches_one_account
    (reached : (system lower).ReachableBy (fun s step => undisturbed lower s step = true) s) :
    OneAccount lower s := by
  have inv := System.ReachableBy.keeps (AccountsInvariant lower)
    (by rintro _ rfl; exact invariant_empty)
    (fun _ _ _ inv allowed stepped => inv.next allowed stepped) reached
  exact inv.tables.one

/-- The statements of a call, one after the other. -/
def whole (id : Nat) (call : AccountCall) (statements : Nat) : List AccountStep :=
  .call id call :: List.replicate statements (.execute id)

def google (email : Email) : OAuthProfile := ⟨.google, ['1'], email⟩

def github (email : Email) : OAuthProfile := ⟨.github, ['2'], email⟩

def alice : Email := "alice@x".toList

def bob : Email := "bob@x".toList

/-- A profile spells the address with a capital letter, and the owner of the address verifies a
code. -/
def otherCase : List AccountStep :=
  whole 0 (.oauthCallback (google "Alice@x".toList)) 4 ++ whole 0 (.emailAuth alice) 3 ++
    whole 0 (.emailVerify 1) 3

/-- The account is deleted, and the owner of the address signs in again. -/
def afterDeletion : List AccountStep :=
  whole 0 (.emailAuth alice) 3 ++ whole 0 (.emailVerify 0) 3 ++ whole 0 (.deleteAccount 1) 1 ++
    whole 0 (.emailAuth alice) 3 ++ whole 0 (.emailVerify 2) 3

/-- Two first sign-ins look the address up before either has inserted it. -/
def bothFirst : List AccountStep :=
  whole 0 (.oauthCallback (google alice)) 2 ++ whole 1 (.oauthCallback (github alice)) 2 ++
    [.execute 0, .execute 1]

/-- The account is deleted and its identity stays. -/
def leftoverIdentity : List AccountStep :=
  whole 0 (.oauthCallback (google alice)) 4 ++ whole 0 (.deleteAccount 0) 1 ++
    whole 0 (.oauthCallback (google alice)) 3

/-- The profile of an identity has another address now. -/
def changedAddress : List AccountStep :=
  whole 0 (.oauthCallback (google alice)) 4 ++ whole 0 (.oauthCallback (google bob)) 3

def afterRun (steps : List AccountStep) : Option Accounts := System.run (next Char.toLower) {} steps

theorem reachable_afterRun {steps : List AccountStep} {s : Accounts} (ran : afterRun steps = some s) :
    (system Char.toLower).Reachable s :=
  System.reachable_of_run (.start rfl) ran

/-- One address has two accounts; a sign-in fails after a deletion, beside a concurrent first
sign-in, and on a leftover identity; an identity leads to the account of another address. -/
theorem not_reaches_one_account :
    (afterRun otherCase).map (fun s => s.users) =
      some [⟨0, "Alice@x".toList, false⟩, ⟨2, alice, false⟩] ∧
    (afterRun afterDeletion).map (fun s => s.signIns.head?) = some (some ⟨.code alice, none⟩) ∧
    (afterRun bothFirst).map (fun s => s.signIns.head?) =
      some (some ⟨.oauth (github alice), none⟩) ∧
    (afterRun leftoverIdentity).map (fun s => s.signIns.head?) =
      some (some ⟨.oauth (google alice), none⟩) ∧
    (afterRun changedAddress).map (fun s => s.signIns.head?) =
      some (some ⟨.oauth (google bob), some ⟨0, alice, false⟩⟩) ∧
    ¬ ∀ s, (system Char.toLower).Reachable s → OneAccount Char.toLower s := by
  have fails : (afterRun afterDeletion).map (fun s => s.signIns.head?) =
      some (some ⟨.code alice, none⟩) := by
    decide +kernel
  refine ⟨by decide +kernel, fails, by decide +kernel, by decide +kernel, by decide +kernel, ?_⟩
  intro always
  obtain ⟨s, ran, reported⟩ := map_eq_some_iff.mp fails
  have among : ⟨.code alice, none⟩ ∈ s.signIns := mem_of_mem_head? reported
  obtain ⟨user, isUser, -⟩ := (always s (reachable_afterRun ran)).reaches _ among
  cases isUser

/-- The owner of an address signs up with a profile and signs in with a code. -/
theorem reaches_one_account_twice :
    ∃ s, (system Char.toLower).ReachableBy (fun s step => undisturbed Char.toLower s step = true) s ∧
      s.signIns = [⟨.code alice, some ⟨0, alice, false⟩⟩,
        ⟨.oauth (google alice), some ⟨0, alice, false⟩⟩] ∧
      OneAccount Char.toLower s := by
  have ran : (System.runWhile (undisturbed Char.toLower) (next Char.toLower) {}
      (whole 0 (.oauthCallback (google alice)) 4 ++ whole 0 (.emailAuth "Alice@x".toList) 3 ++
        whole 0 (.emailVerify 1) 2)).map (fun s => s.signIns) =
      some [⟨.code alice, some ⟨0, alice, false⟩⟩,
        ⟨.oauth (google alice), some ⟨0, alice, false⟩⟩] := by
    decide +kernel
  obtain ⟨s, ran, reported⟩ := map_eq_some_iff.mp ran
  have reached : (system Char.toLower).ReachableBy
      (fun s step => undisturbed Char.toLower s step = true) s :=
    System.reachableBy_of_runWhile (.start rfl) ran
  exact ⟨s, reached, reported, reaches_one_account reached⟩

end Accounts

end Kuku.Auth
