/-
# Auth.Tables -- users, one-time tokens and flow states of the server

The rows of the authentication tables, with the columns that their queries read, and the
queries as functions of the rows.  A deleted user keeps its row: look-ups pass over it, the
uniqueness of the address does not.

A secret is a six-character code, which two addresses may share, or a secure token, no two of
which are equal; the hash under which a secret is stored is injective, so it is the secret.
-/
import Kuku.Theory.Runs
import Kuku.Theory.Slots

namespace Kuku.Auth

open List

abbrev Email := List Char

/-! ## Users -/

structure AuthUser where
  id : Nat
  email : Email
  deleted : Bool
  deriving DecidableEq

section Users

variable (users : List AuthUser)

def getUserByID (id : Nat) : Option AuthUser :=
  users.find? fun user => user.id = id && !user.deleted

def getUserByEmail (email : Email) : Option AuthUser :=
  users.find? fun user => user.email = email && !user.deleted

/-- The constraint on `email` counts deleted users. -/
def createUser (id : Nat) (email : Email) : Option AuthUser :=
  if users.any fun user => user.email = email then none else some ⟨id, email, false⟩

variable {users} {id : Nat} {email : Email} {user : AuthUser}

theorem getUserByID_eq (found : getUserByID users id = some user) :
    user ∈ users ∧ user.id = id ∧ user.deleted = false := by
  have holds := find?_some found
  simp only [Bool.and_eq_true, decide_eq_true_eq, Bool.not_eq_true'] at holds
  exact ⟨mem_of_find?_eq_some found, holds⟩

theorem getUserByEmail_eq (found : getUserByEmail users email = some user) :
    user ∈ users ∧ user.email = email ∧ user.deleted = false := by
  have holds := find?_some found
  simp only [Bool.and_eq_true, decide_eq_true_eq, Bool.not_eq_true'] at holds
  exact ⟨mem_of_find?_eq_some found, holds⟩

theorem createUser_eq (created : createUser users id email = some user) :
    user = ⟨id, email, false⟩ ∧ ∀ other ∈ users, other.email ≠ email := by
  unfold createUser at created
  split at created
  · cases created
  · rename_i isNew
    refine ⟨(Option.some.inj created).symm, ?_⟩
    intro other among same
    exact isNew (any_eq_true.mpr ⟨other, among, decide_eq_true same⟩)

end Users

/-! ## Secrets, one-time tokens and flow states -/

inductive Secret where
  | code (digits : List Char)
  | secure (n : Nat)
  deriving DecidableEq

inductive OneTimeTokenType where
  | emailAuth
  | desktopAuth
  deriving DecidableEq

structure OneTimeToken where
  id : Nat
  userId : Option Nat
  email : Email
  tokenType : OneTimeTokenType
  tokenHash : Secret
  used : Bool
  expiresAt : Nat

/-- `used_at IS NULL AND expires_at > now()`. -/
def OneTimeToken.isLive (now : Nat) (token : OneTimeToken) : Bool :=
  !token.used && decide (now < token.expiresAt)

/-- `flow_state`.  The email is that of an email flow. -/
structure FlowState where
  authCode : Secret
  authenticationMethod : OneTimeTokenType
  email : Option Email
  expiresAt : Nat

end Kuku.Auth
