/-
# Auth.Cookies -- the auth cookies of a browser after a response

The middleware may rotate the tokens before the handler runs, and adds the rotated pair when the
header is written, behind what the handler has added.  So the browser ends up with the pair
whatever the handler decided; and where the middleware answers by itself after the rotation, or
the handler writes nothing, the pair is lost (`browser_holds_iff`).
-/
import Mathlib

namespace Kuku.Auth.Cookies

open Option List

abbrev Str := List Char

structure TokenPair where
  accessToken : Str
  refreshToken : Str

/-! ## cookies.go -/

inductive CookieName where
  | accessToken
  | refreshToken
  | emailAuthFlow
  deriving DecidableEq

/-- A cookie with a negative `MaxAge` has no value: the browser removes it. -/
structure SetCookie where
  name : CookieName
  value : Option Str

/-- The `Set-Cookie` lines of a header. -/
abbrev Header := List SetCookie

def addAuthCookies (header : Header) (pair : TokenPair) : Header :=
  header ++ [⟨.accessToken, some pair.accessToken⟩, ⟨.refreshToken, some pair.refreshToken⟩]

def addClearAuthCookies (header : Header) : Header :=
  header ++ [⟨.accessToken, none⟩, ⟨.refreshToken, none⟩]

def addEmailFlowCookie (header : Header) (flow : Str) : Header :=
  header ++ [⟨.emailAuthFlow, some flow⟩]

def addClearEmailFlowCookie (header : Header) : Header := header ++ [⟨.emailAuthFlow, none⟩]

/-- The cookies of a browser. -/
abbrev Jar := CookieName → Option Str

def Jar.receive (jar : Jar) (header : Header) : Jar :=
  header.foldl (fun jar cookie => Function.update jar cookie.name cookie.value) jar

/-- The session that the browser holds. -/
def Jar.session (jar : Jar) : Option Str × Option Str := (jar .accessToken, jar .refreshToken)

def TokenPair.session (pair : TokenPair) : Option Str × Option Str :=
  (some pair.accessToken, some pair.refreshToken)

/-! ## Writing a response -/

inductive Write where
  | writeHeader
  | write
  | flush

/-- What a handler does with its writer: it adds cookies, then it writes. -/
structure Run where
  cookies : Header
  writes : List Write

/-- The server's writer, which sends the header once, and with a rotated pair
`authResponseWriter` around it. -/
structure Writer where
  header : Header
  sent : Option Header := none
  rotated : Option TokenPair
  headerWritten : Bool := false

def Writer.applyCookies (w : Writer) : Writer :=
  match w.rotated with
  | none => w
  | some pair =>
    if w.headerWritten then w
    else { w with headerWritten := true, header := addAuthCookies w.header pair }

def Writer.send (w : Writer) : Writer := { w with sent := w.sent.or (some w.header) }

/-- `WriteHeader`, `Write` and `Flush` alike. -/
def Writer.perform (w : Writer) (_ : Write) : Writer := w.applyCookies.send

/-- The header that is sent; after a handler that has written nothing the server sends it. -/
def serve (rotated : Option TokenPair) (run : Run) : Header :=
  (run.writes.foldl Writer.perform { header := run.cookies, rotated }).send.sent.getD []

/-! ## Handlers -/

inductive Route where
  | googleCallback
  | githubCallback
  | emailAuth
  | emailVerify
  | emailResend
  | signOut
  | accountDelete
  | other (path : String)

def Route.path : Route → String
  | .googleCallback => "/auth/callback/google"
  | .githubCallback => "/auth/callback/github"
  | .emailAuth => "/kuku.auth.v1.AuthService/EmailAuth"
  | .emailVerify => "/kuku.auth.v1.AuthService/EmailVerify"
  | .emailResend => "/kuku.auth.v1.AuthService/EmailResend"
  | .signOut => "/kuku.auth.v1.AuthService/SignOut"
  | .accountDelete => "/kuku.auth.v1.AuthService/AccountDelete"
  | .other path => path

def publicPaths : List String :=
  ["/health", "/ready", "/auth/callback/google", "/auth/callback/github",
    "/kuku.auth.v1.AuthService/GoogleAuthURL", "/kuku.auth.v1.AuthService/GithubAuthURL",
    "/kuku.auth.v1.AuthService/DesktopAuthURL",
    "/kuku.auth.v1.AuthService/ExchangeDesktopToken",
    "/kuku.auth.v1.AuthService/RefreshDesktopToken", "/kuku.auth.v1.AuthService/EmailAuth",
    "/kuku.auth.v1.AuthService/EmailVerify", "/kuku.auth.v1.AuthService/EmailResend"]

def isPublicPath (path : String) : Bool := publicPaths.contains path

structure Claims where
  subject : Str
  sessionID : Str

/-- What the calls of the service answer during one request, `none` for an error, and how the
handlers of the other routes write. -/
structure AuthService where
  parseAccessToken : Str → Option Claims
  refreshTokens : Str → Option TokenPair
  uuidParse : Str → Option Nat
  validateSession : Nat → Bool
  emailAuth : Option Str
  emailVerify : Option TokenPair
  emailResend : Option Str
  oauthCallback : Option TokenPair
  signOut : Nat → Nat → Bool
  deleteAccount : Nat → Bool
  writes : List Write

/-- A response or an error, a redirect among them, as it is written. -/
def reply (cookies : Header) : Run := ⟨cookies, [.writeHeader, .write]⟩

section

variable (service : AuthService)

def handleOAuth : Header := (service.oauthCallback.map (addAuthCookies [])).getD []

def emailVerify : Header :=
  match service.emailVerify with
  | some pair => addClearEmailFlowCookie (addAuthCookies [] pair)
  | none => []

def signOut : Option (Nat × Nat) → Header
  | none => []
  | some (userID, sessionID) =>
    if service.signOut userID sessionID then addClearAuthCookies [] else []

def accountDelete : Option (Nat × Nat) → Header
  | none => []
  | some (userID, _) => if service.deleteAccount userID then addClearAuthCookies [] else []

def handle (identity : Option (Nat × Nat)) : Route → Run
  | .googleCallback => reply (handleOAuth service)
  | .githubCallback => reply (handleOAuth service)
  | .emailAuth => reply ((service.emailAuth.map (addEmailFlowCookie [])).getD [])
  | .emailVerify => reply (emailVerify service)
  | .emailResend => reply ((service.emailResend.map (addEmailFlowCookie [])).getD [])
  | .signOut => reply (signOut service identity)
  | .accountDelete => reply (accountDelete service identity)
  | .other _ => ⟨[], service.writes⟩

end

/-! ## auth.go -/

structure Request where
  route : Route
  jar : Jar
  authorization : Str

def stripBearer (header : Str) : Str :=
  if "Bearer ".toList.isPrefixOf header then header.drop 7 else []

def getAccessToken (r : Request) : Str :=
  match r.jar .accessToken with
  | some value => if value ≠ [] then value else stripBearer r.authorization
  | none => stripBearer r.authorization

def getRefreshToken (r : Request) : Str := (r.jar .refreshToken).getD []

section

variable (service : AuthService) (r : Request)

def unauthenticated : Header :=
  if isPublicPath r.route.path then serve none (handle service none r.route)
  else serve none (reply [])

/-- What the middleware does once it has claims. -/
def proceed (rotated : Option TokenPair) (claims : Claims) : Header :=
  match service.uuidParse claims.subject with
  | none => unauthenticated service r
  | some userID =>
    match service.uuidParse claims.sessionID with
    | none => unauthenticated service r
    | some sessionID =>
      if service.validateSession sessionID then
        serve rotated (handle service (some (userID, sessionID)) r.route)
      else unauthenticated service r

/-- The `Set-Cookie` lines of the response. -/
def auth : Header :=
  let accessToken := getAccessToken r
  match (if accessToken ≠ [] then service.parseAccessToken accessToken else none) with
  | some claims => proceed service r none claims
  | none =>
    let refreshToken := getRefreshToken r
    if refreshToken = [] then unauthenticated service r
    else
      match service.refreshTokens refreshToken with
      | none => unauthenticated service r
      | some tokens =>
        match service.parseAccessToken tokens.accessToken with
        | none => unauthenticated service r
        | some claims => proceed service r (some tokens) claims

/-! ## What was decided -/

/-- The claims of the access token that came with the request. -/
def presented : Option Claims :=
  if getAccessToken r ≠ [] then service.parseAccessToken (getAccessToken r) else none

/-- The pair that the middleware has made of the refresh token. -/
def rotated : Option TokenPair :=
  if presented service r = none ∧ getRefreshToken r ≠ [] then
    service.refreshTokens (getRefreshToken r)
  else none

/-- Who the handler is told has sent the request. -/
def identity : Option (Nat × Nat) := do
  let claims ← (presented service r).or
    ((rotated service r).bind fun pair => service.parseAccessToken pair.accessToken)
  let userID ← service.uuidParse claims.subject
  let sessionID ← service.uuidParse claims.sessionID
  if service.validateSession sessionID then some (userID, sessionID) else none

def created : Option TokenPair :=
  match r.route with
  | .googleCallback | .githubCallback => service.oauthCallback
  | .emailVerify => service.emailVerify
  | _ => none

/-- The handler ends the session of whoever has sent the request. -/
def ends (identity : Option (Nat × Nat)) : Bool :=
  match r.route, identity with
  | .signOut, some (userID, sessionID) => service.signOut userID sessionID
  | .accountDelete, some (userID, _) => service.deleteAccount userID
  | _, _ => false

/-- What the browser should hold. -/
def decided : Option Str × Option Str :=
  match created service r with
  | some pair => pair.session
  | none =>
    if ends service r (identity service r) then (none, none)
    else ((rotated service r).map TokenPair.session).getD r.jar.session

def Writes : Prop :=
  match r.route with
  | .other _ => service.writes ≠ []
  | _ => True

/-- Nothing was rotated; or the rotated pair is what the browser should hold, and it is held
already, or the middleware goes on to a handler that writes; or a session was created where the
middleware does not. -/
def Delivered : Prop :=
  match rotated service r with
  | none => True
  | some pair =>
    match identity service r, created service r with
    | some _, some other => pair = other
    | some held, none =>
      ends service r (some held) = false ∧ (Writes service r ∨ r.jar.session = pair.session)
    | none, some _ => True
    | none, none => r.jar.session = pair.session

end

section

variable {service : AuthService} {r : Request} {jar : Jar} {header : Header} {pair other : TokenPair}
  {run : Run} {w : Writer} {sender : Option (Nat × Nat)}

/-! ## What is sent -/

theorem sent_perform {one : Write} :
    (w.perform one).sent = w.sent.or (some w.applyCookies.header) := by
  have kept : w.applyCookies.sent = w.sent := by
    unfold Writer.applyCookies
    split
    · rfl
    · split <;> rfl
  rw [Writer.perform, Writer.send, kept]

/-- A header that has been sent is not sent again. -/
theorem sent_foldl {writes : List Write} (isSent : w.sent = some header) :
    (writes.foldl Writer.perform w).sent = some header := by
  induction writes generalizing w with
  | nil => exact isSent
  | cons first rest ih => exact ih (by rw [sent_perform, isSent, some_or])

theorem serve_of_writes (writes : run.writes ≠ []) (turned : Option TokenPair) :
    serve turned run = ((turned.map (addAuthCookies run.cookies)).getD run.cookies) := by
  obtain ⟨first, rest, isRun⟩ := exists_cons_of_ne_nil writes
  rw [serve, isRun, foldl_cons, Writer.send]
  dsimp only
  rw [sent_foldl sent_perform, some_or, getD_some]
  cases turned <;> rfl

theorem serve_of_silent (silent : run.writes = []) (turned : Option TokenPair) :
    serve turned run = run.cookies := by
  rw [serve, silent]
  rfl

theorem serve_none : serve none run = run.cookies := by
  by_cases silent : run.writes = []
  · exact serve_of_silent silent none
  · exact serve_of_writes silent none

/-! ## What the browser makes of it -/

theorem session_addAuthCookies :
    (jar.receive (addAuthCookies header pair)).session = pair.session := by
  simp [Jar.receive, addAuthCookies, Jar.session, TokenPair.session, Function.update]

theorem session_inj (same : pair.session = other.session) : pair = other := by
  obtain ⟨access, refresh⟩ := pair
  cases same
  rfl

/-- The cookies of a handler leave the session that it has decided. -/
theorem session_handle : (jar.receive (handle service sender r.route).cookies).session =
    match created service r with
    | some pair => pair.session
    | none => if ends service r sender then (none, none) else jar.session := by
  unfold created ends
  have oauth : (jar.receive (handleOAuth service)).session =
      match service.oauthCallback with
      | some pair => pair.session
      | none => jar.session := by
    unfold handleOAuth
    cases service.oauthCallback with
    | none => rfl
    | some pair => exact session_addAuthCookies
  cases r.route with
  | googleCallback => exact oauth
  | githubCallback => exact oauth
  | emailAuth => cases isFlow : service.emailAuth <;> simp only [handle, isFlow] <;> rfl
  | emailVerify => cases isPair : service.emailVerify <;> simp only [handle, emailVerify, isPair] <;> rfl
  | emailResend => cases isFlow : service.emailResend <;> simp only [handle, isFlow] <;> rfl
  | signOut =>
    cases sender with
    | none => rfl
    | some held =>
      simp only [handle, signOut]
      split_ifs <;> rfl
  | accountDelete =>
    cases sender with
    | none => rfl
    | some held =>
      simp only [handle, accountDelete]
      split_ifs <;> rfl
  | other path => rfl

/-- A handler that writes nothing decides nothing. -/
theorem of_silent (silent : ¬ Writes service r) :
    created service r = none ∧ ∀ sender, ends service r sender = false := by
  unfold Writes at silent
  unfold created ends
  cases isRoute : r.route with
  | other path => exact ⟨rfl, fun _ => rfl⟩
  | _ => simp [isRoute] at silent

theorem writes_handle : (handle service sender r.route).writes ≠ [] ↔ Writes service r := by
  unfold Writes
  cases r.route <;> simp [handle, reply]

theorem public_of_created (isCreated : created service r = some pair) :
    isPublicPath r.route.path = true := by
  unfold created at isCreated
  cases isRoute : r.route <;> rw [isRoute] at isCreated <;> first | cases isCreated | decide

theorem session_unauthenticated : (r.jar.receive (unauthenticated service r)).session =
    match created service r with
    | some pair => pair.session
    | none => r.jar.session := by
  have noEnd : ends service r none = false := by
    unfold ends
    cases r.route <;> rfl
  unfold unauthenticated
  split_ifs with isPublic
  · rw [serve_none, session_handle, noEnd]
    rfl
  · rw [serve_none]
    cases isCreated : created service r with
    | none => rfl
    | some pair => exact absurd (public_of_created isCreated) isPublic

/-- The middleware goes on exactly with an identity, around the writer if it has rotated. -/
theorem auth_eq : auth service r =
    match identity service r with
    | some held => serve (rotated service r) (handle service (some held) r.route)
    | none => unauthenticated service r := by
  have isPresented : (if getAccessToken r ≠ [] then service.parseAccessToken (getAccessToken r)
      else none) = presented service r := rfl
  have goesOn : ∀ turned claims, proceed service r turned claims =
      match (do
        let userID ← service.uuidParse claims.subject
        let sessionID ← service.uuidParse claims.sessionID
        if service.validateSession sessionID then some (userID, sessionID) else none) with
      | some held => serve turned (handle service (some held) r.route)
      | none => unauthenticated service r := by
    intro turned claims
    unfold proceed
    cases service.uuidParse claims.subject with
    | none => rfl
    | some userID =>
      cases service.uuidParse claims.sessionID with
      | none => rfl
      | some sessionID =>
        simp only [bind_eq_bind, bind_some]
        split_ifs <;> rfl
  unfold auth identity rotated
  dsimp only
  rw [isPresented]
  cases presented service r with
  | some claims => simp [goesOn]
  | none =>
    by_cases noRefresh : getRefreshToken r = []
    · simp [noRefresh]
    · cases service.refreshTokens (getRefreshToken r) with
      | none => simp [noRefresh]
      | some tokens =>
        cases isParsed : service.parseAccessToken tokens.accessToken with
        | none => simp [noRefresh, isParsed]
        | some claims => simp [noRefresh, isParsed, goesOn]

end

/-- The browser holds the session that was decided exactly where no rotated pair is added behind
another decision, and none is lost. -/
theorem browser_holds_iff (service : AuthService) (r : Request) :
    (r.jar.receive (auth service r)).session = decided service r ↔ Delivered service r := by
  rw [auth_eq, decided, Delivered]
  cases sender : identity service r with
  | none =>
    have noEnd : ends service r none = false := by
      unfold ends
      cases r.route <;> rfl
    simp only [session_unauthenticated, noEnd]
    cases rotated service r <;> cases created service r <;> simp
  | some held =>
    cases turned : rotated service r with
    | none =>
      simp only [serve_none, session_handle]
      cases created service r <;> simp
    | some pair =>
      by_cases writes : Writes service r
      · simp only [serve_of_writes (writes_handle.mpr writes), map_some, getD_some,
          session_addAuthCookies, writes, true_or, and_true]
        cases created service r with
        | some other => exact ⟨session_inj, congrArg _⟩
        | none =>
          cases isEnd : ends service r (some held) <;> simp [TokenPair.session, isEnd]
      · have silent : (handle service (some held) r.route).writes = [] := by
          by_contra isRun
          exact writes (writes_handle.mp isRun)
        obtain ⟨noSession, noEnd⟩ := of_silent writes
        simp only [serve_of_silent silent, session_handle, noSession, noEnd, writes, false_or,
          Bool.false_eq_true, if_false, true_and, map_some, getD_some]

/-- A browser whose access token has expired verifies an address: `n` and `m` are the new
session's tokens, `b` and `c` the rotated ones. -/
def verifying : AuthService where
  parseAccessToken token := if token = ['b'] then some ⟨['u'], ['s']⟩ else none
  refreshTokens _ := some ⟨['b'], ['c']⟩
  uuidParse _ := some 0
  validateSession _ := true
  emailAuth := none
  emailVerify := some ⟨['n'], ['m']⟩
  emailResend := none
  oauthCallback := none
  signOut _ _ := true
  deleteAccount _ := true
  writes := []

/-- The session that was created is lost behind the rotated pair. -/
theorem created_session_lost : ¬ ∀ (service : AuthService) (r : Request),
    (r.jar.receive (auth service r)).session = decided service r := by
  intro holds
  have lost := holds verifying ⟨.emailVerify, fun name =>
    match name with
    | .refreshToken => some ['a']
    | _ => none, []⟩
  exact absurd lost (by decide)

end Kuku.Auth.Cookies
