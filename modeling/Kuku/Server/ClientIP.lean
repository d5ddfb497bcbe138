/-
# Server.ClientIP -- the address a request is rate-limited and audited under

`resolveClientIP` reads one line of `X-Forwarded-For`, the first.  A chain of proxies that each
add their peer's address leaves the client's address in the first line only if one of them
writes the header as one line: `client_ip_iff`.
-/
import Kuku.Theory.Chars
import Kuku.Theory.WebUrl

namespace Kuku.Server.Middleware

open Kuku.Theory List Option Chars
open WebUrl (isHexDigit readDigits)

abbrev Str := List Char

/-! ## net/netip -/

/-- An address, one of IPv6 with its zone. -/
inductive Addr where
  | v4 (value : Nat)
  | v6 (value : Nat) (zone : Str)

/-- One of four numbers: up to three digits, no zero in front. -/
def readOctet (label : Str) : Option Nat :=
  if label.length ≤ 3 ∧ (label.head? = some '0' → label = ['0']) then
    (readDigits 10 label).filter (· < 256)
  else none

def parseIPv4 (s : Str) : Option Nat :=
  match (s.splitOn '.').map readOctet with
  | [some a, some b, some c, some d] => some (((a * 256 + b) * 256 + c) * 256 + d)
  | _ => none

/-- Hex fields with a colon between them, at most the given number of them, and where `::`
stood among them. -/
def parseFields : Nat → Str → List Nat → Option Nat → Option (List Nat × Option Nat)
  | 0, s, fields, ellipsis => if s = [] then some (fields, ellipsis) else none
  | n + 1, s, fields, ellipsis =>
    let digits := s.takeWhile isHexDigit
    if 4 < digits.length then none
    else
      match readDigits 16 digits, s.drop digits.length with
      | none, _ => none
      -- the last two fields may be written as an IPv4 address
      | some _, '.' :: _ =>
        if (ellipsis = none ∧ fields.length ≠ 6) ∨ 6 < fields.length then none
        else (parseIPv4 s).map fun v => (fields ++ [v / 65536, v % 65536], ellipsis)
      | some field, [] => some (fields ++ [field], ellipsis)
      | some _, [':'] => none
      | some field, ':' :: ':' :: rest =>
        if ellipsis ≠ none then none
        else if rest = [] then some (fields ++ [field], some (fields.length + 1))
        else parseFields n rest (fields ++ [field]) (some (fields.length + 1))
      | some field, ':' :: rest => parseFields n rest (fields ++ [field]) ellipsis
      | some _, _ => none

/-- `::` stands for at least one field of zeros. -/
def expand : List Nat × Option Nat → Option (List Nat)
  | (fields, none) => if fields.length = 8 then some fields else none
  | (fields, some n) =>
    if fields.length < 8 then
      some (fields.take n ++ List.replicate (8 - fields.length) 0 ++ fields.drop n)
    else none

def parseIPv6 (text : Str) : Option Addr :=
  let s := text.takeWhile (· ≠ '%')
  let zone := (text.dropWhile (· ≠ '%')).drop 1
  if '%' ∈ text ∧ zone = [] then none
  else
    let parsed :=
      match s with
      | [':', ':'] => some ([], some 0)
      | ':' :: ':' :: rest => parseFields 8 rest [] (some 0)
      | _ => parseFields 8 s [] none
    (parsed.bind expand).map fun fields =>
      .v6 (fields.foldl (fun value field => 65536 * value + field) 0) zone

/-- `netip.ParseAddr` -/
def parseAddr (s : Str) : Option Addr :=
  match s.find? fun c => c = '.' || c = ':' || c = '%' with
  | some '.' => (parseIPv4 s).map .v4
  | some ':' => parseIPv6 s
  | _ => none

/-- `netip.Prefix` -/
inductive Prefix where
  | v4 (value : Nat) (bits : Fin 33)
  | v6 (value : Nat) (bits : Fin 129)

/-- `Prefix.Contains`: no address with a zone, and none of the other family. -/
def Prefix.contains : Prefix → Addr → Bool
  | .v4 value bits, .v4 addr => addr >>> (32 - bits.val) = value >>> (32 - bits.val)
  | .v6 value bits, .v6 addr zone =>
    zone = [] ∧ addr >>> (128 - bits.val) = value >>> (128 - bits.val)
  | _, _ => false

/-! ## clientip.go -/

structure Request where
  remoteAddr : Str
  cfConnectingIP : List Str
  xForwardedFor : List Str
  xRealIP : List Str

/-- `Header.Get`: the first line. -/
def headerGet (lines : List Str) : Str := lines.head?.getD []

/-- `net.SplitHostPort`, the host. -/
def splitHostPort (hostport : Str) : Option Str :=
  if ':' ∉ hostport then none
  else
    let i := hostport.length - 1 - hostport.reverse.idxOf ':'
    if hostport.head? = some '[' then
      let close := hostport.idxOf ']'
      if ']' ∉ hostport ∨ close + 1 ≠ i ∨ '[' ∈ hostport.drop 1 ∨
          ']' ∈ hostport.drop (close + 1) then none
      else some ((hostport.take close).drop 1)
    else if ':' ∈ hostport.take i ∨ '[' ∈ hostport ∨ ']' ∈ hostport then none
    else some (hostport.take i)

def remoteAddrIP (remoteAddr : Str) : Str := (splitHostPort remoteAddr).getD remoteAddr

def addrInPrefixes (addr : Option Addr) (prefixes : List Prefix) : Bool :=
  addr.any fun addr => prefixes.any fun range => range.contains addr

/-- What the walk does with one item: the address it returns. -/
def candidate (trusted : List Prefix) (part : Str) : Option Str :=
  let candidate := trim part
  if candidate = [] then none
  else
    match parseAddr candidate with
    | none => none
    | some addr => if addrInPrefixes (some addr) trusted then none else some candidate

/-- The walk, from right to left. -/
def walk (trusted : List Prefix) (xff : Str) : Option Str :=
  (xff.splitOn ',').reverse.findSome? (candidate trusted)

def resolveClientIP (r : Request) (trusted : List Prefix) : Str :=
  let remote := remoteAddrIP r.remoteAddr
  if addrInPrefixes (parseAddr remote) trusted = false then remote
  else
    let cf := trim (headerGet r.cfConnectingIP)
    if cf ≠ [] ∧ (parseAddr cf).isSome then cf
    else
      match walk trusted (headerGet r.xForwardedFor) with
      | some candidate => candidate
      | none =>
        let xri := trim (headerGet r.xRealIP)
        if xri ≠ [] then xri else remote

/-! ## Chains of proxies -/

/-- How a proxy adds its peer's address to the lines it was sent. -/
inductive Adds where
  /-- all items in one line, the peer's last -/
  | oneLine
  /-- a further item of the last line -/
  | lastLine
  /-- a further line -/
  | newLine

/-- A list item: two addresses never share one. -/
def withItem (line peer : Str) : Str := line ++ ',' :: ' ' :: peer

def Adds.add (peer : Str) : Adds → List Str → List Str
  | .oneLine, [] | .lastLine, [] => [peer]
  | .oneLine, first :: rest => [withItem (rest.foldl withItem first) peer]
  | .lastLine, line :: rest =>
    (line :: rest).dropLast ++ [withItem ((line :: rest).getLast (cons_ne_nil _ _)) peer]
  | .newLine, lines => lines ++ [peer]

structure Proxy where
  address : Str
  adds : Adds

/-- An address as a TCP peer's is written. -/
structure IsAddress (text : Str) : Prop where
  parses : (parseAddr text).isSome = true
  noComma : ',' ∉ text
  noSpace : ∀ c ∈ text, Text.isSpace c = false

/-- A client outside the trusted list and the trusted proxies its request goes through; with
`edge` the first of them sets `CF-Connecting-IP`. -/
structure Chain (trusted : List Prefix) where
  client : Str
  proxies : List Proxy
  edge : Bool
  remoteAddr : Str
  isClient : IsAddress client
  outside : addrInPrefixes (parseAddr client) trusted = false
  areProxies : ∀ proxy ∈ proxies, IsAddress proxy.address ∧
    addrInPrefixes (parseAddr proxy.address) trusted = true
  isRemote : remoteAddrIP remoteAddr = (proxies.getLast?.map Proxy.address).getD client

/-- The headers that a client may send. -/
structure Sent where
  xForwardedFor : List Str
  xRealIP : List Str

/-- The lines after every proxy has added its peer. -/
def forwarded : Str → List Proxy → List Str → List Str
  | _, [], lines => lines
  | peer, proxy :: rest, lines => forwarded proxy.address rest (proxy.adds.add peer lines)

def Chain.request {trusted : List Prefix} (chain : Chain trusted) (sent : Sent) : Request where
  remoteAddr := chain.remoteAddr
  cfConnectingIP := if chain.edge then [chain.client] else []
  xForwardedFor := forwarded chain.client chain.proxies sent.xForwardedFor
  xRealIP := sent.xRealIP

/-- Whatever the client sends, the answer is its own address. -/
def Chain.Unspoofed {trusted : List Prefix} (chain : Chain trusted) : Prop :=
  (∀ sent, resolveClientIP (chain.request sent) trusted = chain.client) ∧
    ∀ sent other, resolveClientIP (chain.request sent) trusted =
      resolveClientIP (chain.request other) trusted

/-- What one proxy at least must do for a client not to choose its address. -/
def Chain.Guarded {trusted : List Prefix} (chain : Chain trusted) : Prop :=
  chain.proxies = [] ∨ chain.edge = true ∨ ∃ proxy ∈ chain.proxies, proxy.adds = .oneLine

def StaysAddress (trusted : List Prefix) (r : Request) : Prop :=
  (parseAddr (remoteAddrIP r.remoteAddr)).isSome = true →
    (parseAddr (resolveClientIP r trusted)).isSome = true

/-- No text of `X-Real-IP` is returned that is no address. -/
def RealIPUnread (trusted : List Prefix) (r : Request) : Prop :=
  parseAddr (remoteAddrIP r.remoteAddr) = none ∨
    addrInPrefixes (parseAddr (remoteAddrIP r.remoteAddr)) trusted = false ∨
    (parseAddr (trim (headerGet r.cfConnectingIP))).isSome = true ∨
    (∃ part ∈ (headerGet r.xForwardedFor).splitOn ',', (candidate trusted part).isSome = true) ∨
    trim (headerGet r.xRealIP) = [] ∨
    (parseAddr (trim (headerGet r.xRealIP))).isSome = true

section Items

variable {trusted : List Prefix} {peer line text : Str}

theorem trim_cons_space : trim (' ' :: text) = trim text := by
  have isSpace : Text.isSpace ' ' = true := by decide
  rw [trim, dropWhile_cons_of_pos isSpace]
  rfl

theorem trim_eq_self (solid : ∀ c ∈ text, Text.isSpace c = false) : trim text = text := by
  have start : text.dropWhile Text.isSpace = text := by
    rw [dropWhile_eq_self_iff]
    intro nonempty
    simp [solid _ (getElem_mem nonempty)]
  rw [trim, start, rdropWhile_eq_self_iff]
  intro nonempty
  simp [solid _ (getLast_mem nonempty)]

theorem candidate_cons_space : candidate trusted (' ' :: text) = candidate trusted text := by
  rw [candidate, trim_cons_space]
  rfl

/-- What the walk does with each item of a line. -/
def answers (trusted : List Prefix) (line : Str) : List (Option Str) :=
  (line.splitOn ',').map (candidate trusted)

def lastOf (answers : List (Option Str)) : Option Str := answers.reverse.findSome? id

theorem walk_eq : walk trusted line = lastOf (answers trusted line) := by
  rw [walk, lastOf, answers, ← map_reverse, findSome?_map]
  rfl

theorem lastOf_concat {found : List (Option Str)} {answer : Option Str} :
    lastOf (found ++ [answer]) = answer.or (lastOf found) := by
  rw [lastOf, reverse_append]
  cases answer <;> rfl

theorem answers_cons_space : answers trusted (' ' :: text) = answers trusted text := by
  obtain ⟨first, rest, isSplit⟩ := exists_cons_of_ne_nil (splitOn_ne_nil ',' text)
  have notComma : (' ' == ',') = false := by decide
  rw [answers, answers, splitOn_cons_eq_if_modifyHead, notComma, isSplit]
  simp only [Bool.false_eq_true, if_false, modifyHead_cons, map_cons, candidate_cons_space]

theorem answers_withItem :
    answers trusted (withItem line peer) = answers trusted line ++ answers trusted peer := by
  rw [withItem, answers, splitOn_append_cons_self, map_append]
  exact congrArg _ answers_cons_space

theorem answers_address (isAddress : IsAddress peer) :
    answers trusted peer =
      [if addrInPrefixes (parseAddr peer) trusted then none else some peer] := by
  obtain ⟨addr, parsed⟩ := isSome_iff_exists.mp isAddress.parses
  have nonempty : peer ≠ [] := by
    rintro rfl
    exact absurd isAddress.parses (by decide)
  rw [answers, splitOn_eq_singleton isAddress.noComma, map_singleton, candidate,
    trim_eq_self isAddress.noSpace, if_neg nonempty, parsed]

theorem answers_foldl {lines : List Str} :
    answers trusted (lines.foldl withItem line) =
      answers trusted line ++ lines.flatMap (answers trusted) := by
  induction lines generalizing line with
  | nil => simp
  | cons next rest ih =>
    rw [foldl_cons, ih, answers_withItem, append_assoc, flatMap_cons]

/-- However a proxy adds its peer, it is the last item of all lines. -/
theorem answers_add {adds : Adds} {lines : List Str} :
    (adds.add peer lines).flatMap (answers trusted) =
      lines.flatMap (answers trusted) ++ answers trusted peer := by
  cases adds with
  | newLine => simp [Adds.add]
  | oneLine =>
    cases lines with
    | nil => simp [Adds.add]
    | cons first rest => simp [Adds.add, answers_withItem, answers_foldl]
  | lastLine =>
    cases lines with
    | nil => simp [Adds.add]
    | cons first rest =>
      have parts := dropLast_append_getLast (cons_ne_nil first rest)
      conv_rhs => rw [← parts]
      simp only [Adds.add, flatMap_append, flatMap_singleton, answers_withItem, append_assoc]

end Items

section Proxies

variable {trusted : List Prefix} {client peer : Str} {proxies : List Proxy} {lines : List Str}

/-- The client is the last item outside the list, of all lines. -/
def Last (trusted : List Prefix) (client : Str) (lines : List Str) : Prop :=
  lastOf (lines.flatMap (answers trusted)) = some client

theorem last_add {adds : Adds} (isLast : Last trusted client lines) (isPeer : IsAddress peer)
    (isTrusted : addrInPrefixes (parseAddr peer) trusted = true) :
    Last trusted client (adds.add peer lines) := by
  rw [Last, answers_add, answers_address isPeer, if_pos isTrusted, lastOf_concat]
  exact isLast

theorem last_add_client {adds : Adds} (isClient : IsAddress client)
    (outside : addrInPrefixes (parseAddr client) trusted = false) :
    Last trusted client (adds.add client lines) := by
  rw [Last, answers_add, answers_address isClient, outside, lastOf_concat]
  rfl

/-- One line holds all items, so the walk finds the last of them. -/
theorem walk_oneLine (isLast : Last trusted client (Adds.oneLine.add peer lines)) :
    walk trusted (headerGet (Adds.oneLine.add peer lines)) = some client := by
  cases lines <;> simpa [Last, walk_eq, headerGet, Adds.add] using isLast

theorem walk_add {adds : Adds} (isLast : Last trusted client (adds.add peer lines))
    (found : walk trusted (headerGet lines) = some client) (isPeer : IsAddress peer)
    (isTrusted : addrInPrefixes (parseAddr peer) trusted = true) :
    walk trusted (headerGet (adds.add peer lines)) = some client := by
  cases lines with
  | nil => exact absurd found (by simp [headerGet, walk, candidate, trim])
  | cons first rest =>
    cases adds with
    | oneLine => exact walk_oneLine isLast
    | newLine => exact found
    | lastLine =>
      cases rest with
      | cons second rest => exact found
      | nil =>
        refine Eq.trans ?_ found
        simp only [headerGet, Adds.add, dropLast_singleton, getLast_singleton,
          nil_append, head?_cons, getD_some, walk_eq, answers_withItem,
          answers_address isPeer, if_pos isTrusted, lastOf_concat, none_or]

/-- The proxies after the one that saw the client. -/
theorem walk_forwarded (isPeer : IsAddress peer)
    (isTrusted : addrInPrefixes (parseAddr peer) trusted = true)
    (areProxies : ∀ proxy ∈ proxies, IsAddress proxy.address ∧
      addrInPrefixes (parseAddr proxy.address) trusted = true)
    (isLast : Last trusted client lines)
    (finds : walk trusted (headerGet lines) = some client ∨
      ∃ proxy ∈ proxies, proxy.adds = .oneLine) :
    walk trusted (headerGet (forwarded peer proxies lines)) = some client := by
  induction proxies generalizing peer lines with
  | nil => simpa [forwarded] using finds
  | cons proxy rest ih =>
    obtain ⟨isProxy, proxyTrusted⟩ := areProxies proxy mem_cons_self
    have lastAfter : Last trusted client (proxy.adds.add peer lines) :=
      last_add isLast isPeer isTrusted
    refine ih isProxy proxyTrusted (fun other among =>
      areProxies other (mem_cons_of_mem _ among)) lastAfter ?_
    rcases finds with found | ⟨other, among, isOneLine⟩
    · exact .inl (walk_add lastAfter found isPeer isTrusted)
    · rcases mem_cons.mp among with rfl | among
      · left
        rw [isOneLine] at lastAfter ⊢
        exact walk_oneLine lastAfter
      · exact .inr ⟨other, among, isOneLine⟩

/-- Two lines of the client's stay two where no proxy writes one line. -/
theorem headerGet_forwarded {first second : Str} (apart : ∀ proxy ∈ proxies, proxy.adds ≠ .oneLine) :
    headerGet (forwarded peer proxies (first :: second :: lines)) = first := by
  induction proxies generalizing peer second lines with
  | nil => rfl
  | cons proxy rest ih =>
    have apartRest := fun other among => apart other (mem_cons_of_mem proxy among)
    rw [forwarded]
    cases adds : proxy.adds with
    | oneLine => exact absurd adds (apart proxy mem_cons_self)
    | newLine => exact ih apartRest
    | lastLine =>
      cases lines with
      | nil => exact ih apartRest
      | cons third lines => exact ih apartRest

end Proxies

section Request

variable {trusted : List Prefix} {chain : Chain trusted} {r : Request}

/-- The proxy at the end is a trusted peer. -/
theorem Chain.remote_trusted (through : chain.proxies ≠ []) :
    addrInPrefixes (parseAddr (remoteAddrIP chain.remoteAddr)) trusted = true := by
  rw [chain.isRemote, getLast?_eq_some_getLast through]
  exact (chain.areProxies _ (getLast_mem through)).2

theorem resolve_of_untrusted
    (isUntrusted : addrInPrefixes (parseAddr (remoteAddrIP r.remoteAddr)) trusted = false) :
    resolveClientIP r trusted = remoteAddrIP r.remoteAddr := by
  rw [resolveClientIP, if_pos isUntrusted]

theorem resolve_of_walk {found : Str}
    (isTrusted : addrInPrefixes (parseAddr (remoteAddrIP r.remoteAddr)) trusted = true)
    (absent : r.cfConnectingIP = [])
    (walked : walk trusted (headerGet r.xForwardedFor) = some found) :
    resolveClientIP r trusted = found := by
  have noText : trim (headerGet r.cfConnectingIP) = [] := by
    rw [absent]
    rfl
  simp only [resolveClientIP, isTrusted, Bool.true_eq_false, if_false, noText, ne_eq,
    not_true_eq_false, false_and, walked]

theorem Chain.resolve_of_guarded (guarded : chain.Guarded) (sent : Sent) :
    resolveClientIP (chain.request sent) trusted = chain.client := by
  by_cases direct : chain.proxies = []
  · have isRemote : remoteAddrIP chain.remoteAddr = chain.client := by
      rw [chain.isRemote, direct]
      rfl
    refine (resolve_of_untrusted ?_).trans isRemote
    exact isRemote ▸ chain.outside
  · have isTrusted := chain.remote_trusted direct
    by_cases edge : chain.edge = true
    · have isText : trim (headerGet (chain.request sent).cfConnectingIP) = chain.client := by
        simp only [Chain.request, edge, if_true, headerGet, head?_cons, getD_some]
        exact trim_eq_self chain.isClient.noSpace
      have nonempty : chain.client ≠ [] := by
        intro isEmpty
        exact absurd (isEmpty ▸ chain.isClient.parses) (by decide)
      have isRemote : (chain.request sent).remoteAddr = chain.remoteAddr := rfl
      simp only [resolveClientIP, isRemote, isTrusted, Bool.true_eq_false, if_false, isText,
        ne_eq, nonempty, not_false_eq_true, chain.isClient.parses, and_self, if_true]
    · obtain ⟨proxy, among, isOneLine⟩ := (guarded.resolve_left direct).resolve_left edge
      refine resolve_of_walk isTrusted (by simp [Chain.request, edge]) ?_
      obtain ⟨first, rest, isChain⟩ := exists_cons_of_ne_nil direct
      have areProxies := chain.areProxies
      simp only [Chain.request]
      rw [isChain] at among areProxies ⊢
      rw [forwarded]
      obtain ⟨isProxy, proxyTrusted⟩ := areProxies first mem_cons_self
      have isLast : Last trusted chain.client (first.adds.add chain.client sent.xForwardedFor) :=
        last_add_client chain.isClient chain.outside
      refine walk_forwarded isProxy proxyTrusted (fun other later =>
        areProxies other (mem_cons_of_mem _ later)) isLast ?_
      rcases mem_cons.mp among with rfl | later
      · left
        rw [isOneLine] at isLast ⊢
        exact walk_oneLine isLast
      · exact .inr ⟨proxy, later, isOneLine⟩

/-- Two lines and an `X-Real-IP` that are no address. -/
def noAddress : Sent := ⟨[['x'], ['x']], [['x']]⟩

theorem Chain.resolve_noAddress (unguarded : ¬ chain.Guarded) :
    resolveClientIP (chain.request noAddress) trusted = ['x'] := by
  simp only [Chain.Guarded, not_or, not_exists, not_and] at unguarded
  obtain ⟨through, noEdge, apart⟩ := unguarded
  have isTrusted := chain.remote_trusted through
  have isRemote : (chain.request noAddress).remoteAddr = chain.remoteAddr := rfl
  have noText : trim (headerGet (chain.request noAddress).cfConnectingIP) = [] := by
    simp only [Chain.request, noEdge, Bool.false_eq_true, if_false]
    rfl
  have isFirst : headerGet (chain.request noAddress).xForwardedFor = ['x'] :=
    headerGet_forwarded apart
  have notWalked : walk trusted ['x'] = none := by
    have noItem : candidate trusted ['x'] = none := by
      have isText : trim ['x'] = ['x'] := by decide
      have noAddr : parseAddr ['x'] = none := by decide
      simp only [candidate, isText, noAddr, cons_ne_nil, if_false]
    have isSplit : ['x'].splitOn ',' = [['x']] := by decide
    rw [walk, isSplit]
    simp only [reverse_singleton, findSome?_singleton, noItem]
  have isReal : trim (headerGet (chain.request noAddress).xRealIP) = ['x'] :=
    (by decide : trim (headerGet [['x']]) = ['x'])
  simp only [resolveClientIP, isRemote, isTrusted, Bool.true_eq_false, if_false, noText, ne_eq,
    not_true_eq_false, false_and, isFirst, notWalked, isReal, cons_ne_nil,
    not_false_eq_true, if_true]

theorem Chain.unspoofed_iff : chain.Unspoofed ↔ chain.Guarded := by
  constructor
  · intro unspoofed
    by_contra unguarded
    have isClient := (chain.resolve_noAddress unguarded).symm.trans (unspoofed.1 noAddress)
    exact absurd (isClient ▸ chain.isClient.parses) (by decide)
  · intro guarded
    refine ⟨chain.resolve_of_guarded guarded, fun sent other => ?_⟩
    rw [chain.resolve_of_guarded guarded, chain.resolve_of_guarded guarded]

theorem parses_of_walk {line found : Str} (walked : walk trusted line = some found) :
    (parseAddr found).isSome = true := by
  obtain ⟨part, -, isFound⟩ := exists_of_findSome?_eq_some walked
  unfold candidate at isFound
  dsimp only at isFound
  split at isFound
  · cases isFound
  · split at isFound
    · cases isFound
    · rename_i addr parsed
      split at isFound <;> cases isFound
      simp [parsed]

theorem walk_isSome_iff {line : Str} : (walk trusted line).isSome = true ↔
    ∃ part ∈ line.splitOn ',', (candidate trusted part).isSome = true := by
  simp [walk, findSome?_isSome_iff]

theorem staysAddress_iff : StaysAddress trusted r ↔ RealIPUnread trusted r := by
  by_cases isUntrusted : addrInPrefixes (parseAddr (remoteAddrIP r.remoteAddr)) trusted = false
  · simp [StaysAddress, RealIPUnread, resolve_of_untrusted isUntrusted, isUntrusted]
  · have isTrusted := eq_true_of_ne_false isUntrusted
    have isAddr : (parseAddr (remoteAddrIP r.remoteAddr)).isSome = true := isSome_of_any isTrusted
    have notNone : parseAddr (remoteAddrIP r.remoteAddr) ≠ none := isSome_iff_ne_none.mp isAddr
    have noText : parseAddr [] = none := by decide
    simp only [StaysAddress, RealIPUnread, isAddr, forall_const, notNone, isTrusted,
      Bool.true_eq_false, false_or, ← walk_isSome_iff, resolveClientIP, if_false]
    generalize trim (headerGet r.cfConnectingIP) = cf
    generalize trim (headerGet r.xRealIP) = xri
    by_cases isCf : (parseAddr cf).isSome = true
    · have nonempty : cf ≠ [] := by
        rintro rfl
        simp [noText] at isCf
      simp [isCf, nonempty]
    · cases walked : walk trusted (headerGet r.xForwardedFor) with
      | some found => simp [isCf, parses_of_walk walked]
      | none => by_cases isEmpty : xri = [] <;> simp [isCf, isEmpty, isAddr]

end Request

/-- A client does not choose its address exactly where a proxy writes one line or the edge says
who it is; the answer is an address unless `X-Real-IP` is returned and is none. -/
theorem client_ip_iff (trusted : List Prefix) :
    (∀ chain : Chain trusted, chain.Unspoofed ↔ chain.Guarded) ∧
      (∀ r, addrInPrefixes (parseAddr (remoteAddrIP r.remoteAddr)) trusted = true ∨
        resolveClientIP r trusted = remoteAddrIP r.remoteAddr) ∧
      ∀ r, StaysAddress trusted r ↔ RealIPUnread trusted r := by
  refine ⟨fun chain => chain.unspoofed_iff, fun r => ?_, fun r => staysAddress_iff⟩
  cases isTrusted : addrInPrefixes (parseAddr (remoteAddrIP r.remoteAddr)) trusted with
  | true => exact .inl rfl
  | false => exact .inr (resolve_of_untrusted isTrusted)

/-- 10/8 is trusted, and its proxy adds a line. -/
def lineAdded : Chain [.v4 (10 * 2 ^ 24) 8] where
  client := "198.51.100.7".toList
  proxies := [⟨"10.0.0.5".toList, .newLine⟩]
  edge := false
  remoteAddr := "10.0.0.5:8080".toList
  isClient := ⟨by decide +kernel, by decide,
    @of_decide_eq_true _ (List.decidableBAll _ _) (by decide +kernel)⟩
  outside := by decide +kernel
  areProxies := by
    intro proxy among
    rw [mem_singleton.mp among]
    exact ⟨⟨by decide +kernel, by decide,
      @of_decide_eq_true _ (List.decidableBAll _ _) (by decide +kernel)⟩, by decide +kernel⟩
  isRemote := by decide +kernel

/-- The line that the client has sent is read, not the proxy's. -/
theorem spoofed_line : ¬ ∀ (trusted : List Prefix) (chain : Chain trusted), chain.Unspoofed := by
  intro unspoofed
  have answer := (unspoofed _ lineAdded).1 ⟨["9.9.9.9".toList], []⟩
  exact absurd answer (by decide +kernel)

end Kuku.Server.Middleware
