/-
# Ai.Endpoint -- the endpoint policy of the settings page and of the provider

The settings page judges a base URL with `endpointPolicyFor`, the provider with `parse_endpoint`;
both look at the URL that a parser of the standard makes of the trimmed text.  They differ in
what they trim, in an empty query or fragment, and in hosts that end in several dots or that
`Number` reads as an address.  `same_policy_iff` says for which texts that matters.
-/
import Kuku.Ai.Types
import Kuku.Markdown.Types
import Kuku.Theory.Segments
import Kuku.Theory.WebUrl

namespace Kuku.Ai

open Kuku.Theory WebUrl List Option Chars

/-- A parser of the URL standard, and how an IPv6 address is written by it and by `Display` and
read by `FromStr`. -/
structure UrlLibrary where
  parse : Str → Except Str Url
  setPath : Url → Str → Url
  toText : Url → Str
  serializeV6 : BitVec 128 → Str
  serializeV6_plain : ∀ a, ∀ c ∈ serializeV6 a, c = ':' ∨ isLowerHexDigit c
  serializeV6_loopback : ∀ a, serializeV6 a = "::1".toList ↔ a = 1
  displayV6 : BitVec 128 → Str
  displayV6_plain : ∀ a, ∀ c ∈ displayV6 a, c = ':' ∨ c = '.' ∨ isLowerHexDigit c
  displayV6_colon : ∀ a, ':' ∈ displayV6 a
  displayV6_last : ∀ a, (displayV6 a).getLast? ≠ some '.'
  parseV6 : Str → Option (BitVec 128)
  parseV6_display : ∀ a, parseV6 (displayV6 a) = some a
  parseV6_colon : ∀ text a, parseV6 text = some a → ':' ∈ text

inductive KeyRequirement where
  | required
  | optional
  deriving DecidableEq

def displayV4 (address : Ipv4) : Str :=
  join ['.'] [Nat.toDigits 10 address.a, Nat.toDigits 10 address.b,
    Nat.toDigits 10 address.c, Nat.toDigits 10 address.d]

def lowerCase (text : Str) : Str := text.map Text.asciiLowerChar

/-! ## config.ts -/

structure EndpointPolicy where
  requirement : KeyRequirement
  accepted : Bool

/-- `replace` of a character at the end. -/
def dropEnd (c : Char) (text : Str) : Str :=
  if text.getLast? = some c then text.dropLast else text

def dropStart (c : Char) (text : Str) : Str := if text.head? = some c then text.tail else text

/-- 10/8, 127/8, 172.16/12 and 192.168/16. -/
def isLocalNet (a b : Nat) : Bool :=
  a = 10 || a = 127 || (a = 172 && 16 ≤ b && b ≤ 31) || (a = 192 && b = 168)

def requirementForHostname (hostname : Str) : KeyRequirement :=
  let normalized := lowerCase (dropEnd '.' (dropEnd ']' (dropStart '[' hostname)))
  if normalized = "localhost".toList ∨ ".local".toList <:+ normalized ∨
      ".ts.net".toList <:+ normalized ∨ normalized = "::1".toList then .optional
  else
    match (normalized.splitOn '.').map octet with
    | [some a, some b, some _, some _] => if isLocalNet a b then .optional else .required
    | _ => .required

section Library

variable (lib : UrlLibrary)

def hostname (url : Url) : Str :=
  match url.host with
  | none => []
  | some (.domain name) => name.text
  | some (.ipv4 address) => displayV4 address
  | some (.ipv6 address) => '[' :: lib.serializeV6 address ++ [']']
  | some (.other text) => text

def endpointPolicyFor (baseUrl : Str) (keyPresent : Bool) : EndpointPolicy :=
  match lib.parse (Markdown.trim baseUrl) with
  | .error _ => ⟨.required, false⟩
  | .ok url =>
    let requirement := requirementForHostname (hostname lib url)
    let validScheme := url.scheme = "http".toList || url.scheme = "https".toList
    -- `search` and `hash` are empty for an empty query and fragment
    let hasForbiddenParts := url.username ≠ [] || url.password ≠ [] ||
      (url.query.getD [] ≠ []) || (url.fragment.getD [] ≠ [])
    let accepted := validScheme && !hasForbiddenParts && (hostname lib url ≠ []) &&
      (url.scheme = "https".toList || (!keyPresent && requirement = .optional))
    ⟨requirement, accepted⟩

/-! ## openai.rs -/

structure Endpoint where
  base : Str
  requirement : KeyRequirement

def normalizeApiKey (apiKey : Option Str) : Option Str :=
  (apiKey.map trim).filter fun key => key ≠ []

/-- A number of an IPv4 address: up to three digits, no zero in front. -/
def readByte (label : Str) : Option (Fin 256) :=
  if label.length ≤ 3 ∧ (label.head? = some '0' → label = ['0']) then
    (readDigits 10 label).bind fun n => if h : n < 256 then some ⟨n, h⟩ else none
  else none

/-- `Ipv4Addr::from_str` -/
def parseV4 (text : Str) : Option Ipv4 :=
  match (text.splitOn '.').map readByte with
  | [some a, some b, some c, some d] => some ⟨a, b, c, d⟩
  | _ => none

def trimEnd (c : Char) (text : Str) : Str := text.rdropWhile (· = c)

def keyRequirement (host : Str) : KeyRequirement :=
  let normalized := lowerCase (trimEnd '.' (trimEnd ']' (host.dropWhile (· = '['))))
  if normalized = "localhost".toList ∨ ".local".toList <:+ normalized ∨
      ".ts.net".toList <:+ normalized then .optional
  else
    match parseV4 normalized with
    | some address => if isLocalNet address.a address.b then .optional else .required
    | none =>
      match lib.parseV6 normalized with
      | some address => if address = 1 then .optional else .required
      | none => .required

/-- `Host::to_string` -/
def hostText : Host → Str
  | .domain name => name.text
  | .ipv4 address => displayV4 address
  | .ipv6 address => lib.displayV6 address
  | .other text => text

def parseEndpoint (baseUrl : Str) (keyPresent : Bool) : Except AiError Endpoint :=
  match lib.parse (trim baseUrl) with
  | .error error => .error (.invalidArguments ("invalid OpenAI base URL: ".toList ++ error))
  | .ok url =>
    if ¬ (url.scheme = "http".toList ∨ url.scheme = "https".toList) then
      .error (.invalidArguments "OpenAI base URL must use http or https".toList)
    -- without a password the getter is `None`
    else if url.username ≠ [] ∨ url.password ≠ [] then
      .error (.invalidArguments "OpenAI base URL must not contain userinfo".toList)
    else if url.query ≠ none ∨ url.fragment ≠ none then
      .error (.invalidArguments "OpenAI base URL must not contain a query or fragment".toList)
    else
      match url.host with
      | none => .error (.invalidArguments "OpenAI base URL must contain a host".toList)
      | some host =>
        let requirement := keyRequirement lib (hostText lib host)
        if url.scheme ≠ "https".toList ∧ (keyPresent ∨ requirement = .required) then
          .error (.invalidArguments ("OpenAI base URL must use https when a key is present " ++
            "or the host requires a key").toList)
        else
          let path := trimEnd '/' url.path
          let url := lib.setPath url (if path = [] then "/v1".toList else path)
          .ok ⟨trimEnd '/' (lib.toText url), requirement⟩

end Library

/-! ## What is local -/

/-- `localhost`, and names under `.local` and `.ts.net`. -/
def IsLocalName (name : Str) : Prop :=
  name = "localhost".toList ∨ ".local".toList <:+ name ∨ ".ts.net".toList <:+ name

/-- `Number` reads four labels as a local address. -/
def ReadsAsLocal (name : Str) : Prop :=
  ∃ a b c d, (name.splitOn '.').map octet = [some a, some b, some c, some d] ∧ isLocalNet a b

def ParsesAsLocal (name : Str) : Prop :=
  ∃ address, parseV4 name = some address ∧ isLocalNet address.a address.b

instance {name : Str} : Decidable (IsLocalName name) := inferInstanceAs (Decidable (_ ∨ _ ∨ _))

/-- Loopback, private, `.local` or `.ts.net`, where a domain may end in a dot. -/
def IsLocal : Host → Prop
  | .domain name => IsLocalName (dropEnd '.' name.text)
  | .ipv4 address => isLocalNet address.a address.b
  | .ipv6 address => address = 1
  | .other _ => False

def PageLocal : Host → Prop
  | .domain name => IsLocalName (dropEnd '.' name.text) ∨ ReadsAsLocal (dropEnd '.' name.text)
  | host => IsLocal host

/-- What the provider takes to be local. -/
def ProviderLocal : Host → Prop
  | .domain name => IsLocalName (trimEnd '.' name.text) ∨ ParsesAsLocal (trimEnd '.' name.text)
  | host => IsLocal host

section Names

variable {c : Char} {text name : Str}

theorem dropEnd_of_not_mem (absent : c ∉ text) : dropEnd c text = text := by
  rw [dropEnd, if_neg]
  intro isLast
  exact absent (mem_of_getLast? isLast)

theorem dropStart_of_not_mem (absent : c ∉ text) : dropStart c text = text := by
  rw [dropStart, if_neg]
  intro isFirst
  exact absent (mem_of_head? isFirst)

theorem trimEnd_of_last (other : text.getLast? ≠ some c) : trimEnd c text = text := by
  unfold trimEnd
  rw [rdropWhile_eq_self_iff]
  intro nonempty isLast
  refine other ?_
  rw [getLast?_eq_some_getLast nonempty, of_decide_eq_true isLast]

theorem trimEnd_of_not_mem (absent : c ∉ text) : trimEnd c text = text :=
  trimEnd_of_last fun isLast => absent (mem_of_getLast? isLast)

theorem dropWhile_of_not_mem (absent : c ∉ text) : text.dropWhile (· = c) = text := by
  rw [dropWhile_eq_self_iff]
  intro nonempty isFirst
  exact absent (of_decide_eq_true isFirst ▸ getElem_mem _)

theorem lowerCase_of_lower (lower : ∀ c ∈ text, c.isUpper = false) : lowerCase text = text := by
  unfold lowerCase
  conv_rhs => rw [← map_id text]
  refine map_congr_left fun c among => ?_
  have isLower := lower c among
  rw [Text.asciiLowerChar, if_neg, id]
  simp only [Char.isUpper, decide_eq_false_iff_not] at isLower
  exact isLower

theorem IsLocalName.letter (isName : IsLocalName name) : 'l' ∈ name ∨ 't' ∈ name := by
  rcases isName with rfl | isLocal | isNet
  · exact .inl (by decide)
  · exact .inl (isLocal.subset (by decide))
  · exact .inr (isNet.subset (by decide))

theorem not_localName (none : ∀ c ∈ name, c = ':' ∨ c = '.' ∨ isLowerHexDigit c) :
    ¬ IsLocalName name := by
  intro isName
  rcases isName.letter with among | among
  · exact absurd (none _ among) (by decide)
  · exact absurd (none _ among) (by decide)

end Names

/-! ## Written addresses -/

section Addresses

variable {address : Ipv4} {c : Char}

theorem digits_of_byte (n : Fin 256) : ∀ c ∈ Nat.toDigits 10 n, c.isDigit = true :=
  fun _ => Nat.isDigit_of_mem_toDigits (by decide) (by decide)

theorem readByte_toDigits : ∀ n : Fin 256, readByte (Nat.toDigits 10 n) = some n :=
  @of_decide_eq_true _ (Nat.decidableForallFin _) (by decide +kernel)

theorem splitOn_displayV4 : (displayV4 address).splitOn '.' =
    [Nat.toDigits 10 address.a, Nat.toDigits 10 address.b, Nat.toDigits 10 address.c,
      Nat.toDigits 10 address.d] := by
  refine splitOn_intercalate '.' ?_ (cons_ne_nil _ _)
  have clean : ∀ n : Fin 256, '.' ∉ Nat.toDigits 10 n := fun n among =>
    absurd (digits_of_byte n _ among) (by decide)
  simp only [mem_cons, not_mem_nil, or_false]
  rintro label (rfl | rfl | rfl | rfl) <;> exact clean _

theorem displayV4_plain (among : c ∈ displayV4 address) : c = '.' ∨ c.isDigit = true := by
  rcases Segments.mem_intercalate among with isDot | ⟨label, isLabel, inLabel⟩
  · exact .inl isDot
  · simp only [mem_cons, not_mem_nil, or_false] at isLabel
    rcases isLabel with rfl | rfl | rfl | rfl <;> exact .inr (digits_of_byte _ c inLabel)

theorem toDigits_ne_nil : ∀ n : Fin 256, Nat.toDigits 10 n ≠ [] := by
  decide +kernel

theorem displayV4_last : (displayV4 address).getLast? ≠ some '.' := by
  have isJoined : displayV4 address = ['.'].intercalate ([Nat.toDigits 10 address.a,
      Nat.toDigits 10 address.b, Nat.toDigits 10 address.c] ++ [Nat.toDigits 10 address.d]) := rfl
  have isLast : (displayV4 address).getLast? = (Nat.toDigits 10 address.d).getLast? := by
    rw [isJoined]
    exact Segments.getLast?_intercalate (toDigits_ne_nil address.d)
  rw [isLast]
  intro isDot
  exact absurd (digits_of_byte _ _ (mem_of_getLast? isDot)) (by decide)

theorem parseV4_displayV4 : parseV4 (displayV4 address) = some address := by
  rw [parseV4, splitOn_displayV4]
  simp only [map_cons, map_nil, readByte_toDigits]

theorem digits_of_readByte {label : Str} {n : Fin 256} (read : readByte label = some n) :
    label ≠ [] ∧ ∀ c ∈ label, c.isDigit = true := by
  unfold readByte readDigits at read
  split at read
  · split at read
    · rename_i digits
      refine ⟨digits.1, fun c among => ?_⟩
      have isDigit := all_eq_true.mp digits.2 c among
      simp only [isHexDigit, digitValue, Bool.and_eq_true, decide_eq_true_eq] at isDigit
      by_contra other
      rw [if_neg other] at isDigit
      split at isDigit <;> omega
    · cases read
  · cases read

theorem splitOn_of_parseV4 {text : Str} (parsed : parseV4 text = some address) :
    ∃ labels, text.splitOn '.' = labels ∧ labels.length = 4 ∧
      ∀ label ∈ labels, label ≠ [] ∧ ∀ c ∈ label, c.isDigit = true := by
  refine ⟨_, rfl, ?_⟩
  unfold parseV4 at parsed
  split at parsed
  · rename_i a b c d isBytes
    refine ⟨by simpa using congrArg List.length isBytes, fun label among => ?_⟩
    have isRead : readByte label ∈ (text.splitOn '.').map readByte := mem_map_of_mem among
    rw [isBytes] at isRead
    simp only [mem_cons, not_mem_nil, or_false] at isRead
    rcases isRead with read | read | read | read <;> exact digits_of_readByte read
  · cases parsed

theorem parseV4_plain {text : Str} (parsed : parseV4 text = some address) (among : c ∈ text) :
    c = '.' ∨ c.isDigit = true := by
  obtain ⟨labels, isSplit, -, digits⟩ := splitOn_of_parseV4 parsed
  have isText : ['.'].intercalate labels = text := by
    rw [← isSplit]
    exact intercalate_splitOn '.'
  rw [← isText] at among
  rcases Segments.mem_intercalate among with isDot | ⟨label, isLabel, inLabel⟩
  · exact .inl isDot
  · exact .inr ((digits label isLabel).2 c inLabel)

end Addresses

/-! ## What the two sides read in a host -/

section Hosts

variable (lib : UrlLibrary) {url : Url} {host : Host} {name : Str}

theorem requirement_optional_iff :
    (match (name.splitOn '.').map octet with
      | [some a, some b, some _, some _] =>
        if isLocalNet a b then KeyRequirement.optional else .required
      | _ => .required) = .optional ↔ ReadsAsLocal name := by
  unfold ReadsAsLocal
  split
  · rename_i a b c d isOctets
    rw [isOctets]
    constructor
    · intro isOptional
      split at isOptional
      · rename_i isNet
        exact ⟨a, b, c, d, rfl, isNet⟩
      · cases isOptional
    · rintro ⟨_, _, _, _, same, isNet⟩
      cases same
      exact if_pos isNet
  · rename_i other
    refine iff_of_false nofun ?_
    rintro ⟨a, b, c, d, same, -⟩
    exact other a b c d same

theorem domain_brackets (name : Domain) : '[' ∉ name.text ∧ ']' ∉ name.text ∧ ':' ∉ name.text := by
  refine ⟨fun among => ?_, fun among => ?_, fun among => ?_⟩ <;>
    exact absurd (name.allowed _ among) (by decide)

theorem domain_lower (name : Domain) : ∀ c ∈ name.text, c.isUpper = false := by
  intro c among
  have allowed := name.allowed c among
  simp only [isDomainChar, Bool.and_eq_true, Bool.not_eq_true'] at allowed
  exact allowed.1.2

variable {c : Char}

theorem dropEnd_subset (text : Str) : dropEnd c text ⊆ text := by
  unfold dropEnd
  split
  · exact dropLast_subset text
  · exact fun _ among => among

theorem trimEnd_subset (text : Str) : trimEnd c text ⊆ text := (List.rdropWhile_prefix _ _).subset

/-- `requirementForHostname`, by the text it reduces the host to. -/
theorem requirementForHostname_iff {hostname : Str}
    (isName : lowerCase (dropEnd '.' (dropEnd ']' (dropStart '[' hostname))) = name) :
    requirementForHostname hostname = .optional ↔
      IsLocalName name ∨ name = "::1".toList ∨ ReadsAsLocal name := by
  unfold requirementForHostname
  rw [isName]
  dsimp only
  rw [← requirement_optional_iff]
  split
  · rename_i isLocal
    refine iff_of_true rfl ?_
    rcases isLocal with isHost | isLocal | isNet | isLoopback
    · exact .inl (.inl isHost)
    · exact .inl (.inr (.inl isLocal))
    · exact .inl (.inr (.inr isNet))
    · exact .inr (.inl isLoopback)
  · rename_i other
    constructor
    · exact fun read => .inr (.inr read)
    · rintro ((isHost | isLocal | isNet) | isLoopback | read)
      · exact absurd (.inl isHost) other
      · exact absurd (.inr (.inl isLocal)) other
      · exact absurd (.inr (.inr (.inl isNet))) other
      · exact absurd (.inr (.inr (.inr isLoopback))) other
      · exact read

theorem keyRequirement_iff {host : Str}
    (isName : lowerCase (trimEnd '.' (trimEnd ']' (host.dropWhile (· = '[')))) = name) :
    keyRequirement lib host = .optional ↔ IsLocalName name ∨ ParsesAsLocal name ∨
      (parseV4 name = none ∧ lib.parseV6 name = some 1) := by
  unfold keyRequirement ParsesAsLocal
  rw [isName]
  dsimp only
  split
  · rename_i isLocal
    exact iff_of_true rfl (.inl isLocal)
  · rename_i other
    rw [or_iff_right (show ¬ IsLocalName name from other)]
    cases isV4 : parseV4 name with
    | some address =>
      dsimp only
      split
      · rename_i isNet
        exact iff_of_true rfl (.inl ⟨address, rfl, isNet⟩)
      · rename_i notNet
        refine iff_of_false nofun ?_
        rintro (⟨_, same, isNet⟩ | ⟨none, -⟩)
        · cases same
          exact notNet isNet
        · cases none
    | none =>
      dsimp only
      cases isV6 : lib.parseV6 name with
      | none => exact iff_of_false nofun (by simp)
      | some address =>
        dsimp only
        split
        · rename_i isLoopback
          exact iff_of_true rfl (.inr ⟨rfl, by rw [isLoopback]⟩)
        · rename_i notLoopback
          refine iff_of_false nofun ?_
          rintro (⟨_, none, -⟩ | ⟨-, same⟩)
          · cases none
          · exact notLoopback (Option.some.inj same)

theorem readsAsLocal_displayV4 {address : Ipv4} :
    ReadsAsLocal (displayV4 address) ↔ isLocalNet address.a address.b := by
  unfold ReadsAsLocal
  rw [splitOn_displayV4]
  simp only [map_cons, map_nil, octet_toDigits]
  constructor
  · rintro ⟨_, _, _, _, same, isNet⟩
    cases same
    exact isNet
  · exact fun isNet => ⟨_, _, _, _, rfl, isNet⟩

theorem digit_lower (isDigit : c.isDigit = true) : c.isUpper = false := by
  simp only [Char.isDigit, Char.isUpper, Bool.and_eq_true, decide_eq_true_eq,
    decide_eq_false_iff_not, not_and] at isDigit ⊢
  intro least
  have tooMuch : 'A'.val ≤ '9'.val := UInt32.le_trans least isDigit.2
  exact absurd tooMuch (by decide)

theorem lowerHex_lower (isHex : isLowerHexDigit c = true) : c.isUpper = false := by
  unfold isLowerHexDigit at isHex
  rcases Bool.or_eq_true_iff.mp isHex with isDigit | isLetter
  · exact digit_lower isDigit
  · simp only [Bool.and_eq_true, decide_eq_true_eq] at isLetter
    simp only [Char.isUpper, decide_eq_false_iff_not, not_and]
    intro _ most
    have tooMuch : 'a'.val ≤ 'Z'.val := UInt32.le_trans isLetter.1 most
    exact absurd tooMuch (by decide)

/-- **What the settings page takes to be local.** -/
theorem page_optional_iff (isHost : url.host = some host) (net : host.IsNetwork) :
    requirementForHostname (hostname lib url) = .optional ↔ PageLocal host := by
  unfold hostname
  rw [isHost]
  cases host with
  | domain domain =>
    obtain ⟨noOpen, noClose, noColon⟩ := domain_brackets domain
    have isName : lowerCase (dropEnd '.' (dropEnd ']' (dropStart '[' domain.text))) =
        dropEnd '.' domain.text := by
      rw [dropStart_of_not_mem noOpen, dropEnd_of_not_mem noClose, lowerCase_of_lower]
      exact fun c among => domain_lower domain c (dropEnd_subset _ among)
    have noLoopback : dropEnd '.' domain.text ≠ "::1".toList := by
      intro same
      have among : ':' ∈ dropEnd '.' domain.text := by
        rw [same]
        decide
      exact noColon (dropEnd_subset _ among)
    rw [requirementForHostname_iff isName, or_iff_right (a := _ = _) noLoopback]
    rfl
  | ipv4 address =>
    have absent : ∀ c, c ≠ '.' → c.isDigit = false → c ∉ displayV4 address := by
      intro c notDot notDigit among
      rcases displayV4_plain among with isDot | isDigit
      · exact notDot isDot
      · rw [isDigit] at notDigit
        cases notDigit
    have isName : lowerCase (dropEnd '.' (dropEnd ']' (dropStart '[' (displayV4 address)))) =
        displayV4 address := by
      rw [dropStart_of_not_mem (absent _ (by decide) (by decide)),
        dropEnd_of_not_mem (absent _ (by decide) (by decide)), dropEnd, if_neg displayV4_last,
        lowerCase_of_lower]
      intro c among
      rcases displayV4_plain among with rfl | isDigit
      · rfl
      · exact digit_lower isDigit
    rw [requirementForHostname_iff isName, readsAsLocal_displayV4, or_iff_right, or_iff_right]
    · rfl
    · intro same
      exact absent ':' (by decide) (by decide) (same ▸ (by decide))
    · refine not_localName fun c among => .inr ?_
      rcases displayV4_plain among with isDot | isDigit
      · exact .inl isDot
      · exact .inr (by rw [isLowerHexDigit, isDigit, Bool.true_or])
  | ipv6 address =>
    have plain := lib.serializeV6_plain address
    have absent : ∀ c, c ≠ ':' → isLowerHexDigit c = false → c ∉ lib.serializeV6 address := by
      intro c notColon notHex among
      rcases plain c among with isColon | isHex
      · exact notColon isColon
      · rw [isHex] at notHex
        cases notHex
    have brackets : ∀ text, dropEnd ']' (dropStart '[' ('[' :: text ++ [']'])) = text := by
      simp [dropStart, dropEnd]
    have isName : lowerCase (dropEnd '.' (dropEnd ']' (dropStart '['
        ('[' :: lib.serializeV6 address ++ [']'])))) = lib.serializeV6 address := by
      rw [brackets, dropEnd_of_not_mem (absent _ (by decide) (by decide)), lowerCase_of_lower]
      intro c among
      rcases plain c among with rfl | isHex
      · rfl
      · exact lowerHex_lower isHex
    have oneLabel : ¬ ReadsAsLocal (lib.serializeV6 address) := by
      rintro ⟨a, b, c, d, same, -⟩
      rw [splitOn_eq_singleton (absent '.' (by decide) (by decide))] at same
      simpa using congrArg List.length same
    rw [requirementForHostname_iff isName, lib.serializeV6_loopback, or_iff_right, or_iff_left oneLabel]
    · rfl
    · refine not_localName fun c among => ?_
      rcases plain c among with isColon | isHex
      · exact .inl isColon
      · exact .inr (.inr isHex)
  | other text => exact net.elim

/-- **What the provider takes to be local.** -/
theorem provider_optional_iff (net : host.IsNetwork) :
    keyRequirement lib (hostText lib host) = .optional ↔ ProviderLocal host := by
  cases host with
  | domain domain =>
    obtain ⟨noOpen, noClose, noColon⟩ := domain_brackets domain
    have isName : lowerCase (trimEnd '.' (trimEnd ']' (domain.text.dropWhile (· = '[')))) =
        trimEnd '.' domain.text := by
      rw [dropWhile_of_not_mem noOpen, trimEnd_of_not_mem noClose, lowerCase_of_lower]
      exact fun c among => domain_lower domain c (trimEnd_subset _ among)
    have noV6 : lib.parseV6 (trimEnd '.' domain.text) ≠ some 1 := by
      intro isV6
      exact noColon (trimEnd_subset _ (lib.parseV6_colon _ _ isV6))
    rw [hostText, keyRequirement_iff lib isName, or_iff_left (a := ParsesAsLocal _)]
    · rfl
    · exact fun both => noV6 both.2
  | ipv4 address =>
    have absent : ∀ c, c ≠ '.' → c.isDigit = false → c ∉ displayV4 address := by
      intro c notDot notDigit among
      rcases displayV4_plain among with isDot | isDigit
      · exact notDot isDot
      · rw [isDigit] at notDigit
        cases notDigit
    have isName : lowerCase (trimEnd '.' (trimEnd ']' ((displayV4 address).dropWhile
        (· = '[')))) = displayV4 address := by
      rw [dropWhile_of_not_mem (absent _ (by decide) (by decide)),
        trimEnd_of_not_mem (absent _ (by decide) (by decide)), trimEnd_of_last displayV4_last,
        lowerCase_of_lower]
      intro c among
      rcases displayV4_plain among with rfl | isDigit
      · rfl
      · exact digit_lower isDigit
    rw [hostText, keyRequirement_iff lib isName, ParsesAsLocal, parseV4_displayV4, or_iff_right,
      or_iff_left]
    · simp [ProviderLocal, IsLocal]
    · simp
    · refine not_localName fun c among => .inr ?_
      rcases displayV4_plain among with isDot | isDigit
      · exact .inl isDot
      · exact .inr (by rw [isLowerHexDigit, isDigit, Bool.true_or])
  | ipv6 address =>
    have plain := lib.displayV6_plain address
    have absent : ∀ c, c ≠ ':' → c ≠ '.' → isLowerHexDigit c = false →
        c ∉ lib.displayV6 address := by
      intro c notColon notDot notHex among
      rcases plain c among with isColon | isDot | isHex
      · exact notColon isColon
      · exact notDot isDot
      · rw [isHex] at notHex
        cases notHex
    have isName : lowerCase (trimEnd '.' (trimEnd ']' ((lib.displayV6 address).dropWhile
        (· = '[')))) = lib.displayV6 address := by
      rw [dropWhile_of_not_mem (absent _ (by decide) (by decide) (by decide)),
        trimEnd_of_not_mem (absent _ (by decide) (by decide) (by decide)),
        trimEnd_of_last (lib.displayV6_last address), lowerCase_of_lower]
      intro c among
      rcases plain c among with rfl | rfl | isHex
      · rfl
      · rfl
      · exact lowerHex_lower isHex
    have noV4 : parseV4 (lib.displayV6 address) = none := by
      rw [eq_none_iff_forall_ne_some]
      intro v4 isV4
      rcases parseV4_plain isV4 (lib.displayV6_colon address) with isDot | isDigit
      · cases isDot
      · cases isDigit
    rw [hostText, keyRequirement_iff lib isName, ParsesAsLocal, noV4, lib.parseV6_display,
      or_iff_right, or_iff_right]
    · simp [ProviderLocal, IsLocal]
    · simp
    · exact not_localName plain
  | other text => exact net.elim

end Hosts

/-! ## Dots at the end of a name -/

section Dots

variable {name : Str}

theorem splitOn_dots (name : Str) (k : Nat) :
    (name ++ List.replicate k '.').splitOn '.' = name.splitOn '.' ++ List.replicate k [] := by
  induction k generalizing name with
  | zero => simp
  | succ k ih =>
    have here : name ++ List.replicate (k + 1) '.' = name ++ '.' :: ([] ++ List.replicate k '.') := by
      rw [replicate_succ, nil_append]
    rw [here, splitOn_append_cons_self, ih, splitOn_nil, replicate_succ]
    rfl

/-- A text is its name and the dots at its end. -/
theorem exists_dots (text : Str) : ∃ k, text = trimEnd '.' text ++ List.replicate k '.' := by
  refine ⟨(text.rtakeWhile (· = '.')).length, ?_⟩
  have dots : text.rtakeWhile (· = '.') = List.replicate (text.rtakeWhile (· = '.')).length '.' := by
    rw [eq_replicate_iff]
    refine ⟨rfl, fun c among => ?_⟩
    have isDot := mem_rtakeWhile_imp among
    exact of_decide_eq_true isDot
  rw [← dots]
  exact (rdropWhile_append_rtakeWhile (p := (· = '.')) (l := text)).symm

theorem trimEnd_last (text : Str) : (trimEnd '.' text).getLast? ≠ some '.' := by
  intro isLast
  have nonempty : trimEnd '.' text ≠ [] := by
    intro isNil
    rw [isNil] at isLast
    cases isLast
  rw [getLast?_eq_some_getLast nonempty, Option.some.injEq] at isLast
  have stops := rdropWhile_last_not (· = '.') text nonempty
  exact stops (decide_eq_true isLast)

theorem IsLocalName.last (isName : IsLocalName name) : name.getLast? ≠ some '.' := by
  have ofSuffix : ∀ {tail : Str}, tail <:+ name → tail ≠ [] → tail.getLast? = name.getLast? := by
    rintro tail ⟨front, rfl⟩ nonempty
    rw [getLast?_append_of_ne_nil _ nonempty]
  rcases isName with rfl | isLocal | isNet
  · decide
  · rw [← ofSuffix isLocal (by decide)]
    decide
  · rw [← ofSuffix isNet (by decide)]
    decide

theorem IsLocalName.label (isName : IsLocalName name) :
    ∃ label ∈ name.splitOn '.', octet label = none := by
  have ofSuffix : ∀ {label : Str}, ('.' :: label) <:+ name → '.' ∉ label →
      label ∈ name.splitOn '.' := by
    rintro label ⟨front, rfl⟩ clean
    rw [splitOn_append_cons_self, splitOn_eq_singleton clean]
    exact mem_append_right _ (mem_singleton_self _)
  rcases isName with rfl | isLocal | isNet
  · exact ⟨"localhost".toList, by decide, by decide +kernel⟩
  · exact ⟨"local".toList, ofSuffix isLocal (by decide), by decide +kernel⟩
  · have isLast : ".net".toList <:+ name := (show ".net".toList <:+ ".ts.net".toList from
      ⟨".ts".toList, by decide⟩).trans isNet
    exact ⟨"net".toList, ofSuffix isLast (by decide), by decide +kernel⟩

theorem ReadsAsLocal.labels (reads : ReadsAsLocal name) :
    (name.splitOn '.').length = 4 ∧ ∀ label ∈ name.splitOn '.', octet label ≠ none := by
  obtain ⟨a, b, c, d, isOctets, -⟩ := reads
  refine ⟨by simpa using congrArg List.length isOctets, fun label among none => ?_⟩
  have isNone : octet label ∈ (name.splitOn '.').map octet := mem_map_of_mem among
  rw [isOctets, none] at isNone
  simp at isNone

theorem not_parseV4_of_domain (domain : Domain) {k : Nat} (few : k ≤ 1)
    (isText : domain.text = name ++ List.replicate k '.') : parseV4 name = none := by
  rw [eq_none_iff_forall_ne_some]
  intro address parsed
  obtain ⟨labels, isSplit, isLength, digits⟩ := splitOn_of_parseV4 parsed
  obtain ⟨front, last, rfl⟩ : ∃ front last, labels = front ++ [last] := by
    rcases eq_nil_or_concat labels with rfl | ⟨front, last, rfl⟩
    · cases isLength
    · exact ⟨front, last, concat_eq_append⟩
  obtain ⟨nonempty, all⟩ := digits last (by simp)
  have isNumeral : isNumeral last = true := by
    have allDigits : last.all Char.isDigit = true := all_eq_true.mpr all
    unfold WebUrl.isNumeral
    rw [allDigits, Bool.and_true, decide_eq_true nonempty, Bool.true_or]
  have ends : endsInNumber domain.text = true := by
    unfold endsInNumber
    rw [isText, splitOn_dots, isSplit]
    match k, few with
    | 0, _ => simp [nonempty, isNumeral]
    | 1, _ => simp [isNumeral]
  rw [domain.notNumber] at ends
  cases ends

end Dots

/-! ## Hosts that both sides take alike -/

/-- A domain that is a local name with at most one dot at its end, or that neither side takes to
be local. -/
def PlainHost : Host → Prop
  | .domain name => IsLocalName (dropEnd '.' name.text) ∨
      ¬ (ReadsAsLocal (dropEnd '.' name.text) ∨ IsLocalName (trimEnd '.' name.text) ∨
        ParsesAsLocal (trimEnd '.' name.text))
  | _ => True

theorem dropEnd_dots (name : Str) (k : Nat) :
    dropEnd '.' (name ++ List.replicate (k + 1) '.') = name ++ List.replicate k '.' := by
  rw [replicate_succ', ← append_assoc, dropEnd, getLast?_concat, if_pos rfl, dropLast_concat]

theorem apart_of_not_plain {domain : Domain} (other : ¬ IsLocalName (dropEnd '.' domain.text))
    (reads : ReadsAsLocal (dropEnd '.' domain.text)) :
    ¬ (IsLocalName (trimEnd '.' domain.text) ∨ ParsesAsLocal (trimEnd '.' domain.text)) := by
  obtain ⟨k, isText⟩ := exists_dots domain.text
  have last := trimEnd_last domain.text
  generalize trimEnd '.' domain.text = name at isText last ⊢
  have atMostOne : k ≤ 1 → dropEnd '.' domain.text = name := by
    intro few
    rw [isText]
    match k, few with
    | 0, _ => rw [replicate_zero, append_nil, dropEnd, if_neg last]
    | 1, _ => rw [dropEnd_dots, replicate_zero, append_nil]
  rintro (isName | ⟨address, parsed, -⟩)
  · by_cases few : k ≤ 1
    · exact other (atMostOne few ▸ isName)
    · obtain ⟨k, rfl⟩ : ∃ more, k = more + 1 := ⟨k - 1, by omega⟩
      rw [isText, dropEnd_dots] at reads
      obtain ⟨label, isLabel, isNone⟩ := isName.label
      refine reads.labels.2 label ?_ isNone
      rw [splitOn_dots]
      exact mem_append_left _ isLabel
  · by_cases few : k ≤ 1
    · rw [not_parseV4_of_domain domain few isText] at parsed
      cases parsed
    · obtain ⟨k, rfl⟩ : ∃ more, k = more + 1 := ⟨k - 1, by omega⟩
      rw [isText, dropEnd_dots] at reads
      obtain ⟨labels, isSplit, isLength, -⟩ := splitOn_of_parseV4 parsed
      have four := reads.labels.1
      rw [splitOn_dots, isSplit, length_append, length_replicate, isLength] at four
      omega

theorem trimEnd_of_localName {text : Str} (isName : IsLocalName (dropEnd '.' text)) :
    trimEnd '.' text = dropEnd '.' text := by
  have last := isName.last
  by_cases dotted : text.getLast? = some '.'
  · obtain ⟨init, rfl⟩ : ∃ init, text = init ++ ['.'] := by
      rcases eq_nil_or_concat text with rfl | ⟨init, c, rfl⟩
      · cases dotted
      · rw [concat_eq_append, getLast?_concat] at dotted
        cases dotted
        exact ⟨init, concat_eq_append⟩
    have dropped : dropEnd '.' (init ++ ['.']) = init := by
      rw [dropEnd, if_pos dotted, dropLast_concat]
    rw [dropped] at last ⊢
    have trimmed : trimEnd '.' (init ++ ['.']) = trimEnd '.' init :=
      rdropWhile_concat_pos _ _ _ (decide_eq_true rfl)
    rw [trimmed, trimEnd_of_last last]
  · rw [trimEnd_of_last dotted, dropEnd, if_neg dotted]

theorem plainHost_iff {host : Host} : PlainHost host ↔ (PageLocal host ↔ ProviderLocal host) := by
  cases host with
  | domain domain =>
    unfold PlainHost PageLocal ProviderLocal
    dsimp only
    by_cases isName : IsLocalName (dropEnd '.' domain.text)
    · have isNameToo := isName
      rw [← trimEnd_of_localName isName] at isNameToo
      exact iff_of_true (.inl isName) (iff_of_true (.inl isName) (.inl isNameToo))
    · have apart := apart_of_not_plain isName
      tauto
  | ipv4 address => exact iff_of_true trivial Iff.rfl
  | ipv6 address => exact iff_of_true trivial Iff.rfl
  | other text => exact iff_of_true trivial Iff.rfl

theorem isLocal_of_plain {host : Host} (plain : PlainHost host) (page : PageLocal host) :
    IsLocal host := by
  cases host with
  | domain domain =>
    rcases page with isName | reads
    · exact isName
    · rcases plain with isName | none
      · exact isName
      · exact absurd (.inl reads) none
  | ipv4 | ipv6 | other => exact page

/-! ## What the two sides accept -/

def HasHost (P : Host → Prop) (url : Url) : Prop := ∃ host, url.host = some host ∧ P host

/-- Plain or secure, without user information, and without a query or fragment that is more than
its delimiter. -/
structure Usable (url : Url) : Prop where
  scheme : url.scheme = "http".toList ∨ url.scheme = "https".toList
  username : url.username = []
  password : url.password = []
  query : url.query.getD [] = []
  fragment : url.fragment.getD [] = []

/-- Neither a query nor a fragment, not even an empty one. -/
def IsBare (url : Url) : Prop := url.query = none ∧ url.fragment = none

def PageTakes (url : Url) (keyPresent : Bool) : Prop :=
  Usable url ∧ (url.scheme = "https".toList ∨ (keyPresent = false ∧ HasHost PageLocal url))

def ProviderTakes (url : Url) (keyPresent : Bool) : Prop :=
  Usable url ∧ IsBare url ∧
    (url.scheme = "https".toList ∨ (keyPresent = false ∧ HasHost ProviderLocal url))

section Accepting

variable (lib : UrlLibrary) {url : Url} {baseUrl : Str} {keyPresent : Bool}

theorem hasHost_iff {P : Host → Prop} {host : Host} (isHost : url.host = some host) :
    HasHost P url ↔ P host := by
  unfold HasHost
  rw [isHost]
  simp

theorem Usable.host (usable : Usable url) : ∃ host, url.host = some host ∧ host.IsNetwork :=
  url.hosted usable.scheme

theorem hostname_ne_nil {host : Host} (isHost : url.host = some host) (net : host.IsNetwork) :
    hostname lib url ≠ [] := by
  unfold hostname
  rw [isHost]
  cases host with
  | domain domain => exact domain.nonempty
  | ipv4 address =>
    intro isNil
    have split : (displayV4 address).splitOn '.' = _ := splitOn_displayV4
    rw [show displayV4 address = [] from isNil] at split
    simpa using congrArg List.length split
  | ipv6 address => exact cons_ne_nil _ _
  | other text => exact net.elim

theorem page_accepts_iff : (endpointPolicyFor lib baseUrl keyPresent).accepted = true ↔
    ∃ url, lib.parse (Markdown.trim baseUrl) = .ok url ∧ PageTakes url keyPresent := by
  unfold endpointPolicyFor
  cases lib.parse (Markdown.trim baseUrl) with
  | error error => simp
  | ok url =>
    have parts : (∃ other, Except.ok (ε := Str) url = .ok other ∧ PageTakes other keyPresent) ↔
        PageTakes url keyPresent :=
      ⟨fun ⟨_, same, takes⟩ => Except.ok.inj same ▸ takes, fun takes => ⟨url, rfl, takes⟩⟩
    rw [parts]
    simp only [Bool.and_eq_true, Bool.or_eq_true, Bool.not_eq_true', Bool.or_eq_false_iff,
      decide_eq_true_eq, decide_eq_false_iff_not, not_not]
    constructor
    · rintro ⟨⟨⟨isScheme, ⟨⟨noUser, noPassword⟩, noQuery⟩, noFragment⟩, -⟩, secure⟩
      have usable : Usable url := ⟨isScheme, noUser, noPassword, noQuery, noFragment⟩
      obtain ⟨host, isHost, net⟩ := usable.host
      refine ⟨usable, secure.imp_right fun ⟨noKey, isOptional⟩ => ⟨noKey, ?_⟩⟩
      rw [hasHost_iff isHost, ← page_optional_iff lib isHost net]
      exact isOptional
    · rintro ⟨usable, secure⟩
      obtain ⟨host, isHost, net⟩ := usable.host
      refine ⟨⟨⟨usable.scheme, ⟨⟨usable.username, usable.password⟩, usable.query⟩,
        usable.fragment⟩, hostname_ne_nil lib isHost net⟩, secure.imp_right ?_⟩
      rintro ⟨noKey, isLocal⟩
      rw [hasHost_iff isHost, ← page_optional_iff lib isHost net] at isLocal
      exact ⟨noKey, isLocal⟩

theorem page_requirement {host : Host} (isUrl : lib.parse (Markdown.trim baseUrl) = .ok url)
    (isHost : url.host = some host) (net : host.IsNetwork) :
    (endpointPolicyFor lib baseUrl keyPresent).requirement = .optional ↔ HasHost PageLocal url := by
  unfold endpointPolicyFor
  rw [isUrl, hasHost_iff isHost]
  exact page_optional_iff lib isHost net

/-- What `parse_endpoint` returns for a URL it accepts. -/
def endpointOf (url : Url) (host : Host) : Endpoint :=
  let path := trimEnd '/' url.path
  ⟨trimEnd '/' (lib.toText (lib.setPath url (if path = [] then "/v1".toList else path))),
    keyRequirement lib (hostText lib host)⟩

theorem usable_of_bare (isBare : IsBare url)
    (isScheme : url.scheme = "http".toList ∨ url.scheme = "https".toList)
    (noUserinfo : ¬ (url.username ≠ [] ∨ url.password ≠ [])) : Usable url where
  scheme := isScheme
  username := by simpa using (not_or.mp noUserinfo).1
  password := by simpa using (not_or.mp noUserinfo).2
  query := by rw [isBare.1]; rfl
  fragment := by rw [isBare.2]; rfl

/-- The last check, in the words of `ProviderTakes`. -/
theorem secure_iff {host : Host} (isHost : url.host = some host) (net : host.IsNetwork) :
    ¬ (url.scheme ≠ "https".toList ∧
        (keyPresent ∨ keyRequirement lib (hostText lib host) = .required)) ↔
      url.scheme = "https".toList ∨ (keyPresent = false ∧ HasHost ProviderLocal url) := by
  have notRequired : ¬ keyRequirement lib (hostText lib host) = .required ↔
      HasHost ProviderLocal url := by
    rw [hasHost_iff isHost, ← provider_optional_iff lib net]
    cases keyRequirement lib (hostText lib host) <;> decide
  rw [← notRequired]
  rw [not_and_or, not_not, not_or, Bool.not_eq_true]

theorem parseEndpoint_eq_ok {endpoint : Endpoint} :
    parseEndpoint lib baseUrl keyPresent = .ok endpoint ↔
      ∃ url host, lib.parse (trim baseUrl) = .ok url ∧ url.host = some host ∧
        ProviderTakes url keyPresent ∧ endpoint = endpointOf lib url host := by
  unfold parseEndpoint
  cases lib.parse (trim baseUrl) with
  | error error => simp
  | ok url =>
    have parts : (∃ other host, Except.ok (ε := Str) url = .ok other ∧ other.host = some host ∧
          ProviderTakes other keyPresent ∧ endpoint = endpointOf lib other host) ↔
        ∃ host, url.host = some host ∧ ProviderTakes url keyPresent ∧
          endpoint = endpointOf lib url host :=
      ⟨fun ⟨_, host, same, rest⟩ => ⟨host, Except.ok.inj same ▸ rest⟩,
        fun ⟨host, rest⟩ => ⟨url, host, rfl, rest⟩⟩
    rw [parts]
    dsimp only
    constructor
    · intro isOk
      split at isOk
      · cases isOk
      rename_i isScheme
      split at isOk
      · cases isOk
      rename_i noUserinfo
      split at isOk
      · cases isOk
      rename_i noParts
      have isBare : IsBare url := by simpa [IsBare] using noParts
      have usable := usable_of_bare isBare (not_not.mp isScheme) noUserinfo
      obtain ⟨host, isHost, net⟩ := usable.host
      rw [isHost] at isOk
      dsimp only at isOk
      split at isOk
      · cases isOk
      rename_i secure
      refine ⟨host, isHost, ⟨usable, isBare, (secure_iff lib isHost net).mp secure⟩, ?_⟩
      exact (Except.ok.inj isOk).symm
    · rintro ⟨host, isHost, ⟨usable, isBare, secure⟩, rfl⟩
      obtain ⟨host', isHost', net⟩ := usable.host
      obtain rfl : host = host' := Option.some.inj (isHost.symm.trans isHost')
      have isSecure := (secure_iff lib isHost net).mpr secure
      rw [if_neg (not_not.mpr usable.scheme), if_neg (by simp [usable.username, usable.password]),
        if_neg (by simp [isBare.1, isBare.2]), isHost]
      exact if_neg isSecure

theorem provider_accepts_iff : (∃ endpoint, parseEndpoint lib baseUrl keyPresent = .ok endpoint) ↔
    ∃ url, lib.parse (trim baseUrl) = .ok url ∧ ProviderTakes url keyPresent := by
  constructor
  · rintro ⟨endpoint, isOk⟩
    obtain ⟨url, host, isUrl, -, takes, -⟩ := (parseEndpoint_eq_ok lib).mp isOk
    exact ⟨url, isUrl, takes⟩
  · rintro ⟨url, isUrl, takes⟩
    obtain ⟨host, isHost, -⟩ := takes.1.host
    exact ⟨_, (parseEndpoint_eq_ok lib).mpr ⟨url, host, isUrl, isHost, takes, rfl⟩⟩

end Accepting

/-! ## The two policies -/

/-- Plain `http` only without a key and to a local host. -/
def Guarded (parsed : Except Str Url) (keyPresent : Bool) : Prop :=
  ∀ url, parsed = .ok url → url.scheme = "http".toList → keyPresent = false ∧ HasHost IsLocal url

structure SamePolicy (lib : UrlLibrary) (baseUrl : Str) (keyPresent : Bool) : Prop where
  accepted : (endpointPolicyFor lib baseUrl keyPresent).accepted = true ↔
    ∃ endpoint, parseEndpoint lib baseUrl keyPresent = .ok endpoint
  requirement : ∀ endpoint, parseEndpoint lib baseUrl keyPresent = .ok endpoint →
    endpoint.requirement = (endpointPolicyFor lib baseUrl keyPresent).requirement
  page : (endpointPolicyFor lib baseUrl keyPresent).accepted = true →
    Guarded (lib.parse (Markdown.trim baseUrl)) keyPresent
  provider : (∃ endpoint, parseEndpoint lib baseUrl keyPresent = .ok endpoint) →
    Guarded (lib.parse (trim baseUrl)) keyPresent

/-- Where both sides see one URL: a key keeps both from plain `http`; or there is neither query
nor fragment and the host is plain; or there is an empty one, and the page refuses the URL too. -/
def Agreeing (url : Url) (keyPresent : Bool) : Prop :=
  Usable url →
    (url.scheme = "http".toList ∧ keyPresent = true) ∨ (IsBare url ∧ HasHost PlainHost url) ∨
      (¬ IsBare url ∧ url.scheme = "http".toList ∧ ¬ HasHost PageLocal url)

/-- Where they see different ones: neither accepts its URL, or both do, with the same requirement
and none in plain `http` to a host that is not local. -/
def Alike (page provider : Except Str Url) (keyPresent : Bool) : Prop :=
  ((∀ url, page = .ok url → ¬ PageTakes url keyPresent) ∧
      ∀ url, provider = .ok url → ¬ ProviderTakes url keyPresent) ∨
    ∃ url other, page = .ok url ∧ provider = .ok other ∧
      PageTakes url keyPresent ∧ ProviderTakes other keyPresent ∧
      (HasHost PageLocal url ↔ HasHost ProviderLocal other) ∧
      (url.scheme = "http".toList → HasHost IsLocal url) ∧
      (other.scheme = "http".toList → HasHost IsLocal other)

section Policies

variable (lib : UrlLibrary) {url other : Url} {baseUrl : Str} {keyPresent : Bool}

theorem noKey_of_http (isHttp : url.scheme = "http".toList) {P : Prop}
    (secure : url.scheme = "https".toList ∨ (keyPresent = false ∧ P)) : keyPresent = false ∧ P := by
  rcases secure with isHttps | plain
  · rw [isHttp] at isHttps
    exact absurd isHttps (by decide)
  · exact plain

theorem guarded_iff {parsed : Except Str Url} (isUrl : parsed = .ok url) {P : Prop}
    (secure : url.scheme = "https".toList ∨ (keyPresent = false ∧ P)) :
    Guarded parsed keyPresent ↔ (url.scheme = "http".toList → HasHost IsLocal url) := by
  unfold Guarded
  rw [isUrl]
  constructor
  · exact fun guarded isHttp => (guarded url rfl isHttp).2
  · rintro isLocal _ ⟨⟩ isHttp
    exact ⟨(noKey_of_http isHttp secure).1, isLocal isHttp⟩

theorem requirement_eq_iff {a b : KeyRequirement} : a = b ↔ (a = .optional ↔ b = .optional) := by
  cases a <;> cases b <;> decide

theorem same_requirement_iff (isPage : lib.parse (Markdown.trim baseUrl) = .ok url)
    (isProvider : lib.parse (trim baseUrl) = .ok other) (usable : Usable url)
    (takes : ProviderTakes other keyPresent) :
    (∀ endpoint, parseEndpoint lib baseUrl keyPresent = .ok endpoint →
      endpoint.requirement = (endpointPolicyFor lib baseUrl keyPresent).requirement) ↔
      (HasHost PageLocal url ↔ HasHost ProviderLocal other) := by
  obtain ⟨pageHost, isPageHost, pageNet⟩ := usable.host
  obtain ⟨host, isHost, net⟩ := takes.1.host
  have isOptional : (endpointPolicyFor lib baseUrl keyPresent).requirement = .optional ↔
      HasHost PageLocal url := page_requirement lib isPage isPageHost pageNet
  have isOptionalToo : (endpointOf lib other host).requirement = .optional ↔
      HasHost ProviderLocal other := by
    rw [hasHost_iff isHost]
    exact provider_optional_iff lib net
  constructor
  · intro same
    have sameHere := same (endpointOf lib other host)
      ((parseEndpoint_eq_ok lib).mpr ⟨other, host, isProvider, isHost, takes, rfl⟩)
    rw [← isOptional, ← isOptionalToo, sameHere]
  · intro alike endpoint isOk
    obtain ⟨seen, seenHost, isSeen, isSeenHost, -, rfl⟩ := (parseEndpoint_eq_ok lib).mp isOk
    obtain rfl := Except.ok.inj (isSeen.symm.trans isProvider)
    obtain rfl := Option.some.inj (isSeenHost.symm.trans isHost)
    rw [requirement_eq_iff, isOptionalToo, isOptional, alike]

theorem samePolicy_iff_alike : SamePolicy lib baseUrl keyPresent ↔
    Alike (lib.parse (Markdown.trim baseUrl)) (lib.parse (trim baseUrl)) keyPresent := by
  constructor
  · rintro ⟨accepted, requirement, page, provider⟩
    rw [page_accepts_iff, provider_accepts_iff] at accepted
    by_cases takes : ∃ url, lib.parse (Markdown.trim baseUrl) = .ok url ∧ PageTakes url keyPresent
    · obtain ⟨other, isOther, takesToo⟩ := accepted.mp takes
      have isPage := page (page_accepts_iff lib |>.mpr takes)
      have isProvider := provider (provider_accepts_iff lib |>.mpr ⟨other, isOther, takesToo⟩)
      obtain ⟨url, isUrl, takes⟩ := takes
      refine .inr ⟨url, other, isUrl, isOther, takes, takesToo, ?_, ?_, ?_⟩
      · exact (same_requirement_iff lib isUrl isOther takes.1 takesToo).mp requirement
      · exact (guarded_iff isUrl takes.2).mp isPage
      · exact (guarded_iff isOther takesToo.2.2).mp isProvider
    · refine .inl ⟨fun url isUrl takesUrl => takes ⟨url, isUrl, takesUrl⟩, ?_⟩
      exact fun url isUrl takesUrl => takes (accepted.mpr ⟨url, isUrl, takesUrl⟩)
  · rintro (⟨noPage, noProvider⟩ | ⟨url, other, isUrl, isOther, takes, takesToo, alike, page,
      provider⟩)
    · have refused : ¬ (endpointPolicyFor lib baseUrl keyPresent).accepted = true := by
        rw [page_accepts_iff]
        rintro ⟨url, isUrl, takes⟩
        exact noPage url isUrl takes
      have refusedToo : ¬ ∃ endpoint, parseEndpoint lib baseUrl keyPresent = .ok endpoint := by
        rw [provider_accepts_iff]
        rintro ⟨url, isUrl, takes⟩
        exact noProvider url isUrl takes
      exact ⟨iff_of_false refused refusedToo, fun _ isOk => absurd ⟨_, isOk⟩ refusedToo,
        fun accepts => absurd accepts refused, fun accepts => absurd accepts refusedToo⟩
    · refine ⟨iff_of_true ?_ ?_, ?_, fun _ => ?_, fun _ => ?_⟩
      · exact (page_accepts_iff lib).mpr ⟨url, isUrl, takes⟩
      · exact (provider_accepts_iff lib).mpr ⟨other, isOther, takesToo⟩
      · exact (same_requirement_iff lib isUrl isOther takes.1 takesToo).mpr alike
      · exact (guarded_iff isUrl takes.2).mpr page
      · exact (guarded_iff isOther takesToo.2.2).mpr provider

theorem alike_same_iff : Alike (.ok url) (.ok url) keyPresent ↔
    (¬ PageTakes url keyPresent ∧ ¬ ProviderTakes url keyPresent) ∨
      (PageTakes url keyPresent ∧ ProviderTakes url keyPresent ∧
        (HasHost PageLocal url ↔ HasHost ProviderLocal url) ∧
        (url.scheme = "http".toList → HasHost IsLocal url)) := by
  unfold Alike
  constructor
  · rintro (⟨noPage, noProvider⟩ | ⟨_, _, ⟨⟩, ⟨⟩, page, provider, alike, isLocal, -⟩)
    · exact .inl ⟨noPage url rfl, noProvider url rfl⟩
    · exact .inr ⟨page, provider, alike, isLocal⟩
  · rintro (⟨noPage, noProvider⟩ | ⟨page, provider, alike, isLocal⟩)
    · exact .inl ⟨fun _ same => Except.ok.inj same ▸ noPage,
        fun _ same => Except.ok.inj same ▸ noProvider⟩
    · exact .inr ⟨url, url, rfl, rfl, page, provider, alike, isLocal, isLocal⟩

/-- Without a key, in plain `http`: `page` and `provider` say what each takes to be local. -/
theorem plain_http_iff {page provider bare isLocal : Prop}
    (both : (page ↔ provider) → page → isLocal) :
    ((¬ page ∧ ¬ (bare ∧ provider)) ∨ (page ∧ (bare ∧ provider) ∧ (page ↔ provider) ∧ isLocal)) ↔
      ((bare ∧ (page ↔ provider)) ∨ (¬ bare ∧ ¬ page)) := by
  constructor
  · rintro (⟨noPage, noProvider⟩ | ⟨-, ⟨isBare, -⟩, alike, -⟩)
    · by_cases isBare : bare
      · exact .inl ⟨isBare, iff_of_false noPage fun isProvider => noProvider ⟨isBare, isProvider⟩⟩
      · exact .inr ⟨isBare, noPage⟩
    · exact .inl ⟨isBare, alike⟩
  · rintro (⟨isBare, alike⟩ | ⟨notBare, noPage⟩)
    · by_cases isPage : page
      · exact .inr ⟨isPage, ⟨isBare, alike.mp isPage⟩, alike, both alike isPage⟩
      · exact .inl ⟨isPage, fun accepted => isPage (alike.mpr accepted.2)⟩
    · exact .inl ⟨noPage, fun accepted => notBare accepted.1⟩

theorem alike_same_iff_agreeing : Alike (.ok url) (.ok url) keyPresent ↔
    Agreeing url keyPresent := by
  rw [alike_same_iff]
  unfold Agreeing
  by_cases usable : Usable url
  · obtain ⟨host, isHost, net⟩ := usable.host
    have plain : HasHost PlainHost url ↔ (HasHost PageLocal url ↔ HasHost ProviderLocal url) := by
      rw [hasHost_iff isHost, hasHost_iff isHost, hasHost_iff isHost]
      exact plainHost_iff
    have isLocal : HasHost PlainHost url → HasHost PageLocal url → HasHost IsLocal url := by
      rw [hasHost_iff isHost, hasHost_iff isHost, hasHost_iff isHost]
      exact isLocal_of_plain
    rw [imp_iff_right usable]
    rcases usable.scheme with isHttp | isHttps
    · have notHttps : url.scheme ≠ "https".toList := by
        rw [isHttp]
        decide
      have page : PageTakes url keyPresent ↔ keyPresent = false ∧ HasHost PageLocal url := by
        rw [PageTakes, and_iff_right usable, or_iff_right notHttps]
      have provider : ProviderTakes url keyPresent ↔
          IsBare url ∧ keyPresent = false ∧ HasHost ProviderLocal url := by
        rw [ProviderTakes, and_iff_right usable, or_iff_right notHttps]
      rw [page, provider, imp_iff_right isHttp, and_iff_right isHttp]
      cases keyPresent with
      | true => exact iff_of_true (.inl ⟨nofun, nofun⟩) (.inl rfl)
      | false =>
        simp only [true_and, Bool.false_eq_true, false_or, isHttp]
        rw [plain] at isLocal ⊢
        exact plain_http_iff isLocal
    · have notHttp : url.scheme ≠ "http".toList := by
        rw [isHttps]
        decide
      have page : PageTakes url keyPresent := ⟨usable, .inl isHttps⟩
      have provider : ProviderTakes url keyPresent ↔ IsBare url := by
        rw [ProviderTakes, and_iff_right usable, and_iff_left (.inl isHttps)]
      rw [provider, plain]
      constructor
      · rintro (⟨noPage, -⟩ | ⟨-, isBare, alike, -⟩)
        · exact absurd page noPage
        · exact .inr (.inl ⟨isBare, alike⟩)
      · rintro (⟨isHttp, -⟩ | ⟨isBare, alike⟩ | ⟨-, isHttp, -⟩)
        · exact absurd isHttp notHttp
        · exact .inr ⟨page, isBare, alike, fun isHttp => absurd isHttp notHttp⟩
        · exact absurd isHttp notHttp
  · have noPage : ¬ PageTakes url keyPresent := fun takes => usable takes.1
    have noProvider : ¬ ProviderTakes url keyPresent := fun takes => usable takes.1
    exact iff_of_true (.inl ⟨noPage, noProvider⟩) fun isUsable => absurd isUsable usable

/-- **The two policies are the same** exactly where, both sides seeing one URL, it has neither an
empty query or fragment nor a host that they read differently, and where, seeing two, these fare
alike. -/
theorem same_policy_iff (lib : UrlLibrary) (baseUrl : Str) (keyPresent : Bool) :
    SamePolicy lib baseUrl keyPresent ↔
      if Markdown.trim baseUrl = trim baseUrl then
        ∀ url, lib.parse (trim baseUrl) = .ok url → Agreeing url keyPresent
      else
        Alike (lib.parse (Markdown.trim baseUrl)) (lib.parse (trim baseUrl)) keyPresent := by
  rw [samePolicy_iff_alike]
  split
  · rename_i sameText
    rw [sameText]
    cases lib.parse (trim baseUrl) with
    | error error => exact iff_of_true (.inl ⟨nofun, nofun⟩) nofun
    | ok url =>
      rw [alike_same_iff_agreeing]
      exact ⟨fun agreeing _ same => Except.ok.inj same ▸ agreeing, fun all => all url rfl⟩
  · rfl

end Policies

/-! ## An empty query -/

def emptyQueryText : Str := "https://api.openai.com/v1?".toList

def emptyQueryUrl : Url where
  scheme := "https".toList
  username := []
  password := []
  host := some (.domain ⟨"api.openai.com".toList, by decide,
    @of_decide_eq_true _ (List.decidableBAll _ _) (by decide +kernel), by decide +kernel⟩)
  path := "/v1".toList
  query := some []
  fragment := none
  hosted := fun _ => ⟨_, rfl, trivial⟩

/-- A small IPv6 address. -/
def writeV6 (address : BitVec 128) : Str := ':' :: ':' :: Nat.toDigits 10 address.toNat

def readV6 (text : Str) : Option (BitVec 128) :=
  if text.head? = some ':' then some (BitVec.ofNat 128 (Nat.ofDigitChars 10 (text.drop 2) 0))
  else none

theorem readV6_writeV6 (address : BitVec 128) : readV6 (writeV6 address) = some address := by
  have isNat : Nat.ofDigitChars 10 (Nat.toDigits 10 address.toNat) 0 = address.toNat :=
    Nat.ofDigitChars_toDigits (by decide) (by decide)
  have isText : readV6 (writeV6 address) =
      some (BitVec.ofNat 128 (Nat.ofDigitChars 10 (Nat.toDigits 10 address.toNat) 0)) := rfl
  rw [isText, isNat, BitVec.ofNat_toNat, BitVec.setWidth_eq]

theorem writeV6_plain (address : BitVec 128) :
    ∀ c ∈ writeV6 address, c = ':' ∨ isLowerHexDigit c := by
  intro c among
  rcases mem_cons.mp among with isColon | later
  · exact .inl isColon
  rcases mem_cons.mp later with isColon | isDigit
  · exact .inl isColon
  · refine .inr ?_
    rw [isLowerHexDigit, Nat.isDigit_of_mem_toDigits (by decide) (by decide) isDigit, Bool.true_or]

/-- A library that is right about the text and about small addresses. -/
def sampleLibrary : UrlLibrary where
  parse text :=
    if text = emptyQueryText then .ok emptyQueryUrl
    else .error "relative URL without a base".toList
  setPath url path := { url with path }
  toText url := url.scheme ++ "://api.openai.com".toList ++ url.path
  serializeV6 := writeV6
  serializeV6_plain := writeV6_plain
  serializeV6_loopback address := by
    constructor
    · intro isLoopback
      have read := readV6_writeV6 address
      rw [isLoopback] at read
      exact (Option.some.inj read).symm
    · rintro rfl
      decide
  displayV6 := writeV6
  displayV6_plain address c among := (writeV6_plain address c among).imp_right .inr
  displayV6_colon address := mem_cons_self
  displayV6_last address isDot := by
    rcases writeV6_plain address _ (mem_of_getLast? isDot) with isColon | isHex
    · cases isColon
    · cases isHex
  parseV6 := readV6
  parseV6_display := readV6_writeV6
  parseV6_colon text address parsed := by
    unfold readV6 at parsed
    split at parsed
    · rename_i isFirst
      exact mem_of_head? isFirst
    · cases parsed

/-- The settings page accepts an empty query and the provider refuses it. -/
theorem empty_query_apart : ¬ ∀ lib baseUrl keyPresent, SamePolicy lib baseUrl keyPresent := by
  intro always
  obtain ⟨endpoint, isOk⟩ := (always sampleLibrary emptyQueryText true).accepted.mp
    ((page_accepts_iff _).mpr ⟨emptyQueryUrl, rfl, ⟨.inr rfl, rfl, rfl, rfl, rfl⟩, .inl rfl⟩)
  obtain ⟨url, host, isUrl, -, takes, -⟩ := (parseEndpoint_eq_ok _).mp isOk
  have isSample : sampleLibrary.parse (trim emptyQueryText) = .ok emptyQueryUrl := rfl
  obtain rfl := Except.ok.inj (isUrl.symm.trans isSample)
  cases takes.2.1.1

end Kuku.Ai
