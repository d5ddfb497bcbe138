/-
# Theory.WebUrl -- the URL record of the URL standard

What a parser of the standard makes of a text.  The host of an `http` or `https` URL is a domain
or an address.  A domain is in lower case, has none of the code points that delimit other parts
of a URL, and does not end in a number: such a host is parsed as an IPv4 address or refused.

`number` is what `Number` reads in a label, as a rational, and `nearestByte` the byte that the
double next to it is.
-/
import Mathlib

namespace Kuku.Theory.WebUrl

/-! ## Digits -/

def isHexDigit (c : Char) : Bool := c.isDigit || ('a' ≤ c && c ≤ 'f') || ('A' ≤ c && c ≤ 'F')

/-- The digits of a written IPv6 address. -/
def isLowerHexDigit (c : Char) : Bool := c.isDigit || ('a' ≤ c && c ≤ 'f')

def digitValue (c : Char) : Nat :=
  if c.isDigit then c.toNat - '0'.toNat
  else if 'a' ≤ c && c ≤ 'z' then c.toNat - 'a'.toNat + 10
  else c.toNat - 'A'.toNat + 10

/-- A numeral without sign: digits below `base`, at least one. -/
def readDigits (base : Nat) (ds : List Char) : Option Nat :=
  if ds ≠ [] ∧ ds.all (fun c => isHexDigit c && digitValue c < base) then
    some (ds.foldl (fun n c => base * n + digitValue c) 0)
  else none

/-! ## Hosts -/

/-- The "ends in a number" check of a host. -/
def isNumeral (label : List Char) : Bool := (label ≠ [] && label.all Char.isDigit) ||
    match label with
    | '0' :: 'x' :: rest | '0' :: 'X' :: rest => rest.all isHexDigit
    | _ => false

def endsInNumber (host : List Char) : Bool :=
  let parts := host.splitOn '.'
  let parts := if parts.getLast? = some [] then parts.dropLast else parts
  parts.getLast?.any isNumeral

/-- No control, no forbidden host code point, no upper case. -/
def isDomainChar (c : Char) : Bool :=
  0x20 < c.toNat && c.toNat < 0x7F && !c.isUpper && !("#/:<>?@[\\]^|%".toList.contains c)

structure Domain where
  text : List Char
  nonempty : text ≠ []
  allowed : ∀ c ∈ text, isDomainChar c = true
  notNumber : endsInNumber text = false

structure Ipv4 where
  a : Fin 256
  b : Fin 256
  c : Fin 256
  d : Fin 256

/-- The host of a URL that is neither `http` nor `https` can be any text. -/
inductive Host where
  | domain (name : Domain)
  | ipv4 (address : Ipv4)
  | ipv6 (address : BitVec 128)
  | other (text : List Char)

def Host.IsNetwork : Host → Prop
  | .other _ => False
  | _ => True

structure Url where
  scheme : List Char
  username : List Char
  password : List Char
  host : Option Host
  path : List Char
  query : Option (List Char)
  fragment : Option (List Char)
  hosted : scheme = "http".toList ∨ scheme = "https".toList → ∃ net, host = some net ∧ net.IsNetwork

/-! ## Numbers -/

/-- Digits with an optional exponent. -/
def readDecimal (text : List Char) : Option Rat := do
  let digits := text.takeWhile Char.isDigit
  let mantissa ← readDigits 10 digits
  match text.drop digits.length with
  | [] => some mantissa
  | e :: '-' :: more =>
    if e = 'e' ∨ e = 'E' then (readDigits 10 more).map fun n => mantissa / 10 ^ n else none
  | e :: '+' :: more =>
    if e = 'e' ∨ e = 'E' then (readDigits 10 more).map fun n => mantissa * 10 ^ n else none
  | e :: more =>
    if e = 'e' ∨ e = 'E' then (readDigits 10 more).map fun n => mantissa * 10 ^ n else none

/-- `Number` of a text without dots and spaces, before it is rounded; `none` for `NaN` and the
infinities. -/
def number (label : List Char) : Option Rat :=
  match label with
  | [] => some 0
  | '0' :: 'x' :: ds | '0' :: 'X' :: ds => (readDigits 16 ds).map fun n => (n : Rat)
  | '0' :: 'o' :: ds | '0' :: 'O' :: ds => (readDigits 8 ds).map fun n => (n : Rat)
  | '0' :: 'b' :: ds | '0' :: 'B' :: ds => (readDigits 2 ds).map fun n => (n : Rat)
  | '+' :: ds => readDecimal ds
  | '-' :: ds => (readDecimal ds).map fun q => -q
  | ds => readDecimal ds

/-- Half the distance from a byte to the doubles below and above it. -/
def below (n : Nat) : Rat :=
  if n = 0 then 1 / 2 ^ 1075
  else if 2 ^ n.log2 = n then 1 / 2 ^ (54 - n.log2) else 1 / 2 ^ (53 - n.log2)

def above (n : Nat) : Rat := if n = 0 then 1 / 2 ^ 1075 else 1 / 2 ^ (53 - n.log2)

/-- The byte that the double nearest to a rational is; a tie goes to the byte, whose last digit
is even. -/
def nearestByte (q : Rat) : Option Nat :=
  (List.range 256).find? fun n => n - below n ≤ q && q ≤ n + above n

def octet (label : List Char) : Option Nat := (number label).bind nearestByte

theorem gap_bounds {k : Nat} (positive : 1 ≤ k) : (0 : Rat) ≤ 1 / 2 ^ k ∧ (1 : Rat) / 2 ^ k < 1 := by
  refine ⟨by positivity, ?_⟩
  rw [div_lt_one (by positivity)]
  exact one_lt_pow₀ (by norm_num) (by omega)

variable {n : Nat}

theorem log2_of_byte (isByte : n < 256) : n.log2 < 8 := by
  rcases Nat.eq_zero_or_pos n with rfl | positive
  · decide
  · exact (Nat.log2_lt (by omega)).mpr isByte

theorem below_bounds (isByte : n < 256) : 0 ≤ below n ∧ below n < 1 := by
  have few := log2_of_byte isByte
  unfold below
  split_ifs <;> exact gap_bounds (by omega)

theorem above_bounds (isByte : n < 256) : 0 ≤ above n ∧ above n < 1 := by
  have few := log2_of_byte isByte
  unfold above
  split_ifs <;> exact gap_bounds (by omega)

theorem nearestByte_cast (isByte : n < 256) : nearestByte n = some n := by
  unfold nearestByte
  rw [List.find?_range_eq_some]
  obtain ⟨belowFrom, -⟩ := below_bounds isByte
  obtain ⟨aboveFrom, -⟩ := above_bounds isByte
  refine ⟨?_, by simpa using isByte, ?_⟩
  · simp only [Bool.and_eq_true, decide_eq_true_eq]
    constructor <;> linarith
  · intro m less
    obtain ⟨-, small⟩ := above_bounds (less.trans isByte)
    have apart : (m : Rat) + 1 ≤ n := by exact_mod_cast less
    simp only [Bool.not_eq_true', Bool.and_eq_false_iff, decide_eq_false_iff_not, not_le]
    exact .inr (by linarith)

theorem number_toDigits : ∀ n : Fin 256, number (Nat.toDigits 10 n) = some (n.val : Rat) := by
  decide +kernel

theorem octet_toDigits (n : Fin 256) : octet (Nat.toDigits 10 n) = some n.val := by
  rw [octet, number_toDigits, Option.bind_some, nearestByte_cast n.isLt]

end Kuku.Theory.WebUrl
