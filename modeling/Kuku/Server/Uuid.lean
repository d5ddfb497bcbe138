/-
# Server.Uuid -- the text form of a UUID

`uuidString` is `uuid.UUID.String()`, 32 lower-case digits in five groups, and
`uuidParse` is `uuid.Parse`, which also reads three other forms and upper-case
digits.  `parseUUID` is the check a handler makes of an id in a request.
`uuidParse_uuidString`: what the first writes the second reads back.
-/
import Kuku.Server.PublishCommit
import Kuku.Theory.Json

namespace Kuku.Server

open Kuku.Theory List

/-- The `k` last digits of a number in base 16, the first digit first. -/
def hexDigits : Nat → Nat → List Nat
  | 0, _ => []
  | k + 1, n => hexDigits k (n / 16) ++ [n % 16]

/-- The number with these digits. -/
def hexValue (digits : List Nat) : Nat := digits.foldl (fun n d => n * 16 + d) 0

/-- 32 digits in groups of 8, 4, 4, 4 and 12. -/
def grouped {α : Type} (hyphen : α) (digits : List α) : List α :=
  digits.take 8 ++ hyphen :: (digits.drop 8).take 4 ++ hyphen :: (digits.drop 12).take 4 ++
    hyphen :: (digits.drop 16).take 4 ++ hyphen :: digits.drop 20

/-- `uuid.UUID.String`. -/
def uuidString (id : Uuid) : String :=
  String.ofList (grouped '-' ((hexDigits 32 id.toNat).map Json.hexDigit))

def hexDigitValue (c : Char) : Option Nat :=
  if '0' ≤ c ∧ c ≤ '9' then some (c.toNat - 48)
  else if 'a' ≤ c ∧ c ≤ 'f' then some (c.toNat - 87)
  else if 'A' ≤ c ∧ c ≤ 'F' then some (c.toNat - 55)
  else none

def parseDigits (cs : List Char) : Option Uuid :=
  (cs.mapM hexDigitValue).map fun digits => BitVec.ofNat 128 (hexValue digits)

/-- The 36 characters at the front, with hyphens in the four places. -/
def parseGrouped (cs : List Char) : Option Uuid :=
  if cs.getD 8 ' ' = '-' ∧ cs.getD 13 ' ' = '-' ∧ cs.getD 18 ' ' = '-' ∧ cs.getD 23 ' ' = '-' then
    parseDigits (cs.take 8 ++ (cs.drop 9).take 4 ++ (cs.drop 14).take 4 ++ (cs.drop 19).take 4 ++
      (cs.drop 24).take 12)
  else none

/-- The bytes of a string, as the characters Go's indexing sees. -/
def byteChars (s : String) : List Char := (Text.utf8 s).map fun b => Char.ofNat b.toNat

/-- `uuid.Parse`: by the length, the plain form, a URN, a form in braces (whose braces are
not looked at) or the digits alone. -/
def uuidParse (s : String) : Option Uuid :=
  let cs := byteChars s
  if cs.length = 36 then parseGrouped cs
  else if cs.length = 45 then
    if (cs.take 9).map Text.asciiLowerChar = "urn:uuid:".toList then parseGrouped (cs.drop 9)
    else none
  else if cs.length = 38 then parseGrouped (cs.drop 1)
  else if cs.length = 32 then parseDigits cs
  else none

def parseUUID (value : String) : Option Uuid := (uuidParse (Text.trim value)).filter (· ≠ Uuid.nil)

/-! ## Round trip -/

@[simp] theorem length_hexDigits (k n : Nat) : (hexDigits k n).length = k := by
  induction k generalizing n with
  | zero => rfl
  | succ k ih => simp [hexDigits, ih]

theorem lt_of_mem_hexDigits {k n d : Nat} (member : d ∈ hexDigits k n) : d < 16 := by
  induction k generalizing n with
  | zero => cases member
  | succ k ih =>
    simp only [hexDigits, mem_append, mem_singleton] at member
    rcases member with earlier | rfl
    · exact ih earlier
    · exact Nat.mod_lt n (by decide)

theorem hexValue_hexDigits {k n : Nat} (small : n < 16 ^ k) : hexValue (hexDigits k n) = n := by
  induction k generalizing n with
  | zero =>
    rw [Nat.lt_one_iff.mp small]
    rfl
  | succ k ih =>
    have front : n / 16 < 16 ^ k := Nat.div_lt_of_lt_mul (by rwa [Nat.pow_succ'] at small)
    have split : hexValue (hexDigits k (n / 16) ++ [n % 16]) =
        hexValue (hexDigits k (n / 16)) * 16 + n % 16 := by
      simp [hexValue]
    rw [hexDigits, split, ih front]
    exact Nat.div_add_mod' n 16

theorem hexDigitValue_hexDigit {d : Nat} (small : d < 16) :
    hexDigitValue (Json.hexDigit d) = some d := by
  have all : ∀ d : Fin 16, hexDigitValue (Json.hexDigit d) = some d.val := by decide
  exact all ⟨d, small⟩

theorem mapM_hexDigitValue {digits : List Nat} (small : ∀ d ∈ digits, d < 16) :
    (digits.map Json.hexDigit).mapM hexDigitValue = some digits := by
  induction digits with
  | nil => rfl
  | cons d rest ih =>
    have isDigit := hexDigitValue_hexDigit (small d mem_cons_self)
    have isRest := ih fun d' member => small d' (mem_cons_of_mem d member)
    simp [isDigit, isRest]

theorem parseDigits_hexDigits (id : Uuid) :
    parseDigits ((hexDigits 32 id.toNat).map Json.hexDigit) = some id := by
  have small : id.toNat < 16 ^ 32 := id.isLt
  rw [parseDigits, mapM_hexDigitValue fun _ => lt_of_mem_hexDigits, Option.map_some,
    hexValue_hexDigits small]
  simp

/-- 32 digits written in groups are read back. -/
theorem parseGrouped_grouped {digits : List Char} (isLength : digits.length = 32) :
    parseGrouped (grouped '-' digits) = parseDigits digits := by
  match digits, isLength with
  | [d0, d1, d2, d3, d4, d5, d6, d7, d8, d9, d10, d11, d12, d13, d14, d15,
      d16, d17, d18, d19, d20, d21, d22, d23, d24, d25, d26, d27, d28, d29, d30, d31], _ => rfl

theorem length_grouped {α : Type} {hyphen : α} {digits : List α} (isLength : digits.length = 32) :
    (grouped hyphen digits).length = 36 := by
  simp [grouped, isLength]

theorem mem_grouped {α : Type} {a hyphen : α} {digits : List α}
    (member : a ∈ grouped hyphen digits) : a = hyphen ∨ a ∈ digits := by
  simp only [grouped, mem_append, mem_cons] at member
  rcases member with (((inTake | isHyphen | inTake) | isHyphen | inTake) |
    isHyphen | inTake) | isHyphen | inDrop
  · exact .inr (mem_of_mem_take inTake)
  · exact .inl isHyphen
  · exact .inr (mem_of_mem_drop (mem_of_mem_take inTake))
  · exact .inl isHyphen
  · exact .inr (mem_of_mem_drop (mem_of_mem_take inTake))
  · exact .inl isHyphen
  · exact .inr (mem_of_mem_drop (mem_of_mem_take inTake))
  · exact .inl isHyphen
  · exact .inr (mem_of_mem_drop inDrop)

theorem uuidString_char {id : Uuid} {c : Char} (member : c ∈ (uuidString id).toList) :
    c = '-' ∨ ∃ d : Fin 16, c = Json.hexDigit d := by
  rw [uuidString, String.toList_ofList] at member
  rcases mem_grouped member with isHyphen | isDigit
  · exact .inl isHyphen
  · obtain ⟨d, inDigits, rfl⟩ := mem_map.mp isDigit
    have small : d < 16 := lt_of_mem_hexDigits inDigits
    exact .inr ⟨⟨d, small⟩, rfl⟩

theorem uuidString_ascii {id : Uuid} {c : Char} (member : c ∈ (uuidString id).toList) :
    c.toNat < 128 ∧ Text.isSpace c = false := by
  have all : ∀ d : Fin 16, (Json.hexDigit d).toNat < 128 ∧
      Text.isSpace (Json.hexDigit d) = false := by decide
  rcases uuidString_char member with rfl | ⟨d, rfl⟩
  · decide
  · exact all d

theorem byteChars_ascii {s : String} (ascii : ∀ c ∈ s.toList, c.toNat < 128) :
    byteChars s = s.toList := by
  have one : ∀ c : Char, c.toNat < 128 →
      (String.utf8EncodeChar c).map (fun b => Char.ofNat b.toNat) = [c] := by
    intro c small
    have inOne : c.val.toNat ≤ 0x7f := Nat.le_of_lt_succ small
    have isByte : (UInt8.ofNat c.val.toNat).toNat = c.toNat :=
      UInt8.toNat_ofNat_of_lt' (Nat.lt_trans small (by decide))
    rw [String.utf8EncodeChar, if_pos inOne, map_singleton, isByte, Char.ofNat_toNat]
  rw [byteChars, Text.utf8, map_flatMap]
  conv_rhs => rw [← flatMap_singleton' s.toList]
  exact flatMap_congr fun c member => one c (ascii c member)

theorem uuidParse_uuidString (id : Uuid) : uuidParse (uuidString id) = some id := by
  have isLength : ((hexDigits 32 id.toNat).map Json.hexDigit).length = 32 := by simp
  have isText : byteChars (uuidString id) =
      grouped '-' ((hexDigits 32 id.toNat).map Json.hexDigit) := by
    rw [byteChars_ascii fun c member => (uuidString_ascii member).1, uuidString,
      String.toList_ofList]
  rw [uuidParse, isText, if_pos (length_grouped isLength), parseGrouped_grouped isLength, parseDigits_hexDigits]

/-- A handler reads an id back from its text, unless it is the nil id. -/
theorem parseUUID_uuidString {id : Uuid} (notNil : id ≠ Uuid.nil) :
    parseUUID (uuidString id) = some id := by
  rw [parseUUID, Text.trim_eq_self fun c member => (uuidString_ascii member).2,
    uuidParse_uuidString]
  simp [notNil]

end Kuku.Server
