/-
# Theory.Json -- the compact JSON of a flat record

A flat record is a list of named fields, each a text, an integer or a list of
texts.  `encode` writes it without white space, in the order of its fields, and
leaves one thing open: how a character of a text is escaped.  Two writers that
differ only there write the same bytes for a record whose characters they escape
alike (`encode_congr`).

`serdeEscape` and `goEscape` are the tables of `serde_json` and of Go's
`encoding/json`.  Go also escapes what HTML and JavaScript would stumble over.
-/
import Kuku.Theory.Text

namespace Kuku.Theory.Json

open List

inductive Value where
  | text (value : String)
  | number (value : Int)
  | texts (values : List String)

abbrev Record := List (String × Value)

section Encode

variable (escape : Char → List Char)

def quoted (s : String) : List Char := '"' :: s.toList.flatMap escape ++ ['"']

def value : Value → List Char
  | .text s => quoted escape s
  | .number n => (toString n).toList
  | .texts values => '[' :: List.intercalate [','] (values.map (quoted escape)) ++ [']']

def field (entry : String × Value) : List Char :=
  quoted escape entry.1 ++ ':' :: value escape entry.2

/-- The bytes of a record. -/
def encode (record : Record) : List UInt8 :=
  Text.utf8 (String.ofList ('{' :: List.intercalate [','] (record.map (field escape)) ++ ['}']))

end Encode

/-! ## Escapes -/

def hexDigit (n : Nat) : Char :=
  if n < 10 then Char.ofNat (48 + n) else Char.ofNat (87 + n)

/-- The escape `\uXXXX`, in lower-case digits. -/
def unicodeEscape (c : Char) : List Char :=
  let n := c.toNat
  ['\\', 'u', hexDigit (n / 4096 % 16), hexDigit (n / 256 % 16), hexDigit (n / 16 % 16),
    hexDigit (n % 16)]

/-- The escapes JSON asks for. -/
def serdeEscape (c : Char) : List Char :=
  if c = '"' then ['\\', '"']
  else if c = '\\' then ['\\', '\\']
  else if c.toNat = 8 then ['\\', 'b']
  else if c.toNat = 9 then ['\\', 't']
  else if c.toNat = 10 then ['\\', 'n']
  else if c.toNat = 12 then ['\\', 'f']
  else if c.toNat = 13 then ['\\', 'r']
  else if c.toNat < 32 then unicodeEscape c
  else [c]

/-- `json.Marshal` escapes three characters of HTML and two line separators besides. -/
def goEscape (c : Char) : List Char :=
  if c = '<' ∨ c = '>' ∨ c = '&' ∨ c.toNat = 0x2028 ∨ c.toNat = 0x2029 then unicodeEscape c
  else serdeEscape c

/-! ## Arrays of texts -/

/-- A string as `serde_json` writes it. -/
def string (text : List Char) : List Char := '"' :: (text.flatMap serdeEscape ++ ['"'])

def strings (texts : List (List Char)) : List Char :=
  '[' :: (List.intercalate [','] (texts.map string) ++ [']'])

def hexValue (c : Char) : Nat :=
  if c.toNat < 58 then c.toNat - 48 else c.toNat - 87

/-- The character of an escape of two characters. -/
def unescape (c : Char) : Char :=
  if c = 'b' then Char.ofNat 8
  else if c = 't' then Char.ofNat 9
  else if c = 'n' then Char.ofNat 10
  else if c = 'f' then Char.ofNat 12
  else if c = 'r' then Char.ofNat 13
  else c

/-- The text up to its closing quote, and what follows. -/
def readString : List Char → Option (List Char × List Char)
  | [] => none
  | c :: rest =>
    if c = '"' then some ([], rest)
    else if c = '\\' then
      match rest with
      | 'u' :: c₃ :: c₂ :: c₁ :: c₀ :: rest =>
        (readString rest).map (Prod.map (Char.ofNat (((hexValue c₃ * 16 + hexValue c₂) * 16 +
          hexValue c₁) * 16 + hexValue c₀) :: ·) id)
      | escaped :: rest => (readString rest).map (Prod.map (unescape escaped :: ·) id)
      | [] => none
    else (readString rest).map (Prod.map (c :: ·) id)

/-- The strings up to the closing bracket; `fuel` bounds their number. -/
def readItems : Nat → List Char → Option (List (List Char))
  | fuel + 1, '"' :: input =>
    match readString input with
    | some (text, [']']) => some [text]
    | some (text, ',' :: rest) => (readItems fuel rest).map (text :: ·)
    | _ => none
  | _, _ => none

/-- A reader of what `strings` writes. -/
def readStrings : List Char → Option (List (List Char))
  | ['[', ']'] => some []
  | '[' :: rest => readItems rest.length rest
  | _ => none

theorem readString_unicodeEscape {c : Char} (control : c.toNat < 32) (rest : List Char) :
    readString (unicodeEscape c ++ rest) = (readString rest).map (Prod.map (c :: ·) id) := by
  have digit : ∀ n < 16, hexValue (hexDigit n) = n := by decide
  have value : ((hexValue (hexDigit (c.toNat / 4096 % 16)) * 16 +
      hexValue (hexDigit (c.toNat / 256 % 16))) * 16 +
      hexValue (hexDigit (c.toNat / 16 % 16))) * 16 + hexValue (hexDigit (c.toNat % 16)) =
      c.toNat := by
    simp only [digit _ (Nat.mod_lt _ (by omega : 0 < 16))]
    omega
  have isFirst : ('\\' : Char) ≠ '"' := by decide
  simp only [unicodeEscape, List.cons_append, List.nil_append]
  rw [readString, if_neg isFirst, if_pos rfl]
  simp only [value, Char.ofNat_toNat]

theorem readString_serdeEscape (c : Char) (rest : List Char) :
    readString (serdeEscape c ++ rest) = (readString rest).map (Prod.map (c :: ·) id) := by
  have ofCode : ∀ n, c.toNat = n → c = Char.ofNat n :=
    fun n isCode => isCode ▸ (Char.ofNat_toNat c).symm
  have isFirst : ('\\' : Char) ≠ '"' := by decide
  have short : ∀ escaped : Char, escaped ≠ 'u' →
      readString (['\\', escaped] ++ rest) =
        (readString rest).map (Prod.map (unescape escaped :: ·) id) := by
    intro escaped plain
    simp only [cons_append, nil_append]
    rw [readString, if_neg isFirst, if_pos rfl]
    exact fun _ _ _ _ _ isLong _ => plain isLong
  unfold serdeEscape
  split_ifs with isQuote isSlash isB isT isN isF isR control
  · rw [short '"' (by decide), isQuote]
    rfl
  · rw [short '\\' (by decide), isSlash]
    rfl
  · rw [short 'b' (by decide), ofCode 8 isB]
    rfl
  · rw [short 't' (by decide), ofCode 9 isT]
    rfl
  · rw [short 'n' (by decide), ofCode 10 isN]
    rfl
  · rw [short 'f' (by decide), ofCode 12 isF]
    rfl
  · rw [short 'r' (by decide), ofCode 13 isR]
    rfl
  · exact readString_unicodeEscape control rest
  · rw [List.singleton_append, readString.eq_def]
    simp only [if_neg isQuote, if_neg isSlash]

theorem readString_string (text rest : List Char) :
    readString (text.flatMap serdeEscape ++ '"' :: rest) = some (text, rest) := by
  induction text with
  | nil =>
    rw [flatMap_nil, nil_append, readString.eq_def]
    exact if_pos rfl
  | cons c text ih =>
    rw [flatMap_cons, append_assoc, readString_serdeEscape, ih]
    rfl

theorem readItems_strings {texts : List (List Char)} {fuel : Nat} (nonempty : texts ≠ [])
    (enough : texts.length ≤ fuel) :
    readItems fuel (List.intercalate [','] (texts.map string) ++ [']']) = some texts := by
  induction texts generalizing fuel with
  | nil => exact absurd rfl nonempty
  | cons text texts ih =>
    obtain ⟨fuel, rfl⟩ : ∃ n, fuel = n + 1 :=
      ⟨fuel - 1, by simp only [length_cons] at enough; omega⟩
    cases texts with
    | nil =>
      simp only [map_cons, map_nil, intercalate_singleton, string,
        cons_append, append_assoc, nil_append]
      rw [readItems, readString_string]
      rfl
    | cons next texts =>
      have rest := ih (cons_ne_nil _ _) (Nat.le_of_succ_le_succ enough)
      simp only [map_cons, intercalate_cons_cons, string, cons_append,
        append_assoc, nil_append] at rest ⊢
      rw [readItems, readString_string]
      simp only [rest, Option.map_some]

theorem length_le_intercalate (texts : List (List Char)) :
    texts.length ≤ (List.intercalate [','] (texts.map string)).length := by
  induction texts with
  | nil => exact Nat.zero_le _
  | cons text texts ih =>
    cases texts with
    | nil => simp [string]
    | cons next texts =>
      simp only [map_cons, intercalate_cons_cons, length_append, length_cons] at ih ⊢
      omega

/-- **What is written is read back.** -/
theorem readStrings_strings (texts : List (List Char)) :
    readStrings (strings texts) = some texts := by
  cases texts with
  | nil => rfl
  | cons text texts =>
    have enough : (text :: texts).length ≤
        (List.intercalate [','] ((text :: texts).map string) ++ [']']).length := by
      have := length_le_intercalate (text :: texts)
      rw [length_append]
      omega
    have items := readItems_strings (cons_ne_nil text texts) enough
    rw [strings, readStrings]
    · exact items
    · intro isEmpty
      rw [map_cons] at isEmpty
      cases texts <;> simp [string] at isEmpty

/-! ## Equal bytes -/

def Value.chars : Value → List Char
  | .text s => s.toList
  | .number _ => []
  | .texts values => values.flatMap String.toList

variable {f g : Char → List Char}

theorem quoted_congr {s : String} (same : ∀ c ∈ s.toList, f c = g c) : quoted f s = quoted g s := by
  rw [quoted, quoted, flatMap_congr same]

theorem value_congr {v : Value} (same : ∀ c ∈ v.chars, f c = g c) : value f v = value g v := by
  cases v with
  | text s => exact quoted_congr same
  | number n => rfl
  | texts values =>
    have each : values.map (quoted f) = values.map (quoted g) := by
      apply map_congr_left
      intro s member
      apply quoted_congr
      intro c isChar
      exact same c (mem_flatMap.mpr ⟨s, member, isChar⟩)
    rw [value, value, each]

/-- **Writers that escape the characters of a record alike write the same bytes.** -/
theorem encode_congr {record : Record} (names : ∀ entry ∈ record, ∀ c ∈ entry.1.toList, f c = g c)
    (values : ∀ entry ∈ record, ∀ c ∈ entry.2.chars, f c = g c) :
    encode f record = encode g record := by
  have each : record.map (field f) = record.map (field g) := by
    apply map_congr_left
    intro entry member
    rw [field, field, quoted_congr (names entry member), value_congr (values entry member)]
  rw [encode, encode, each]

end Kuku.Theory.Json
