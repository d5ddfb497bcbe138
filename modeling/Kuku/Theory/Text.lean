/-
# Theory.Text -- string operations computed on their characters

Both ends of the protocol trim, split, compare and rewrite strings.  Each
operation here is a function of the character list, so it computes by `decide`
on literals and its lemmas are list lemmas.

`isSpace` is the Unicode `White_Space` property, which Rust's `str::trim` and
Go's `strings.TrimSpace` share.
-/
import Mathlib

namespace Kuku.Theory.Text

open List

/-- One proof for the tests of membership in all modules. -/
instance lawfulBEq : LawfulBEq (List Char) := inferInstance

/-- The Unicode `White_Space` property. -/
def isSpace (c : Char) : Bool :=
  let n := c.toNat
  (9 ≤ n && n ≤ 13) || n == 32 || n == 0x85 || n == 0xA0 || n == 0x1680 ||
    (0x2000 ≤ n && n ≤ 0x200A) || n == 0x2028 || n == 0x2029 || n == 0x202F ||
    n == 0x205F || n == 0x3000

/-- Strip white space from both ends. -/
def trim (s : String) : String :=
  String.ofList ((s.toList.dropWhile isSpace).reverse.dropWhile isSpace).reverse

/-- `s.trim().is_empty()`. -/
def isBlank (s : String) : Bool := s.toList.all isSpace

/-- ASCII lower case of one character; every other character is unchanged. -/
def asciiLowerChar (c : Char) : Char :=
  if 'A' ≤ c ∧ c ≤ 'Z' then Char.ofNat (c.toNat + 32) else c

def asciiLower (s : String) : String := String.ofList (s.toList.map asciiLowerChar)

def utf8 (s : String) : List UInt8 := s.toList.flatMap String.utf8EncodeChar

/-- The pieces between the occurrences of a character, the empty ones included. -/
def split (sep : Char) (s : String) : List String := (s.toList.splitOn sep).map String.ofList

/-- Join pieces with a separator between them. -/
def join (sep : Char) (pieces : List String) : String :=
  String.ofList (List.intercalate [sep] (pieces.map String.toList))

/-- `needle` occurs in `s`. -/
def contains (s needle : String) : Bool :=
  s.toList.tails.any fun rest => needle.toList.isPrefixOf rest

/-- The pieces between runs of white space, none of them empty. -/
def words (s : String) : List String :=
  ((s.toList.splitOnP isSpace).filter fun word => !word.isEmpty).map String.ofList

/-- The bytes decoded as UTF-8, if they are valid. -/
def decodeUtf8 (bytes : List UInt8) : Option (List Char) :=
  (ByteArray.mk bytes.toArray).utf8Decode?.map Array.toList

def startsWith (s p : String) : Bool := p.toList.isPrefixOf s.toList

def endsWith (s p : String) : Bool := p.toList.isSuffixOf s.toList

/-- What follows a prefix. -/
def stripPrefix (p s : List Char) : Option (List Char) :=
  if p.isPrefixOf s then some (s.drop p.length) else none

/-- What stands before and after the first occurrence of a text. -/
def cut (needle : List Char) : List Char → Option (List Char × List Char)
  | [] => if needle = [] then some ([], []) else none
  | c :: rest =>
    if needle.isPrefixOf (c :: rest) then some ([], (c :: rest).drop needle.length)
    else (cut needle rest).map fun parts => (c :: parts.1, parts.2)

theorem cut_singleton {c : Char} {before after : List Char} (absent : c ∉ before) :
    cut [c] (before ++ c :: after) = some (before, after) := by
  induction before with
  | nil => simp [cut]
  | cons d before ih =>
    rw [mem_cons, not_or] at absent
    rw [cons_append, cut, ih absent.2]
    simp [absent.1]

theorem trim_eq_self {s : String} (solid : ∀ c ∈ s.toList, isSpace c = false) : trim s = s := by
  have keeps : ∀ cs : List Char, (∀ c ∈ cs, isSpace c = false) → cs.dropWhile isSpace = cs := by
    intro cs all
    cases cs with
    | nil => rfl
    | cons c rest => simp [all c mem_cons_self]
  have keepsEnd : s.toList.reverse.dropWhile isSpace = s.toList.reverse := by
    apply keeps
    intro c member
    exact solid c (mem_reverse.mp member)
  rw [trim, keeps _ solid, keepsEnd, reverse_reverse, String.ofList_toList]

@[simp] theorem trim_trim (s : String) : trim (trim s) = trim s := by
  -- a prefix of a list that starts with no space starts with no space
  have start : ∀ cs : List Char, cs.dropWhile isSpace = cs →
      (cs.rdropWhile isSpace).dropWhile isSpace = cs.rdropWhile isSpace := by
    intro cs settled
    obtain ⟨tail, isTail⟩ := rdropWhile_prefix isSpace (l := cs)
    cases shape : cs.rdropWhile isSpace with
    | nil => rfl
    | cons c rest =>
      have isHead : cs = c :: (rest ++ tail) := by
        rw [← isTail, shape, cons_append]
      rw [isHead] at settled
      rw [dropWhile_eq_self_iff] at settled ⊢
      intro nonempty
      exact settled (by simp)
  have once : (s.toList.dropWhile isSpace).dropWhile isSpace = s.toList.dropWhile isSpace :=
    dropWhile_idempotent isSpace _
  have asTrim : ∀ t : String,
      trim t = String.ofList ((t.toList.dropWhile isSpace).rdropWhile isSpace) := fun _ => rfl
  rw [asTrim (trim s), asTrim s, String.toList_ofList, start _ once, rdropWhile_idempotent isSpace]

/-! ## The ends of a text -/

/-- The first character is white space. -/
def leadsWithSpace (s : String) : Bool := s.toList.head?.any isSpace

/-- The last character is white space. -/
def trailsWithSpace (s : String) : Bool := s.toList.getLast?.any isSpace

theorem toList_trim (s : String) :
    (trim s).toList = (s.toList.dropWhile isSpace).rdropWhile isSpace := by
  rw [trim, String.toList_ofList]
  rfl

theorem trim_infix (s : String) : (trim s).toList <:+: s.toList := by
  rw [toList_trim]
  exact (List.rdropWhile_prefix isSpace _).isInfix.trans (dropWhile_suffix isSpace).isInfix

theorem trailsWithSpace_trim (s : String) : trailsWithSpace (trim s) = false := by
  rw [trailsWithSpace, toList_trim]
  generalize s.toList.dropWhile isSpace = cs
  by_cases isEmpty : cs.rdropWhile isSpace = []
  · rw [isEmpty]
    rfl
  · rw [getLast?_eq_some_getLast isEmpty]
    simpa using rdropWhile_last_not isSpace cs isEmpty

theorem leadsWithSpace_trim (s : String) : leadsWithSpace (trim s) = false := by
  rw [leadsWithSpace, toList_trim]
  obtain ⟨tail, isTail⟩ := rdropWhile_prefix isSpace (l := s.toList.dropWhile isSpace)
  cases front : (s.toList.dropWhile isSpace).rdropWhile isSpace with
  | nil => rfl
  | cons c rest =>
    rw [front, cons_append] at isTail
    have settled := dropWhile_idempotent isSpace s.toList
    rw [← isTail, dropWhile_eq_self_iff] at settled
    have notSpace := settled (by simp)
    simpa using notSpace

/-- What has no white space at its ends is not trimmed. -/
theorem trim_of_ends {s : String} (start : leadsWithSpace s = false)
    (stop : trailsWithSpace s = false) : trim s = s := by
  have front : s.toList.dropWhile isSpace = s.toList := by
    rw [dropWhile_eq_self_iff]
    intro nonempty
    rw [leadsWithSpace, head?_eq_some_head (ne_nil_of_length_pos nonempty)] at start
    simpa [head_eq_getElem] using start
  have back : s.toList.rdropWhile isSpace = s.toList := by
    rw [rdropWhile_eq_self_iff]
    intro nonempty
    rw [trailsWithSpace, getLast?_eq_some_getLast nonempty] at stop
    simpa using stop
  rw [← String.toList_inj, toList_trim, front, back]

theorem countP_trim {p : Char → Bool} (other : ∀ c, isSpace c = true → p c = false) (s : String) :
    (trim s).toList.countP p = s.toList.countP p := by
  have dropped : ∀ cs : List Char, (∀ c ∈ cs, isSpace c = true) → cs.countP p = 0 := by
    intro cs all
    rw [countP_eq_zero]
    intro c among
    simp [other c (all c among)]
  have front : (s.toList.dropWhile isSpace).countP p = s.toList.countP p := by
    conv_rhs => rw [← takeWhile_append_dropWhile (p := isSpace) (l := s.toList)]
    rw [countP_append, dropped _ fun c among => mem_takeWhile_imp among, Nat.zero_add]
  rw [toList_trim, ← front]
  generalize s.toList.dropWhile isSpace = cs
  conv_rhs => rw [← reverse_reverse cs, countP_reverse,
    ← takeWhile_append_dropWhile (p := isSpace) (l := cs.reverse)]
  rw [countP_append, dropped _ fun c among => mem_takeWhile_imp among, Nat.zero_add,
    List.rdropWhile, countP_reverse]

/-- White space at the ends is between no words. -/
@[simp] theorem words_trim (s : String) : words (trim s) = words s := by
  have inner : ∀ cs : List Char, ((cs.dropWhile isSpace).splitOnP isSpace).filter
      (fun word => !word.isEmpty) = (cs.splitOnP isSpace).filter fun word => !word.isEmpty := by
    intro cs
    induction cs with
    | nil => rfl
    | cons c rest ih =>
      cases isSpaced : isSpace c with
      | true => simpa [isSpaced, splitOnP_cons_eq_if_modifyHead] using ih
      | false => simp [isSpaced]
  have snoc : ∀ (cs : List Char) (c : Char), isSpace c = true →
      (cs ++ [c]).splitOnP isSpace = cs.splitOnP isSpace ++ [[]] := by
    intro cs c isSpaced
    induction cs with
    | nil => simp [splitOnP_cons_eq_if_modifyHead, isSpaced]
    | cons d rest ih =>
      rw [cons_append, splitOnP_cons_eq_if_modifyHead, splitOnP_cons_eq_if_modifyHead, ih]
      split
      · rfl
      · cases pieces : rest.splitOnP isSpace with
        | nil => exact absurd pieces (splitOnP_ne_nil _ _)
        | cons piece more => rfl
  have ending : ∀ cs : List Char, ((cs.rdropWhile isSpace).splitOnP isSpace).filter
      (fun word => !word.isEmpty) = (cs.splitOnP isSpace).filter fun word => !word.isEmpty := by
    intro cs
    induction cs using List.reverseRecOn with
    | nil => rfl
    | append_singleton rest c ih =>
      cases isSpaced : isSpace c with
      | true =>
        rw [rdropWhile_concat_pos _ _ _ isSpaced, ih, snoc rest c isSpaced]
        simp
      | false => rw [rdropWhile_concat_neg _ _ _ (by simp [isSpaced])]
  rw [words, words, toList_trim, ending, inner]

end Kuku.Theory.Text
