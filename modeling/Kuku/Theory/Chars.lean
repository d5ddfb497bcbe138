/-
# Theory.Chars -- Rust's `str`, as the list of its characters

The operations of `str` that look at white space, at bytes or at a separator, on
character lists.  Lengths and offsets count the bytes of the UTF-8 encoding, as `str`
does; an offset inside a character does not occur, because every cut falls on one.
-/
import Kuku.Theory.Text

namespace Kuku.Theory.Chars

/-- `str::len`: the bytes of the UTF-8 encoding. -/
def len (s : List Char) : Nat := (s.map Char.utf8Size).sum

def trim (s : List Char) : List Char := (s.dropWhile Text.isSpace).rdropWhile Text.isSpace

/-- `str::split_whitespace`. -/
def splitWhitespace (s : List Char) : List (List Char) :=
  (s.splitOnP Text.isSpace).filter fun word => !word.isEmpty

def join (separator : List Char) (parts : List (List Char)) : List Char :=
  List.intercalate separator parts

/-- `str::contains`. -/
def contains (s needle : List Char) : Bool := s.tails.any needle.isPrefixOf

/-- What stands after the last occurrence of a text: `rsplit_once`, its second part. -/
def afterLast (needle : List Char) : List Char → Option (List Char)
  | [] => if needle = [] then some [] else none
  | c :: rest =>
    match afterLast needle rest with
    | some after => some after
    | none =>
      if needle.isPrefixOf (c :: rest) then some ((c :: rest).drop needle.length) else none

/-- `str::replace` of one character. -/
def replaceChar (a : Char) (b s : List Char) : List Char :=
  s.flatMap fun c => if c = a then b else [c]

/-- The longest prefix of at most `bytes` bytes. -/
def takeBytes : Nat → List Char → List Char
  | _, [] => []
  | bytes, c :: rest =>
    if c.utf8Size ≤ bytes then c :: takeBytes (bytes - c.utf8Size) rest else []

/-- `usize::to_string`. -/
def ofNat (n : Nat) : List Char := Nat.toDigits 10 n

end Kuku.Theory.Chars
