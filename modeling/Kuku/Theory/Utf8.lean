/-
# Theory.Utf8 -- reading back the bytes of a text

What `Text.utf8` writes, `Text.decodeUtf8` reads (`decodeUtf8_utf8`), and what is read was
written (`utf8_of_decodeUtf8`).  A text of ASCII is its characters' numbers
(`utf8_of_isAscii`), and the number of an ASCII character is a byte of a text where that
character is in it (`mem_utf8_iff`).
-/
import Kuku.Theory.Text

namespace Kuku.Theory.Text

open List Option

variable {s : String} {c : Char} {byte : UInt8}

theorem decodeUtf8_utf8 (s : String) : decodeUtf8 (utf8 s) = some s.toList := by
  have isEncoded : ByteArray.mk (utf8 s).toArray = s.toList.utf8Encode := by
    apply ByteArray.ext
    rw [List.utf8Encode, data_toByteArray, utf8]
  rw [decodeUtf8, isEncoded, utf8Decode?_utf8Encode]
  rfl

def isAscii (c : Char) : Bool := c.toNat < 128

theorem utf8EncodeChar_of_isAscii (ascii : isAscii c = true) :
    String.utf8EncodeChar c = [c.val.toUInt8] := by
  apply String.utf8EncodeChar_eq_singleton
  have small : c.val.toNat < 128 := of_decide_eq_true ascii
  rw [Char.utf8Size_eq_one_iff, UInt32.le_iff_toNat_le]
  change c.val.toNat ≤ 127
  omega

theorem utf8_of_isAscii (ascii : ∀ c ∈ s.toList, isAscii c = true) :
    utf8 s = s.toList.map fun c => c.val.toUInt8 := by
  rw [utf8]
  generalize s.toList = cs at ascii ⊢
  induction cs with
  | nil => rfl
  | cons c cs ih =>
    rw [flatMap_cons, map_cons, utf8EncodeChar_of_isAscii (ascii c mem_cons_self),
      ih fun other later => ascii other (mem_cons_of_mem _ later)]
    rfl

theorem utf8_of_decodeUtf8 {bytes : List UInt8} {cs : List Char}
    (decoded : decodeUtf8 bytes = some cs) : utf8 (String.ofList cs) = bytes := by
  rw [decodeUtf8, map_eq_some_iff] at decoded
  obtain ⟨chars, read, rfl⟩ := decoded
  have isSome := isSome_of_mem read
  have written := ByteArray.utf8Encode_get_utf8Decode? (h := isSome)
  rw [Option.get_of_mem isSome read, List.utf8Encode] at written
  have data := congrArg (fun array : ByteArray => array.data.toList) written
  simpa [utf8] using data

theorem utf8_infix {part whole : List Char} (within : part <:+: whole) :
    utf8 (String.ofList part) <:+: utf8 (String.ofList whole) := by
  obtain ⟨front, back, rfl⟩ := within
  simp only [utf8, String.toList_ofList, flatMap_append]
  exact ⟨_, _, rfl⟩

/-- The bytes of a character that is not ASCII are not ASCII. -/
theorem le_of_mem_utf8EncodeChar (other : isAscii c = false) (among : byte ∈ String.utf8EncodeChar c) :
    128 ≤ byte.toNat := by
  have large : 128 ≤ c.val.toNat := by simpa [isAscii] using other
  have known : ∀ n, n < 128 → 128 ≤ (UInt8.ofNat (n + 128)).toNat := by
    intro n small
    rw [UInt8.toNat_ofNat']
    omega
  unfold String.utf8EncodeChar at among
  simp only [Nat.not_le.mpr (Nat.lt_of_lt_of_le (by decide : 127 < 128) large), if_false] at among
  split at among
  · rcases mem_pair.mp among with rfl | rfl
    · exact known (c.val.toNat / 64 % 0x20 + 0x40) (by omega)
    · exact known (c.val.toNat % 0x40) (by omega)
  · split at among
    · simp only [mem_cons, not_mem_nil, or_false] at among
      rcases among with rfl | rfl | rfl
      · exact known (c.val.toNat / 4096 % 0x10 + 0x60) (by omega)
      · exact known (c.val.toNat / 64 % 0x40) (by omega)
      · exact known (c.val.toNat % 0x40) (by omega)
    · simp only [mem_cons, not_mem_nil, or_false] at among
      rcases among with rfl | rfl | rfl | rfl
      · exact known (c.val.toNat / 262144 % 0x08 + 0x70) (by omega)
      · exact known (c.val.toNat / 4096 % 0x40) (by omega)
      · exact known (c.val.toNat / 64 % 0x40) (by omega)
      · exact known (c.val.toNat % 0x40) (by omega)

theorem mem_utf8_iff (ascii : isAscii c = true) : c.val.toUInt8 ∈ utf8 s ↔ c ∈ s.toList := by
  have small : c.val.toNat < 128 := of_decide_eq_true ascii
  have number : c.val.toUInt8.toNat = c.val.toNat := by
    rw [UInt32.toNat_toUInt8, Nat.mod_eq_of_lt (by omega)]
  rw [utf8, mem_flatMap]
  constructor
  · rintro ⟨other, among, within⟩
    cases isOther : isAscii other with
    | true =>
      rw [utf8EncodeChar_of_isAscii isOther, mem_singleton] at within
      have smallOther : other.val.toNat < 128 := of_decide_eq_true isOther
      have sameNat := congrArg UInt8.toNat within
      rw [number, UInt32.toNat_toUInt8, Nat.mod_eq_of_lt (by omega)] at sameNat
      have isIt : c = other := Char.ext (UInt32.toNat_inj.mp sameNat)
      exact isIt ▸ among
    | false =>
      have large := le_of_mem_utf8EncodeChar isOther within
      omega
  · intro among
    refine ⟨c, among, ?_⟩
    rw [utf8EncodeChar_of_isAscii ascii]
    exact mem_singleton_self _

theorem utf8_eq_nil : utf8 s = [] ↔ s = "" := by
  rw [utf8, flatMap_eq_nil_iff, ← String.toList_eq_nil_iff]
  constructor
  · intro none
    cases chars : s.toList with
    | nil => rfl
    | cons c rest =>
      exact absurd (none c (chars ▸ mem_cons_self)) String.utf8EncodeChar_ne_nil
  · intro empty
    simp [empty]

end Kuku.Theory.Text
