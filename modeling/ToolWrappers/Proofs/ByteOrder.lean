import Mathlib.Data.List.Lex
import Mathlib.Data.String.Basic

/-! Texts in the order of their bytes. The encoding keeps the order of characters: no character is encoded
by a part of another one's bytes, and the bytes of a later character are greater. -/

namespace ToolWrappers.Text

/-- The bytes that encode a text. -/
def bytes (s : String) : List UInt8 := s.toUTF8.data.toList

theorem bytes_eq (s : String) : bytes s = s.toList.flatMap String.utf8EncodeChar := by
  rw [bytes, String.toUTF8_eq_toByteArray, ← String.utf8Encode_toList, List.utf8Encode,
    List.toList_data_toByteArray]

variable {m n : Nat}

theorem byte_lt (less : m < n) (small : n < 256) (s t : List UInt8) :
    UInt8.ofNat m :: s < UInt8.ofNat n :: t := by
  apply List.Lex.rel
  rw [UInt8.lt_iff_toNat_lt, UInt8.toNat_ofNat_of_lt' small,
    UInt8.toNat_ofNat_of_lt' (less.trans small)]
  exact less

/-- The last byte of a character counts if the ones before it are the same. -/
theorem lastByte_lt (first second : List UInt8) (below : m < n)
    (less : m / 64 < n / 64 → ∀ s t, first ++ s < second ++ t)
    (same : m / 64 = n / 64 → first = second) (s t : List UInt8) :
    first ++ UInt8.ofNat (m % 64 + 128) :: s < second ++ UInt8.ofNat (n % 64 + 128) :: t := by
  rcases Nat.lt_or_eq_of_le (Nat.div_le_div_right (c := 64) below.le) with before | equal
  · exact less before _ _
  · rw [same equal]
    exact List.append_left_lt (byte_lt (by omega) (by omega) s t)

/-- The bytes of a character come before those of a later one, whatever follows. -/
theorem utf8EncodeChar_lt {c d : Char} (earlier : c < d) (s t : List UInt8) :
    String.utf8EncodeChar c ++ s < String.utf8EncodeChar d ++ t := by
  have below : c.val.toNat < d.val.toNat := earlier
  have bound : d.val.toNat < 0x110000 := by
    rcases d.valid with low | ⟨_, high⟩
    · exact low.trans (by decide)
    · exact high
  simp only [String.utf8EncodeChar]
  generalize c.val.toNat = m at below ⊢
  generalize d.val.toNat = n at below bound ⊢
  have third {k : Nat} : k / 4096 = k / 64 / 64 := by omega
  have fourth {k : Nat} : k / 262144 = k / 64 / 64 / 64 := by omega
  simp only [third, fourth]
  -- a later character has no fewer bytes, and if it has more, its first byte is greater
  split
  · split
    · exact byte_lt below (by omega) _ _
    · split
      · exact byte_lt (by omega) (by omega) _ _
      · split
        · exact byte_lt (by omega) (by omega) _ _
        · exact byte_lt (by omega) (by omega) _ _
  · rw [if_neg (show ¬n ≤ 0x7f by omega)]
    split
    · split
      · refine lastByte_lt [_] [_] below (fun less => ?_) (fun same => by rw [same]) s t
        exact byte_lt (by omega) (by omega)
      · split
        · exact byte_lt (by omega) (by omega) _ _
        · exact byte_lt (by omega) (by omega) _ _
    · rw [if_neg (show ¬n ≤ 0x7ff by omega)]
      split
      · split
        · refine lastByte_lt [_, _] [_, _] below (fun less => ?_) (fun same => by rw [same]) s t
          refine lastByte_lt [_] [_] less (fun less => ?_) fun same => by rw [same]
          exact byte_lt (by omega) (by omega)
        · exact byte_lt (by omega) (by omega) _ _
      · rw [if_neg (show ¬n ≤ 0xffff by omega)]
        refine lastByte_lt [_, _, _] [_, _, _] below (fun less => ?_) (fun same => by rw [same]) s t
        refine lastByte_lt [_, _] [_, _] less (fun less => ?_) fun same => by rw [same]
        refine lastByte_lt [_] [_] less (fun less => ?_) fun same => by rw [same]
        exact byte_lt (by omega) (by omega)

/-- Texts that come one after the other have bytes that do. -/
theorem bytes_lt_of_lt {s t : String} (earlier : s < t) : bytes s < bytes t := by
  rw [String.lt_iff_toList_lt] at earlier
  rw [bytes_eq, bytes_eq]
  generalize s.toList = first at earlier ⊢
  generalize t.toList = second at earlier ⊢
  induction first generalizing second with
  | nil =>
      cases second with
      | nil => cases earlier
      | cons d second =>
          obtain ⟨byte, more, shape⟩ := List.exists_cons_of_ne_nil (String.utf8EncodeChar_ne_nil (c := d))
          rw [List.flatMap_nil, List.flatMap_cons, shape]
          exact List.Lex.nil
  | cons c first ih =>
      cases second with
      | nil => cases earlier
      | cons d second =>
          rw [List.flatMap_cons, List.flatMap_cons]
          rcases List.cons_lt_cons_iff.mp earlier with less | ⟨rfl, later⟩
          · exact utf8EncodeChar_lt less _ _
          · exact List.append_left_lt (ih second later)

end ToolWrappers.Text
