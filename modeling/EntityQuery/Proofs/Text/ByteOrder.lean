import Mathlib.Data.List.Lex
import Mathlib.Data.String.Basic
import Mathlib.Order.Compare
import EntityQuery.Text.Utf8
/-!
# The order of bytes

Stores compare texts by their bytes, and the program compares them by their
characters. Both orders are the same: a character is smaller than another one exactly
if its bytes come before the other's, and no character's bytes begin another's.
-/

namespace EntityQuery.Text

def charBytes (c : Char) : List Nat :=
  (String.utf8EncodeChar c).map UInt8.toNat

@[simp] theorem encodeUtf8_nil : encodeUtf8 [] = [] := rfl

@[simp] theorem encodeUtf8_cons (c : Char) (cs : List Char) :
    encodeUtf8 (c :: cs) = charBytes c ++ encodeUtf8 cs := rfl

theorem toNat_char_lt (c : Char) : c.toNat < 0x110000 := by
  obtain h | ⟨_, h⟩ : c.toNat.isValidChar := c.valid
  · omega
  · exact h

/-- The bytes of a character by its number, in the four lengths of UTF-8. -/
theorem charBytes_eq (c : Char) :
    charBytes c =
      if c.toNat ≤ 0x7F then [c.toNat]
      else if c.toNat ≤ 0x7FF then [c.toNat / 64 + 0xC0, c.toNat % 64 + 0x80]
      else if c.toNat ≤ 0xFFFF then
        [c.toNat / 4096 + 0xE0, c.toNat / 64 % 64 + 0x80, c.toNat % 64 + 0x80]
      else
        [c.toNat / 262144 + 0xF0, c.toNat / 4096 % 64 + 0x80, c.toNat / 64 % 64 + 0x80,
          c.toNat % 64 + 0x80] := by
  have hbound : c.toNat < 0x110000 := toNat_char_lt c
  have hval : c.val.toNat = c.toNat := rfl
  simp only [charBytes, String.utf8EncodeChar]
  simp only [hval]
  split_ifs <;> simp only [List.map_cons, List.map_nil, UInt8.toNat_ofNat', Nat.reducePow,
    List.cons.injEq, and_true] <;> omega

/-- The first byte at which two characters differ decides between them. -/
theorem append_lt_append_of_char_lt {a b : Char} (h : a < b) (u v : List Nat) :
    charBytes a ++ u < charBytes b ++ v := by
  have hlt : a.toNat < b.toNat := h
  have hbound : b.toNat < 0x110000 := toNat_char_lt b
  rw [charBytes_eq, charBytes_eq]
  split_ifs <;> simp only [List.cons_append, List.nil_append, List.cons_lt_cons_iff] <;> omega

theorem strictMono_encodeUtf8 : StrictMono encodeUtf8 := by
  intro s t h
  induction s generalizing t with
  | nil =>
      cases t with
      | nil => cases h
      | cons b t =>
          have hbytes : charBytes b ≠ [] := by simp [charBytes]
          obtain ⟨byte, bytes, heq⟩ := List.exists_cons_of_ne_nil hbytes
          rw [encodeUtf8_cons, heq]
          exact List.nil_lt_cons ..
  | cons a s ih =>
      cases t with
      | nil => cases h
      | cons b t =>
          obtain hhead | ⟨rfl, htail⟩ := List.cons_lt_cons_iff.1 h
          · exact append_lt_append_of_char_lt hhead _ _
          · exact List.append_left_lt (ih htail)

theorem cmp_encodeUtf8_list (s t : List Char) :
    cmp (encodeUtf8 s) (encodeUtf8 t) = cmp s t := by
  have hlt (s t : List Char) : encodeUtf8 s < encodeUtf8 t ↔ s < t :=
    strictMono_encodeUtf8.lt_iff_lt
  simp only [cmp, cmpUsing, hlt]

theorem cmp_encodeUtf8 (s t : String) :
    cmp (encodeUtf8 s.toList) (encodeUtf8 t.toList) = compare s t := by
  rw [cmp_encodeUtf8_list, ← cmp_eq_compare]
  simp only [cmp, cmpUsing, String.lt_iff_toList_lt]

theorem cmp_encodeUtf8_ofList (s t : List Char) :
    cmp (encodeUtf8 (String.ofList s).toList) (encodeUtf8 (String.ofList t).toList) = cmp s t := by
  rw [String.toList_ofList, String.toList_ofList, cmp_encodeUtf8_list]

end EntityQuery.Text
