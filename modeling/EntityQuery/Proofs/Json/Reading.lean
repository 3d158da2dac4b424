import EntityQuery.Json.Reading
import EntityQuery.Json.Writing
import EntityQuery.Proofs.IdentifierText
/-!
# Reading back what was written

A string is read back character by character: what is written for one is read as one piece, and
this piece stands for the character, whatever pieces come behind it. Strings, arrays and objects
end with a character of their own, so they are read back in front of any text. What an array or
an object is read as follows from what its parts are read as.

The fuel of the reader is compared with the length of the text. Every part is shorter than the
whole by what is written around it.
-/

namespace EntityQuery.Json

open Text

/-! ## Strings -/

/-- A character is written as itself, with an escape of its own, or by its number. -/
theorem writeChar_cases (c : Char) :
    (∃ e, simpleEscape? e = some c ∧ writeChar c = ['\\', e]) ∨
      (c.toNat < 0x20 ∧ writeChar c = '\\' :: 'u' :: fixedHex 4 c.toNat) ∨
      (c ≠ '"' ∧ c ≠ '\\' ∧ ¬c.toNat < 0x20 ∧ writeChar c = [c]) := by
  unfold writeChar
  split
  · next h => exact .inl ⟨'"', by rw [h]; rfl, rfl⟩
  split
  · next h => exact .inl ⟨'\\', by rw [h]; rfl, rfl⟩
  split
  · next h => exact .inl ⟨'b', by rw [h]; rfl, rfl⟩
  split
  · next h => exact .inl ⟨'t', by rw [h]; rfl, rfl⟩
  split
  · next h => exact .inl ⟨'n', by rw [h]; rfl, rfl⟩
  split
  · next h => exact .inl ⟨'f', by rw [h]; rfl, rfl⟩
  split
  · next h => exact .inl ⟨'r', by rw [h]; rfl, rfl⟩
  split
  · next h => exact .inr (.inl ⟨h, rfl⟩)
  · next hquote hbackslash _ _ _ _ _ h => exact .inr (.inr ⟨hquote, hbackslash, h, rfl⟩)

theorem scanPieces_escape {c e : Char} (h : simpleEscape? e = some c) (rest : List Char) :
    scanPieces ('\\' :: e :: rest) =
      (scanPieces rest).map fun (pieces, rest) => (.char c :: pieces, rest) := by
  have hu : e ≠ 'u' := by
    rintro rfl
    cases h
  rw [scanPieces, h]
  · cases scanPieces rest <;> rfl
  · intro _ _ _ _ _ he
    exact absurd he hu

theorem scanPieces_unit {n : Nat} (h : n < 16 ^ 4) (rest : List Char) :
    scanPieces ('\\' :: 'u' :: (fixedHex 4 n ++ rest)) =
      (scanPieces rest).map fun (pieces, rest) => (.unit n :: pieces, rest) := by
  have hread := natOfHex?_fixedHex 4 n
  rw [Nat.mod_eq_of_lt h] at hread
  obtain ⟨a, b, c, d, hdigits⟩ := List.length_eq_four.1 (length_fixedHex 4 n)
  rw [hdigits] at hread ⊢
  simp only [List.cons_append, List.nil_append]
  rw [scanPieces, hread]
  cases scanPieces rest <;> rfl

theorem scanPieces_plain {c : Char} (hquote : c ≠ '"') (hbackslash : c ≠ '\\')
    (hcontrol : ¬c.toNat < 0x20) (rest : List Char) :
    scanPieces (c :: rest) =
      (scanPieces rest).map fun (pieces, rest) => (.char c :: pieces, rest) := by
  rw [scanPieces, if_neg hcontrol]
  · cases scanPieces rest <;> rfl
  · exact hquote
  · intro _ _ _ _ _ hc
    exact absurd hc hbackslash
  · intro _ _ hc
    exact absurd hc hbackslash

/-- A unit below the surrogates is a character of its own. -/
theorem textOfPieces?_unit {n : Nat} (h : n < 0xD800) (pieces : List Piece) :
    textOfPieces? (.unit n :: pieces) = (textOfPieces? pieces).map (Char.ofNat n :: ·) := by
  have hhigh : ¬isHighSurrogate n = true := by
    simp only [isHighSurrogate, Bool.and_eq_true, decide_eq_true_eq]
    omega
  have hlow : ¬isLowSurrogate n = true := by
    simp only [isLowSurrogate, Bool.and_eq_true, decide_eq_true_eq]
    omega
  rw [textOfPieces?.eq_def]
  simp only [if_neg hhigh, if_neg hlow]

theorem exists_piece (c : Char) :
    ∃ piece, (∀ pieces, textOfPieces? (piece :: pieces) = (textOfPieces? pieces).map (c :: ·)) ∧
      ∀ rest, scanPieces (writeChar c ++ rest) =
        (scanPieces rest).map fun (pieces, rest) => (piece :: pieces, rest) := by
  obtain ⟨e, hescape, hwrite⟩ | ⟨hcontrol, hwrite⟩ | ⟨hquote, hbackslash, hcontrol, hwrite⟩ :=
    writeChar_cases c
  · refine ⟨.char c, fun _ => rfl, fun rest => ?_⟩
    rw [hwrite]
    exact scanPieces_escape hescape rest
  · refine ⟨.unit c.toNat, fun pieces => ?_, fun rest => ?_⟩
    · rw [textOfPieces?_unit (by omega), Char.ofNat_toNat]
    · rw [hwrite]
      exact scanPieces_unit (by omega) rest
  · refine ⟨.char c, fun _ => rfl, fun rest => ?_⟩
    rw [hwrite]
    exact scanPieces_plain hquote hbackslash hcontrol rest

/-- A text is read back up to its closing quote. -/
theorem exists_pieces (cs : List Char) :
    ∃ pieces, textOfPieces? pieces = some cs ∧
      ∀ rest, scanPieces (cs.flatMap writeChar ++ '"' :: rest) = some (pieces, rest) := by
  induction cs with
  | nil => exact ⟨[], rfl, fun rest => by simp [scanPieces]⟩
  | cons c cs ih =>
      obtain ⟨pieces, htext, hscan⟩ := ih
      obtain ⟨piece, hstands, hread⟩ := exists_piece c
      refine ⟨piece :: pieces, by rw [hstands, htext]; rfl, fun rest => ?_⟩
      rw [List.flatMap_cons, List.append_assoc, hread, hscan]
      rfl

/-- A string is read back behind its opening quote. -/
theorem scanString_write (s : String) (rest : List Char) :
    scanString (s.toList.flatMap writeChar ++ '"' :: rest) = some (some s, rest) := by
  obtain ⟨pieces, htext, hscan⟩ := exists_pieces s.toList
  simp only [scanString, hscan, Option.map_some, htext, String.ofList_toList]

/-! ## Values -/

/-- A value is read as a tree in front of any text. It does not begin with a blank, nor with what
ends an array. -/
structure ReadsAs (v : Json) (t : Tree) : Prop where
  head : ∃ c rest, v.write = c :: rest ∧ isJsonBlank c = false ∧ c ≠ ']'
  scan : ∀ fuel rest, v.write.length ≤ fuel → scanValue fuel (v.write ++ rest) = some (t, rest)

theorem skipBlanks_cons {c : Char} (h : isJsonBlank c = false) (rest : List Char) :
    skipBlanks (c :: rest) = c :: rest := by
  simp [skipBlanks, h]

theorem write_str (s : String) :
    (Json.str s).write = '"' :: (s.toList.flatMap writeChar ++ ['"']) := by
  rw [write, writeString]
  rfl

theorem write_arr (items : List Json) : (arr items).write = '[' :: (writeItems items ++ [']']) := by
  rw [write]
  rfl

theorem write_obj (members : List (String × Json)) :
    (obj members).write = '\x7b' :: (writeMembers members ++ ['\x7d']) := by
  rw [write]
  rfl

theorem writeItems_cons_cons (v v' : Json) (items : List Json) :
    writeItems (v :: v' :: items) = v.write ++ ',' :: writeItems (v' :: items) := by
  rw [writeItems]
  simp

theorem writeMembers_singleton (name : String) (v : Json) :
    writeMembers [(name, v)] = writeString name ++ ':' :: v.write := by
  rw [writeMembers]

theorem writeMembers_cons_cons (name : String) (v : Json) (m : String × Json)
    (members : List (String × Json)) :
    writeMembers ((name, v) :: m :: members) =
      writeString name ++ ':' :: (v.write ++ ',' :: writeMembers (m :: members)) := by
  rw [writeMembers, List.append_assoc]
  · rfl
  · simp

theorem readsAs_str (s : String) : ReadsAs (.str s) (.str (some s)) where
  head := ⟨'"', _, write_str s, rfl, by decide⟩
  scan := by
    intro fuel rest hfuel
    rw [write_str, List.length_cons] at hfuel
    obtain ⟨fuel, rfl⟩ := Nat.exists_eq_add_one_of_ne_zero (show fuel ≠ 0 by omega)
    rw [write_str, List.cons_append, List.append_assoc, scanValue, skipBlanks_cons rfl]
    simp only [List.singleton_append, scanString_write, Option.map_some]

/-- An array whose text does not end at once. -/
theorem scanValue_arr {c : Char} (hblank : isJsonBlank c = false) (hbracket : c ≠ ']') (fuel : Nat)
    (rest : List Char) :
    scanValue (fuel + 1) ('[' :: c :: rest) =
      (scanItems fuel (c :: rest)).map fun (items, rest) => (.arr items, rest) := by
  rw [scanValue, skipBlanks_cons rfl]
  simp only [skipBlanks_cons hblank]
  split
  · next heq => exact absurd (List.cons.inj heq).1 hbracket
  · rfl

/-- The values of an array are read back up to the bracket. -/
theorem scanItems_write {items : List Json} {trees : List Tree}
    (h : List.Forall₂ ReadsAs items trees) (hne : items ≠ []) (rest : List Char) :
    ∀ fuel, (writeItems items).length < fuel →
      scanItems fuel (writeItems items ++ ']' :: rest) = some (trees, rest) := by
  induction h with
  | nil => exact absurd rfl hne
  | @cons v t items trees hread hrest ih =>
      intro fuel hfuel
      obtain ⟨fuel, rfl⟩ := Nat.exists_eq_add_one_of_ne_zero (show fuel ≠ 0 by omega)
      cases hrest with
      | nil =>
          rw [writeItems] at hfuel ⊢
          rw [scanItems, hread.scan fuel _ (by omega)]
          rfl
      | @cons v' t' items' trees' hread' hrest' =>
          rw [writeItems_cons_cons] at hfuel ⊢
          rw [List.length_append, List.length_cons] at hfuel
          have hbehind := ih (by simp) fuel (by omega)
          rw [List.append_assoc, scanItems, hread.scan fuel _ (by omega)]
          simp only [List.cons_append, bind, Option.bind]
          rw [skipBlanks_cons rfl]
          simp only [hbehind, Option.map_some]

/-- The values of an array begin as the first of them. -/
theorem exists_cons_writeItems {v : Json} {t : Tree} (h : ReadsAs v t) (items : List Json) :
    ∃ c rest, writeItems (v :: items) = c :: rest ∧ isJsonBlank c = false ∧ c ≠ ']' := by
  obtain ⟨c, rest, hwrite, hhead⟩ := h.head
  cases items with
  | nil => exact ⟨c, rest, by rw [writeItems, hwrite], hhead⟩
  | cons v' items => exact ⟨c, _, by rw [writeItems_cons_cons, hwrite, List.cons_append], hhead⟩

theorem readsAs_arr {items : List Json} {trees : List Tree} (h : List.Forall₂ ReadsAs items trees) :
    ReadsAs (.arr items) (.arr trees) where
  head := ⟨'[', _, write_arr items, rfl, by decide⟩
  scan := by
    intro fuel rest hfuel
    rw [write_arr, List.length_cons, List.length_append, List.length_singleton] at hfuel
    obtain ⟨fuel, rfl⟩ := Nat.exists_eq_add_one_of_ne_zero (show fuel ≠ 0 by omega)
    rw [write_arr, List.cons_append, List.append_assoc]
    cases h with
    | nil => rfl
    | @cons v t items trees hread hrest =>
        obtain ⟨c, front, hhead, hblank, hbracket⟩ := exists_cons_writeItems hread items
        have hitems := scanItems_write (.cons hread hrest) (by simp) rest fuel (by omega)
        rw [hhead] at hitems ⊢
        rw [List.singleton_append, List.cons_append, scanValue_arr hblank hbracket,
          ← List.cons_append, hitems]
        rfl

theorem writeString_append (s : String) (rest : List Char) :
    writeString s ++ rest = '"' :: (s.toList.flatMap writeChar ++ '"' :: rest) := by
  simp [writeString]

section Member

variable {v : Json} {t : Tree} {fuel : Nat}

/-- The last member of an object is read back, and then the object ends. -/
theorem scanMembers_last (h : ReadsAs v t) (hfuel : v.write.length ≤ fuel) (name : String)
    (rest : List Char) :
    scanMembers (fuel + 1) (writeString name ++ ':' :: (v.write ++ '\x7d' :: rest)) =
      some ([(some name, t)], rest) := by
  have hcolon : skipBlanks (':' :: (v.write ++ '\x7d' :: rest)) =
      ':' :: (v.write ++ '\x7d' :: rest) := skipBlanks_cons rfl _
  have hbrace : skipBlanks ('\x7d' :: rest) = '\x7d' :: rest := skipBlanks_cons rfl rest
  rw [writeString_append, scanMembers, skipBlanks_cons rfl]
  simp only [scanChar_cons_self, scanString_write, hcolon, h.scan fuel _ hfuel, hbrace, bind,
    Option.bind]

/-- Any other member of an object is read back, and then the members behind it. -/
theorem scanMembers_more (h : ReadsAs v t) (hfuel : v.write.length ≤ fuel) (name : String)
    (rest : List Char) :
    scanMembers (fuel + 1) (writeString name ++ ':' :: (v.write ++ ',' :: rest)) =
      (scanMembers fuel rest).map fun (members, rest) => ((some name, t) :: members, rest) := by
  have hcolon : skipBlanks (':' :: (v.write ++ ',' :: rest)) = ':' :: (v.write ++ ',' :: rest) :=
    skipBlanks_cons rfl _
  have hcomma : skipBlanks (',' :: rest) = ',' :: rest := skipBlanks_cons rfl rest
  rw [writeString_append, scanMembers, skipBlanks_cons rfl]
  simp only [scanChar_cons_self, scanString_write, hcolon, h.scan fuel _ hfuel, hcomma, bind,
    Option.bind]

end Member

/-- The members of an object are read back up to the brace. -/
theorem scanMembers_write {members : List (String × Json)} {trees : List (Option String × Tree)}
    (h : List.Forall₂ (fun m t => t.1 = some m.1 ∧ ReadsAs m.2 t.2) members trees)
    (hne : members ≠ []) (rest : List Char) :
    ∀ fuel, (writeMembers members).length < fuel →
      scanMembers fuel (writeMembers members ++ '\x7d' :: rest) = some (trees, rest) := by
  induction h with
  | nil => exact absurd rfl hne
  | @cons m tree members trees hread hrest ih =>
      intro fuel hfuel
      obtain ⟨fuel, rfl⟩ := Nat.exists_eq_add_one_of_ne_zero (show fuel ≠ 0 by omega)
      obtain ⟨name, v⟩ := m
      obtain ⟨_, t⟩ := tree
      obtain ⟨rfl, hread⟩ := hread
      have hvalue : ReadsAs v t := hread
      cases hrest with
      | nil =>
          rw [writeMembers_singleton, List.length_append, List.length_cons] at hfuel
          rw [writeMembers_singleton, List.append_assoc, List.cons_append]
          exact scanMembers_last hvalue (by omega) name rest
      | @cons m' tree' members trees hread' hrest' =>
          rw [writeMembers_cons_cons, List.length_append, List.length_cons, List.length_append,
            List.length_cons] at hfuel
          have hbehind := ih (by simp) fuel (by omega)
          rw [writeMembers_cons_cons, List.append_assoc, List.cons_append, List.append_assoc,
            List.cons_append, scanMembers_more hvalue (by omega), hbehind]
          rfl

/-- The members of an object begin with the quote of the first name. -/
theorem exists_cons_writeMembers (m : String × Json) (members : List (String × Json)) :
    ∃ rest, writeMembers (m :: members) = '"' :: rest := by
  obtain ⟨name, v⟩ := m
  cases members with
  | nil => exact ⟨_, by rw [writeMembers_singleton, writeString_append]⟩
  | cons m' members => exact ⟨_, by rw [writeMembers_cons_cons, writeString_append]⟩

/-- An object whose text does not end at once. -/
theorem scanValue_obj (fuel : Nat) (rest : List Char) :
    scanValue (fuel + 1) ('\x7b' :: '"' :: rest) =
      (scanMembers fuel ('"' :: rest)).map fun (members, rest) => (.obj members, rest) := by
  rw [scanValue, skipBlanks_cons rfl]
  rfl

theorem readsAs_obj {members : List (String × Json)} {trees : List (Option String × Tree)}
    (h : List.Forall₂ (fun m t => t.1 = some m.1 ∧ ReadsAs m.2 t.2) members trees) :
    ReadsAs (.obj members) (.obj trees) where
  head := ⟨'\x7b', _, write_obj members, rfl, by decide⟩
  scan := by
    intro fuel rest hfuel
    rw [write_obj, List.length_cons, List.length_append, List.length_singleton] at hfuel
    obtain ⟨fuel, rfl⟩ := Nat.exists_eq_add_one_of_ne_zero (show fuel ≠ 0 by omega)
    rw [write_obj, List.cons_append, List.append_assoc]
    cases h with
    | nil => rfl
    | @cons m tree members trees hread hrest =>
        obtain ⟨front, hhead⟩ := exists_cons_writeMembers m members
        have hmembers := scanMembers_write (.cons hread hrest) (by simp) rest fuel (by omega)
        rw [hhead] at hmembers ⊢
        rw [List.singleton_append, List.cons_append, scanValue_obj, ← List.cons_append, hmembers]
        rfl

/-- The text of a value is read as a tree, if nothing stands behind it. -/
theorem read?_of_readsAs {v : Json} {t : Tree} (h : ReadsAs v t) : Tree.read? v.write = some t := by
  have hscan := h.scan (2 * v.write.length + 2) [] (by omega)
  rw [List.append_nil] at hscan
  rw [Tree.read?, hscan]
  rfl

end EntityQuery.Json
