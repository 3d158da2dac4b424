import Mathlib.Data.Char
import Mathlib.Data.List.Forall2
import EntityQuery.Sql.Fragment
import EntityQuery.Text.Digits
import EntityQuery.Text.Substring
/-!
# Tokens of SQL

How a database cuts the text of a statement into tokens. A name in double quotes ends at
the first double quote that is not doubled, a literal in single quotes at the first single
quote that is not doubled, and a backslash is a character like any other in both. Outside
of quotes a token is a longest run of characters of one class.

A text is read one character at a time. The state of the reader is the token that has
begun, so a text can be read piece by piece: where a blank stands between two texts, each
of them has its own tokens. Texts in which a quote is left open, a comment begins, or a word
touches the quote behind it (which would change the meaning of the quote) are not read.
-/

namespace EntityQuery.Sql

inductive Token
  /-- A keyword or a name without quotes. -/
  | word (text : String)
  | number (digits : String)
  /-- The place of the value with a number, `$n`. -/
  | numbered (n : Nat)
  /-- The place of the next value, `?`. -/
  | anonymous
  /-- A name in double quotes. -/
  | identifier (name : String)
  /-- A text in single quotes. -/
  | literal (text : String)
  | symbol (text : String)
  deriving DecidableEq, Repr

def Token.number? : Token → Option Nat
  | numbered n => some n
  | _ => none

def Token.word? : Token → Option String
  | word text => some text
  | _ => none

/-! ## Characters -/

/-- What a run of characters outside of quotes is. -/
inductive TokenClass
  | word
  | number
  | parameter
  | operator
  | colon
  /-- A character that is a token by itself. -/
  | single
  deriving DecidableEq, Repr

def isBlank (c : Char) : Bool :=
  c ∈ [' ', '\t', '\n', '\r']

/-- A kind of quotes. -/
inductive Quote
  | double
  | single
  deriving DecidableEq, Repr

def Quote.char : Quote → Char
  | double => '"'
  | single => '\''

def Quote.of? (c : Char) : Option Quote :=
  if c = '"' then some .double else if c = '\'' then some .single else none

def Quote.token (text : List Char) : Quote → Token
  | double => .identifier (String.ofList text)
  | single => .literal (String.ofList text)

/-- The characters of words, with all that are not ASCII among them. -/
def isWordChar (c : Char) : Bool :=
  c.isAlphanum || c = '_' || c = '$' || 0x80 ≤ c.toNat

def isOperatorChar (c : Char) : Bool :=
  c ∈ ['+', '-', '*', '/', '<', '>', '=', '~', '!', '@', '#', '%', '^', '&', '|', '\x60']

/-- The class of a run that begins with a character, if one can. -/
def TokenClass.of? (c : Char) : Option TokenClass :=
  if Text.isDigit c then some .number
  else if c = '$' then some .parameter
  else if isWordChar c then some .word
  else if isOperatorChar c then some .operator
  else if c = ':' then some .colon
  else if c ∈ ['(', ')', '[', ']', ',', ';', '.', '?'] then some .single
  else none

namespace TokenClass

/-- Whether a run goes on with a character. A word takes a quote in, which spoils it. -/
def admits : TokenClass → Char → Bool
  | word, c => isWordChar c || (Quote.of? c).isSome
  | number, c | parameter, c => Text.isDigit c
  | operator, c => isOperatorChar c
  | colon, c => c = ':'
  | single, _ => false

def token? : TokenClass → List Char → Option Token
  | word, text => if text.all isWordChar then some (.word (String.ofList text)) else none
  | number, text => some (.number (String.ofList text))
  | parameter, [] => none
  | parameter, [_] => none
  | parameter, _ :: digits => some (.numbered (Text.natOfDigits digits))
  | operator, text =>
    if Text.occursIn ['-', '-'] text || Text.occursIn ['/', '*'] text then none
    else some (.symbol (String.ofList text))
  | colon, text => some (.symbol (String.ofList text))
  | single, text => some (if text = ['?'] then .anonymous else .symbol (String.ofList text))

end TokenClass

/-! ## The reader -/

/-- What the reader is in the middle of. -/
inductive Mode
  | between
  | unquoted (cls : TokenClass) (text : List Char)
  | quoted (quote : Quote) (text : List Char)
  /-- Behind a quote that ends the token unless it is doubled. -/
  | closing (quote : Quote) (text : List Char)
  deriving DecidableEq, Repr

namespace Mode

/-- The mode behind a character that begins something new. -/
def begin? (c : Char) : Option Mode :=
  if isBlank c then some between
  else
    match Quote.of? c with
    | some quote => some (quoted quote [])
    | none => (TokenClass.of? c).map (unquoted · [c])

/-- The mode behind a character that belongs to what has begun. -/
def extend? (c : Char) : Mode → Option Mode
  | between => none
  | unquoted cls text => if cls.admits c then some (unquoted cls (text ++ [c])) else none
  | quoted quote text =>
    some (if c = quote.char then closing quote text else quoted quote (text ++ [c]))
  | closing quote text => if c = quote.char then some (quoted quote (text ++ [c])) else none

/-- The token that ends here, if something has begun and can end. -/
def finish? : Mode → Option (List Token)
  | between => some []
  | unquoted cls text => (cls.token? text).map ([·])
  | quoted _ _ => none
  | closing quote text => some [quote.token text]

/-- One character: it belongs to what has begun, or that ends and something new begins. -/
def step? (m : Mode) (c : Char) : Option (List Token × Mode) :=
  match m.extend? c with
  | some next => some ([], next)
  | none => m.finish?.bind fun ended => (begin? c).map fun next => (ended, next)

/-- The tokens that end within a text, and what the text ends in the middle of. -/
def run? : Mode → List Char → Option (List Token × Mode)
  | m, [] => some ([], m)
  | m, c :: rest =>
    (m.step? c).bind fun (ended, next) => (run? next rest).map fun (tokens, last) =>
      (ended ++ tokens, last)

end Mode

def tokens? (s : String) : Option (List Token) :=
  (Mode.between.run? s.toList).bind fun (tokens, last) => last.finish?.map (tokens ++ ·)

/-! ## Reading piece by piece -/

namespace Mode

variable {m : Mode} {c : Char} {a b : List Char} {ended tokens : List Token}

theorem run?_append (m : Mode) (a b : List Char) :
    m.run? (a ++ b) =
      (m.run? a).bind fun (tokens, middle) => (middle.run? b).map fun (tokens', last) =>
        (tokens ++ tokens', last) := by
  induction a generalizing m with
  | nil => simp [run?]
  | cons c a ih =>
      rw [List.cons_append, run?, run?]
      cases m.step? c with
      | none => rfl
      | some stepped =>
          simp only [Option.bind_some, ih]
          cases stepped.2.run? a with
          | none => rfl
          | some first => simp [Function.comp_def]

/-- A text that was begun in one mode is read on from the mode in which it was left. -/
theorem run?_append_of {middle : Mode} (h : m.run? a = some (tokens, middle)) (b : List Char) :
    m.run? (a ++ b) =
      (middle.run? b).map fun (tokens', last) => (tokens ++ tokens', last) := by
  rw [run?_append, h, Option.bind_some]

theorem run?_cons_of {next : Mode} (h : m.step? c = some (ended, next)) (rest : List Char) :
    m.run? (c :: rest) = (next.run? rest).map fun (tokens, last) => (ended ++ tokens, last) := by
  rw [run?, h, Option.bind_some]

/-- A run takes in all that it goes on with. -/
theorem run?_admitted (cls : TokenClass) (text : List Char) (h : ∀ c ∈ a, cls.admits c = true) :
    (unquoted cls text).run? a = some ([], unquoted cls (text ++ a)) := by
  induction a generalizing text with
  | nil => simp [run?]
  | cons c a ih =>
      have hc : cls.admits c = true := h c List.mem_cons_self
      have hstep : (unquoted cls text).step? c = some ([], unquoted cls (text ++ [c])) := by
        simp [step?, extend?, hc]
      rw [run?_cons_of hstep, ih (text ++ [c]) fun c' hc' => h c' (List.mem_cons_of_mem c hc')]
      simp

/-- What can end, ends in front of a character that no run goes on with. -/
theorem step?_of_finish? (h : m.finish? = some ended) (hquote : Quote.of? c = none)
    (hclass : ∀ cls : TokenClass, cls.admits c = false) :
    m.step? c = (begin? c).map fun next => (ended, next) := by
  have hextend : m.extend? c = none := by
    cases m with
    | between => rfl
    | unquoted cls text => simp [extend?, hclass cls]
    | quoted quote text => cases h
    | closing quote text =>
        have hne : c ≠ quote.char := by
          rintro rfl
          cases quote <;> cases hquote
        exact if_neg hne
  rw [step?, hextend, h]
  rfl

theorem run?_double (quote : Quote) (text cs : List Char) :
    (quoted quote text).run? (Text.double quote.char cs) = some ([], quoted quote (text ++ cs)) := by
  induction cs generalizing text with
  | nil => simp [run?]
  | cons c cs ih =>
      have hrest := ih (text ++ [c])
      rw [List.append_assoc, List.singleton_append] at hrest
      rw [Text.double_cons]
      by_cases hc : c = quote.char
      · simp only [if_pos hc, List.cons_append, List.nil_append, run?, step?, extend?,
          Option.bind_some, hrest]
        rfl
      · simp only [if_neg hc, List.singleton_append, run?, step?, extend?, Option.bind_some, hrest]
        rfl

/-- A text in quotes of one kind, behind something that ends there. -/
theorem run?_quote {quote : Quote} (hextend : m.extend? quote.char = none)
    (hend : m.finish? = some ended) (cs : List Char) :
    m.run? (quote.char :: Text.double quote.char cs ++ [quote.char]) =
      some (ended, closing quote cs) := by
  have hbegin : begin? quote.char = some (quoted quote []) := by cases quote <;> rfl
  have hstep : m.step? quote.char = some (ended, quoted quote []) := by
    rw [step?, hextend, hend, hbegin]
    rfl
  have hclose : (quoted quote cs).run? [quote.char] = some ([], closing quote cs) := by
    simp [run?, step?, extend?]
  rw [List.cons_append, run?_cons_of hstep, run?_append_of (run?_double quote [] cs)]
  simp [hclose]

end Mode

section Separators

variable {a b : String} {first second : List Token}

theorem tokens?_eq_some (h : tokens? a = some first) :
    ∃ tokens last ended, Mode.between.run? a.toList = some (tokens, last) ∧
      last.finish? = some ended ∧ first = tokens ++ ended := by
  simp only [tokens?, Option.bind_eq_some_iff, Option.map_eq_some_iff] at h
  obtain ⟨⟨tokens, last⟩, hrun, ended, hend, rfl⟩ := h
  exact ⟨tokens, last, ended, hrun, hend, rfl⟩

/-- Texts with a blank between them have their own tokens. -/
theorem tokens?_append_blank (ha : tokens? a = some first) (hb : tokens? b = some second) :
    tokens? (a ++ " " ++ b) = some (first ++ second) := by
  obtain ⟨tokens, last, ended, hrun, hend, rfl⟩ := tokens?_eq_some ha
  obtain ⟨tokens', last', ended', hrun', hend', rfl⟩ := tokens?_eq_some hb
  have hstep : last.step? ' ' = some (ended, .between) :=
    Mode.step?_of_finish? hend rfl fun cls => by cases cls <;> rfl
  have htext : (a ++ " " ++ b).toList = a.toList ++ ' ' :: b.toList := by
    simp [String.toList_append]
  rw [tokens?, htext, Mode.run?_append_of hrun, Mode.run?_cons_of hstep]
  simp [hrun', hend']

theorem tokens?_append_comma (ha : tokens? a = some first) (hb : tokens? b = some second) :
    tokens? (a ++ ", " ++ b) = some (first ++ [.symbol ","] ++ second) := by
  obtain ⟨tokens, last, ended, hrun, hend, rfl⟩ := tokens?_eq_some ha
  obtain ⟨tokens', last', ended', hrun', hend', rfl⟩ := tokens?_eq_some hb
  have hstep : last.step? ',' = some (ended, .unquoted .single [',']) :=
    Mode.step?_of_finish? hend rfl fun cls => by cases cls <;> rfl
  have hblank : (Mode.unquoted .single [',']).step? ' ' = some ([.symbol ","], .between) := rfl
  have htext : (a ++ ", " ++ b).toList = a.toList ++ ',' :: ' ' :: b.toList := by
    simp [String.toList_append]
  rw [tokens?, htext, Mode.run?_append_of hrun, Mode.run?_cons_of hstep, Mode.run?_cons_of hblank]
  simp [hrun', hend']

/-- Texts joined by a separator that leaves the texts around it their own tokens. -/
theorem tokens?_intercalate {separator : String} {between : List Token}
    (hseparator : ∀ {a b : String} {first second : List Token}, tokens? a = some first →
      tokens? b = some second → tokens? (a ++ separator ++ b) = some (first ++ between ++ second))
    {texts : List String} {read : List (List Token)}
    (h : List.Forall₂ (fun text tokens => tokens? text = some tokens) texts read) :
    tokens? (separator.intercalate texts) = some (between.intercalate read) := by
  induction h with
  | nil => rfl
  | @cons text tokens texts read htext hrest ih =>
      cases hrest with
      | nil => simpa [String.intercalate_singleton] using htext
      | cons hnext hrest =>
          rw [String.intercalate_cons_cons, List.intercalate_cons_cons]
          exact hseparator htext ih

/-- A text with blanks around it, such as a keyword, between two others. -/
theorem tokens?_append_between {keyword : String} {middle : List Token}
    (ha : tokens? a = some first) (hkeyword : tokens? keyword = some middle)
    (hb : tokens? b = some second) :
    tokens? (a ++ (" " ++ keyword ++ " ") ++ b) = some (first ++ middle ++ second) := by
  have hfirst := tokens?_append_blank (tokens?_append_blank ha hkeyword) hb
  simpa only [String.append_assoc] using hfirst

/-- Texts joined by AND. -/
theorem tokens?_intercalate_and {texts : List String} {read : List (List Token)}
    (h : List.Forall₂ (fun text tokens => tokens? text = some tokens) texts read) :
    tokens? (" AND ".intercalate texts) = some ([Token.word "AND"].intercalate read) := by
  have hand : " AND " = " " ++ "AND" ++ " " := rfl
  rw [hand]
  refine tokens?_intercalate ?_ h
  intro a b first second ha hb
  exact tokens?_append_between ha rfl hb

end Separators

end EntityQuery.Sql
