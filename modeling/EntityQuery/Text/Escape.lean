/-!
# Escaping inside delimited text

Two ways of keeping special characters apart from their meaning: a quote inside
a quoted text is written twice, and a wildcard inside a pattern stands behind an
escape character.
-/

namespace EntityQuery.Text

/-- Writes each `quote` twice and everything else once. -/
def double (quote : Char) (cs : List Char) : List Char :=
  cs.flatMap fun c => if c = quote then [c, c] else [c]

/-- Puts `escape` in front of each special character. -/
def escapeWith (escape : Char) (special : Char → Bool) (cs : List Char) : List Char :=
  cs.flatMap fun c => if special c then [escape, c] else [c]

@[simp] theorem double_nil (quote : Char) : double quote [] = [] := rfl

@[simp] theorem double_cons (quote c : Char) (cs : List Char) :
    double quote (c :: cs) = (if c = quote then [c, c] else [c]) ++ double quote cs := rfl

@[simp] theorem escapeWith_nil (escape : Char) (special : Char → Bool) :
    escapeWith escape special [] = [] := rfl

@[simp] theorem escapeWith_cons (escape : Char) (special : Char → Bool) (c : Char)
    (cs : List Char) :
    escapeWith escape special (c :: cs) =
      (if special c then [escape, c] else [c]) ++ escapeWith escape special cs := rfl

end EntityQuery.Text
