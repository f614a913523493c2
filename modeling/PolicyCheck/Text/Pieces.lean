/-!
# Cutting text at a separator

`pieces` cuts at every occurrence of one character and so returns one piece more than there are
separators. `lines` follows the convention of text files: a line break ends a line, the text after
the last one is a line only if there is any, and a carriage return directly before a line break
belongs to the break.
-/

namespace PolicyCheck.Text

def cut (separator : Char) : List Char → List Char × List (List Char)
  | [] => ([], [])
  | c :: cs =>
    let (first, others) := cut separator cs
    if c = separator then ([], first :: others) else (c :: first, others)

def pieces (separator : Char) (cs : List Char) : List (List Char) :=
  (cut separator cs).1 :: (cut separator cs).2

@[simp] theorem pieces_nil (separator : Char) : pieces separator [] = [[]] := rfl

theorem pieces_ne_nil (separator : Char) (cs : List Char) : pieces separator cs ≠ [] := by
  simp [pieces]

def join (separator : List Char) : List (List Char) → List Char
  | [] => []
  | [piece] => piece
  | piece :: others => piece ++ separator ++ join separator others

theorem join_cons_cons (separator piece next : List Char) (ps : List (List Char)) :
    join separator (piece :: next :: ps) = piece ++ separator ++ join separator (next :: ps) := rfl

/-- Cutting loses nothing: the pieces joined by the separator give the text back. -/
theorem join_pieces (separator : Char) (cs : List Char) :
    join [separator] (pieces separator cs) = cs := by
  induction cs with
  | nil => rfl
  | cons c cs ih =>
    simp only [pieces, cut] at ih ⊢
    by_cases h : c = separator
    · subst h
      simpa [join] using ih
    · rw [if_neg h]
      cases hs : (cut separator cs).2 with
      | nil => simp_all [join]
      | cons p ps => simp_all [join]

def dropReturn (line : List Char) : List Char :=
  if line.getLast? = some '\r' then line.dropLast else line

def lines (cs : List Char) : List (List Char) :=
  let ps := pieces '\n' cs
  ps.dropLast.map dropReturn ++ ps.getLast?.toList.filter (!·.isEmpty)

example : lines "a\r\n\nb".toList = [['a'], [], ['b']] := by decide

example : lines "x\r".toList = [['x', '\r']] := by decide

def contains (needle : List Char) : List Char → Bool
  | [] => needle.isEmpty
  | c :: cs => needle.isPrefixOf (c :: cs) || contains needle cs

end PolicyCheck.Text
