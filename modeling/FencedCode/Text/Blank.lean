/-!
# Blanks and words

Two classes of blank characters are in use.  Class attributes are split at the five ASCII
blanks, and `words` is that split.  Names in settings may hold no character with the
Unicode property `White_Space`, which is the wider class `isBlank`.
-/

namespace FencedCode.Text

/-- The five ASCII characters that separate class tokens: tab, line feed, form feed,
carriage return and space. -/
def isAsciiBlank (c : Char) : Bool :=
  c = ' ' || c = '\t' || c = '\n' || c = '\x0c' || c = '\r'

/-- The characters with the Unicode property `White_Space`. -/
def isBlank (c : Char) : Bool :=
  let n := c.toNat
  (0x09 ≤ n && n ≤ 0x0d) || n = 0x20 || n = 0x85 || n = 0xa0 || n = 0x1680 ||
    (0x2000 ≤ n && n ≤ 0x200a) || n = 0x2028 || n = 0x2029 || n = 0x202f || n = 0x205f ||
    n = 0x3000

/-- Every separator of class tokens is blank. -/
theorem isBlank_of_isAsciiBlank {c : Char} (h : isAsciiBlank c = true) : isBlank c = true := by
  simp only [isAsciiBlank, Bool.or_eq_true, decide_eq_true_eq] at h
  rcases h with (((h | h) | h) | h) | h <;> subst h <;> decide

/-- Puts a finished word, given in reverse, in front of the words that follow it; an empty
one is no word. -/
def consWord (word : List Char) (rest : List (List Char)) : List (List Char) :=
  if word.isEmpty then rest else word.reverse :: rest

/-- The words of a text, `word` being the part of the first one that is already read, in
reverse. -/
def wordsFrom (word : List Char) : List Char → List (List Char)
  | [] => consWord word []
  | c :: rest =>
    if isAsciiBlank c then consWord word (wordsFrom [] rest)
    else wordsFrom (c :: word) rest

/-- The longest runs of characters that are not ASCII blanks, in order. -/
def words (text : String) : List String :=
  (wordsFrom [] text.toList).map String.ofList

end FencedCode.Text
