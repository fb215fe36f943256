import FencedCode.Pattern.Reader

/-!
# Which patterns can be used

A pattern is looked through from left to right, with letters that switch two things.  One is
whether its parts stand for characters or, if they do not, for bytes, which then have to be
ASCII characters.  The other is whether upper and lower case are the same.  Beyond ASCII
nothing is known of characters, so only where bytes are meant can case be left out of account
and can digits, blanks and words be told apart.

Edges of words are found by a machine that knows bytes only, so a pattern with an edge
where characters are meant is read but cannot be used.
-/

namespace FencedCode.Pattern

/-- What is switched on. -/
structure Mode where
  /-- Whether parts stand for characters. -/
  unicode : Bool := true
  /-- Whether upper and lower case are the same. -/
  caseless : Bool := false
  deriving DecidableEq

/-- What is switched on after letters have switched it. -/
def Mode.switch (m : Mode) (s : Switches) : Mode where
  unicode := s.apply 'u' m.unicode
  caseless := s.apply 'i' m.caseless

/-- Whether a part has a meaning. -/
def Atom.isKnown (m : Mode) : Atom → Bool
  | literal c isByte => if m.unicode then !m.caseless else !(isByte && c.toNat > 127)
  | any => m.unicode
  | place => true
  | wordEdge => true
  | kind negated => !m.unicode && !negated

/-- Whether a part of a set stands for ASCII characters. -/
def Atom.isAscii : Atom → Bool
  | literal c _ => c.toNat < 128
  | kind negated => !negated
  | _ => false

/-- Whether a part of a set is a character. -/
def Atom.isLiteral : Atom → Bool
  | literal .. => true
  | _ => false

/-- Whether a set has a meaning. -/
def CharSet.isKnown (m : Mode) (s : CharSet) : Bool :=
  if !m.unicode then !s.negation && s.atoms.all Atom.isAscii
  else if m.caseless then !s.named && s.atoms.isEmpty
  else s.atoms.all Atom.isLiteral

/-- What is switched on in a group. -/
def Label.mode (m : Mode) : Label → Mode
  | switched s => m.switch s
  | _ => m

/-- Whether a part is an edge of a word between characters. -/
def Atom.isUnicodeEdge (m : Mode) (a : Atom) : Bool :=
  m.unicode && a = .wordEdge

mutual

/-- Looks a pattern through.  If it has a meaning, the result is what is switched on behind
it, and whether an edge of a word between characters is in it. -/
def survey (m : Mode) : Pattern → Option (Mode × Bool)
  | atom a => if a.isKnown m then some (m, a.isUnicodeEdge m) else none
  | set s => if s.isKnown m then some (m, false) else none
  | switches s => some (m.switch s, false)
  | repeated p => survey m p
  | group label p => (survey (label.mode m) p).map fun (_, hasEdge) => (m, hasEdge)
  | sequence ps => surveyAll m ps
  | choice ps => surveyAll m ps

/-- Looks several patterns through. -/
def surveyAll (m : Mode) : List Pattern → Option (Mode × Bool)
  | [] => some (m, false)
  | p :: rest => do
    let (m, hasEdge) ← survey m p
    let (m, more) ← surveyAll m rest
    return (m, hasEdge || more)

end

/-- Why a pattern cannot be used. -/
inductive Fault where
  /-- It is no pattern, or a part of it has no meaning. -/
  | meaningless
  /-- It has an edge of a word between characters in it. -/
  | unicodeEdge
  deriving DecidableEq

/-- The words for a pattern that cannot be used. -/
def Fault.message : Fault → String
  | meaningless => "error building NFA"
  | unicodeEdge =>
    "unsupported regex feature for DFAs: cannot build DFAs for regexes with Unicode word " ++
      "boundaries; switch to ASCII word boundaries, or heuristically enable Unicode word " ++
      "boundaries or use a different regex engine"

/-- Why a text cannot be used as a pattern, if it cannot. -/
def fault? (text : List Char) : Option Fault :=
  match (read? text).bind (survey {}) with
  | none => some .meaningless
  | some (_, true) => some .unicodeEdge
  | some (_, false) => none

end FencedCode.Pattern
