import FencedCode.Double.Text

/-!
# JSON values

Documents are exchanged as JSON.  A value keeps the members of an object in the order in
which they are written, repeated names included, because the order decides which of two
faults of a document is reported.  A number is an integer as long as it fits 64 bits.
-/

namespace FencedCode

/-- A number of a JSON text. -/
inductive JsonNumber where
  /-- A number written without fraction and exponent that fits 64 bits. -/
  | integer (n : Int)
  /-- Any other number. -/
  | float (x : Double)
  deriving DecidableEq

/-- A JSON value. -/
inductive Json where
  /-- The value `null`. -/
  | null
  /-- A truth value. -/
  | bool (b : Bool)
  /-- A number. -/
  | number (n : JsonNumber)
  /-- A string. -/
  | string (s : String)
  /-- An array. -/
  | array (items : List Json)
  /-- An object, with its members as they are written. -/
  | object (members : List (String × Json))

instance : Inhabited Json :=
  ⟨.null⟩

namespace JsonNumber

/-- The number in double precision. -/
def toDouble : JsonNumber → Double
  | integer n => if n < 0 then (Double.ofNat n.natAbs).negate else Double.ofNat n.natAbs
  | float x => x

/-- The text of a number that can be written. -/
def chars? : JsonNumber → Option (List Char)
  | integer n => some (Double.signChars (n < 0) ++ Double.digitChars n.natAbs)
  | float x => x.scientific?

end JsonNumber

namespace Json

mutual

/-- The greatest number of arrays and objects open at once in the text of a value. -/
def depth : Json → Nat
  | array items => depthOfItems items + 1
  | object members => depthOfMembers members + 1
  | _ => 0

/-- The greatest depth among several values. -/
def depthOfItems : List Json → Nat
  | [] => 0
  | j :: rest => max (depth j) (depthOfItems rest)

/-- The greatest depth among several members. -/
def depthOfMembers : List (String × Json) → Nat
  | [] => 0
  | (_, j) :: rest => max (depth j) (depthOfMembers rest)

end

end Json

end FencedCode
