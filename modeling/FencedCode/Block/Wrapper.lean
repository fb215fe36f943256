import FencedCode.Block.Target

/-!
# Wrapping target blocks

Wrapping walks down a document and puts a wrapper around every target block that does not
stand directly below one.  The walk goes on below a block that it has just wrapped: it looks
at the wrapper in the place of the block, and on recognising it leaves the block itself
alone but not what is below the block.  A wrapper whose source attribute takes the place of
its class may not be recognised, and then the walk has no end; the walk therefore has a
bound, and `wrap?` takes one that every walk with an end stays within.

`find` is the same walk without the wrapping.
-/

namespace FencedCode

/-- The stage that wraps target blocks. -/
structure BlockWrapper where
  /-- The blocks and their wrapper. -/
  target : TargetBlock
  /-- The names of the stages that have to come later. -/
  runsBefore : List String
  deriving DecidableEq

/-- A target block that was found. -/
structure FoundBlock where
  /-- Its position among the blocks that are found. -/
  index : Nat
  /-- Its source. -/
  source : String
  deriving DecidableEq

namespace TargetBlock

/-! ## The walk that wraps -/

/-- Wraps below several nodes, given how it is done for one, and adds up the blocks. -/
def wrapAmong (wrapOne : Node → Option (Node × Nat)) :
    List Node → Option (List Node × Nat)
  | [] => some ([], 0)
  | n :: rest => do
    let (n, count) ← wrapOne n
    let (rest, more) ← wrapAmong wrapOne rest
    return (n :: rest, count + more)

/-- The element that takes the place of an element in the walk: its wrapper if it is a
target block that does not stand directly below a wrapper. -/
def replaced (t : TargetBlock) (under : Bool) (e : Element) : Element × Nat :=
  if !under && t.isTarget e then (t.wrapper e e.textContent, 1) else (e, 0)

/-- Wraps the target blocks at and below a node, going down at most `bound` steps; `under`
says whether its parent is a wrapper. -/
def wrapAt (t : TargetBlock) : Nat → Bool → Node → Option (Node × Nat)
  | 0, _, _ => none
  | bound + 1, under, .element tag properties children => do
    let (e, fresh) := t.replaced under ⟨tag, properties, children⟩
    let (children, count) ← wrapAmong (wrapAt t bound (t.isWrapper e)) e.children
    return (.element e.tag e.properties children, fresh + count)
  | bound + 1, _, .root children => do
    let (children, count) ← wrapAmong (wrapAt t bound false) children
    return (.root children, count)
  | _ + 1, _, n => some (n, 0)

/-- A bound for the walk: every level of the document is met at most twice, once as a
wrapper and once as itself. -/
def walkBound (r : Root) : Nat :=
  2 * Node.heightOfAll r.children

/-- Wraps all target blocks and counts them, if the walk has an end. -/
def wrap? (t : TargetBlock) (r : Root) : Option (Root × Nat) :=
  (wrapAmong (t.wrapAt (walkBound r) false) r.children).map fun (children, count) =>
    (⟨children⟩, count)

/-- Wraps all target blocks and counts them.  A document on which the walk has no end stays
as it is. -/
def wrap (t : TargetBlock) (r : Root) : Root × Nat :=
  (t.wrap? r).getD (r, 0)

/-! ## The walk that only looks -/

mutual

/-- The sources of the blocks at and below a node that are to be wrapped. -/
def sourcesAt (t : TargetBlock) (under : Bool) : Node → List String
  | .root children => sourcesAmong t false children
  | .element tag properties children =>
    let e : Element := ⟨tag, properties, children⟩
    (if !under && t.isTarget e then [Node.textOfAll children] else []) ++
      sourcesAmong t (t.isWrapper e) children
  | _ => []

/-- The sources of the blocks at and below several nodes that are to be wrapped. -/
def sourcesAmong (t : TargetBlock) (under : Bool) : List Node → List String
  | [] => []
  | n :: rest => sourcesAt t under n ++ sourcesAmong t under rest

end

/-- The blocks that are to be wrapped, in document order. -/
def find (t : TargetBlock) (r : Root) : List FoundBlock :=
  (t.sourcesAmong false r.children).zipIdx.map fun (source, index) => ⟨index, source⟩

/-! ## Events -/

mutual

/-- What is reported on the walk at and below a node; `wraps` says whether blocks are wrapped. -/
def eventsAt (t : TargetBlock) (wraps under : Bool) : Node → List Event
  | .root children => eventsAmong t wraps false children
  | .element tag properties children =>
    let e : Element := ⟨tag, properties, children⟩
    let tested := if under then [] else t.targetEvents e
    let wrapped :=
      if wraps && !under && t.isTarget e then
        [.blockWrapped tag (Node.textOfAll children).utf8ByteSize]
      else
        []
    tested ++ wrapped ++ eventsAmong t wraps (t.isWrapper e) children
  | _ => []

/-- What is reported on the walk at and below several nodes. -/
def eventsAmong (t : TargetBlock) (wraps under : Bool) : List Node → List Event
  | [] => []
  | n :: rest => eventsAt t wraps under n ++ eventsAmong t wraps under rest

end

/-- What wrapping reports. -/
def wrapEvents (t : TargetBlock) (r : Root) : List Event :=
  t.eventsAmong true false r.children ++ [.blocksDone (t.wrap r).2 t.languageClass]

/-- What finding reports. -/
def findEvents (t : TargetBlock) (r : Root) : List Event :=
  t.eventsAmong false false r.children

end TargetBlock

namespace BlockWrapper

/-- The stage that turns wrapped blocks into pictures. -/
def rendererName : String :=
  "rehype-mermaid"

/-- The name of the stage. -/
def stageName : String :=
  "prewrap-code-block-wrapper"

/-- The stage for some blocks, which has to come before they are turned into pictures. -/
def ofTarget (t : TargetBlock) : BlockWrapper :=
  ⟨t, [rendererName]⟩

/-- The stage for the usual blocks. -/
def standard : BlockWrapper :=
  ofTarget TargetBlock.standard

/-- Wraps all target blocks of a document. -/
def wrap (w : BlockWrapper) (r : Root) : Root × Nat :=
  w.target.wrap r

/-- Finds all blocks of a document that are to be wrapped. -/
def find (w : BlockWrapper) (r : Root) : List FoundBlock :=
  w.target.find r

end BlockWrapper

/-- Wraps the usual blocks of a document. -/
def Root.wrapStandard (r : Root) : Root :=
  (BlockWrapper.standard.wrap r).1

end FencedCode
