import FencedCode.Pipeline.Basic

/-!
# Simple stages

Stages to build pipelines from beside the wrapper: some that change only the top level of a
document, and `Stage.renderer`, which turns target blocks into pictures.
-/

namespace FencedCode

namespace TargetBlock

/-- The picture of a block: it holds the source. -/
def picture (source : String) : Node :=
  .element "svg" {} [.text source]

mutual

/-- Turns the target blocks at and below a node into pictures, and counts them.  Only
elements are looked into. -/
def renderAt (t : TargetBlock) : Node → Node × Nat
  | .element tag properties children =>
    if t.isTarget ⟨tag, properties, children⟩ then
      (picture (Node.textOfAll children), 1)
    else
      let (children, count) := renderAmong t children
      (.element tag properties children, count)
  | n => (n, 0)

/-- Turns the target blocks at and below several nodes into pictures, and counts them. -/
def renderAmong (t : TargetBlock) : List Node → List Node × Nat
  | [] => ([], 0)
  | n :: rest =>
    let (n, count) := renderAt t n
    let (rest, more) := renderAmong t rest
    (n :: rest, count + more)

end

/-- Turns the target blocks of a document into pictures, and counts them. -/
def render (t : TargetBlock) (r : Root) : Root × Nat :=
  let (children, count) := t.renderAmong r.children
  (⟨children⟩, count)

end TargetBlock

namespace Stage

/-- A stage that changes nothing and reports the number of nodes at the top level. -/
def plain (name : String) : Stage where
  name := name
  runsBefore := []
  apply r := ⟨r, r.children.length, []⟩

/-- A stage that changes nothing. -/
def noop (name : String) (runsBefore : List String) : Stage where
  name := name
  runsBefore := runsBefore
  apply r := ⟨r, 0, []⟩

/-- A stage that appends its name in brackets to the document. -/
def append (name : String) (runsBefore : List String) : Stage where
  name := name
  runsBefore := runsBefore
  apply r := ⟨⟨r.children ++ [.text ("[" ++ name ++ "]")]⟩, 1, []⟩

/-- A stage that empties the document. -/
def clear (name : String) (runsBefore : List String) : Stage where
  name := name
  runsBefore := runsBefore
  apply r := ⟨⟨[]⟩, r.children.length, []⟩

/-- A stage that turns target blocks into pictures. -/
def renderer (name : String) (runsBefore : List String) (t : TargetBlock) : Stage where
  name := name
  runsBefore := runsBefore
  apply r := ⟨(t.render r).1, (t.render r).2, []⟩

end Stage

end FencedCode
