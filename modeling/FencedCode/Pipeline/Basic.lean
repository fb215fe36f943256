import FencedCode.Block.Wrapper

/-!
# Pipelines

A pipeline is a row of stages that change a document one after the other.  Stages have
names, no two of them the same, and a stage can name others that have to come later.  The
order is only checked, never changed: a pipeline with a stage behind one that it has to
precede refuses to run.
-/

namespace FencedCode

/-- What a stage makes of a document. -/
structure Change where
  /-- The document afterwards. -/
  root : Root
  /-- How many nodes were changed. -/
  changed : Nat
  /-- What was reported. -/
  events : List Event := []

/-- A stage of a pipeline. -/
structure Stage where
  /-- The name of the stage. -/
  name : String
  /-- The names of the stages that have to come later. -/
  runsBefore : List String
  /-- What the stage does to a document. -/
  apply : Root → Change

/-- Why a pipeline cannot be built or run. -/
inductive PipelineError where
  /-- There is a stage of that name already. -/
  | duplicateStage (name : String)
  /-- A stage comes after one that it has to precede. -/
  | orderViolation (stage mustPrecede : String)
  deriving DecidableEq

/-- The words for an error of a pipeline. -/
def PipelineError.message : PipelineError → String
  | duplicateStage name => "duplicate pipeline stage: " ++ name
  | orderViolation stage mustPrecede =>
    "stage '" ++ stage ++ "' must run before '" ++ mustPrecede ++ "'"

/-- How many nodes a stage changed. -/
structure StageReport where
  /-- The name of the stage. -/
  stage : String
  /-- The number of nodes. -/
  changed : Nat
  deriving DecidableEq

/-- How many nodes several stages changed. -/
def StageReport.total : List StageReport → Nat
  | [] => 0
  | r :: rest => r.changed + total rest

/-- The stage that wraps target blocks. -/
def BlockWrapper.stage (w : BlockWrapper) : Stage where
  name := BlockWrapper.stageName
  runsBefore := w.runsBefore
  apply r := ⟨(w.wrap r).1, (w.wrap r).2, w.target.wrapEvents r⟩

/-- A row of stages with different names. -/
structure Pipeline where
  /-- The stages in the order in which they run. -/
  stages : List Stage
  /-- No name occurs twice. -/
  distinct : (stages.map Stage.name).Nodup

namespace Pipeline

/-- The pipeline without stages. -/
def empty : Pipeline :=
  ⟨[], List.Pairwise.nil⟩

instance : EmptyCollection Pipeline :=
  ⟨empty⟩

instance : Inhabited Pipeline :=
  ⟨empty⟩

/-- The names of the stages in order. -/
def names (p : Pipeline) : List String :=
  p.stages.map Stage.name

/-- Appends a stage unless there is one of its name. -/
def push (p : Pipeline) (s : Stage) : Except PipelineError Pipeline :=
  if h : s.name ∈ p.names then
    .error (.duplicateStage s.name)
  else
    .ok ⟨p.stages ++ [s], by
      have hn : (p.names ++ [s.name]).Nodup :=
        List.nodup_append.2 ⟨p.distinct, by simp, fun a ha b hb hab => by
          rw [List.mem_singleton.1 hb] at hab
          exact h (hab ▸ ha)⟩
      simpa [names] using hn⟩

/-! ## Order -/

/-- The first stage that comes after one that it has to precede, together with the first
entry of its list that names such a stage; `earlier` are the names before. -/
def violationIn (earlier : List String) : List Stage → Option (String × String)
  | [] => none
  | s :: rest =>
    match s.runsBefore.find? earlier.contains with
    | some name => some (s.name, name)
    | none => violationIn (earlier ++ [s.name]) rest

/-- The first stage comes after none. -/
theorem violationIn_first (s : Stage) (rest : List Stage) :
    violationIn [] (s :: rest) = violationIn [s.name] rest := by
  have hnone : s.runsBefore.find? (List.contains []) = none := by simp
  rw [violationIn, hnone]
  rfl

/-- Checks that no stage comes after one that it has to precede. -/
def validate (p : Pipeline) : Except PipelineError Unit :=
  match violationIn [] p.stages with
  | none => .ok ()
  | some (stage, mustPrecede) => .error (.orderViolation stage mustPrecede)

/-! ## Running -/

/-- What running a pipeline makes of a document. -/
structure Run where
  /-- The document afterwards. -/
  root : Root
  /-- What was reported, in order. -/
  events : List Event
  /-- One report for each stage, or why no stage was run. -/
  outcome : Except PipelineError (List StageReport)

/-- Runs stages one after the other. -/
def runStages (root : Root) : List Stage → Root × List Event × List StageReport
  | [] => (root, [], [])
  | s :: rest =>
    let r := s.apply root
    let (root, events, reports) := runStages r.root rest
    (root, r.events ++ .stageDone s.name r.changed :: events,
      ⟨s.name, r.changed⟩ :: reports)

/-- Runs all stages in order if their order is right; otherwise no stage is run. -/
def run (p : Pipeline) (root : Root) : Run :=
  match p.validate with
  | .error e => ⟨root, [], .error e⟩
  | .ok () =>
    let (root, events, reports) := runStages root p.stages
    ⟨root, events, .ok reports⟩

/-- A line that shows the names of the stages. -/
def summary (p : Pipeline) : String :=
  "Pipeline \x7b stages: [" ++ ", ".intercalate (p.names.map Text.quoted) ++ "] \x7d"

end Pipeline

end FencedCode
