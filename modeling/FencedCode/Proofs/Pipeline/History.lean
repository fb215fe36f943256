import FencedCode.Pipeline.Stages
import FencedCode.Proofs.Pipeline.Order

/-!
# How pipelines come about

A pipeline is built by calls that append a stage each.  A call in place leaves the pipeline as
it was if the name is taken; a call that hands the pipeline over and gets it back loses it
then.  After any calls the stages are those whose name was new when they came, in the order in
which they came, `stages_afterAll`.  As stages are only ever put at the end, the first
violation of the order stays the first one whatever comes later, `IsFirstViolation.extend`.
The main result is `calls_build_pipeline`.
-/

namespace FencedCode

/-- A call that appends a stage to a pipeline. -/
inductive Call where
  /-- The stage is appended in place. -/
  | push (s : Stage)
  /-- The pipeline is handed over, and comes back with the stage if the call succeeds. -/
  | withStage (s : Stage)

/-- The stage that a call appends. -/
def Call.stage : Call → Stage
  | push s => s
  | withStage s => s

namespace Pipeline

/-- What is left of a pipeline after a call. -/
def after (p : Pipeline) (c : Call) : Option Pipeline :=
  match p.push c.stage with
  | .ok q => some q
  | .error _ =>
    match c with
    | .push _ => some p
    | .withStage _ => none

/-- What is left of a pipeline after several calls; once it is lost, no call can be made. -/
def afterAll (p : Pipeline) : List Call → Option Pipeline
  | [] => some p
  | c :: rest => (p.after c).bind fun q => q.afterAll rest

/-- The stages whose name none of those in front of them has, be they among them or
`earlier`. -/
def newcomers (earlier : List Stage) : List Stage → List Stage
  | [] => []
  | s :: rest =>
    (if s.name ∈ earlier.map Stage.name then [] else [s]) ++ newcomers (earlier ++ [s]) rest

/-! ## New names -/

lemma newcomers_append (earlier xs ys : List Stage) :
    newcomers earlier (xs ++ ys) = newcomers earlier xs ++ newcomers (earlier ++ xs) ys := by
  induction xs generalizing earlier with
  | nil => simp [newcomers]
  | cons s xs ih => simp [newcomers, ih]

/-- Every name that is not among the earlier ones belongs to a newcomer. -/
lemma mem_names_newcomers {earlier stages : List Stage} {name : String} :
    name ∈ (newcomers earlier stages).map Stage.name ↔
      name ∈ stages.map Stage.name ∧ name ∉ earlier.map Stage.name := by
  induction stages generalizing earlier with
  | nil => simp [newcomers]
  | cons s rest ih =>
    rw [newcomers, List.map_append, List.mem_append, ih, List.map_append, List.mem_append,
      List.map_cons, List.mem_cons]
    by_cases hname : name = s.name
    · subst hname
      by_cases hearlier : s.name ∈ earlier.map Stage.name
      · simp [hearlier]
      · simp [hearlier]
    · by_cases hearlier : s.name ∈ earlier.map Stage.name
      · simp [hearlier, hname]
      · simp [hearlier, hname]

lemma nodup_names_newcomers (earlier stages : List Stage) :
    ((newcomers earlier stages).map Stage.name).Nodup := by
  induction stages generalizing earlier with
  | nil => exact List.nodup_nil
  | cons s rest ih =>
    rw [newcomers]
    split
    · exact ih (earlier ++ [s])
    · rw [List.singleton_append, List.map_cons, List.nodup_cons]
      refine ⟨fun hmem => ?_, ih (earlier ++ [s])⟩
      rw [mem_names_newcomers] at hmem
      exact hmem.2 (by simp)

/-! ## One call -/

lemma ext_stages {p q : Pipeline} (h : p.stages = q.stages) : p = q := by
  cases p
  cases q
  cases h
  rfl

/-- A stage is refused exactly if its name is taken. -/
lemma push_eq_error_iff {p : Pipeline} {s : Stage} {e : PipelineError} :
    p.push s = .error e ↔ s.name ∈ p.names ∧ e = .duplicateStage s.name := by
  rw [push]
  split
  · rename_i htaken
    rw [Except.error.injEq, eq_comm]
    exact (and_iff_right htaken).symm
  · rename_i hnew
    simp [hnew]

/-- Otherwise it is put at the end. -/
lemma push_eq_ok_iff {p : Pipeline} {s : Stage} {q : Pipeline} :
    p.push s = .ok q ↔ s.name ∉ p.names ∧ q.stages = p.stages ++ [s] := by
  rw [push]
  split
  · rename_i htaken
    simp [htaken]
  · rename_i hnew
    rw [Except.ok.injEq]
    constructor
    · rintro rfl
      exact ⟨hnew, rfl⟩
    · rintro ⟨-, hstages⟩
      exact ext_stages hstages.symm

/-- A call leaves the pipeline as it was, its stage being refused, or puts its stage at the
end. -/
lemma after_eq_some {p q : Pipeline} {c : Call} (h : p.after c = some q) :
    (c.stage.name ∈ p.names ∧ q = p) ∨
      (c.stage.name ∉ p.names ∧ q.stages = p.stages ++ [c.stage]) := by
  rw [after.eq_def] at h
  cases hpush : p.push c.stage with
  | ok r =>
    simp only [hpush, Option.some.injEq] at h
    subst h
    exact .inr (push_eq_ok_iff.1 hpush)
  | error e =>
    refine .inl ⟨(push_eq_error_iff.1 hpush).1, ?_⟩
    cases c with
    | push s =>
      simp only [hpush, Option.some.injEq] at h
      exact h.symm
    | withStage s => simp only [hpush, reduceCtorEq] at h

/-- Only a call that hands the pipeline over can lose it. -/
lemma after_eq_none_iff {p : Pipeline} {c : Call} :
    p.after c = none ↔ ∃ s, c = .withStage s ∧ s.name ∈ p.names := by
  constructor
  · intro h
    rw [after.eq_def] at h
    cases hpush : p.push c.stage with
    | ok r => simp only [hpush, reduceCtorEq] at h
    | error e =>
      cases c with
      | push s => simp only [hpush, reduceCtorEq] at h
      | withStage s => exact ⟨s, rfl, (push_eq_error_iff.1 hpush).1⟩
  · rintro ⟨s, rfl, hs⟩
    have hrefused := push_eq_error_iff.2 ⟨hs, rfl⟩
    simp only [after, Call.stage, hrefused]

/-- A refused call in place leaves the pipeline as it was. -/
lemma after_push_of_mem {p : Pipeline} {s : Stage} (h : s.name ∈ p.names) :
    p.after (.push s) = some p := by
  have hrefused := push_eq_error_iff.2 ⟨h, rfl⟩
  simp only [after, Call.stage, hrefused]

/-! ## Several calls -/

/-- The name of a stage is taken exactly if a call has brought it before. -/
lemma mem_names_of_newcomers {p : Pipeline} {earlier : List Stage}
    (h : p.stages = newcomers [] earlier) {name : String} :
    name ∈ p.names ↔ name ∈ earlier.map Stage.name := by
  rw [names, h, mem_names_newcomers]
  simp

/-- What one call makes of the stages that have come so far. -/
lemma stages_after {p q : Pipeline} {earlier : List Stage} {c : Call}
    (h : p.stages = newcomers [] earlier) (hq : p.after c = some q) :
    q.stages = newcomers [] (earlier ++ [c.stage]) := by
  rw [newcomers_append, ← h, List.nil_append, newcomers, newcomers, List.append_nil]
  rcases after_eq_some hq with ⟨htaken, rfl⟩ | ⟨hnew, hstages⟩
  · rw [if_pos ((mem_names_of_newcomers h).1 htaken), List.append_nil]
  · rw [if_neg fun hearlier => hnew ((mem_names_of_newcomers h).2 hearlier), hstages]

/-- After any calls, the stages are those that came with a new name. -/
lemma stages_afterAll {p q : Pipeline} {earlier : List Stage} {calls : List Call}
    (h : p.stages = newcomers [] earlier) (hq : p.afterAll calls = some q) :
    q.stages = newcomers [] (earlier ++ calls.map Call.stage) := by
  induction calls generalizing p earlier with
  | nil =>
    rw [afterAll, Option.some.injEq] at hq
    rw [← hq, h, List.map_nil, List.append_nil]
  | cons c rest ih =>
    rw [afterAll, Option.bind_eq_some_iff] at hq
    obtain ⟨r, hr, hrest⟩ := hq
    have hstages := ih (stages_after h hr) hrest
    rwa [List.append_assoc, List.singleton_append] at hstages

/-- A pipeline is lost exactly if it is handed over for a stage whose name is taken. -/
lemma afterAll_eq_none_iff {p : Pipeline} {earlier : List Stage} {calls : List Call}
    (h : p.stages = newcomers [] earlier) :
    p.afterAll calls = none ↔
      ∃ front s back, calls = front ++ .withStage s :: back ∧
        s.name ∈ (earlier ++ front.map Call.stage).map Stage.name := by
  induction calls generalizing p earlier with
  | nil => simp [afterAll]
  | cons c rest ih =>
    rw [afterAll]
    cases hafter : p.after c with
    | none =>
      -- The first call loses the pipeline already.
      obtain ⟨s, rfl, hs⟩ := after_eq_none_iff.1 hafter
      refine iff_of_true rfl ⟨[], s, rest, rfl, ?_⟩
      rw [List.map_nil, List.append_nil]
      exact (mem_names_of_newcomers h).1 hs
    | some q =>
      rw [Option.bind_some, ih (stages_after h hafter)]
      constructor
      · rintro ⟨front, s, back, rfl, hname⟩
        refine ⟨c :: front, s, back, rfl, ?_⟩
        rwa [List.append_assoc, List.singleton_append] at hname
      · rintro ⟨front, s, back, hcalls, hname⟩
        cases front with
        | nil =>
          -- The first call has not lost the pipeline, and so its stage is not the one.
          rw [List.nil_append, List.cons.injEq] at hcalls
          obtain ⟨rfl, -⟩ := hcalls
          rw [List.map_nil, List.append_nil] at hname
          rw [after_eq_none_iff.2 ⟨s, rfl, (mem_names_of_newcomers h).2 hname⟩] at hafter
          cases hafter
        | cons d front =>
          rw [List.cons_append, List.cons.injEq] at hcalls
          obtain ⟨rfl, rfl⟩ := hcalls
          refine ⟨front, s, back, rfl, ?_⟩
          rwa [List.append_assoc, List.singleton_append]

/-! ## Later calls -/

lemma exists_stages_after {p q : Pipeline} {c : Call} (h : p.after c = some q) :
    ∃ added, q.stages = p.stages ++ added := by
  rcases after_eq_some h with ⟨-, rfl⟩ | ⟨-, hstages⟩
  · exact ⟨[], (List.append_nil _).symm⟩
  · exact ⟨[c.stage], hstages⟩

/-- Calls put stages at the end and change nothing in front of them. -/
lemma exists_stages_afterAll {p q : Pipeline} {calls : List Call}
    (h : p.afterAll calls = some q) : ∃ added, q.stages = p.stages ++ added := by
  induction calls generalizing p with
  | nil =>
    rw [afterAll, Option.some.injEq] at h
    exact ⟨[], by rw [h, List.append_nil]⟩
  | cons c rest ih =>
    rw [afterAll, Option.bind_eq_some_iff] at h
    obtain ⟨r, hr, hrest⟩ := h
    obtain ⟨first, hfirst⟩ := exists_stages_after hr
    obtain ⟨more, hmore⟩ := ih hrest
    exact ⟨first ++ more, by rw [hmore, hfirst, List.append_assoc]⟩

/-- The first violation stays the first one when stages are put at the end. -/
lemma IsFirstViolation.extend {p q : Pipeline} {before : List Stage} {s : Stage}
    {name : String} (h : p.IsFirstViolation before s name) {added : List Stage}
    (hq : q.stages = p.stages ++ added) : q.IsFirstViolation before s name := by
  obtain ⟨after, hstages⟩ := h.position
  refine ⟨⟨after ++ added, ?_⟩, h.inOrder, h.violates, h.first⟩
  rw [hq, hstages, List.append_assoc, List.cons_append]

/-- An error of the check is the same after any further calls. -/
lemma validate_afterAll {p q : Pipeline} {calls : List Call} {e : PipelineError}
    (he : p.validate = .error e) (hq : p.afterAll calls = some q) : q.validate = .error e := by
  rw [validate_eq_error_iff] at he ⊢
  obtain ⟨before, s, name, hviolation, rfl⟩ := he
  obtain ⟨added, hstages⟩ := exists_stages_afterAll hq
  exact ⟨before, s, name, hviolation.extend hstages, rfl⟩

/-! ## The main result -/

/-- **How calls build a pipeline.**  A pipeline that is built from nothing is lost exactly if
it is handed over for a stage whose name was brought before.  Otherwise no two stages have the
same name, and the stages are those that came with a new name, in the order in which they
came.  A further stage is refused, with an error that names it, exactly if its name is there
already, and then a call in place leaves the pipeline as it is; every other stage is put at the
end.  If the order is violated, the check reports the same violation after any further
calls. -/
theorem calls_build_pipeline (calls : List Call) :
    (empty.afterAll calls = none ↔
      ∃ front s back, calls = front ++ .withStage s :: back ∧
        s.name ∈ (front.map Call.stage).map Stage.name) ∧
    ∀ p, empty.afterAll calls = some p →
      p.names.Nodup ∧ p.stages = newcomers [] (calls.map Call.stage) ∧
      (∀ s e, p.push s = .error e ↔ s.name ∈ p.names ∧ e = .duplicateStage s.name) ∧
      (∀ s, s.name ∈ p.names → p.after (.push s) = some p) ∧
      (∀ s q, p.push s = .ok q ↔ s.name ∉ p.names ∧ q.stages = p.stages ++ [s]) ∧
      ∀ stage name, p.validate = .error (.orderViolation stage name) →
        ∀ more q, p.afterAll more = some q →
          q.validate = .error (.orderViolation stage name) := by
  have hempty : empty.stages = newcomers [] [] := rfl
  refine ⟨?_, fun p hp => ?_⟩
  · rw [afterAll_eq_none_iff hempty]
    rfl
  · have hstages := stages_afterAll hempty hp
    rw [List.nil_append] at hstages
    refine ⟨?_, hstages, fun s e => push_eq_error_iff, fun s hs => after_push_of_mem hs,
      fun s q => push_eq_ok_iff, fun stage name he more q hq => validate_afterAll he hq⟩
    rw [names, hstages]
    exact nodup_names_newcomers [] _

/-- Calls of which the second brings a name that the first has brought. -/
def repeatedCalls : List Call :=
  [.withStage (.append "a" []), .push (.clear "a" ["b"]), .push (.noop "b" ["a"])]

/-- The pipeline that these calls build. -/
def repeatedPipeline : Pipeline where
  stages := [.append "a" [], .noop "b" ["a"]]
  distinct := by decide

/-- The violation that the last stage makes is reported after a refused call and an accepted
one as well, and a call that hands the pipeline over for a stage that is there loses it. -/
theorem repeatedCalls_build_pipeline :
    empty.afterAll repeatedCalls = some repeatedPipeline ∧
      repeatedPipeline.push (.noop "b" []) = .error (.duplicateStage "b") ∧
      (∀ more q, repeatedPipeline.afterAll more = some q →
        q.validate = .error (.orderViolation "b" "a")) ∧
      empty.afterAll (repeatedCalls ++ [.withStage (.noop "b" [])]) = none := by
  have hbuilt : empty.afterAll repeatedCalls = some repeatedPipeline := rfl
  obtain ⟨-, hp⟩ := calls_build_pipeline repeatedCalls
  obtain ⟨-, -, hrefused, -, -, hstable⟩ := hp repeatedPipeline hbuilt
  refine ⟨hbuilt, (hrefused _ _).2 ⟨by decide, rfl⟩, hstable "b" "a" (by decide), ?_⟩
  exact (calls_build_pipeline _).1.2 ⟨repeatedCalls, .noop "b" [], [], rfl, by decide⟩

end Pipeline

end FencedCode
