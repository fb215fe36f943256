import FencedCode.Pipeline.Stages
import FencedCode.Proofs.Pipeline.Order

/-!
# Running a pipeline

A pipeline that does not pass the check of its order runs no stage: what comes out depends on
the names and the lists of the stages only, whatever the stages would do.  Otherwise every
stage gets the document that the stages in front of it have left, and there is one report for
each stage, in order.  The main result, `run_checks_order`, puts this beside what the check
reports.
-/

namespace FencedCode

/-- The document that several stages leave, one after the other. -/
def Stage.applyAll (r : Root) (stages : List Stage) : Root :=
  stages.foldl (fun r s => (s.apply r).root) r

namespace Pipeline

/-! ## Several stages -/

@[simp] lemma applyAll_nil (r : Root) : Stage.applyAll r [] = r :=
  rfl

@[simp] lemma applyAll_cons (r : Root) (s : Stage) (rest : List Stage) :
    Stage.applyAll r (s :: rest) = Stage.applyAll (s.apply r).root rest :=
  rfl

lemma root_runStages (r : Root) (stages : List Stage) :
    (runStages r stages).1 = Stage.applyAll r stages := by
  induction stages generalizing r with
  | nil => rfl
  | cons s rest ih =>
    rw [runStages, applyAll_cons]
    exact ih (s.apply r).root

lemma reports_runStages_cons (r : Root) (s : Stage) (rest : List Stage) :
    (runStages r (s :: rest)).2.2 =
      ⟨s.name, (s.apply r).changed⟩ :: (runStages (s.apply r).root rest).2.2 := by
  rw [runStages]

lemma length_reports_runStages (r : Root) (stages : List Stage) :
    (runStages r stages).2.2.length = stages.length := by
  induction stages generalizing r with
  | nil => rfl
  | cons s rest ih => rw [reports_runStages_cons, List.length_cons, List.length_cons, ih]

/-- A stage reports what it has changed in the document that the stages in front of it have
left. -/
lemma getElem?_reports_runStages (r : Root) (front : List Stage) (s : Stage)
    (back : List Stage) :
    (runStages r (front ++ s :: back)).2.2[front.length]? =
      some ⟨s.name, (s.apply (Stage.applyAll r front)).changed⟩ := by
  induction front generalizing r with
  | nil => rw [List.nil_append, reports_runStages_cons, List.length_nil,
      List.getElem?_cons_zero, applyAll_nil]
  | cons u front ih => rw [List.cons_append, reports_runStages_cons, List.length_cons,
      List.getElem?_cons_succ, ih, applyAll_cons]

/-! ## Runs -/

lemma run_of_error {p : Pipeline} {e : PipelineError} (h : p.validate = .error e) (r : Root) :
    p.run r = ⟨r, [], .error e⟩ := by
  rw [run, h]

lemma run_of_ok {p : Pipeline} (h : p.validate = .ok ()) (r : Root) :
    (p.run r).root = Stage.applyAll r p.stages ∧
      (p.run r).outcome = .ok (runStages r p.stages).2.2 := by
  rw [run, h]
  exact ⟨root_runStages r p.stages, rfl⟩

lemma validate_congr {p q : Pipeline} (h : q.stages.map seen = p.stages.map seen) :
    q.validate = p.validate := by
  rw [validate, validate, violationIn_congr [] h]

/-! ## The main result -/

/-- **A pipeline runs in order or not at all.**  A pipeline passes the check exactly if no
stage names one at an earlier position.  Otherwise the error names the first stage that does
and the first entry of its list that names an earlier stage; names of no stage, and a stage's
own name, count for nothing.  If the check fails, a run gives the same error, the document as
it was and no report of any kind, and what the stages would do makes no difference.  If it
passes, a run leaves what the stages leave in order, and reports for each stage its name and
the number that it gives for the document that it gets. -/
theorem run_checks_order (p : Pipeline) :
    (p.validate = .ok () ↔
      ∀ (i j : Nat) (_ : i < p.stages.length) (_ : j < p.stages.length), i < j →
        p.stages[i].name ∉ p.stages[j].runsBefore) ∧
    (∀ e, p.validate = .error e ↔
      ∃ before s name, p.IsFirstViolation before s name ∧
        e = .orderViolation s.name name) ∧
    p.restricted.validate = p.validate ∧
    (∀ e, p.validate = .error e → ∀ r,
      p.run r = ⟨r, [], .error e⟩ ∧
        ∀ q : Pipeline, q.stages.map seen = p.stages.map seen → q.run r = p.run r) ∧
    (p.validate = .ok () → ∀ r,
      (p.run r).root = Stage.applyAll r p.stages ∧
        ∃ reports, (p.run r).outcome = .ok reports ∧ reports.length = p.stages.length ∧
          ∀ front s back, p.stages = front ++ s :: back →
            reports[front.length]? =
              some ⟨s.name, (s.apply (Stage.applyAll r front)).changed⟩) := by
  refine ⟨?_, validate_eq_error_iff p, validate_restricted p, fun e he r => ?_,
    fun hvalid r => ?_⟩
  · rw [validate_eq_ok_iff, Stage.InOrder, List.pairwise_iff_getElem]
  · refine ⟨run_of_error he r, fun q hq => ?_⟩
    rw [run_of_error he, run_of_error ((validate_congr hq).trans he)]
  · obtain ⟨hroot, houtcome⟩ := run_of_ok hvalid r
    refine ⟨hroot, _, houtcome, length_reports_runStages r p.stages, ?_⟩
    intro front s back hstages
    rw [hstages]
    exact getElem?_reports_runStages r front s back

/-- Stages of which the second and the third have to precede each other, with entries that
name the stage itself or no stage at all, and a second stage out of place. -/
def tangledPipeline : Pipeline where
  stages := [.append "a" ["c", "z", "a"], .append "b" ["b", "c"],
    .clear "c" ["c", "y", "b", "a"], .noop "d" ["a"]]
  distinct := by decide

/-- Stages in order, of which the last one undoes what the others have done. -/
def orderlyPipeline : Pipeline where
  stages := [.append "a" ["b", "c"], .append "b" ["c"], .clear "c" []]
  distinct := by decide

/-- The error is about the first stage out of place and the first entry of its list that
matters.  The stages in order all run, and the last one gets what the others have left. -/
theorem run_tangledPipeline :
    (∀ r, tangledPipeline.run r = ⟨r, [], .error (.orderViolation "c" "b")⟩) ∧
      (orderlyPipeline.run ⟨[]⟩).root.children = [] ∧
      ∃ reports, (orderlyPipeline.run ⟨[]⟩).outcome = .ok reports ∧ reports.length = 3 ∧
        reports[2]? = some ⟨"c", 2⟩ := by
  obtain ⟨-, -, -, hrefused, -⟩ := run_checks_order tangledPipeline
  obtain ⟨-, -, -, -, hrun⟩ := run_checks_order orderlyPipeline
  obtain ⟨hroot, reports, houtcome, hlength, hreports⟩ := hrun (by decide) ⟨[]⟩
  refine ⟨fun r => (hrefused (.orderViolation "c" "b") (by decide) r).1, ?_, reports, houtcome,
    hlength, hreports [.append "a" ["b", "c"], .append "b" ["c"]] (.clear "c" []) [] rfl⟩
  rw [hroot]
  rfl

end Pipeline

end FencedCode
