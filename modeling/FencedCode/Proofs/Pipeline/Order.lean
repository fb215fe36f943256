import FencedCode.Pipeline.Basic
import Mathlib.Data.List.Induction
import Mathlib.Tactic.Lemma

/-!
# The order of the stages of a pipeline

A row of stages is in order if no stage names one that stands in front of it.  The check goes
through the stages from the front and stops at the first one that does: at the stages in front
of it the check passes, and of its list it reports the first entry that names an earlier stage.
This is `validate_eq_error_iff`, and `validate_eq_ok_iff` is the case in which there is none.
A name that belongs to no other stage of the pipeline imposes nothing, `validate_restricted`.
-/

namespace FencedCode

/-- No stage of a row names one that stands in front of it. -/
def Stage.InOrder (stages : List Stage) : Prop :=
  stages.Pairwise fun earlier later => earlier.name ∉ later.runsBefore

namespace Pipeline

/-- The first stage of a pipeline that names an earlier one: `before` are the stages in front
of it, which are in order, and `name` is the first of the entries of its list that name one of
them. -/
structure IsFirstViolation (p : Pipeline) (before : List Stage) (s : Stage) (name : String) :
    Prop where
  position : ∃ after, p.stages = before ++ s :: after
  inOrder : Stage.InOrder before
  violates : name ∈ before.map Stage.name
  first : ∃ front back, s.runsBefore = front ++ name :: back ∧
    ∀ n ∈ front, n ∉ before.map Stage.name

/-! ## One stage -/

lemma inOrder_append_singleton {before : List Stage} {s : Stage} :
    Stage.InOrder (before ++ [s]) ↔
      Stage.InOrder before ∧ ∀ n ∈ s.runsBefore, n ∉ before.map Stage.name := by
  rw [Stage.InOrder, List.pairwise_append]
  constructor
  · rintro ⟨hbefore, -, hlast⟩
    refine ⟨hbefore, fun n hn hmem => ?_⟩
    obtain ⟨u, hu, rfl⟩ := List.mem_map.1 hmem
    exact hlast u hu s List.mem_cons_self hn
  · rintro ⟨hbefore, hlast⟩
    refine ⟨hbefore, List.pairwise_singleton _ _, fun u hu v hv hn => ?_⟩
    rw [List.mem_singleton.1 hv] at hn
    exact hlast _ hn (List.mem_map_of_mem hu)

/-- A stage that names no earlier one is passed over. -/
lemma violationIn_cons_of_none {earlier : List String} {s : Stage}
    (h : ∀ n ∈ s.runsBefore, n ∉ earlier) (rest : List Stage) :
    violationIn earlier (s :: rest) = violationIn (earlier ++ [s.name]) rest := by
  have hnone : s.runsBefore.find? earlier.contains = none := by
    rw [List.find?_eq_none]
    intro n hn
    simpa using h n hn
  rw [violationIn, hnone]

/-- A stage that names an earlier one ends the check. -/
lemma violationIn_cons_of_first {earlier : List String} {s : Stage} {name : String}
    (hname : name ∈ earlier)
    (h : ∃ front back, s.runsBefore = front ++ name :: back ∧ ∀ n ∈ front, n ∉ earlier)
    (rest : List Stage) : violationIn earlier (s :: rest) = some (s.name, name) := by
  have hfind : s.runsBefore.find? earlier.contains = some name := by
    obtain ⟨front, back, hlist, hfront⟩ := h
    rw [List.find?_eq_some_iff_append]
    refine ⟨by simpa using hname, front, back, hlist, fun n hn => ?_⟩
    simpa using hfront n hn
  rw [violationIn, hfind]

/-- A stage names no earlier one, or there is a first entry of its list that does. -/
lemma exists_first_or (earlier : List String) (s : Stage) :
    (∀ n ∈ s.runsBefore, n ∉ earlier) ∨
      ∃ name ∈ earlier, ∃ front back, s.runsBefore = front ++ name :: back ∧
        ∀ n ∈ front, n ∉ earlier := by
  cases hfind : s.runsBefore.find? earlier.contains with
  | none =>
    rw [List.find?_eq_none] at hfind
    exact .inl fun n hn => by simpa using hfind n hn
  | some name =>
    rw [List.find?_eq_some_iff_append] at hfind
    obtain ⟨hname, front, back, hlist, hfront⟩ := hfind
    refine .inr ⟨name, by simpa using hname, front, back, hlist, fun n hn => ?_⟩
    simpa using hfront n hn

/-! ## The whole check -/

/-- The check passes over stages that are in order. -/
lemma violationIn_append {before : List Stage} (h : Stage.InOrder before)
    (rest : List Stage) :
    violationIn [] (before ++ rest) = violationIn (before.map Stage.name) rest := by
  induction before using List.reverseRecOn generalizing rest with
  | nil => rfl
  | append_singleton before s ih =>
    obtain ⟨hbefore, hlast⟩ := inOrder_append_singleton.1 h
    rw [List.append_assoc, ih hbefore, List.singleton_append, violationIn_cons_of_none hlast,
      List.map_append]
    rfl

/-- The check finds nothing in stages that are in order. -/
lemma violationIn_eq_none {stages : List Stage} (h : Stage.InOrder stages) :
    violationIn [] stages = none := by
  rw [← List.append_nil stages, violationIn_append h, violationIn]

/-- The check finds the first violation. -/
lemma IsFirstViolation.violationIn_eq {p : Pipeline} {before : List Stage} {s : Stage}
    {name : String} (h : p.IsFirstViolation before s name) :
    violationIn [] p.stages = some (s.name, name) := by
  obtain ⟨after, hstages⟩ := h.position
  rw [hstages, violationIn_append h.inOrder]
  exact violationIn_cons_of_first h.violates h.first after

/-- The stages are in order, or there is a first violation. -/
lemma inOrder_or_exists_isFirstViolation (p : Pipeline) :
    Stage.InOrder p.stages ∨ ∃ before s name, p.IsFirstViolation before s name := by
  -- The stages in front of some point are in order, or the violation is among them.
  have hfront : ∀ front back : List Stage, p.stages = front ++ back →
      Stage.InOrder front ∨ ∃ before s name, p.IsFirstViolation before s name := by
    intro front
    induction front using List.reverseRecOn with
    | nil => exact fun back hstages => .inl List.Pairwise.nil
    | append_singleton front s ih =>
      intro back hstages
      rw [List.append_assoc, List.singleton_append] at hstages
      rcases ih (s :: back) hstages with hordered | hviolation
      · rcases exists_first_or (front.map Stage.name) s with hnone | ⟨name, hname, hfirst⟩
        · exact .inl (inOrder_append_singleton.2 ⟨hordered, hnone⟩)
        · exact .inr ⟨front, s, name, ⟨back, hstages⟩, hordered, hname, hfirst⟩
      · exact .inr hviolation
  exact hfront p.stages [] (List.append_nil _).symm

lemma validate_eq_ok {p : Pipeline} (h : Stage.InOrder p.stages) : p.validate = .ok () := by
  rw [validate, violationIn_eq_none h]

lemma IsFirstViolation.validate_eq {p : Pipeline} {before : List Stage} {s : Stage}
    {name : String} (h : p.IsFirstViolation before s name) :
    p.validate = .error (.orderViolation s.name name) := by
  rw [validate, h.violationIn_eq]

/-- A pipeline passes the check exactly if its stages are in order. -/
lemma validate_eq_ok_iff (p : Pipeline) : p.validate = .ok () ↔ Stage.InOrder p.stages := by
  constructor
  · intro hvalid
    rcases inOrder_or_exists_isFirstViolation p with hordered | ⟨before, s, name, hviolation⟩
    · exact hordered
    · rw [hviolation.validate_eq] at hvalid
      cases hvalid
  · exact validate_eq_ok

/-- Otherwise the check reports the first violation. -/
lemma validate_eq_error_iff (p : Pipeline) (e : PipelineError) :
    p.validate = .error e ↔
      ∃ before s name, p.IsFirstViolation before s name ∧ e = .orderViolation s.name name := by
  constructor
  · intro hinvalid
    rcases inOrder_or_exists_isFirstViolation p with hordered | ⟨before, s, name, hviolation⟩
    · rw [validate_eq_ok hordered] at hinvalid
      cases hinvalid
    · rw [hviolation.validate_eq] at hinvalid
      exact ⟨before, s, name, hviolation, (Except.error.inj hinvalid).symm⟩
  · rintro ⟨before, s, name, hviolation, rfl⟩
    exact hviolation.validate_eq

/-! ## What the check looks at -/

/-- What the check sees of a stage. -/
def seen (s : Stage) : String × List String :=
  (s.name, s.runsBefore)

/-- The check sees the names and the lists only. -/
lemma violationIn_congr (earlier : List String) {xs ys : List Stage}
    (h : xs.map seen = ys.map seen) : violationIn earlier xs = violationIn earlier ys := by
  induction xs generalizing ys earlier with
  | nil =>
    rw [List.map_nil, eq_comm, List.map_eq_nil_iff] at h
    rw [h]
  | cons s xs ih =>
    obtain ⟨u, ys, rfl, hfirst, hrest⟩ := List.map_eq_cons_iff.1 h.symm
    obtain ⟨hname, hlist⟩ := Prod.mk.inj hfirst
    rw [violationIn, violationIn, hname, hlist, ih _ hrest.symm]

/-- The stage with only those entries in its list that name another one of several stages. -/
def restrictTo (names : List String) (s : Stage) : Stage :=
  { s with runsBefore := s.runsBefore.filter fun n => names.contains n && n != s.name }

@[simp] lemma map_name_restrictTo (names : List String) (stages : List Stage) :
    (stages.map (restrictTo names)).map Stage.name = stages.map Stage.name := by
  rw [List.map_map]
  rfl

/-- The pipeline in which every list is reduced to the names of other stages that are there. -/
def restricted (p : Pipeline) : Pipeline where
  stages := p.stages.map (restrictTo p.names)
  distinct := by
    rw [map_name_restrictTo]
    exact p.distinct

/-- An entry that names an earlier stage names another stage that is there, because names do
not occur twice. -/
lemma violationIn_restrictTo {names earlier : List String} {stages : List Stage}
    (hnames : names = earlier ++ stages.map Stage.name) (hdistinct : names.Nodup) :
    violationIn earlier (stages.map (restrictTo names)) = violationIn earlier stages := by
  induction stages generalizing earlier with
  | nil => rfl
  | cons s rest ih =>
    have hearlier : ∀ n ∈ earlier, n ∈ names ∧ n ≠ s.name := by
      intro n hn
      refine ⟨hnames ▸ List.mem_append_left _ hn, fun heq => ?_⟩
      have happart := (List.nodup_append.1 (hnames ▸ hdistinct)).2.2
      exact happart n hn s.name (List.mem_map_of_mem List.mem_cons_self) heq
    have hfind : (restrictTo names s).runsBefore.find? earlier.contains =
        s.runsBefore.find? earlier.contains := by
      rw [restrictTo, List.find?_filter]
      congr 1
      funext n
      rw [Bool.eq_iff_iff]
      simpa using hearlier n
    have hrest := @ih (earlier ++ [s.name]) (by simpa using hnames)
    rw [List.map_cons, violationIn, violationIn, hfind]
    cases s.runsBefore.find? earlier.contains with
    | some name => rfl
    | none => exact hrest

/-- Names that belong to no other stage of the pipeline impose nothing. -/
lemma validate_restricted (p : Pipeline) : p.restricted.validate = p.validate := by
  have hsame : violationIn [] p.restricted.stages = violationIn [] p.stages :=
    violationIn_restrictTo (List.nil_append _).symm p.distinct
  rw [validate, validate, hsame]

end Pipeline

end FencedCode
