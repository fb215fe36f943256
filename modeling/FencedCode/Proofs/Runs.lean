import FencedCode.Command.Run
import FencedCode.Proofs.Files.Reading

/-!
# Runs of the command that wraps

A run opens a document: it loads settings, reads the input and decodes its text, and each of
these steps can fail.  What is ready to be written when nothing is written yet is the text of
the wrapped document, `result_prepareWrapped`.  What is ready is then written as it is.

What the functions of a run do with paths and forms is said once more by relations: the input
that a path names, `IsInput`, and the text of a document in the form that is asked for,
`IsRendering`.
-/

namespace FencedCode

/-! ## The pipeline of a run -/

/-- A pipeline of the wrapping stage alone wraps and reports how many blocks. -/
lemma Pipeline.run_wrapper {p : Pipeline} {w : BlockWrapper} (hp : p.stages = [w.stage])
    (r : Root) : (p.run r).root = (w.wrap r).1 ∧
      (p.run r).outcome = .ok [⟨BlockWrapper.stageName, (w.wrap r).2⟩] := by
  have hvalid : p.validate = .ok () := by
    rw [validate, hp, violationIn_first]
    rfl
  rw [run, hvalid, hp]
  exact ⟨rfl, rfl⟩

/-- There is such a pipeline. -/
lemma Pipeline.exists_push_wrapper (w : BlockWrapper) :
    ∃ p, Pipeline.empty.push w.stage = .ok p ∧ p.stages = [w.stage] :=
  ⟨_, dif_neg List.not_mem_nil, rfl⟩

namespace Command

/-! ## The input -/

/-- The standard input and output are used without a path, and if the path is a hyphen. -/
lemma isStandard_iff {path : Option String} :
    isStandard path = true ↔ path = none ∨ path = some "-" := by
  cases path <;> simp [isStandard]

/-- Any other path is the path of a file. -/
lemma isStandard_eq_false_iff {path : Option String} :
    isStandard path = false ↔ ∃ name, path = some name ∧ name ≠ "-" := by
  cases path <;> simp [isStandard]

/-- The text of the input that a path names: of the standard input, or of a file. -/
inductive IsInput (w : World) : Option String → String → Prop
  | standard {path : Option String} {text : String} (hpath : path = none ∨ path = some "-")
    (h : w.input = text.toUTF8) : IsInput w path text
  | file {name text : String} {place : List String} (hname : name ≠ "-")
    (hplace : w.files.resolve w.cwd name = .ok place) (h : w.files.HoldsText place text) :
    IsInput w (some name) text

lemma readInput_eq_ok_iff {w : World} {path : Option String} {text : String} :
    readInput w path = .ok text ↔ IsInput w path text := by
  rw [readInput]
  cases hpath : isStandard path with
  | true =>
    rw [if_pos rfl, textOfBytes_eq_ok_iff]
    refine ⟨.standard (isStandard_iff.1 hpath), fun h => ?_⟩
    cases h with
    | standard _ h => exact h
    | file hname => simp [isStandard, hname] at hpath
  | false =>
    obtain ⟨name, rfl, hname⟩ := isStandard_eq_false_iff.1 hpath
    rw [if_neg Bool.false_ne_true, Option.getD_some, FileTree.readText_eq_ok_iff]
    constructor
    · rintro ⟨place, hplace, h⟩
      exact .file hname hplace h
    · intro h
      cases h with
      | standard h => simp [hname] at h
      | file _ hplace h => exact ⟨_, hplace, h⟩

/-- The same world with a text on the standard input. -/
def World.feed (w : World) (text : String) : World :=
  { w with input := text.toUTF8 }

lemma readInput_feed (w : World) {path : Option String} (h : isStandard path = true)
    (text : String) : readInput (w.feed text) path = .ok text :=
  readInput_eq_ok_iff.2 (.standard (isStandard_iff.1 h) rfl)

/-! ## Opening a document -/

/-- The settings of a run and the document that it reads, or why there is none. -/
def openDocument (w : World) (input settings language markerClass : Option String) :
    Except CommandError (Settings × Root) := do
  let s ← (Settings.load w.files w.cwd w.env settings ⟨language, markerClass⟩).mapError .settings
  let text ← (readInput w input).mapError .io
  let r ← (Root.ofJsonText text).result.mapError .document
  return (s, r)

lemma openDocument_eq_ok_iff {w : World} {input settings language markerClass : Option String}
    {s : Settings} {r : Root} : openDocument w input settings language markerClass = .ok (s, r) ↔
      Settings.load w.files w.cwd w.env settings ⟨language, markerClass⟩ = .ok s ∧
        ∃ text, readInput w input = .ok text ∧ (Root.ofJsonText text).result = .ok r := by
  constructor
  · intro h
    obtain ⟨s', hs, h⟩ := exists_of_bind_eq_ok h
    obtain ⟨text, htext, h⟩ := exists_of_bind_eq_ok h
    obtain ⟨r', hr, h⟩ := exists_of_bind_eq_ok h
    cases h
    exact ⟨eq_ok_of_mapError_eq_ok hs, text, eq_ok_of_mapError_eq_ok htext,
      eq_ok_of_mapError_eq_ok hr⟩
  · rintro ⟨hs, text, htext, hr⟩
    rw [openDocument, hs, htext]
    change ((Root.ofJsonText text).result.mapError CommandError.document >>= fun r =>
      pure (s, r)) = _
    rw [hr]
    rfl

lemma result_readDocument (w : World) (path : Option String) :
    (readDocument w path).result = (readInput w path).mapError .io >>= fun text =>
      (Root.ofJsonText text).result.mapError .document :=
  Logged.result_bind _ _

/-- Both commands open a document in two steps, between which they can do something else. -/
lemma openDocument_eq_bind (w : World) (input settings language markerClass : Option String) :
    openDocument w input settings language markerClass =
      (loadSettings w settings language markerClass).result.bind fun s =>
        (readDocument w input).result.map fun r => (s, r) := by
  rw [openDocument, loadSettings, Logged.result_ofExcept]
  cases Settings.load w.files w.cwd w.env settings ⟨language, markerClass⟩ with
  | error cause => rfl
  | ok s =>
    change _ = (readDocument w input).result.map _
    rw [result_readDocument]
    cases readInput w input with
    | error cause => rfl
    | ok text =>
      change ((Root.ofJsonText text).result.mapError CommandError.document).bind _ =
        ((Root.ofJsonText text).result.mapError CommandError.document).map _
      cases (Root.ofJsonText text).result <;> rfl

/-! ## What is ready and what is written -/

/-- What is ready to be written after a document was read. -/
def ready (a : WrapArguments) (s : Settings) (r : Root) : Wrapped where
  settings := s
  text := renderDocument a.format a.pretty (s.blockWrapper.wrap r).1
  count := (s.blockWrapper.wrap r).2

/-- The text of a document in the form that the arguments ask for. -/
inductive IsRendering (a : WrapArguments) (r : Root) : String → Prop
  | compact (hformat : a.format = .json) (hpretty : a.pretty = false) :
    IsRendering a r (r.toJsonText .compact)
  | pretty (hformat : a.format = .json) (hpretty : a.pretty = true) :
    IsRendering a r (r.toJsonText .pretty)
  | html (hformat : a.format = .html) : IsRendering a r r.toHtml

lemma isRendering_iff {a : WrapArguments} {r : Root} {text : String} :
    IsRendering a r text ↔ text = renderDocument a.format a.pretty r := by
  constructor
  · rintro (⟨hformat, hpretty⟩ | ⟨hformat, hpretty⟩ | hformat)
    · rw [hformat, hpretty]
      rfl
    · rw [hformat, hpretty]
      rfl
    · rw [hformat]
      rfl
  · rintro rfl
    cases hformat : a.format with
    | html => exact .html hformat
    | json =>
      cases hpretty : a.pretty with
      | false => exact .compact hformat hpretty
      | true => exact .pretty hformat hpretty

lemma isRendering_ready (a : WrapArguments) (s : Settings) (r : Root) :
    IsRendering a (s.blockWrapper.wrap r).1 (ready a s r).text :=
  isRendering_iff.2 rfl

section

variable {w : World} {a : WrapArguments} {s : Settings} {r : Root}

/-- What is ready to be written is the document that is opened, wrapped. -/
lemma result_prepareWrapped (w : World) (a : WrapArguments) :
    (prepareWrapped w a).result =
      (openDocument w a.input a.settings a.language a.markerClass).map fun (s, r) =>
        ready a s r := by
  rw [prepareWrapped, openDocument_eq_bind, Logged.result_bind]
  cases (loadSettings w a.settings a.language a.markerClass).result with
  | error cause => rfl
  | ok s =>
    obtain ⟨p, hpush, hp⟩ := Pipeline.exists_push_wrapper s.blockWrapper
    have hpipeline : (Logged.ofExcept ((Pipeline.empty.push s.blockWrapper.stage).mapError
        CommandError.pipeline)).result = .ok p := by
      rw [hpush]
      rfl
    change (Logged.report _ >>= fun _ => _).result = _
    rw [Logged.result_bind_of_ok (Logged.result_report _), Logged.result_bind_of_ok hpipeline,
      Logged.result_bind]
    cases (readDocument w a.input).result with
    | error cause => rfl
    | ok r =>
      obtain ⟨hroot, houtcome⟩ := Pipeline.run_wrapper hp r
      change (Logged.report (p.run r).events >>= fun _ => _).result = _
      rw [Logged.result_bind_of_ok (Logged.result_report _), houtcome, hroot]
      rfl

lemma result_prepareWrapped_of_ok
    (h : openDocument w a.input a.settings a.language a.markerClass = .ok (s, r)) :
    (prepareWrapped w a).result = .ok (ready a s r) := by
  rw [result_prepareWrapped, h]
  rfl

lemma result_prepareWrapped_of_error {cause : CommandError}
    (h : openDocument w a.input a.settings a.language a.markerClass = .error cause) :
    (prepareWrapped w a).result = .error cause := by
  rw [result_prepareWrapped, h]
  rfl

/-- A run writes what is ready. -/
lemma runWrap_of_written {wrapped : Wrapped} {files : FileTree} {output : String}
    (h : (prepareWrapped w a).result = .ok wrapped)
    (hwrite : writeOutput w a.output wrapped.text = (files, .ok output)) :
    runWrap w a = ⟨0, output, (prepareWrapped w a).events.map .event ++
      [w.say (wrappedStyle wrapped.count)
        (wrappedMessage wrapped.count wrapped.settings.languageClass)], files⟩ := by
  rw [runWrap]
  simp only [h, hwrite]

/-- A run that cannot write what is ready fails. -/
lemma runWrap_of_unwritten {wrapped : Wrapped} {files : FileTree} {e : IoError}
    (h : (prepareWrapped w a).result = .ok wrapped)
    (hwrite : writeOutput w a.output wrapped.text = (files, .error e)) :
    runWrap w a = failure w files (prepareWrapped w a).events (.io e) := by
  rw [runWrap]
  simp only [h, hwrite]

/-- If nothing is ready, nothing is written. -/
lemma runWrap_of_error {cause : CommandError}
    (h : (prepareWrapped w a).result = .error cause) :
    runWrap w a = failure w w.files (prepareWrapped w a).events cause := by
  rw [runWrap]
  simp only [h]

/-- The standard output takes any text, with a line end behind it. -/
lemma writeOutput_of_isStandard {path : Option String} (h : isStandard path = true)
    (text : String) : writeOutput w path text = (w.files, .ok (text ++ "\n")) :=
  if_pos h

end

/-! ## The command line -/

@[simp] lemma exit_shown (w : World) (verbose : Bool) (effect : Effect) :
    (shown w verbose effect).exit = effect.exit :=
  rfl

@[simp] lemma output_shown (w : World) (verbose : Bool) (effect : Effect) :
    (shown w verbose effect).output = effect.output :=
  rfl

lemma invocation?_wrap (env : Environment) (arguments : List String) :
    invocation? env ("wrap" :: arguments) = wrapInvocation? env arguments :=
  rfl

section

variable {w : World} {arguments : List String}

lemma run_of_wrap {a : WrapArguments} (h : invocation? w.env arguments = some (.wrap a)) :
    run w arguments = shown w a.verbose (runWrap w a) := by
  rw [run, h]

lemma run_of_scan {b : ScanArguments} (h : invocation? w.env arguments = some (.scan b)) :
    run w arguments = shown w b.verbose (runScan w b) := by
  rw [run, h]

lemma run_of_help {topic : HelpTopic} {isLong : Bool}
    (h : invocation? w.env arguments = some (.help topic isLong)) :
    run w arguments = ⟨0, w.manual topic isLong, [], w.files⟩ := by
  rw [run, h]

lemma run_of_misuse (h : invocation? w.env arguments = none) :
    run w arguments = ⟨2, "", [], w.files⟩ := by
  rw [run, h]

end

/-- The command that wraps is used wrongly, asked for help, or asked to wrap. -/
lemma invocation?_wrap_cases (env : Environment) (arguments : List String) :
    invocation? env ("wrap" :: arguments) = none ∨
      (∃ isLong, invocation? env ("wrap" :: arguments) = some (.help .wrap isLong)) ∨
      ∃ a, invocation? env ("wrap" :: arguments) = some (.wrap a) := by
  rw [invocation?_wrap]
  cases h : wrapInvocation? env arguments with
  | none => exact .inl rfl
  | some i =>
    obtain ⟨given, -, h⟩ := Option.bind_eq_some_iff.1 h
    obtain ⟨a, -, h⟩ := Option.bind_eq_some_iff.1 h
    obtain rfl := Option.some.inj h
    rw [Invocation.orHelp]
    cases helpIn? given with
    | none => exact .inr (.inr ⟨a, rfl⟩)
    | some isLong => exact .inr (.inl ⟨isLong, rfl⟩)

/-- What follows a wish for help is not looked at, but what stands in front of it is. -/
example : invocation? ⟨[]⟩ ["wrap", "-vh", "--unknown"] = some (.help .wrap false) ∧
    invocation? ⟨[]⟩ ["wrap", "--unknown", "-h"] = none := by
  decide +kernel

end Command

end FencedCode
