import FencedCode.Proofs.Documents
import FencedCode.Proofs.Wrapping
import FencedCode.Proofs.Files.Writing
import FencedCode.Proofs.Runs

/-!
# All or nothing

The command that wraps loads settings, reads and decodes its input, makes directories and
writes a file, and every step can fail.  When one has failed the standard output is empty and
there are new directories at most; when none has, the whole document is on the standard
output or in one file.  The main result is `wrap_all_or_nothing`.

The input is read to its end before anything is written, so a run can write over its input.
A run that is asked for help, or that is used wrongly, does not get as far as the command.
-/

namespace FencedCode.Command

/-! ## What is left behind -/

/-- Whether a run leaves nothing in a world but new directories. -/
structure Effect.IsFruitless (w : World) (effect : Effect) : Prop where
  output : effect.output = ""
  files : w.files.AddsDirectories effect.files

/-- Whether a run leaves a text at the destination that a path names, and nothing else but new
directories.  Without a path, and if the path is a hyphen, the destination is the standard
output, and otherwise it is the file to which the path leads. -/
inductive Effect.Delivers (w : World) (path : Option String) (text : String) (effect : Effect) :
    Prop
  | standard (hpath : path = none ∨ path = some "-") (houtput : effect.output = text)
      (hfiles : effect.files = w.files)
  | file {name : String} {dest : List String} (hpath : path = some name) (hname : name ≠ "-")
      (houtput : effect.output = "") (hdest : effect.files.resolve w.cwd name = .ok dest)
      (hfiles : w.files.IsWritten effect.files dest text.toUTF8)

/-- Whether a text can be written to the destination that a path names. -/
inductive CanWrite (w : World) (path : Option String) (text : String) : Prop
  | standard (hpath : path = none ∨ path = some "-")
  | file {name : String} (hpath : path = some name) (hname : name ≠ "-")
      (h : (w.files.writeBelow w.cwd name text.toUTF8).2 = .ok ())

/-- Whether a run loads given settings and reads a given document from its input. -/
structure Opens (w : World) (a : WrapArguments) (s : Settings) (r : Root) : Prop where
  settings : Settings.load w.files w.cwd w.env a.settings ⟨a.language, a.markerClass⟩ = .ok s
  document : ∃ text, IsInput w a.input text ∧ (Root.ofJsonText text).result = .ok r

/-- How a run ends that is asked to wrap. -/
inductive Ends (w : World) (a : WrapArguments) (effect : Effect) : Prop
  /-- Some step has failed: no document is opened, or the wrapped document cannot be written. -/
  | failed (hexit : effect.exit = 1) (hfruitless : effect.IsFruitless w)
      (hcannot : ∀ s r text, Opens w a s r → IsRendering a (s.blockWrapper.wrap r).1 text →
        ¬CanWrite w a.output (text ++ "\n"))
  /-- The wrapped document is delivered with a line end behind it. -/
  | delivered {s : Settings} {r : Root} {text : String} (hexit : effect.exit = 0)
      (hopens : Opens w a s r) (hrendering : IsRendering a (s.blockWrapper.wrap r).1 text)
      (hdelivers : effect.Delivers w a.output (text ++ "\n"))

lemma Effect.Delivers.shown {w : World} {path : Option String} {text : String} {effect : Effect}
    (h : effect.Delivers w path text) (verbose : Bool) :
    (shown w verbose effect).Delivers w path text := by
  cases h with
  | standard hpath houtput hfiles => exact .standard hpath houtput hfiles
  | file hpath hname houtput hdest hfiles => exact .file hpath hname houtput hdest hfiles

/-- Which events are shown makes no difference to how a run ends. -/
lemma Ends.shown {w : World} {a : WrapArguments} {effect : Effect} (h : Ends w a effect)
    (verbose : Bool) : Ends w a (shown w verbose effect) := by
  cases h with
  | failed hexit hfruitless hcannot =>
    exact .failed hexit ⟨hfruitless.output, hfruitless.files⟩ hcannot
  | delivered hexit hopens hrendering hdelivers =>
    exact .delivered hexit hopens hrendering (hdelivers.shown verbose)

/-- What a file has been given can be read from it, if it can be read. -/
lemma Effect.Delivers.readText_eq {w : World} {name text : String} {effect : Effect}
    (h : effect.Delivers w (some name) text) (hname : name ≠ "-")
    (hread : ∀ place, (w.files.accessAt place).read = true) :
    effect.output = "" ∧ effect.files.readText w.cwd name = .ok text := by
  cases h with
  | standard hpath => simp [hname] at hpath
  | file hpath _ houtput hdest hfiles =>
    cases hpath
    refine ⟨houtput, ?_⟩
    rw [FileTree.readText_of_resolve hdest]
    exact FileTree.textAt_of_holdsText ⟨hfiles.written, by rw [hfiles.access, hread]⟩

section

variable {w : World} {a : WrapArguments} {s : Settings} {r : Root}

lemma opens_iff : Opens w a s r ↔
    openDocument w a.input a.settings a.language a.markerClass = .ok (s, r) := by
  simp only [openDocument_eq_ok_iff, readInput_eq_ok_iff]
  exact ⟨fun h => ⟨h.settings, h.document⟩, fun h => ⟨h.1, h.2⟩⟩

/-! ## The last step -/

/-- Writing to a file leaves the standard output empty, whether it succeeds or not. -/
lemma writeOutput_of_file {path : Option String} {text : String} {files : FileTree}
    {outcome : Except IoError Unit} (hpath : isStandard path = false)
    (h : w.files.writeBelow w.cwd (path.getD "-") (text ++ "\n").toUTF8 = (files, outcome)) :
    writeOutput w path text = (files, outcome.map fun _ => "") := by
  rw [writeOutput, if_neg (by simp [hpath]), h]
  cases outcome <;> rfl

/-- Writing either delivers a text or fails, and then the text cannot be written. -/
lemma writeOutput_cases (w : World) (path : Option String) (text : String) :
    (∃ files output, writeOutput w path text = (files, .ok output) ∧
        ∀ exit lines, (Effect.mk exit output lines files).Delivers w path (text ++ "\n")) ∨
      ∃ files e, writeOutput w path text = (files, .error e) ∧
        w.files.AddsDirectories files ∧ ¬CanWrite w path (text ++ "\n") := by
  cases hpath : isStandard path with
  | true =>
    exact .inl ⟨_, _, writeOutput_of_isStandard hpath text,
      fun _ _ => .standard (isStandard_iff.1 hpath) rfl rfl⟩
  | false =>
    obtain ⟨name, rfl, hname⟩ := isStandard_eq_false_iff.1 hpath
    rcases hwrite : w.files.writeBelow w.cwd name (text ++ "\n").toUTF8 with ⟨files, e | _⟩
    · -- Directories may have been made before something failed.
      have hresult := congrArg Prod.snd hwrite
      have hadds := FileTree.addsDirectories_writeBelow hresult
      rw [hwrite] at hadds
      refine .inr ⟨files, e, writeOutput_of_file hpath hwrite, hadds, ?_⟩
      rintro (hstandard | ⟨⟨⟩, -, hok⟩)
      · simp [hname] at hstandard
      · rw [hresult] at hok
        cases hok
    · have hresult := congrArg Prod.snd hwrite
      obtain ⟨dest, hdest, hwritten⟩ := FileTree.exists_isWritten_writeBelow hresult
      rw [hwrite] at hdest hwritten
      exact .inl ⟨files, "", writeOutput_of_file hpath hwrite,
        fun _ _ => .file rfl hname rfl hdest hwritten⟩

/-- A run that has opened a document ends with writing it. -/
lemma ends_of_openDocument
    (h : openDocument w a.input a.settings a.language a.markerClass = .ok (s, r)) :
    Ends w a (runWrap w a) := by
  have hready := result_prepareWrapped_of_ok h
  rcases writeOutput_cases w a.output (ready a s r).text with
    ⟨files, output, hwrite, hdelivers⟩ | ⟨files, e, hwrite, hadds, hcannot⟩
  · rw [runWrap_of_written hready hwrite]
    exact .delivered rfl (opens_iff.2 h) (isRendering_ready a s r) (hdelivers _ _)
  · rw [runWrap_of_unwritten hready hwrite]
    refine .failed rfl ⟨rfl, hadds⟩ fun s' r' text hopens hrendering => ?_
    -- There is one document and one text of it.
    have hsame := (opens_iff.1 hopens).symm.trans h
    cases hsame
    rwa [isRendering_iff.1 hrendering]

/-- A run that cannot open a document leaves the files as they are. -/
lemma ends_of_not_openDocument {cause : CommandError}
    (h : openDocument w a.input a.settings a.language a.markerClass = .error cause) :
    Ends w a (runWrap w a) := by
  rw [runWrap_of_error (result_prepareWrapped_of_error h)]
  refine .failed rfl ⟨rfl, .refl w.files⟩ fun s r text hopens _ => ?_
  rw [opens_iff, h] at hopens
  cases hopens

end

lemma ends_runWrap (w : World) (a : WrapArguments) : Ends w a (runWrap w a) := by
  cases hopen : openDocument w a.input a.settings a.language a.markerClass with
  | error cause => exact ends_of_not_openDocument hopen
  | ok opened => exact ends_of_openDocument hopen

/-! ## The main result -/

/-- **The command that wraps is all or nothing.**  If its arguments are right and it fails, at
whatever step, the standard output is empty, and no file is new or different.  If it succeeds,
it has loaded settings, read its input and decoded a document, and one destination has the
wrapped document in the form that is asked for, with a line end behind it: the standard output,
with all files as they were, or the file to which the path of the output leads, with an empty
standard output, all other files as they were and no other new file.  It succeeds whenever a
document is opened and can be written.

Help is written to the standard output instead of a document, and a misuse writes nothing.
Neither changes a file. -/
theorem wrap_all_or_nothing (w : World) (arguments : List String) :
    let asked := invocation? w.env ("wrap" :: arguments)
    let effect := run w ("wrap" :: arguments)
    (∀ a, asked = some (.wrap a) → Ends w a effect) ∧
      (∀ isLong, asked = some (.help .wrap isLong) →
        effect.exit = 0 ∧ effect.output = w.manual .wrap isLong ∧ effect.files = w.files) ∧
      (asked = none → effect.exit = 2 ∧ effect.output = "" ∧ effect.files = w.files) ∧
      (asked = none ∨ (∃ isLong, asked = some (.help .wrap isLong)) ∨
        ∃ a, asked = some (.wrap a)) ∧
      (effect.exit ≠ 0 → effect.IsFruitless w) := by
  intro asked effect
  have hends : ∀ a, asked = some (.wrap a) → Ends w a effect := by
    intro a hasked
    have heffect : effect = _ := run_of_wrap hasked
    rw [heffect]
    exact (ends_runWrap w a).shown a.verbose
  have hhelp : ∀ isLong, asked = some (.help .wrap isLong) →
      effect = ⟨0, w.manual .wrap isLong, [], w.files⟩ := fun _ hasked => run_of_help hasked
  have hmisuse : asked = none → effect = ⟨2, "", [], w.files⟩ := fun hasked =>
    run_of_misuse hasked
  have hcases := invocation?_wrap_cases w.env arguments
  refine ⟨hends, fun isLong hasked => ?_, fun hasked => ?_, hcases, fun hexit => ?_⟩
  · rw [hhelp isLong hasked]
    exact ⟨rfl, rfl, rfl⟩
  · rw [hmisuse hasked]
    exact ⟨rfl, rfl, rfl⟩
  · rcases hcases with hasked | ⟨isLong, hasked⟩ | ⟨a, hasked⟩
    · rw [hmisuse hasked]
      exact ⟨rfl, .refl w.files⟩
    · rw [hhelp isLong hasked] at hexit
      exact absurd rfl hexit
    · cases hends a hasked with
      | failed _ hfruitless => exact hfruitless
      | delivered hexit' => exact absurd hexit' hexit

/-- A directory with a document. -/
def pageWorld : World where
  files := ⟨[⟨["page.json"], .file (nestedBlocks.toJsonText .compact).toUTF8, {}⟩]⟩
  cwd := []
  env := ⟨[]⟩
  input := .empty

/-- A run over its input puts the wrapped document in its place. -/
theorem wrap_in_place :
    let effect := run pageWorld ["wrap", "page.json", "-o", "page.json"]
    effect.exit = 0 ∧ effect.output = "" ∧
      effect.files.readText [] "page.json" =
        .ok ((BlockWrapper.standard.wrap nestedBlocks).1.toJsonText .compact ++ "\n") := by
  have hasked : invocation? pageWorld.env ["wrap", "page.json", "-o", "page.json"] =
      some (.wrap { input := some "page.json", output := some "page.json" }) := by
    decide +kernel
  have hload : Settings.load pageWorld.files pageWorld.cwd pageWorld.env none {} = .ok {} := rfl
  have hresolve : pageWorld.files.resolve [] "page.json" = .ok ["page.json"] := rfl
  have hread : ∀ place, (pageWorld.files.accessAt place).read = true := by
    intro place
    by_cases hplace : ["page.json"] = place <;>
      simp [FileTree.accessAt, FileTree.itemAt, pageWorld, hplace]
  have hinput : IsInput pageWorld (some "page.json") (nestedBlocks.toJsonText .compact) :=
    .file (by decide) hresolve ⟨rfl, rfl⟩
  have hdoc : Root.ofJsonText (nestedBlocks.toJsonText .compact) = .ofExcept (.ok nestedBlocks) :=
    Root.ofJsonText_toJsonText_of_numbers_eq_nil .compact (by decide) (by decide)
  have hopens : Opens pageWorld { input := some "page.json", output := some "page.json" } {}
      nestedBlocks := ⟨hload, _, hinput, congrArg Logged.result hdoc⟩
  obtain ⟨hends, -⟩ := wrap_all_or_nothing pageWorld ["page.json", "-o", "page.json"]
  cases hends _ hasked with
  | failed _ _ hcannot =>
    refine absurd ?_ (hcannot _ _ _ hopens (.compact rfl rfl))
    refine .file rfl (by decide) ?_
    generalize _ ++ "\n" = text
    rfl
  | delivered hexit hopens' hrendering hdelivers =>
    have hsame := (opens_iff.1 hopens').symm.trans (opens_iff.1 hopens)
    cases hsame
    obtain ⟨houtput, htext⟩ := hdelivers.readText_eq (by decide) hread
    rw [isRendering_iff.1 hrendering] at htext
    exact ⟨hexit, houtput, htext⟩

end FencedCode.Command
