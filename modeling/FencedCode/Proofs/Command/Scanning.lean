import FencedCode.Proofs.AcceptedSettings
import FencedCode.Proofs.Command.Listing
import FencedCode.Proofs.Command.SharedOptions
import FencedCode.Proofs.Finding
import FencedCode.Proofs.OwnOutput
import FencedCode.Proofs.Settings.Loading

/-!
# Looking before wrapping

The command that only looks and the command that wraps open the same document if they are
given the same input, language and settings, so they fail for the same reasons.  If they do
not fail, the one lists the blocks that the other wraps, in the order in which their wrappers
stand in the result and with the sources that these carry.  If there are none, both say so in
the same words, of which only those of the command that only looks have a colour.  The main
result is `scan_predicts_wrap`.
-/

namespace FencedCode.Command

/-! ## Messages -/

/-- The text of a line that is a message to the user. -/
def Line.message? : Line → Option String
  | .message text => some text
  | .event _ => none

/-- The messages to the user, which the standard error has besides events. -/
def Effect.messages (effect : Effect) : List String :=
  effect.lines.filterMap Line.message?

/-- A text in the colour that an escape sequence with a number sets, where colours are shown. -/
def World.coloured (w : World) (number text : String) : String :=
  if w.colours then "\x1b[" ++ number ++ "m" ++ text ++ "\x1b[0m" else text

lemma World.paint_eq_coloured (w : World) (style : Style) {number : String}
    (h : style.code? = some number) (text : String) :
    style.paint w.colours text = w.coloured number text := by
  cases hcolours : w.colours <;> simp [Style.paint, World.coloured, hcolours, h]

/-- The environment can ask for colours where no terminal shows them. -/
example : World.coloured { emptyWorld with env := ⟨[("CLICOLOR_FORCE", "1")]⟩ } "33" "none" =
    "\x1b[33mnone\x1b[0m" := by
  decide +kernel

lemma paint_plain (colours : Bool) (text : String) : Style.plain.paint colours text = text := by
  cases colours <;> rfl

lemma append_languageClass (start : String) (s : Settings) :
    start ++ s.languageClass = start ++ "language-" ++ s.target.language :=
  String.append_assoc.symm

lemma noneMessage_languageClass (s : Settings) :
    noneMessage s.languageClass = "No language-" ++ s.target.language ++ " code blocks found" := by
  rw [noneMessage, append_languageClass]
  rfl

lemma wrappedMessage_languageClass {count : Nat} (h : count ≠ 0) (s : Settings) :
    wrappedMessage count s.languageClass =
      if count = 1 then
        "Wrapped 1 language-" ++ s.target.language ++ " code block"
      else
        "Wrapped " ++ toString count ++ " language-" ++ s.target.language ++ " code blocks" := by
  match count with
  | 0 => exact absurd rfl h
  | 1 =>
    rw [wrappedMessage, append_languageClass]
    rfl
  | n + 2 =>
    have hspace : ∀ text : String, text ++ " " ++ "language-" = text ++ " language-" :=
      fun _ => String.append_assoc
    change "Wrapped " ++ toString (n + 2) ++ " " ++ s.languageClass ++ " code blocks" = _
    rw [append_languageClass, hspace, if_neg (by omega)]

/-- What is said about the selection of events. -/
def remarks (w : World) (verbose : Bool) : List String :=
  (selectionOf w verbose).2

/-- Events are no messages. -/
lemma messages_mk (exit : Nat) (output : String) (events : List Event) (lines : List Line)
    (files : FileTree) :
    (Effect.mk exit output (events.map .event ++ lines) files).messages =
      lines.filterMap Line.message? := by
  have hevents : (events.map Line.event).filterMap Line.message? = [] := by
    simp [List.filterMap_map, Function.comp_def, Line.message?]
  rw [Effect.messages, List.filterMap_append, hevents, List.nil_append]

/-- Which events are shown makes no difference to the messages. -/
lemma messages_shown (w : World) (verbose : Bool) (effect : Effect) :
    (shown w verbose effect).messages = remarks w verbose ++ effect.messages := by
  have hremarks : ((remarks w verbose).map Line.message).filterMap Line.message? =
      remarks w verbose := by
    simp [List.filterMap_map, Function.comp_def, Line.message?]
  rw [Effect.messages, shown, List.filterMap_append, List.filterMap_filter]
  refine congrArg₂ (· ++ ·) hremarks (List.filterMap_congr fun line _ => ?_)
  cases line with
  | message text => rfl
  | event e => simp [Line.message?]

/-! ## The command that only looks -/

/-- The sources that are found are those of the wrappers that are put in. -/
lemma exists_sources {t : TargetBlock} (hattr : t.rawCodeAttribute ≠ Properties.className)
    (r : Root) : ∃ sources : List String,
      t.find r = (sources.zipIdx.map fun (source, k) => ⟨k, source⟩) ∧
        (t.wrap r).2 = sources.length ∧
        (t.insertedAmong false r.children).map t.source? = sources.map some ∧
        (t.insertedAmong false r.children).Sublist (t.wrap r).1.elements := by
  refine ⟨(t.dueAmong false r.children).map Element.textContent, t.find_eq r, ?_, ?_, ?_⟩
  · rw [t.wrap_eq hattr r, List.length_map]
  · rw [t.map_source?_insertedAmong, List.map_map]
    rfl
  · rw [t.wrap_eq hattr r]
    exact t.insertedAmong_sublist false r.children

section

variable {w : World} {b : ScanArguments} {s : Settings} {r : Root}

/-- The blocks are those of the document that is opened. -/
lemma result_findBlocks (w : World) (b : ScanArguments) :
    (findBlocks w b).result =
      (openDocument w b.input b.settings b.language none).map fun (s, r) =>
        (s, s.blockWrapper.find r) := by
  rw [findBlocks, openDocument_eq_bind, Logged.result_bind]
  cases (loadSettings w b.settings b.language none).result with
  | error cause => rfl
  | ok s =>
    change (readDocument w b.input >>= fun _ => _).result = _
    rw [Logged.result_bind]
    cases (readDocument w b.input).result <;> rfl

lemma runScan_of_ok (h : openDocument w b.input b.settings b.language none = .ok (s, r)) :
    runScan w b = ⟨0, if (s.blockWrapper.find r).isEmpty then ""
        else listing (s.blockWrapper.find r) ++ "\n",
      (findBlocks w b).events.map .event ++
        if (s.blockWrapper.find r).isEmpty then [w.say .yellow (noneMessage s.languageClass)]
        else [],
      w.files⟩ := by
  have hfound : (findBlocks w b).result = .ok (s, s.blockWrapper.find r) := by
    rw [result_findBlocks, h]
    rfl
  rw [runScan]
  simp only [hfound]

lemma runScan_of_error {cause : CommandError}
    (h : openDocument w b.input b.settings b.language none = .error cause) :
    runScan w b = failure w w.files (findBlocks w b).events cause := by
  have hfails : (findBlocks w b).result = .error cause := by
    rw [result_findBlocks, h]
    rfl
  rw [runScan]
  simp only [hfails]

end

/-! ## The main result -/

/-- Whether the two commands are asked for the same input, language and settings, and the one that
wraps for no class of its own and for the standard output. -/
structure Shares (b : ScanArguments) (a : WrapArguments) : Prop where
  input : a.input = b.input
  language : a.language = b.language
  settings : a.settings = b.settings
  markerClass : a.markerClass = none
  output : a.output = none ∨ a.output = some "-"

/-- How a run that only looks and a run that wraps belong together. -/
inductive Predicts (w : World) (b : ScanArguments) (a : WrapArguments) (scan wrap : Effect) : Prop
  /-- The document cannot be opened, and both fail with the same line, in red. -/
  | failure {cause : CommandError}
      (hopen : openDocument w b.input b.settings b.language none = .error cause)
      (hscan : scan.exit = 1 ∧ scan.output = "" ∧
        scan.messages = remarks w b.verbose ++ [w.coloured "31" ("Error: " ++ cause.message)])
      (hwrap : wrap.exit = 1 ∧ wrap.output = "" ∧
        wrap.messages = remarks w a.verbose ++ [w.coloured "31" ("Error: " ++ cause.message)])
  /-- Nothing is wrapped, and both say so, the command that only looks in yellow. -/
  | nothing {s : Settings} {r : Root} {text : String}
      (hopen : openDocument w b.input b.settings b.language none = .ok (s, r))
      (hcount : (s.blockWrapper.wrap r).2 = 0)
      (hrendering : IsRendering a (s.blockWrapper.wrap r).1 text)
      (hscan : scan.exit = 0 ∧ scan.output = "" ∧ scan.messages = remarks w b.verbose ++
        [w.coloured "33" ("No language-" ++ s.target.language ++ " code blocks found")])
      (hwrap : wrap.exit = 0 ∧ wrap.output = text ++ "\n" ∧ wrap.messages = remarks w a.verbose ++
        ["No language-" ++ s.target.language ++ " code blocks found"])
  /-- Blocks are wrapped, which is said in green, and their sources are listed. -/
  | blocks {s : Settings} {r : Root} {text : String} {sources : List String}
      (hopen : openDocument w b.input b.settings b.language none = .ok (s, r))
      (hsources : sources ≠ [])
      (hcount : (s.blockWrapper.wrap r).2 = sources.length)
      (hinserted : (s.targetBlock.insertedAmong false r.children).map s.targetBlock.source? =
        sources.map some)
      (hresult : (s.targetBlock.insertedAmong false r.children).Sublist
        (s.blockWrapper.wrap r).1.elements)
      (hrendering : IsRendering a (s.blockWrapper.wrap r).1 text)
      (hscan : scan.exit = 0 ∧ scan.messages = remarks w b.verbose ∧
        scan.output.toList.splitOn '\n' =
          (sources.zipIdx.map fun (source, k) => (toString k ++ "\t" ++
            toString (Text.lines source).length ++ " line(s)\t" ++
            (Text.lines source).head?.getD "").toList) ++ [[]])
      (hwrap : wrap.exit = 0 ∧ wrap.output = text ++ "\n" ∧ wrap.messages = remarks w a.verbose ++
        [w.coloured "32" (if sources.length = 1 then
            "Wrapped 1 language-" ++ s.target.language ++ " code block"
          else
            "Wrapped " ++ toString sources.length ++ " language-" ++ s.target.language ++
              " code blocks")])

section

variable {w : World} {b : ScanArguments} {a : WrapArguments} {s : Settings} {r : Root}

lemma Shares.openDocument_eq (h : Shares b a) :
    openDocument w a.input a.settings a.language a.markerClass =
      openDocument w b.input b.settings b.language none := by
  rw [h.input, h.settings, h.language, h.markerClass]

/-- A run that wraps to the standard output tells what it has wrapped. -/
lemma runWrap_of_shares (hshares : Shares b a)
    (h : openDocument w b.input b.settings b.language none = .ok (s, r)) :
    runWrap w a = ⟨0, (ready a s r).text ++ "\n", (prepareWrapped w a).events.map .event ++
      [w.say (wrappedStyle (s.blockWrapper.wrap r).2)
        (wrappedMessage (s.blockWrapper.wrap r).2 s.languageClass)], w.files⟩ := by
  have hready := result_prepareWrapped_of_ok (hshares.openDocument_eq.trans h)
  have hstandard := isStandard_iff.2 hshares.output
  exact runWrap_of_written hready (writeOutput_of_isStandard hstandard _)

/-- Runs that cannot open the document. -/
lemma predicts_of_error (hshares : Shares b a) {cause : CommandError}
    (h : openDocument w b.input b.settings b.language none = .error cause) :
    Predicts w b a (shown w b.verbose (runScan w b)) (shown w a.verbose (runWrap w a)) := by
  have hfails := result_prepareWrapped_of_error (hshares.openDocument_eq.trans h)
  have hline : ∀ events files, (failure w files events cause).messages =
      [w.coloured "31" ("Error: " ++ cause.message)] := by
    intro events files
    rw [failure, messages_mk, ← w.paint_eq_coloured .red rfl]
    rfl
  rw [runScan_of_error h, runWrap_of_error hfails]
  refine .failure h ⟨rfl, rfl, ?_⟩ ⟨rfl, rfl, ?_⟩
  · rw [messages_shown, hline]
  · rw [messages_shown, hline]

/-- Runs that have opened the document. -/
lemma predicts_of_ok (hshares : Shares b a)
    (h : openDocument w b.input b.settings b.language none = .ok (s, r)) :
    Predicts w b a (shown w b.verbose (runScan w b)) (shown w a.verbose (runWrap w a)) := by
  have hvalid := Settings.validate_of_load (openDocument_eq_ok_iff.1 h).1
  have hattr : s.targetBlock.rawCodeAttribute ≠ Properties.className :=
    (Settings.validate_eq_ok_iff.1 hvalid).rawCodeAttribute_ne_className
  obtain ⟨sources, hfind, hcount, hinserted, hresult⟩ := exists_sources hattr r
  rw [runScan_of_ok h, runWrap_of_shares hshares h]
  change s.blockWrapper.find r = _ at hfind
  change (s.blockWrapper.wrap r).2 = _ at hcount
  rw [hfind, hcount]
  cases hsources : sources with
  | nil =>
    rw [hsources] at hcount
    refine .nothing h hcount (isRendering_ready a s r) ⟨rfl, rfl, ?_⟩ ⟨rfl, rfl, ?_⟩
    · rw [messages_shown, messages_mk, ← noneMessage_languageClass,
        ← w.paint_eq_coloured .yellow rfl]
      rfl
    · rw [messages_shown, messages_mk, ← noneMessage_languageClass,
        ← paint_plain w.colours (noneMessage s.languageClass)]
      rfl
  | cons source rest =>
    rw [hsources] at hcount hinserted
    refine .blocks h (List.cons_ne_nil _ _) hcount hinserted hresult (isRendering_ready a s r)
      ⟨rfl, ?_, ?_⟩ ⟨rfl, rfl, ?_⟩
    · rw [messages_shown, messages_mk]
      exact List.append_nil _
    · have hlisted : ((source :: rest).zipIdx.map fun (source, k) =>
          (⟨k, source⟩ : FoundBlock)) ≠ [] := by simp
      have hrows := splitOn_listing hlisted
      rw [List.map_map] at hrows
      exact hrows
    · rw [messages_shown, messages_mk, ← wrappedMessage_languageClass (by simp),
        ← w.paint_eq_coloured .green rfl]
      rfl

end

/-- **Looking predicts wrapping.**  Options of the command that only looks are options of the
command that wraps, which then shares its input, language and settings.  Take any options with
which the command that wraps shares these.  If the document cannot be opened, both runs fail
for the same reason and say so in the same line.  If nothing is wrapped, both say so in the same
words and nothing is listed; where colours are shown, only the command that looks uses one.
Otherwise the listing has one line for each block that is wrapped, counted from zero in document
order, each with the number of lines and the first line of the source that the wrapper of the
block carries, however the lines of this source end. -/
theorem scan_predicts_wrap {w : World} {options : List String} {b : ScanArguments}
    (hscan : invocation? w.env ("scan" :: options) = some (.scan b)) :
    (∃ a, invocation? w.env ("wrap" :: options) = some (.wrap a) ∧ Shares b a ∧
        a.verbose = b.verbose) ∧
      ∀ options' a, invocation? w.env ("wrap" :: options') = some (.wrap a) → Shares b a →
        Predicts w b a (run w ("scan" :: options)) (run w ("wrap" :: options')) := by
  constructor
  · exact ⟨_, invocation?_wrap_of_scan hscan, ⟨rfl, rfl, rfl, rfl, .inl rfl⟩, rfl⟩
  · intro options' a hwrap hshares
    rw [run_of_scan hscan, run_of_wrap hwrap]
    cases hopen : openDocument w b.input b.settings b.language none with
    | error cause => exact predicts_of_error hshares hopen
    | ok opened => exact predicts_of_ok hshares hopen

/-- A world with a document on the standard input. -/
def nestedWorld : World :=
  emptyWorld.feed (nestedBlocks.toJsonText .compact)

/-- Two blocks are listed before they are wrapped. -/
theorem scan_predicts_wrap_nestedBlocks :
    invocation? nestedWorld.env ["scan"] = some (.scan {}) ∧
      Predicts nestedWorld {} {} (run nestedWorld ["scan"]) (run nestedWorld ["wrap"]) ∧
      (run nestedWorld ["scan"]).output = "0\t1 line(s)\tAB\n1\t1 line(s)\tB\n" := by
  have hscan : invocation? nestedWorld.env ["scan"] = some (.scan {}) := rfl
  have hwrap : invocation? nestedWorld.env ["wrap"] = some (.wrap {}) := rfl
  have hdoc : Root.ofJsonText (nestedBlocks.toJsonText .compact) = .ofExcept (.ok nestedBlocks) :=
    Root.ofJsonText_toJsonText_of_numbers_eq_nil .compact (by decide) (by decide)
  have hload : Settings.load nestedWorld.files nestedWorld.cwd nestedWorld.env none {} = .ok {} :=
    (isUsualFilter_emptyWorld false).settings
  have hinput : readInput nestedWorld none = .ok (nestedBlocks.toJsonText .compact) :=
    readInput_feed emptyWorld rfl _
  have hopen : openDocument nestedWorld none none none none = .ok ({}, nestedBlocks) :=
    openDocument_eq_ok_iff.2 ⟨hload, _, hinput, congrArg Logged.result hdoc⟩
  refine ⟨hscan, (scan_predicts_wrap hscan).2 [] {} hwrap ⟨rfl, rfl, rfl, rfl, .inl rfl⟩, ?_⟩
  rw [run_of_scan hscan, output_shown, runScan_of_ok (b := {}) hopen]
  decide +kernel

end FencedCode.Command
