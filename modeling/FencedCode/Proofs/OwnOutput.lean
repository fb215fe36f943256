import FencedCode.Proofs.Conservation
import FencedCode.Proofs.DecodedNumbers
import FencedCode.Proofs.Documents
import FencedCode.Proofs.Runs
import FencedCode.Proofs.Stability

/-!
# Runs over their own output

What the command that wraps has written can be put into it again.  The text is decoded to
the wrapped document, nothing is wrapped and the same text is written, as long as the
reader allows as many arrays and objects as the wrapped document opens.  Wrapping puts a
block two levels deeper, so a document close to the limit is read once and refused the
second time; the main result `wrap_own_output` covers both cases.
-/

namespace FencedCode

/-! ## Numbers of a wrapped document -/

namespace TargetBlock

variable {t : TargetBlock}

lemma numbers_wrapperProperties (hattr : t.rawCodeAttribute ≠ Properties.className)
    (source : String) : (t.wrapperProperties source).numbers = [] :=
  ((entries_wrapperProperties hattr source).filterMap _).eq_nil

/-- Wrapping brings in no numbers. -/
lemma mem_numbers_of_mem_wrap (hattr : t.rawCodeAttribute ≠ Properties.className) {r : Root}
    {x : Double} (h : x ∈ (t.wrap r).1.numbers) : x ∈ r.numbers := by
  obtain ⟨e, he, hx⟩ := List.mem_flatMap.1 h
  rcases List.mem_append.1 ((t.elements_wrap_perm hattr r).mem_iff.1 he) with hnew | hold
  · obtain ⟨f, -, rfl⟩ := List.mem_map.1 hnew
    have hnone : (t.wrapped f).properties.numbers = [] :=
      numbers_wrapperProperties hattr f.textContent
    rw [hnone] at hx
    cases hx
  · obtain ⟨f, hf, rfl⟩ := List.mem_map.1 hold
    exact Root.mem_numbers hf hx

/-- A wrapped document comes back as it was written if its numbers do. -/
lemma reread_wrap (hattr : t.rawCodeAttribute ≠ Properties.className) {r : Root}
    (hfinite : ∀ x ∈ r.numbers, x.isFinite = true)
    (hread : ∀ x ∈ r.numbers, x.isFinite = true → x.reread? = some x) :
    (t.wrap r).1.reread = (t.wrap r).1 :=
  calc (t.wrap r).1.reread
      = (t.wrap r).1.withoutNonFinite :=
        Root.reread_eq_withoutNonFinite fun x hx => hread x (mem_numbers_of_mem_wrap hattr hx)
    _ = (t.wrap r).1 :=
        Root.withoutNonFinite_eq_self fun x hx => hfinite x (mem_numbers_of_mem_wrap hattr hx)

/-- What is written of a document that was read and wrapped is decoded to it, within the
limit of the reader. -/
lemma ofJsonText_wrap (hattr : t.rawCodeAttribute ≠ Properties.className) {text : String}
    {r : Root} (hdoc : (Root.ofJsonText text).result = .ok r)
    (hread : ∀ x ∈ r.numbers, x.isFinite = true → x.reread? = some x) (layout : Json.Layout)
    {blanks : String} (hblanks : Json.readEnd blanks.toList = .ok ()) :
    Root.ofJsonText ((t.wrap r).1.toJsonText layout ++ blanks) =
      .ofExcept (if (t.wrap r).1.node.toJson.depth ≤ 127 then .ok (t.wrap r).1
        else .error (.json .malformed)) := by
  have hsame := reread_wrap hattr (Root.isFinite_of_ofJsonText hdoc) hread
  have h := (t.wrap r).1.ofJsonText_append_blanks layout hblanks
  rwa [hsame] at h

end TargetBlock

namespace Command

/-! ## Runs on a text -/

/-- A run with some settings that takes a document from the standard input, writes JSON to
the standard output and puts the usual wrappers around the usual blocks. -/
structure IsUsualFilter (w : World) (a : WrapArguments) (s : Settings) : Prop where
  input : isStandard a.input = true
  output : isStandard a.output = true
  format : a.format = .json
  settings : Settings.load w.files w.cwd w.env a.settings ⟨a.language, a.markerClass⟩ = .ok s
  wrapper : s.targetBlock = TargetBlock.standard

section

variable {w : World} {a : WrapArguments} {s : Settings}

namespace IsUsualFilter

lemma ready_eq (h : IsUsualFilter w a s) (r : Root) :
    ready a s r = ⟨s, renderDocument .json a.pretty (BlockWrapper.standard.wrap r).1,
      (BlockWrapper.standard.wrap r).2⟩ := by
  have hwrap : s.blockWrapper.wrap r = BlockWrapper.standard.wrap r :=
    congrArg (TargetBlock.wrap · r) h.wrapper
  rw [ready, hwrap, h.format]

/-- A run on a text opens the document of the text. -/
lemma openDocument_eq (h : IsUsualFilter w a s) (text : String) :
    openDocument (w.feed text) a.input a.settings a.language a.markerClass =
      ((Root.ofJsonText text).result.mapError .document).map fun r => (s, r) := by
  have hload : Settings.load (w.feed text).files (w.feed text).cwd (w.feed text).env a.settings
      ⟨a.language, a.markerClass⟩ = .ok s := h.settings
  rw [openDocument, hload, readInput_feed w h.input]
  change ((Root.ofJsonText text).result.mapError CommandError.document >>= fun r =>
    pure (s, r)) = _
  cases (Root.ofJsonText text).result <;> rfl

/-- A run on the text of a document writes the wrapped document. -/
lemma run_of_ok (h : IsUsualFilter w a s) {text : String} {r : Root}
    (hdoc : (Root.ofJsonText text).result = .ok r) :
    (prepareWrapped (w.feed text) a).result =
        .ok ⟨s, renderDocument .json a.pretty (BlockWrapper.standard.wrap r).1,
          (BlockWrapper.standard.wrap r).2⟩ ∧
      (runWrap (w.feed text) a).exit = 0 ∧
      (runWrap (w.feed text) a).output =
        renderDocument .json a.pretty (BlockWrapper.standard.wrap r).1 ++ "\n" := by
  have hprepared := result_prepareWrapped (w.feed text) a
  rw [h.openDocument_eq, hdoc] at hprepared
  have hready := hprepared.trans (congrArg Except.ok (h.ready_eq r))
  rw [runWrap_of_written hready (writeOutput_of_isStandard h.output _)]
  exact ⟨hready, rfl, rfl⟩

/-- A run on a text that is no document fails. -/
lemma run_of_error (h : IsUsualFilter w a s) {text : String} {cause : DocumentError}
    (hdoc : (Root.ofJsonText text).result = .error cause) :
    (runWrap (w.feed text) a).exit = 1 ∧ (runWrap (w.feed text) a).output = "" := by
  have hprepared := result_prepareWrapped (w.feed text) a
  rw [h.openDocument_eq, hdoc] at hprepared
  rw [runWrap_of_error hprepared]
  exact ⟨rfl, rfl⟩

end IsUsualFilter

end

/-! ## The main result -/

/-- **A run over its own output changes nothing** if the wrapped document opens at most 127
arrays and objects at once.  Take any text that is decoded to a document whose numbers are
read back as what they are.  A run on the text succeeds and writes the wrapped document.
Within the limit, what it has written is decoded to the wrapped document, and a run over it
wraps nothing and writes the same text.  Beyond the limit it is malformed to the reader, and
a run over it fails. -/
theorem wrap_own_output {w : World} {a : WrapArguments} {s : Settings}
    (hrun : IsUsualFilter w a s) {text : String} {r : Root}
    (hdoc : (Root.ofJsonText text).result = .ok r)
    (hread : ∀ x ∈ r.numbers, x.isFinite = true → x.reread? = some x) :
    let wrapped := (BlockWrapper.standard.wrap r).1
    let written := renderDocument .json a.pretty wrapped
    let first := runWrap (w.feed text) a
    let second := runWrap (w.feed first.output) a
    (first.exit = 0 ∧ first.output = written ++ "\n") ∧
      (wrapped.node.toJson.depth ≤ 127 →
        Root.ofJsonText written = .ofExcept (.ok wrapped) ∧
          (prepareWrapped (w.feed first.output) a).result = .ok ⟨s, written, 0⟩ ∧
          second.exit = 0 ∧ second.output = first.output) ∧
      (127 < wrapped.node.toJson.depth →
        Root.ofJsonText written = .ofExcept (.error (.json .malformed)) ∧
          second.exit = 1 ∧ second.output = "") := by
  intro wrapped written first second
  have hattr : TargetBlock.standard.rawCodeAttribute ≠ Properties.className := by decide
  have hagain : BlockWrapper.standard.wrap wrapped = (wrapped, 0) :=
    (TargetBlock.wrap_wrap_of_tags hattr (by decide) (by decide) r).1
  have hdecoded : ∀ blanks : String, Json.readEnd blanks.toList = .ok () →
      Root.ofJsonText (written ++ blanks) =
        .ofExcept (if wrapped.node.toJson.depth ≤ 127 then .ok wrapped
          else .error (.json .malformed)) :=
    fun _ hblanks => TargetBlock.ofJsonText_wrap hattr hdoc hread _ hblanks
  obtain ⟨-, hexit, houtput⟩ := hrun.run_of_ok hdoc
  have hwritten := hdecoded "" rfl
  rw [String.append_empty] at hwritten
  -- The second run reads what the first has written, and the line end behind it.
  have hline := hdecoded "\n" rfl
  rw [← houtput] at hline
  refine ⟨⟨hexit, houtput⟩, fun hdepth => ?_, fun hdepth => ?_⟩
  · rw [if_pos hdepth] at hwritten hline
    obtain ⟨hready, hexit', houtput'⟩ := hrun.run_of_ok (congrArg Logged.result hline)
    rw [hagain] at hready houtput'
    exact ⟨hwritten, hready, hexit', houtput'.trans houtput.symm⟩
  · rw [if_neg (Nat.not_le.2 hdepth)] at hwritten hline
    exact ⟨hwritten, hrun.run_of_error (congrArg Logged.result hline)⟩

/-! ## On both sides of the limit -/

/-- A world without files, variables and input. -/
def emptyWorld : World :=
  { files := ⟨[]⟩, cwd := [], env := ⟨[]⟩, input := .empty }

/-- Without a settings file and options, a run is one with the usual settings. -/
lemma isUsualFilter_emptyWorld (pretty : Bool) : IsUsualFilter emptyWorld { pretty } {} := by
  refine ⟨rfl, rfl, rfl, ?_, rfl⟩
  have hfile : Settings.fromFile ⟨[]⟩ [] ⟨[]⟩ none = .ok {} := rfl
  have hvalid : (Settings.override {} ⟨none, none⟩).validate = .ok () := rfl
  change Settings.load ⟨[]⟩ [] ⟨[]⟩ none ⟨none, none⟩ = _
  simp only [Settings.load, hfile, bind, Except.bind, hvalid]
  rfl

/-- Two blocks in a table cell that has a number. -/
def tableBlocks : Root :=
  ⟨[.element "td" (cellProperties []) nestedBlocks.children]⟩

/-- Two blocks are wrapped in the first run and none in the second. -/
theorem wrap_own_output_tableBlocks :
    IsUsualFilter emptyWorld { pretty := true } {} ∧
      (Root.ofJsonText (tableBlocks.toJsonText .compact)).result = .ok tableBlocks ∧
      (∀ x ∈ tableBlocks.numbers, x.isFinite = true → x.reread? = some x) ∧
      let first := runWrap (emptyWorld.feed (tableBlocks.toJsonText .compact)) { pretty := true }
      (runWrap (emptyWorld.feed first.output) { pretty := true }).output = first.output := by
  have hrun := isUsualFilter_emptyWorld true
  have hread : ∀ x ∈ tableBlocks.numbers, x.isFinite = true → x.reread? = some x := by
    decide +kernel
  have hdoc : (Root.ofJsonText (tableBlocks.toJsonText .compact)).result = .ok tableBlocks := by
    have hsame : tableBlocks.reread = tableBlocks := by
      rw [Root.reread_eq_withoutNonFinite hread, Root.withoutNonFinite_eq_self (by decide +kernel)]
    rw [Root.ofJsonText_toJsonText_eq_reread, if_pos (by decide +kernel), hsame]
    rfl
  have hdepth : (BlockWrapper.standard.wrap tableBlocks).1.node.toJson.depth ≤ 127 := by
    decide +kernel
  obtain ⟨-, hwithin, -⟩ := wrap_own_output hrun hdoc hread
  exact ⟨hrun, hdoc, hread, (hwithin hdepth).2.2.2⟩

end Command

/-- A node inside so many elements. -/
def Node.within (n : Node) : Nat → Node
  | 0 => n
  | count + 1 => .element "div" {} [within n count]

/-- A block inside sixty elements, whose text opens 127 arrays and objects at once. -/
def deepBlock : Root :=
  ⟨[(TargetBlock.standard.block {} []).node.within 60]⟩

/-- The limit is needed: the text of a document can be read although what is written of the
wrapped document is refused. -/
theorem deepBlock_not_read_again :
    (Root.ofJsonText (deepBlock.toJsonText .compact)).result = .ok deepBlock ∧
      (∀ layout : Json.Layout,
        Root.ofJsonText ((BlockWrapper.standard.wrap deepBlock).1.toJsonText layout) =
          .ofExcept (.error (.json .malformed))) ∧
      ¬∀ (layout : Json.Layout) (text : String) (r : Root),
        (Root.ofJsonText text).result = .ok r →
        (∀ x ∈ r.numbers, x.isFinite = true → x.reread? = some x) →
        (Root.ofJsonText ((BlockWrapper.standard.wrap r).1.toJsonText layout)).result =
          .ok (BlockWrapper.standard.wrap r).1 := by
  have hnumbers : deepBlock.numbers = [] := by decide +kernel
  have hread : ∀ x ∈ deepBlock.numbers, x.isFinite = true → x.reread? = some x := by
    simp [hnumbers]
  have hdoc : (Root.ofJsonText (deepBlock.toJsonText .compact)).result = .ok deepBlock := by
    have hsame : deepBlock.reread = deepBlock := by
      rw [Root.reread_eq_withoutNonFinite hread,
        Root.withoutNonFinite_eq_self (by simp [hnumbers])]
    rw [Root.ofJsonText_toJsonText_eq_reread, if_pos (by decide +kernel), hsame]
    rfl
  have hdeep : ¬(BlockWrapper.standard.wrap deepBlock).1.node.toJson.depth ≤ 127 := by
    decide +kernel
  have hrefused : ∀ layout : Json.Layout,
      Root.ofJsonText ((BlockWrapper.standard.wrap deepBlock).1.toJsonText layout) =
        .ofExcept (.error (.json .malformed)) := by
    intro layout
    rw [Root.ofJsonText_toJsonText_eq_reread]
    exact congrArg Logged.ofExcept (if_neg hdeep)
  refine ⟨hdoc, hrefused, fun h => ?_⟩
  have hagain := h .compact _ _ hdoc hread
  rw [hrefused] at hagain
  cases hagain

end FencedCode
