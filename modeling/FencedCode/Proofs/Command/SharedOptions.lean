import FencedCode.Command.Arguments
import Mathlib.Data.List.Basic

/-!
# Options of both commands

The command that only looks takes some of the options of the command that wraps.  Options are
told apart by their letters and their names, so a command line that is read for the one
command is read alike for the other, `readArguments_of_subset`, and asks both for the same
input, language and settings, `invocation?_wrap_of_scan`.
-/

namespace FencedCode.Command

namespace Flag

lemma ofScan_subset : ofScan ⊆ ofWrap := by
  decide

lemma eq_of_letter? {f g : Flag} {c : Char} (hf : f.letter? = some c) (hg : g.letter? = some c) :
    f = g := by
  cases f <;> cases hf <;> cases g <;> simp [letter?] at hg ⊢

lemma eq_of_long {f g : Flag} {name : String} (hf : f.long = name) (hg : g.long = name) :
    f = g := by
  cases f <;> cases hf <;> cases g <;> simp [long] at hg ⊢

/-- An option that is found among some options is the one that is found among more, if what is
looked for belongs to one option only. -/
lemma find?_of_subset {flags more : List Flag} (hmore : flags ⊆ more) {p : Flag → Prop}
    [DecidablePred p] (hp : ∀ f g, p f → p g → f = g) {f : Flag}
    (h : flags.find? (fun g => p g) = some f) : more.find? (fun g => p g) = some f := by
  have hf : p f := by simpa using List.find?_some h
  have hmem := hmore (List.mem_of_find?_eq_some h)
  cases hfind : more.find? fun g => p g with
  | none => exact absurd (decide_eq_true hf) (List.find?_eq_none.1 hfind f hmem)
  | some g =>
    have hg : p g := by simpa using List.find?_some hfind
    rw [hp g f hg hf]

end Flag

/-! ## Reading -/

/-- Whether a part of the command line is one of some options, if it is an option of a
command. -/
def Given.IsAmong (flags : List Flag) : Given → Prop
  | .flag f _ => f ∈ flags
  | .input _ => True
  | .help _ => True

section

variable {flags more : List Flag}

lemma readLetters_of_subset (hmore : flags ⊆ more) {letters : List Char} {given : List Given}
    {open? : Option Flag} (h : readLetters flags letters = some (given, open?)) :
    readLetters more letters = some (given, open?) ∧ (∀ g ∈ given, g.IsAmong flags) ∧
      ∀ f ∈ open?, f ∈ flags := by
  induction letters generalizing given with
  | nil =>
    cases h
    exact ⟨rfl, by simp, by simp⟩
  | cons c rest ih =>
    rw [readLetters] at h ⊢
    by_cases hhelp : c = 'h'
    · rw [if_pos hhelp] at h ⊢
      cases h
      simp [Given.IsAmong]
    · rw [if_neg hhelp] at h ⊢
      cases hfind : flags.find? fun f => f.letter? = some c with
      | none =>
        rw [hfind] at h
        cases h
      | some f =>
        have hf := List.mem_of_find?_eq_some hfind
        rw [Flag.find?_of_subset hmore (fun _ _ => Flag.eq_of_letter?) hfind]
        rw [hfind] at h
        dsimp only at h ⊢
        by_cases hvalue : f.hasValue = true
        · -- What follows the letter is its value, if anything does.
          rw [if_pos hvalue] at h ⊢
          refine ⟨h, ?_⟩
          split at h <;> cases h <;> simp [Given.IsAmong, hf]
        · rw [if_neg hvalue] at h ⊢
          obtain ⟨⟨later, open'?⟩, hrest, hsame⟩ := Option.bind_eq_some_iff.1 h
          cases hsame
          obtain ⟨hread, hlater, hopen⟩ := ih hrest
          rw [hread]
          exact ⟨rfl, List.forall_mem_cons.2 ⟨hf, hlater⟩, hopen⟩

lemma readLong_of_subset (hmore : flags ⊆ more) {text : List Char} {given : List Given}
    {open? : Option Flag} (h : readLong flags text = some (given, open?)) :
    readLong more text = some (given, open?) ∧ (∀ g ∈ given, g.IsAmong flags) ∧
      ∀ f ∈ open?, f ∈ flags := by
  rw [readLong] at h ⊢
  generalize splitEquals text = parts at h ⊢
  obtain ⟨name, value⟩ := parts
  dsimp only at h ⊢
  by_cases hhelp : name = "help"
  · rw [if_pos hhelp] at h ⊢
    refine ⟨h, ?_⟩
    cases value with
    | none =>
      cases h
      simp [Given.IsAmong]
    | some value => cases h
  · rw [if_neg hhelp] at h ⊢
    cases hfind : flags.find? fun f => f.long = name with
    | none =>
      rw [hfind] at h
      cases h
    | some f =>
      have hf := List.mem_of_find?_eq_some hfind
      rw [Flag.find?_of_subset hmore (fun _ _ => Flag.eq_of_long) hfind]
      rw [hfind] at h
      refine ⟨h, ?_⟩
      cases value with
      | none =>
        dsimp only at h
        split at h <;> cases h <;> simp [Given.IsAmong, hf]
      | some value =>
        dsimp only at h
        split at h <;> cases h
        simp [Given.IsAmong, hf]

lemma readArgument_of_subset (hmore : flags ⊆ more) {argument : String} {given : List Given}
    {open? : Option Flag} (h : readArgument flags argument = some (given, open?)) :
    readArgument more argument = some (given, open?) ∧ (∀ g ∈ given, g.IsAmong flags) ∧
      ∀ f ∈ open?, f ∈ flags := by
  rw [readArgument] at h ⊢
  split at h
  · exact readLong_of_subset hmore h
  · cases h
    simp [Given.IsAmong]
  · exact readLetters_of_subset hmore h
  · cases h
    simp [Given.IsAmong]

/-- A command line that can be read with some options is read alike with more of them. -/
lemma readArguments_of_subset (hmore : flags ⊆ more) {arguments : List String}
    {given : List Given} (h : readArguments flags arguments = some given) :
    readArguments more arguments = some given ∧ ∀ g ∈ given, g.IsAmong flags := by
  induction arguments using readArguments.induct flags generalizing given with
  | case1 =>
    cases h
    exact ⟨rfl, by simp⟩
  | case2 rest =>
    -- Two hyphens: everything behind them is an input.
    rw [readArguments, if_pos rfl] at h ⊢
    cases h
    exact ⟨rfl, by simp [Given.IsAmong]⟩
  | case3 argument rest hdashes hnone =>
    rw [readArguments, if_neg hdashes, hnone] at h
    cases h
  | case4 argument rest hdashes here hsome hhelp =>
    -- Nothing behind a wish for help is read.
    obtain ⟨hread, hhere, -⟩ := readArgument_of_subset hmore hsome
    rw [readArguments, if_neg hdashes, hsome] at h
    rw [readArguments, if_neg hdashes, hread]
    dsimp only at h ⊢
    rw [if_pos hhelp] at h ⊢
    cases h
    exact ⟨rfl, hhere⟩
  | case5 argument rest hdashes here hsome hhelp ih =>
    obtain ⟨hread, hhere, -⟩ := readArgument_of_subset hmore hsome
    rw [readArguments, if_neg hdashes, hsome] at h
    rw [readArguments, if_neg hdashes, hread]
    dsimp only at h ⊢
    rw [if_neg hhelp] at h ⊢
    obtain ⟨later, hlater, hsame⟩ := Option.bind_eq_some_iff.1 h
    cases hsame
    obtain ⟨hrest, hamong⟩ := ih hlater
    exact ⟨by simp [hrest], List.forall_mem_append.2 ⟨hhere, hamong⟩⟩
  | case6 argument hdashes here f hsome =>
    rw [readArguments, if_neg hdashes, hsome] at h
    cases h
  | case7 argument hdashes here f hsome value rest hvalue ih =>
    -- The next argument is the value of the last option.
    obtain ⟨hread, hhere, hopen⟩ := readArgument_of_subset hmore hsome
    rw [readArguments, if_neg hdashes, hsome] at h
    rw [readArguments, if_neg hdashes, hread]
    dsimp only at h ⊢
    rw [if_pos hvalue] at h ⊢
    obtain ⟨later, hlater, hsame⟩ := Option.bind_eq_some_iff.1 h
    cases hsame
    obtain ⟨hrest, hamong⟩ := ih hlater
    have hf : (Given.flag f (some value)).IsAmong flags := hopen f rfl
    exact ⟨by simp [hrest],
      List.forall_mem_append.2 ⟨hhere, List.forall_mem_cons.2 ⟨hf, hamong⟩⟩⟩
  | case8 argument hdashes here f hsome value rest hvalue =>
    rw [readArguments, if_neg hdashes, hsome] at h
    dsimp only at h
    rw [if_neg hvalue] at h
    cases h

/-! ## Options that are not given -/

lemma valueOf?_eq_none {f : Flag} {given : List Given} (h : ∀ g ∈ given, g.IsAmong flags)
    (hf : f ∉ flags) : valueOf? f given = none := by
  rw [valueOf?, List.findSome?_eq_none_iff]
  intro g hg
  cases g with
  | input path => rfl
  | help isLong => rfl
  | flag g value =>
    have hne : g ≠ f := fun heq => hf (heq ▸ h _ hg)
    exact if_neg hne

lemma isGiven_eq_false {f : Flag} {given : List Given} (h : ∀ g ∈ given, g.IsAmong flags)
    (hf : f ∉ flags) : isGiven f given = false := by
  rw [isGiven, List.any_eq_false]
  intro g hg
  cases g with
  | input path => simp
  | help isLong => simp
  | flag g value =>
    have hne : g ≠ f := fun heq => hf (heq ▸ h _ hg)
    simpa using hne

end

/-! ## Arguments -/

lemma wrapArguments?_of_scanArguments? {env : Environment} {given : List Given}
    {b : ScanArguments} (hamong : ∀ g ∈ given, g.IsAmong Flag.ofScan)
    (h : scanArguments? env given = some b) :
    wrapArguments? env given = some {
      input := b.input
      language := b.language
      settings := b.settings
      verbose := b.verbose } := by
  have houtput := valueOf?_eq_none (f := .output) hamong (by decide)
  have hformat := valueOf?_eq_none (f := .format) hamong (by decide)
  have hclass := valueOf?_eq_none (f := .wrapperClass) hamong (by decide)
  have hpretty := isGiven_eq_false (f := .pretty) hamong (by decide)
  rw [scanArguments?] at h
  split at h
  · rename_i honce
    obtain ⟨input, hinput, h⟩ := Option.bind_eq_some_iff.1 h
    obtain ⟨settings, hsettings, h⟩ := Option.bind_eq_some_iff.1 h
    cases h
    simp only [wrapArguments?, Option.bind_eq_bind, Option.bind_some, if_pos honce, hinput,
      houtput, hformat, hclass, hpretty, hsettings]
    rfl
  · cases h

/-- What the command that only looks is asked for can be asked of the command that wraps with
the same options: it reads the same input with the same settings, and writes JSON to the
standard output. -/
theorem invocation?_wrap_of_scan {env : Environment} {options : List String}
    {b : ScanArguments} (h : invocation? env ("scan" :: options) = some (.scan b)) :
    invocation? env ("wrap" :: options) = some (.wrap {
      input := b.input
      language := b.language
      settings := b.settings
      verbose := b.verbose }) := by
  change scanInvocation? env options = _ at h
  change wrapInvocation? env options = _
  obtain ⟨given, hread, h⟩ := Option.bind_eq_some_iff.1 h
  obtain ⟨b', hb, h⟩ := Option.bind_eq_some_iff.1 h
  have hscan := Option.some.inj h
  obtain ⟨hmore, hamong⟩ := readArguments_of_subset Flag.ofScan_subset hread
  have hhelp : helpIn? given = none := by
    rw [Invocation.orHelp] at hscan
    cases hwish : helpIn? given with
    | none => rfl
    | some isLong =>
      rw [hwish] at hscan
      cases hscan
  rw [Invocation.orHelp, hhelp] at hscan
  cases hscan
  rw [wrapInvocation?, hmore]
  change (wrapArguments? env given >>= fun a => _) = _
  rw [wrapArguments?_of_scanArguments? hamong hb]
  change some (Invocation.orHelp _ _ _) = _
  rw [Invocation.orHelp, hhelp]

end FencedCode.Command
