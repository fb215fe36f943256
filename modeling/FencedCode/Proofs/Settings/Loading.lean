import FencedCode.Proofs.AcceptedSettings
import FencedCode.Proofs.Files.Reading
import FencedCode.Proofs.Settings.Fields

/-!
# Loading settings

Loading goes through five steps, each of which can fail in its own way: a file is chosen, it
is read, its fields are expanded, the command line has its say, and the result is checked.
`Reads` says what the first three steps give, without the command line, `IsOverridden` what the
command line does to settings, and `Loads` what the whole gives; they say how for each outcome,
in terms of the places of the file tree, the first field that cannot be expanded and the first
fault.  The main result, `load_eq_iff_loads`, is that loading has exactly the outcome that
`Loads` describes.

A path leads somewhere if what it names exists as far as the run can see, that is, if all
directories on the way let it through.
-/

namespace FencedCode.Settings

variable {tree : FileTree} {cwd : List String} {env : Environment} {path : Option String}

/-! ## The file that is found -/

/-- The path of the settings file in a directory. -/
def pathBelow (dir : List String) : String :=
  "/" ++ "/".intercalate (dir ++ ["prewrap.toml"])

/-- Whether the path of the settings file in a directory leads somewhere, from the top. -/
def HasFile (tree : FileTree) (dir : List String) : Prop :=
  ∃ place, tree.resolve [] (pathBelow dir) = .ok place

/-- The lowest directory with a settings file, among the working directory and those above
it. -/
structure IsNearest (tree : FileTree) (cwd dir : List String) : Prop where
  above : dir <+: cwd
  hasFile : HasFile tree dir
  lowest : ∀ other, other <+: cwd → HasFile tree other → other <+: dir

/-- Neither in the working directory nor above it there is a settings file. -/
def HasNoFile (tree : FileTree) (cwd : List String) : Prop :=
  ∀ dir, dir <+: cwd → ¬HasFile tree dir

/-- The path of a settings file does not start in the working directory. -/
lemma resolve_pathBelow (tree : FileTree) (cwd dir : List String) :
    tree.resolve cwd (pathBelow dir) = tree.resolve [] (pathBelow dir) := by
  have habsolute : Files.isAbsolute (pathBelow dir) = true := by
    simp [Files.isAbsolute, pathBelow]
  have hstart : ∀ cwd, FileTree.start cwd (pathBelow dir) = [] := fun _ => if_pos habsolute
  rw [FileTree.resolve, FileTree.resolve, hstart, hstart]

lemma pathExists_iff {dir : List String} :
    tree.pathExists cwd (pathOf (placeIn dir)) = true ↔ HasFile tree dir := by
  rw [FileTree.pathExists_iff]
  change (∃ place, tree.resolve cwd (pathBelow dir) = .ok place) ↔ _
  rw [resolve_pathBelow, HasFile]

lemma prefix_take_succ_iff {dir cwd : List String} {count : Nat} :
    dir <+: cwd.take (count + 1) ↔ dir = cwd.take (count + 1) ∨ dir <+: cwd.take count := by
  rw [List.take_add_one]
  cases cwd[count]? with
  | none =>
    rw [Option.toList_none, List.append_nil]
    exact ⟨.inr, fun h => h.elim (fun h => h ▸ List.prefix_refl _) id⟩
  | some name => exact List.prefix_concat_iff

/-- The search among the first directories of a way finds the lowest one with a file, if there
is one. -/
lemma discoverAbove_cases (tree : FileTree) (cwd : List String) (count : Nat) :
    (∃ dir, IsNearest tree (cwd.take count) dir ∧
      discoverAbove tree cwd count = some (pathBelow dir)) ∨
    HasNoFile tree (cwd.take count) ∧ discoverAbove tree cwd count = none := by
  induction count with
  | zero =>
    rw [discoverAbove, List.take_zero]
    split
    · rename_i hfile
      exact .inl ⟨[], ⟨List.prefix_refl _, pathExists_iff.1 hfile, fun _ h _ => h⟩, rfl⟩
    · rename_i hnone
      refine .inr ⟨fun dir h => ?_, rfl⟩
      rw [List.prefix_nil.1 h]
      exact mt pathExists_iff.2 hnone
  | succ count ih =>
    rw [discoverAbove]
    split
    · rename_i hfile
      exact .inl ⟨_, ⟨List.prefix_refl _, pathExists_iff.1 hfile, fun _ h _ => h⟩, rfl⟩
    · -- Nothing is here, so whatever has a file is above.
      rename_i hnone
      have hhere := mt pathExists_iff.2 hnone
      rcases ih with ⟨dir, hnearest, hdiscover⟩ | ⟨hnofile, hdiscover⟩
      · refine .inl ⟨dir, ⟨prefix_take_succ_iff.2 (.inr hnearest.above), hnearest.hasFile, ?_⟩,
          hdiscover⟩
        intro other hother hfile
        rcases prefix_take_succ_iff.1 hother with rfl | hother
        · exact absurd hfile hhere
        · exact hnearest.lowest other hother hfile
      · refine .inr ⟨fun dir hdir => ?_, hdiscover⟩
        rcases prefix_take_succ_iff.1 hdir with rfl | hdir
        · exact hhere
        · exact hnofile dir hdir

lemma discover_cases (tree : FileTree) (cwd : List String) :
    (∃ dir, IsNearest tree cwd dir ∧ discover tree cwd = some (pathBelow dir)) ∨
      HasNoFile tree cwd ∧ discover tree cwd = none := by
  have h := discoverAbove_cases tree cwd cwd.length
  rwa [List.take_length] at h

lemma IsNearest.eq {dir dir' : List String} (h : IsNearest tree cwd dir)
    (h' : IsNearest tree cwd dir') : dir = dir' :=
  (h'.lowest dir h.above h.hasFile).eq_of_length_le
    (h.lowest dir' h'.above h'.hasFile).length_le

lemma discover_of_isNearest {dir : List String} (h : IsNearest tree cwd dir) :
    discover tree cwd = some (pathBelow dir) := by
  rcases discover_cases tree cwd with ⟨dir', h', hdiscover⟩ | ⟨hnofile, -⟩
  · rw [hdiscover, h.eq h']
  · exact absurd h.hasFile (hnofile dir h.above)

lemma discover_of_hasNoFile (h : HasNoFile tree cwd) : discover tree cwd = none := by
  rcases discover_cases tree cwd with ⟨dir, hnearest, -⟩ | ⟨-, hdiscover⟩
  · exact absurd hnearest.hasFile (h dir hnearest.above)
  · exact hdiscover

/-! ## What comes from files -/

/-- The place of the settings file of a run, and the path that it is known by: the file that
is named, or else the nearest one. -/
inductive IsUsed (tree : FileTree) (cwd : List String) :
    Option String → List String → String → Prop
  | named {path : String} {place : List String} (h : tree.resolve cwd path = .ok place) :
    IsUsed tree cwd (some path) place path
  | found {dir place : List String} (h : IsNearest tree cwd dir)
    (hplace : tree.resolve [] (pathBelow dir) = .ok place) :
    IsUsed tree cwd none place (pathBelow dir)

/-- What comes from files: settings, or why there are none. -/
inductive Reads (tree : FileTree) (cwd : List String) (env : Environment) :
    Option String → Except SettingsError Settings → Prop
  /-- The path that is named leads nowhere. -/
  | missing {path : String} (h : ∀ place, tree.resolve cwd path ≠ .ok place) :
    Reads tree cwd env (some path) (.error (.notFound path))
  /-- The file, or the directory in its place, cannot be read. -/
  | closed {path : Option String} {place : List String} {name : String}
    (hused : IsUsed tree cwd path place name) (hread : (tree.accessAt place).read = false) :
    Reads tree cwd env path (.error (.unreadable .permissionDenied))
  | directory {path : Option String} {place : List String} {name : String}
    (hused : IsUsed tree cwd path place name) (hread : (tree.accessAt place).read = true)
    (h : tree.lookup place = some .directory) :
    Reads tree cwd env path (.error (.unreadable .isADirectory))
  | notText {path : Option String} {place : List String} {name : String} {bytes : ByteArray}
    (hused : IsUsed tree cwd path place name) (hread : (tree.accessAt place).read = true)
    (h : tree.lookup place = some (.file bytes))
    (hbytes : ∀ text : String, bytes ≠ text.toUTF8) :
    Reads tree cwd env path (.error (.unreadable .invalidUtf8))
  | malformed {path : Option String} {place : List String} {name text : String}
    (hused : IsUsed tree cwd path place name) (htext : tree.HoldsText place text)
    (h : ofText? text = none) :
    Reads tree cwd env path (.error .malformed)
  /-- The error has the key of the first field that has no expansion, and what is missing. -/
  | unset {path : Option String} {place : List String} {name text : String} {s : Settings}
    {key : SettingsKey} {absent : String}
    (hused : IsUsed tree cwd path place name) (htext : tree.HoldsText place text)
    (hs : ofText? text = some s) (h : FirstUnset env s key.text absent) :
    Reads tree cwd env path (.error (.unset key absent))
  | file {path : Option String} {place : List String} {name text : String} {s s' : Settings}
    (hused : IsUsed tree cwd path place name) (htext : tree.HoldsText place text)
    (hs : ofText? text = some s) (h : IsExpansion env s s') :
    Reads tree cwd env path (.ok { s' with path := some name })
  /-- There is no file, and the usual settings hold. -/
  | usual (h : HasNoFile tree cwd) :
    Reads tree cwd env none (.ok {
      target := { language := "mermaid", blockTag := "pre", codeTag := "code" }
      wrapper := {
        tag := "div"
        markerClass := "mermaid-wrapper"
        rawCodeAttribute := "data-mermaid-code" }
      downstream := ["rehype-mermaid"]
      path := none })

lemma IsUsed.isSome_lookup {place : List String} {name : String}
    (h : IsUsed tree cwd path place name) : (tree.lookup place).isSome = true := by
  cases h with
  | named h => exact FileTree.isSome_lookup_of_resolve h
  | found _ hplace => exact FileTree.isSome_lookup_of_resolve hplace

lemma fromFile_of_isUsed {place : List String} {name : String}
    (h : IsUsed tree cwd path place name) :
    fromFile tree cwd env path = ofContent env name (tree.textAt place) := by
  cases h with
  | named h =>
    rw [fromFile, if_pos (FileTree.pathExists_iff.2 ⟨place, h⟩), FileTree.readText_of_resolve h]
  | found h hplace =>
    rw [← resolve_pathBelow tree cwd] at hplace
    rw [fromFile, discover_of_isNearest h]
    dsimp only
    rw [FileTree.readText_of_resolve hplace]

lemma ofContent_ok {name text : String} {s : Settings} (h : ofText? text = some s) :
    ofContent env name (.ok text) =
      s.expand env >>= fun s' => .ok { s' with path := some name } := by
  simp only [ofContent, Except.mapError, bind, Except.bind, h]
  rfl

lemma ofContent_malformed {name text : String} (h : ofText? text = none) :
    ofContent env name (.ok text) = .error .malformed := by
  simp only [ofContent, Except.mapError, bind, Except.bind, h]

/-- What comes from files is what `Reads` says. -/
lemma Reads.fromFile_eq {outcome : Except SettingsError Settings}
    (h : Reads tree cwd env path outcome) : fromFile tree cwd env path = outcome := by
  cases h with
  | missing h =>
    exact if_neg fun hexists => (FileTree.pathExists_iff.1 hexists).elim h
  | closed hused hread =>
    rw [fromFile_of_isUsed hused, FileTree.textAt_of_not_readable hused.isSome_lookup hread]
    rfl
  | directory hused hread h =>
    rw [fromFile_of_isUsed hused, FileTree.textAt_of_directory h hread]
    rfl
  | notText hused hread h hbytes =>
    rw [fromFile_of_isUsed hused, FileTree.textAt_of_not_text h hread hbytes]
    rfl
  | malformed hused htext h =>
    rw [fromFile_of_isUsed hused, FileTree.textAt_of_holdsText htext, ofContent_malformed h]
  | unset hused htext hs h =>
    rw [fromFile_of_isUsed hused, FileTree.textAt_of_holdsText htext, ofContent_ok hs,
      expand_eq_error_iff.2 ⟨_, _, rfl, h⟩]
    rfl
  | file hused htext hs h =>
    rw [fromFile_of_isUsed hused, FileTree.textAt_of_holdsText htext, ofContent_ok hs,
      expand_eq_ok_iff.2 h]
    rfl
  | usual h =>
    rw [fromFile, discover_of_hasNoFile h]

/-- A file that is used gives settings or a reason why not. -/
lemma exists_reads_of_isUsed {place : List String} {name : String}
    (hused : IsUsed tree cwd path place name) : ∃ outcome, Reads tree cwd env path outcome := by
  obtain ⟨entry, hentry⟩ := Option.isSome_iff_exists.1 hused.isSome_lookup
  cases hread : (tree.accessAt place).read with
  | false => exact ⟨_, .closed hused hread⟩
  | true =>
    cases entry with
    | directory => exact ⟨_, .directory hused hread hentry⟩
    | file bytes =>
      rcases textOfBytes_cases bytes with ⟨text, rfl, -⟩ | ⟨hbytes, -⟩
      · cases hs : ofText? text with
        | none => exact ⟨_, .malformed hused ⟨hentry, hread⟩ hs⟩
        | some s =>
          cases hexpand : s.expand env with
          | error e =>
            obtain ⟨key, absent, -, h⟩ := expand_eq_error_iff.1 hexpand
            exact ⟨_, .unset hused ⟨hentry, hread⟩ hs h⟩
          | ok s' => exact ⟨_, .file hused ⟨hentry, hread⟩ hs (expand_eq_ok_iff.1 hexpand)⟩
      · exact ⟨_, .notText hused hread hentry hbytes⟩

/-- `Reads` says something about every run. -/
lemma exists_reads (tree : FileTree) (cwd : List String) (env : Environment)
    (path : Option String) : ∃ outcome, Reads tree cwd env path outcome := by
  cases path with
  | some path =>
    cases hresolve : tree.resolve cwd path with
    | error e => exact ⟨_, .missing fun place h => by rw [hresolve] at h; cases h⟩
    | ok place => exact exists_reads_of_isUsed (.named hresolve)
  | none =>
    rcases discover_cases tree cwd with ⟨dir, hnearest, -⟩ | ⟨hnofile, -⟩
    · obtain ⟨place, hplace⟩ := hnearest.hasFile
      exact exists_reads_of_isUsed (.found hnearest hplace)
    · exact ⟨_, .usual hnofile⟩

/-! ## The command line -/

/-- What the command line makes of settings: a language or a class of wrappers that it gives
stands as it is in the place of the one before, and everything else stays. -/
structure IsOverridden (o : Overrides) (s s' : Settings) : Prop where
  language_given : ∀ language, o.language = some language → s'.target.language = language
  language_kept : o.language = none → s'.target.language = s.target.language
  class_given : ∀ name, o.markerClass = some name → s'.wrapper.markerClass = name
  class_kept : o.markerClass = none → s'.wrapper.markerClass = s.wrapper.markerClass
  blockTag : s'.target.blockTag = s.target.blockTag
  codeTag : s'.target.codeTag = s.target.codeTag
  tag : s'.wrapper.tag = s.wrapper.tag
  rawCodeAttribute : s'.wrapper.rawCodeAttribute = s.wrapper.rawCodeAttribute
  downstream : s'.downstream = s.downstream
  path : s'.path = s.path

/-- What may be given, or else kept. -/
lemma getD_eq_iff {given : Option String} {kept result : String} :
    result = given.getD kept ↔
      (∀ text, given = some text → result = text) ∧ (given = none → result = kept) := by
  cases given <;> simp [eq_comm]

lemma isOverridden_iff {o : Overrides} {s s' : Settings} :
    IsOverridden o s s' ↔ s' = s.override o := by
  constructor
  · rintro ⟨hlanguage, hlanguage', hclass, hclass', hblock, hcode, htag, hattribute, hdownstream,
      hpath⟩
    have hlanguage := getD_eq_iff.2 ⟨hlanguage, hlanguage'⟩
    have hclass := getD_eq_iff.2 ⟨hclass, hclass'⟩
    obtain ⟨⟨_, _, _⟩, ⟨_, _, _⟩, _, _⟩ := s'
    simp only at hlanguage hclass hblock hcode htag hattribute hdownstream hpath
    rw [override, hlanguage, hclass, hblock, hcode, htag, hattribute, hdownstream, hpath]
  · rintro rfl
    obtain ⟨hlanguage, hlanguage'⟩ := getD_eq_iff.1 (rfl : o.language.getD s.target.language = _)
    obtain ⟨hclass, hclass'⟩ := getD_eq_iff.1 (rfl : o.markerClass.getD s.wrapper.markerClass = _)
    exact ⟨hlanguage, hlanguage', hclass, hclass', rfl, rfl, rfl, rfl, rfl, rfl⟩

/-! ## The whole -/

/-- What loading gives: what comes from files with the settings of the command line in their
places, unless something is wrong with that.  What is said then is what is said about the first
fault. -/
inductive Loads (tree : FileTree) (cwd : List String) (env : Environment)
    (path : Option String) (o : Overrides) : Except SettingsError Settings → Prop
  | failed {e : SettingsError} (h : Reads tree cwd env path (.error e)) :
    Loads tree cwd env path o (.error e)
  | invalid {s s' : Settings} {fault : SettingsFault} (h : Reads tree cwd env path (.ok s))
    (hoverridden : IsOverridden o s s') (hfault : s'.faults.head? = some fault.message) :
    Loads tree cwd env path o (.error (.invalid fault))
  | ok {s s' : Settings} (h : Reads tree cwd env path (.ok s))
    (hoverridden : IsOverridden o s s') (hfaults : s'.faults = []) :
    Loads tree cwd env path o (.ok s')

lemma load_of_reads_error {e : SettingsError} (h : Reads tree cwd env path (.error e))
    (o : Overrides) : load tree cwd env path o = .error e := by
  rw [load, h.fromFile_eq]
  rfl

lemma load_of_reads_ok {o : Overrides} {s s' : Settings} (h : Reads tree cwd env path (.ok s))
    (hoverridden : IsOverridden o s s') :
    load tree cwd env path o = s'.validate.mapError .invalid >>= fun _ => .ok s' := by
  rw [load, h.fromFile_eq, isOverridden_iff.1 hoverridden]
  rfl

/-- Only settings that pass the checks are given. -/
lemma validate_of_load {o : Overrides} {s : Settings} (h : load tree cwd env path o = .ok s) :
    s.validate = .ok () := by
  obtain ⟨s', -, h⟩ := exists_of_bind_eq_ok h
  obtain ⟨checked, hvalid, h⟩ := exists_of_bind_eq_ok h
  cases h
  exact eq_ok_of_mapError_eq_ok hvalid

lemma Loads.load_eq {o : Overrides} {outcome : Except SettingsError Settings}
    (h : Loads tree cwd env path o outcome) : load tree cwd env path o = outcome := by
  cases h with
  | failed h => exact load_of_reads_error h o
  | invalid h hoverridden hfault =>
    rw [load_of_reads_ok h hoverridden, validate_eq_error_iff_faults.2 hfault]
    rfl
  | ok h hoverridden hfaults =>
    rw [load_of_reads_ok h hoverridden, validate_eq_ok_iff_faults.2 hfaults]
    rfl

lemma exists_loads (tree : FileTree) (cwd : List String) (env : Environment)
    (path : Option String) (o : Overrides) : ∃ outcome, Loads tree cwd env path o outcome := by
  obtain ⟨outcome, h⟩ := exists_reads tree cwd env path
  match outcome with
  | .error e => exact ⟨_, .failed h⟩
  | .ok s =>
    have hoverridden : IsOverridden o s (s.override o) := isOverridden_iff.2 rfl
    cases hvalidate : (s.override o).validate with
    | ok => exact ⟨_, .ok h hoverridden (validate_eq_ok_iff_faults.1 hvalidate)⟩
    | error fault =>
      exact ⟨_, .invalid h hoverridden (validate_eq_error_iff_faults.1 hvalidate)⟩

/-- **Loading settings.**  Loading has the outcome that `Loads` describes, and no other.  What
it gives passes the checks.  If files give settings, loading gives them with the settings of
the command line in their places, as soon as these pass the checks, whether or not what the
files give does.  If files give no settings, loading fails for the same reason whatever the
command line says. -/
theorem load_eq_iff_loads (tree : FileTree) (cwd : List String) (env : Environment)
    (path : Option String) (o : Overrides) :
    (∀ outcome, load tree cwd env path o = outcome ↔ Loads tree cwd env path o outcome) ∧
    (∀ s, load tree cwd env path o = .ok s → s.validate = .ok ()) ∧
    (∀ s s', Reads tree cwd env path (.ok s) → IsOverridden o s s' → s'.validate = .ok () →
      load tree cwd env path o = .ok s') ∧
    ∀ e, Reads tree cwd env path (.error e) → ∀ o', load tree cwd env path o' = .error e := by
  have hiff : ∀ outcome,
      load tree cwd env path o = outcome ↔ Loads tree cwd env path o outcome := by
    intro outcome
    constructor
    · rintro rfl
      obtain ⟨outcome, h⟩ := exists_loads tree cwd env path o
      rwa [h.load_eq]
    · exact Loads.load_eq
  refine ⟨hiff, fun s h => validate_of_load h, fun s s' h hoverridden hvalid => ?_,
    fun e h o' => load_of_reads_error h o'⟩
  exact (Loads.ok h hoverridden (validate_eq_ok_iff_faults.1 hvalid)).load_eq

/-- The text of a settings file that gives no language and takes the class of wrappers from a
variable. -/
def projectText : String :=
  "[target]\nlanguage = ''\n[wrapper]\nclass = '$\x7bCLASS\x7d'\n"

/-- A directory with this settings file and with one that cannot be read, and a directory below
it. -/
def projectFiles : FileTree :=
  ⟨[⟨["home"], .directory, {}⟩, ⟨["home", "docs"], .directory, {}⟩,
    ⟨["home", "prewrap.toml"], .file projectText.toUTF8, {}⟩,
    ⟨["home", "secret.toml"], .file projectText.toUTF8, { read := false }⟩]⟩

/-- What the file says. -/
def projectSettings : Settings where
  target := { language := "" }
  wrapper := { markerClass := "$\x7bCLASS\x7d" }

/-- What comes from the file if the variable is set. -/
def expandedSettings : Settings :=
  { projectSettings with
    wrapper := { markerClass := "diagram" }
    path := some "/home/prewrap.toml" }

/-- The same with a language from the command line. -/
def rescuedSettings : Settings :=
  { expandedSettings with target := { language := "dot" } }

/-- A language on the command line makes up for the empty one in the file above the working
directory, but a class on the command line does not make up for the variable.  A file that is
named is not passed over if it cannot be read. -/
theorem load_projectFiles :
    Reads projectFiles ["home", "docs"] ⟨[("CLASS", "diagram")]⟩ none (.ok expandedSettings) ∧
      expandedSettings.validate = .error (.emptyName .language) ∧
      IsOverridden ⟨some "dot", none⟩ expandedSettings rescuedSettings ∧
      rescuedSettings.validate = .ok () ∧
      load projectFiles ["home", "docs"] ⟨[("CLASS", "diagram")]⟩ none ⟨some "dot", none⟩ =
        .ok rescuedSettings ∧
      Reads projectFiles ["home", "docs"] ⟨[]⟩ none (.error (.unset .wrapperClass "CLASS")) ∧
      load projectFiles ["home", "docs"] ⟨[]⟩ none ⟨some "dot", some "diagram"⟩ =
        .error (.unset .wrapperClass "CLASS") ∧
      (SettingsError.unset .wrapperClass "CLASS").message =
        "Environment variable error in wrapper.class: $\x7bCLASS\x7d not set" ∧
      Reads projectFiles ["home", "docs"] ⟨[]⟩ (some "../secret.toml")
        (.error (.unreadable .permissionDenied)) ∧
      load projectFiles ["home", "docs"] ⟨[]⟩ (some "../secret.toml") {} =
        .error (.unreadable .permissionDenied) := by
  have hused : IsUsed projectFiles ["home", "docs"] none ["home", "prewrap.toml"]
      "/home/prewrap.toml" := by
    have hplace : projectFiles.resolve [] (pathBelow ["home"]) = .ok ["home", "prewrap.toml"] := by
      decide +kernel
    have hbelow : ¬HasFile projectFiles ["home", "docs"] := fun ⟨place, h⟩ => by
      have hnone : projectFiles.resolve [] (pathBelow ["home", "docs"]) = .error .notFound := by
        decide +kernel
      rw [hnone] at h
      cases h
    refine .found ⟨⟨["docs"], rfl⟩, ⟨_, hplace⟩, fun other hother hfile => ?_⟩ hplace
    rcases List.prefix_concat_iff.1 hother with rfl | h
    · exact absurd hfile hbelow
    · exact h
  have htext : projectFiles.HoldsText ["home", "prewrap.toml"] projectText := ⟨rfl, rfl⟩
  have hs : ofText? projectText = some projectSettings := by decide +kernel
  have hpieces : Template.pieces "$\x7bCLASS\x7d".toList = [.reference "CLASS" none] := by
    decide +kernel
  have hread : Reads projectFiles ["home", "docs"] ⟨[("CLASS", "diagram")]⟩ none
      (.ok expandedSettings) := by
    have hclass : Template.expand ⟨[("CLASS", "diagram")]⟩ "$\x7bCLASS\x7d" =
        .ok "diagram" := by
      rw [Template.expand, if_pos (by decide), hpieces]
      rfl
    have hexpand : projectSettings.expand ⟨[("CLASS", "diagram")]⟩ =
        .ok { expandedSettings with path := none } := by
      change (expandAt _ .wrapperClass "$\x7bCLASS\x7d" >>= fun _ => _) = _
      rw [expandAt, hclass]
      rfl
    exact .file hused htext hs (expand_eq_ok_iff.1 hexpand)
  have hunset : Reads projectFiles ["home", "docs"] ⟨[]⟩ none
      (.error (.unset .wrapperClass "CLASS")) := by
    have hclass : Template.expand ⟨[]⟩ "$\x7bCLASS\x7d" = .error "CLASS" := by
      rw [Template.expand, if_pos (by decide), hpieces]
      rfl
    have hexpand : projectSettings.expand ⟨[]⟩ = .error (.unset .wrapperClass "CLASS") := by
      change (expandAt _ .wrapperClass "$\x7bCLASS\x7d" >>= fun _ => _) = _
      rw [expandAt, hclass]
      rfl
    obtain ⟨key, absent, h, hfirst⟩ := expand_eq_error_iff.1 hexpand
    exact h ▸ .unset hused htext hs hfirst
  have hclosed : Reads projectFiles ["home", "docs"] ⟨[]⟩ (some "../secret.toml")
      (.error (.unreadable .permissionDenied)) := by
    have hplace : projectFiles.resolve ["home", "docs"] "../secret.toml" =
        .ok ["home", "secret.toml"] := by decide +kernel
    exact .closed (.named hplace) rfl
  have hoverridden : IsOverridden ⟨some "dot", none⟩ expandedSettings rescuedSettings :=
    isOverridden_iff.2 rfl
  have hvalid : rescuedSettings.validate = .ok () := rfl
  have hinvalid : expandedSettings.validate = .error (.emptyName .language) := rfl
  obtain ⟨-, -, hrescue, -⟩ := load_eq_iff_loads projectFiles ["home", "docs"]
    ⟨[("CLASS", "diagram")]⟩ none ⟨some "dot", none⟩
  obtain ⟨-, -, -, hfails⟩ := load_eq_iff_loads projectFiles ["home", "docs"] ⟨[]⟩ none {}
  obtain ⟨-, -, -, hdenies⟩ := load_eq_iff_loads projectFiles ["home", "docs"] ⟨[]⟩
    (some "../secret.toml") {}
  exact ⟨hread, hinvalid, hoverridden, hvalid, hrescue _ _ hread hoverridden hvalid, hunset,
    hfails _ hunset _, rfl, hclosed, hdenies _ hclosed _⟩

end FencedCode.Settings
