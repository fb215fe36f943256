import FencedCode.Proofs.Outcomes
import FencedCode.Settings.Load
import Mathlib.Data.List.Nodup

/-!
# The fields of settings in order

Settings are expanded and checked field by field, and the first field with something wrong
decides what is reported.  `fields` lists the names in settings in this order, each with the
path by which messages call it, and `faults` lists what messages say about all that is wrong
with them.  Expansion replaces the fields from left to right, `expand_eq_ok_iff` and
`expand_eq_error_iff`, and the checks report the first fault of the list,
`validate_eq_ok_iff_faults` and `validate_eq_error_iff_faults`.

The program knows a field by a key.  No two keys have one path, `text_injective`, and no two
faults have one message, `message_injective`, so what is said determines what is meant.
-/

namespace FencedCode

/-! ## Keys and their paths -/

namespace SettingsKey

lemma text_downstreamEntry (index : Nat) :
    (downstreamEntry index).text = "pipeline.downstream[" ++ toString index ++ "]" :=
  rfl

/-- The keys without an index. -/
def single : List SettingsKey :=
  [language, blockTag, codeTag, wrapperTag, wrapperClass, rawCodeAttribute, downstream]

lemma mem_single_or_entry (key : SettingsKey) :
    key ∈ single ∨ ∃ index, key = downstreamEntry index := by
  cases key <;> simp [single]

/-- Only a path with an index has a bracket at its end. -/
lemma text_ne_downstreamEntry {key : SettingsKey} (hkey : key ∈ single) (index : Nat) :
    key.text ≠ (downstreamEntry index).text := by
  intro h
  have hnone : ∀ key ∈ single, key.text.toList.getLast? ≠ some ']' := by decide +kernel
  have hend : "]".toList = [']'] := rfl
  apply hnone key hkey
  rw [h, text_downstreamEntry, String.toList_append, hend, List.getLast?_concat]

/-- Numbers are told apart by their digits. -/
lemma toString_injective : Function.Injective (toString : Nat → String) := by
  intro m n h
  have hdigits : Nat.toDigits 10 m = Nat.toDigits 10 n := by
    rw [← Nat.toList_repr, ← Nat.toList_repr]
    exact congrArg String.toList h
  calc m = Nat.ofDigitChars 10 (Nat.toDigits 10 m) 0 := Nat.ofDigitChars_ten_toDigits.symm
    _ = Nat.ofDigitChars 10 (Nat.toDigits 10 n) 0 := by rw [hdigits]
    _ = n := Nat.ofDigitChars_ten_toDigits

/-- Keys are told apart by their paths. -/
lemma text_injective : Function.Injective text := by
  intro key key' h
  have hnodup : (single.map text).Nodup := by decide +kernel
  rcases mem_single_or_entry key with hkey | ⟨index, rfl⟩
  · rcases mem_single_or_entry key' with hkey' | ⟨index', rfl⟩
    · exact List.inj_on_of_nodup_map hnodup hkey hkey' h
    · exact absurd h (text_ne_downstreamEntry hkey index')
  · rcases mem_single_or_entry key' with hkey' | ⟨index', rfl⟩
    · exact absurd h.symm (text_ne_downstreamEntry hkey' index)
    · rw [text_downstreamEntry, text_downstreamEntry, String.append_left_inj,
        String.append_right_inj] at h
      rw [toString_injective h]

end SettingsKey

namespace SettingsFault

/-- Faults are told apart by what is said about them. -/
lemma message_injective : Function.Injective message := by
  intro fault fault' h
  -- The ends of the messages tell the kind of fault, and what stands before them the key.
  have hend := congrArg (fun t => t.toList.reverse.take 2) h
  cases fault with
  | emptyName key =>
    cases fault' with
    | emptyName key' =>
      have hkey : key.text = key'.text := by simpa [message] using h
      rw [SettingsKey.text_injective hkey]
    | blankInName key' => simp [message] at hend
    | classAttribute => simp [message] at hend
  | blankInName key =>
    cases fault' with
    | emptyName key' => simp [message] at hend
    | blankInName key' =>
      have hkey : key.text = key'.text := by simpa [message] using h
      rw [SettingsKey.text_injective hkey]
    | classAttribute => simp [message] at hend
  | classAttribute =>
    cases fault' with
    | emptyName key' => simp [message] at hend
    | blankInName key' => simp [message] at hend
    | classAttribute => rfl

end SettingsFault

namespace Settings

/-! ## Fields -/

/-- The names in settings that stand by themselves, with their paths. -/
def names (s : Settings) : List (String × String) :=
  [("target.language", s.target.language), ("target.block_tag", s.target.blockTag),
    ("target.code_tag", s.target.codeTag), ("wrapper.tag", s.wrapper.tag),
    ("wrapper.class", s.wrapper.markerClass),
    ("wrapper.raw_code_attribute", s.wrapper.rawCodeAttribute)]

/-- The entries of a list with their paths, which count them. -/
def entries (texts : List String) : List (String × String) :=
  texts.zipIdx.map fun (text, i) => ("pipeline.downstream[" ++ toString i ++ "]", text)

/-- All names in settings in order, with their paths. -/
def fields (s : Settings) : List (String × String) :=
  s.names ++ entries s.downstream

/-- The names that stand by themselves, with their keys. -/
def keyedNames (s : Settings) : List (SettingsKey × String) :=
  [(.language, s.target.language), (.blockTag, s.target.blockTag), (.codeTag, s.target.codeTag),
    (.wrapperTag, s.wrapper.tag), (.wrapperClass, s.wrapper.markerClass),
    (.rawCodeAttribute, s.wrapper.rawCodeAttribute)]

/-- The entries of a list, the first of which has a given index, with their keys. -/
def keyedEntriesFrom (index : Nat) (texts : List String) : List (SettingsKey × String) :=
  (texts.zipIdx index).map fun (text, i) => (.downstreamEntry i, text)

/-- All names in settings in order, with their keys. -/
def keyedFields (s : Settings) : List (SettingsKey × String) :=
  s.keyedNames ++ keyedEntriesFrom 0 s.downstream

/-- A field with its path instead of its key. -/
def withPath (f : SettingsKey × String) : String × String :=
  (f.1.text, f.2)

lemma names_eq (s : Settings) : s.names = s.keyedNames.map withPath :=
  rfl

/-- The fields with their keys are the fields with their paths. -/
lemma fields_eq (s : Settings) : s.fields = s.keyedFields.map withPath := by
  have hentries : entries s.downstream = (keyedEntriesFrom 0 s.downstream).map withPath := by
    rw [entries, keyedEntriesFrom, List.map_map]
    rfl
  rw [fields, keyedFields, List.map_append, ← names_eq, hentries]

lemma map_snd_keyedEntriesFrom (index : Nat) (texts : List String) :
    (keyedEntriesFrom index texts).map Prod.snd = texts := by
  have hsnd : (Prod.snd ∘ fun p : String × Nat => (SettingsKey.downstreamEntry p.2, p.1)) =
      Prod.fst := rfl
  rw [keyedEntriesFrom, List.map_map, hsnd, List.zipIdx_map_fst]

/-- Settings are their fields and the path that they come from. -/
lemma ext_keyedFields {s s' : Settings} (hfields : s.keyedFields = s'.keyedFields)
    (hpath : s.path = s'.path) : s = s' := by
  obtain ⟨⟨_, _, _⟩, ⟨_, _, _⟩, downstream, _⟩ := s
  obtain ⟨⟨_, _, _⟩, ⟨_, _, _⟩, downstream', _⟩ := s'
  have hdownstream := congrArg (fun f => (f.drop 6).map Prod.snd) hfields
  simp only [keyedFields, keyedNames, List.cons_append, List.nil_append, List.drop_succ_cons,
    List.drop_zero, map_snd_keyedEntriesFrom] at hdownstream
  simp_all [keyedFields, keyedNames]

/-! ## Expansion -/

/-- Expands a field in its place. -/
def expandField (env : Environment) (f : SettingsKey × String) :
    Except SettingsError (SettingsKey × String) :=
  (f.1, ·) <$> expandAt env f.1 f.2

lemma expandField_eq_ok_iff {env : Environment} {f g : SettingsKey × String} :
    expandField env f = .ok g ↔ g.1 = f.1 ∧ Template.expand env f.2 = .ok g.2 := by
  rw [expandField, expandAt]
  cases Template.expand env f.2 with
  | error name => simp [Except.mapError, Functor.map, Except.map]
  | ok text => simp [Except.mapError, Functor.map, Except.map, Prod.ext_iff, eq_comm]

lemma expandField_eq_error_iff {env : Environment} {f : SettingsKey × String}
    {e : SettingsError} : expandField env f = .error e ↔
      ∃ name, Template.expand env f.2 = .error name ∧ e = .unset f.1 name := by
  rw [expandField, expandAt]
  cases Template.expand env f.2 with
  | error name => simp [Except.mapError, Functor.map, Except.map, eq_comm]
  | ok text => simp [Except.mapError, Functor.map, Except.map]

lemma keyedEntriesFrom_expandEntries (env : Environment) (index : Nat) (texts : List String) :
    keyedEntriesFrom index <$> expandEntries env index texts =
      (keyedEntriesFrom index texts).mapM (expandField env) := by
  induction texts generalizing index with
  | nil => rfl
  | cons text rest ih =>
    simp only [keyedEntriesFrom] at ih
    simp [expandEntries, keyedEntriesFrom, expandField, ← ih]

/-- Expansion goes through the fields from left to right. -/
lemma keyedFields_expand (env : Environment) (s : Settings) :
    keyedFields <$> s.expand env = s.keyedFields.mapM (expandField env) := by
  rw [keyedFields, List.mapM_append, ← keyedEntriesFrom_expandEntries]
  simp [expand, keyedNames, keyedFields, expandField]

lemma path_of_expand_eq_ok {env : Environment} {s s' : Settings} (h : s.expand env = .ok s') :
    s'.path = s.path := by
  obtain ⟨_, -, h⟩ := exists_of_bind_eq_ok h
  obtain ⟨_, -, h⟩ := exists_of_bind_eq_ok h
  obtain ⟨_, -, h⟩ := exists_of_bind_eq_ok h
  obtain ⟨_, -, h⟩ := exists_of_bind_eq_ok h
  obtain ⟨_, -, h⟩ := exists_of_bind_eq_ok h
  obtain ⟨_, -, h⟩ := exists_of_bind_eq_ok h
  obtain ⟨_, -, h⟩ := exists_of_bind_eq_ok h
  cases h
  rfl

/-- Settings that come from others by expansion: every field is replaced by what it expands
to. -/
structure IsExpansion (env : Environment) (s s' : Settings) : Prop where
  fields : List.Forall₂ (fun f g => g.1 = f.1 ∧ Template.expand env f.2 = .ok g.2)
    s.fields s'.fields
  path : s'.path = s.path

/-- The first field that has no expansion is one with a given path, in which a given variable
is missing. -/
def FirstUnset (env : Environment) (s : Settings) (path name : String) : Prop :=
  ∃ before text after, s.fields = before ++ (path, text) :: after ∧
    (∀ f ∈ before, ∃ text', Template.expand env f.2 = .ok text') ∧
    Template.expand env text = .error name

/-- The keys of fields can be told from the paths. -/
lemma forall₂_fields_iff {env : Environment} {s s' : Settings} :
    List.Forall₂ (fun f g => g.1 = f.1 ∧ Template.expand env f.2 = .ok g.2) s.fields s'.fields ↔
      List.Forall₂ (fun f g => g.1 = f.1 ∧ Template.expand env f.2 = .ok g.2)
        s.keyedFields s'.keyedFields := by
  simp only [fields_eq, List.forall₂_map_left_iff, List.forall₂_map_right_iff, withPath,
    SettingsKey.text_injective.eq_iff]

/-- The fields around one with the path of a key are those around the one with the key. -/
lemma fields_eq_append_iff {s : Settings} {key : SettingsKey} {text : String}
    {before after : List (String × String)} :
    s.fields = before ++ (key.text, text) :: after ↔
      ∃ before' after', s.keyedFields = before' ++ (key, text) :: after' ∧
        before'.map withPath = before ∧ after'.map withPath = after := by
  rw [fields_eq, List.map_eq_append_iff]
  constructor
  · rintro ⟨before', rest, hsplit, hbefore, hrest⟩
    obtain ⟨⟨key', text'⟩, after', rfl, hhere, hafter⟩ := List.map_eq_cons_iff.1 hrest
    have hkey : key' = key := SettingsKey.text_injective (congrArg Prod.fst hhere)
    have htext : text' = text := congrArg Prod.snd hhere
    rw [hkey, htext] at hsplit
    exact ⟨before', after', hsplit, hbefore, hafter⟩
  · rintro ⟨before', after', hsplit, hbefore, rfl⟩
    exact ⟨before', _, hsplit, hbefore, rfl⟩

/-- Expansion replaces all fields if all of them have an expansion. -/
lemma expand_eq_ok_iff {env : Environment} {s s' : Settings} :
    s.expand env = .ok s' ↔ IsExpansion env s s' := by
  have hfields := keyedFields_expand env s
  constructor
  · intro h
    rw [h] at hfields
    have hall := mapM_eq_ok_iff.1 hfields.symm
    simp only [expandField_eq_ok_iff] at hall
    exact ⟨forall₂_fields_iff.2 hall, path_of_expand_eq_ok h⟩
  · rintro ⟨hall, hpath⟩
    rw [forall₂_fields_iff] at hall
    simp only [← expandField_eq_ok_iff] at hall
    rw [mapM_eq_ok_iff.2 hall] at hfields
    cases h : s.expand env with
    | error e =>
      rw [h] at hfields
      cases hfields
    | ok s'' =>
      rw [h] at hfields
      have hsame : s''.keyedFields = s'.keyedFields := Except.ok.inj hfields
      rw [ext_keyedFields hsame ((path_of_expand_eq_ok h).trans hpath.symm)]

/-- Expansion reports the first field that has no expansion, and the variable that is missing
there. -/
lemma expand_eq_error_iff {env : Environment} {s : Settings} {e : SettingsError} :
    s.expand env = .error e ↔
      ∃ key name, e = .unset key name ∧ FirstUnset env s key.text name := by
  have hfields : s.expand env = .error e ↔ s.keyedFields.mapM (expandField env) = .error e := by
    rw [← keyedFields_expand]
    cases s.expand env with
    | error e' => simp [Functor.map, Except.map]
    | ok s' => simp [Functor.map, Except.map]
  have hok : ∀ f, (∃ g, expandField env f = .ok g) ↔
      ∃ text, Template.expand env f.2 = .ok text := by
    intro f
    simp only [expandField_eq_ok_iff]
    exact ⟨fun ⟨g, hg⟩ => ⟨g.2, hg.2⟩, fun ⟨text, h⟩ => ⟨(f.1, text), rfl, h⟩⟩
  simp only [hfields, mapM_eq_error_iff, hok, expandField_eq_error_iff]
  constructor
  · rintro ⟨before, ⟨key, text⟩, after, hsplit, hbefore, name, hname, rfl⟩
    refine ⟨key, name, rfl, _, text, _,
      fields_eq_append_iff.2 ⟨before, after, hsplit, rfl, rfl⟩, ?_, hname⟩
    exact List.forall_mem_map.2 hbefore
  · rintro ⟨key, name, rfl, _, text, _, hsplit, hbefore, hname⟩
    obtain ⟨before, after, hsplit', rfl, rfl⟩ := fields_eq_append_iff.1 hsplit
    refine ⟨before, (key, text), after, hsplit', fun f hf => ?_, name, hname, rfl⟩
    exact hbefore _ (List.mem_map_of_mem hf)

/-! ## Faults -/

/-- What is said about a name with something wrong: it is empty, or it has a blank in it. -/
def nameFaults (path name : String) : List String :=
  if name = "" then [path ++ " cannot be empty"]
  else if name.toList.any Text.isBlank then [path ++ " cannot contain whitespace"]
  else []

/-- What is said about a source attribute that is the class. -/
def attributeFaults (name : String) : List String :=
  if name = "class" ∨ name = "className" then
    ["wrapper.raw_code_attribute cannot be the class attribute"]
  else
    []

/-- What is said about all that is wrong with settings, in the order in which it counts. -/
def faults (s : Settings) : List String :=
  s.names.flatMap (fun f => nameFaults f.1 f.2) ++
    attributeFaults s.wrapper.rawCodeAttribute ++
    s.downstream.flatMap (nameFaults "pipeline.downstream")

/-- Fails with the first of several faults. -/
def firstOf : List SettingsFault → Except SettingsFault Unit
  | [] => .ok ()
  | fault :: _ => .error fault

lemma firstOf_append (xs ys : List SettingsFault) :
    firstOf (xs ++ ys) = firstOf xs >>= fun _ => firstOf ys := by
  cases xs with
  | nil => rfl
  | cons fault rest => rfl

/-- Whether a check reports the first of some messages, if there is one. -/
def Reports (check : Except SettingsFault Unit) (messages : List String) : Prop :=
  ∃ faults, check = firstOf faults ∧ faults.map SettingsFault.message = messages

lemma Reports.bind {check check' : Except SettingsFault Unit} {messages messages' : List String}
    (h : Reports check messages) (h' : Reports check' messages') :
    Reports (check >>= fun _ => check') (messages ++ messages') := by
  obtain ⟨faults, rfl, rfl⟩ := h
  obtain ⟨faults', rfl, rfl⟩ := h'
  exact ⟨faults ++ faults', (firstOf_append _ _).symm, List.map_append⟩

lemma reports_checkName (name : String) (key : SettingsKey) :
    Reports (checkName name key) (nameFaults key.text name) := by
  simp only [checkName, nameFaults, String.isEmpty_iff]
  split
  · exact ⟨[.emptyName key], rfl, rfl⟩
  · split
    · exact ⟨[.blankInName key], rfl, rfl⟩
    · exact ⟨[], rfl, rfl⟩

lemma reports_checkNames (key : SettingsKey) (names : List String) :
    Reports (checkNames key names) (names.flatMap (nameFaults key.text)) := by
  induction names with
  | nil => exact ⟨[], rfl, rfl⟩
  | cons name rest ih => exact (reports_checkName name key).bind ih

lemma reports_checkAttribute (name : String) :
    Reports (checkAttribute name) (attributeFaults name) := by
  rw [checkAttribute, attributeFaults]
  split
  · exact ⟨[.classAttribute], rfl, rfl⟩
  · exact ⟨[], rfl, rfl⟩

/-- The checks of settings report the first fault. -/
lemma reports_validate (s : Settings) : Reports s.validate s.faults := by
  have h := (reports_checkName s.target.language .language).bind <|
    (reports_checkName s.target.blockTag .blockTag).bind <|
    (reports_checkName s.target.codeTag .codeTag).bind <|
    (reports_checkName s.wrapper.tag .wrapperTag).bind <|
    (reports_checkName s.wrapper.markerClass .wrapperClass).bind <|
    (reports_checkName s.wrapper.rawCodeAttribute .rawCodeAttribute).bind <|
    (reports_checkAttribute s.wrapper.rawCodeAttribute).bind <|
    reports_checkNames .downstream s.downstream
  obtain ⟨faults, hvalidate, hmessages⟩ := h
  refine ⟨faults, hvalidate, hmessages.trans ?_⟩
  simp only [Settings.faults, names, List.flatMap_cons, List.flatMap_nil, List.append_nil,
    List.append_assoc]
  rfl

lemma validate_eq_ok_iff_faults {s : Settings} : s.validate = .ok () ↔ s.faults = [] := by
  obtain ⟨faults, hvalidate, hfaults⟩ := reports_validate s
  rw [hvalidate, ← hfaults]
  cases faults with
  | nil => simp [firstOf]
  | cons fault rest => simp [firstOf]

lemma validate_eq_error_iff_faults {s : Settings} {fault : SettingsFault} :
    s.validate = .error fault ↔ s.faults.head? = some fault.message := by
  obtain ⟨faults, hvalidate, hfaults⟩ := reports_validate s
  rw [hvalidate, ← hfaults]
  cases faults with
  | nil => simp [firstOf]
  | cons first rest => simp [firstOf, SettingsFault.message_injective.eq_iff]

end Settings

end FencedCode
