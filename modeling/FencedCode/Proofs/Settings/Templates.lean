import FencedCode.Proofs.Settings.Fields
import FencedCode.Proofs.Text.Parts

/-!
# Templates segment by segment

The author of a template puts it together from segments: plain texts without dollar signs,
dollar signs written twice, and references in braces with or without a default.  Taking the
text apart again gives the pieces of one segment after the other, `pieces_segments`: a
reference ends at its closing brace, whatever its default holds, and a dollar sign written
twice starts none.  So every segment is replaced by itself, once, and the first reference
without a default to a variable that is not set decides how the expansion fails.  The main
result is `expand_segments`.
-/

namespace FencedCode

namespace Template

/-! ## Segments -/

/-- The names of variables: letters, digits and underscores, at least one. -/
structure IsVariableName (name : String) : Prop where
  ne_empty : name ≠ ""
  chars : ∀ c ∈ name.toList, c.isAlphanum ∨ c = '_'

/-- A part of a template as its author writes it. -/
inductive Segment where
  /-- A text that stands for itself. -/
  | plain (text : String) (h : '$' ∉ text.toList)
  /-- A dollar sign, written twice. -/
  | dollar
  /-- A reference without a default. -/
  | reference (name : String) (h : IsVariableName name)
  /-- A reference with a default, which may hold anything but the closing brace. -/
  | withDefault (name default : String) (h : IsVariableName name)
      (hdefault : '\x7d' ∉ default.toList)

namespace Segment

/-- How a segment is written. -/
def chars : Segment → List Char
  | plain text _ => text.toList
  | dollar => ['$', '$']
  | reference name _ => '$' :: '\x7b' :: (name.toList ++ ['\x7d'])
  | withDefault name default _ _ =>
    '$' :: '\x7b' :: (name.toList ++ ':' :: '-' :: (default.toList ++ ['\x7d']))

/-- What a segment is replaced by: the value of its variable as it is, if it is set, and its
default as it is, if not. -/
def value (env : Environment) : Segment → String
  | plain text _ => text
  | dollar => "$"
  | reference name _ => (env.lookup name).getD ""
  | withDefault name default _ _ => (env.lookup name).getD default

/-- The variable that is missing for a segment, if one is. -/
def missing? (env : Environment) : Segment → Option String
  | reference name _ => if (env.lookup name).isNone then some name else none
  | _ => none

/-- The text that is put together from segments. -/
def text (segments : List Segment) : String :=
  String.ofList (segments.flatMap chars)

/-- The pieces that a segment is read as. -/
def pieces : Segment → List Piece
  | plain text _ => text.toList.map .literal
  | dollar => [.literal '$']
  | reference name _ => [.reference name none]
  | withDefault name default _ _ => [.reference name (some default)]

end Segment

/-! ## Reading segments -/

lemma IsVariableName.not_mem {name : String} (h : IsVariableName name) {c : Char}
    (hc : (c.isAlphanum || c == '_') = false) : c ∉ name.toList := by
  intro hmem
  rcases h.chars c hmem with hname | rfl
  · simp [hname] at hc
  · simp at hc

lemma IsVariableName.exists_cons {name : String} (h : IsVariableName name) :
    ∃ c rest, name.toList = c :: rest :=
  List.exists_cons_of_ne_nil fun hnil => h.ne_empty (String.toList_eq_nil_iff.1 hnil)

lemma splitDefault_of_not_mem {name : List Char} (h : ':' ∉ name) :
    splitDefault name = none := by
  induction name with
  | nil => rfl
  | cons c rest ih =>
    obtain ⟨hc, hrest⟩ := not_or.1 (List.mem_cons.not.1 h)
    unfold splitDefault
    split
    · simp_all
    · simp_all
    · rfl

lemma splitDefault_append {name : List Char} (h : ':' ∉ name) (default : List Char) :
    splitDefault (name ++ ':' :: '-' :: default) = some (name, default) := by
  induction name with
  | nil => rfl
  | cons c rest ih =>
    obtain ⟨hc, hrest⟩ := not_or.1 (List.mem_cons.not.1 h)
    rw [List.cons_append]
    unfold splitDefault
    split
    · simp_all
    · simp_all
    · simp_all

/-- A reference ends at the first closing brace. -/
lemma pieces_braced {inside : List Char} (h : '\x7d' ∉ inside) (rest : List Char) :
    pieces ('$' :: '\x7b' :: (inside ++ '\x7d' :: rest)) =
      bracedReference inside :: pieces rest := by
  have hpiece : dollarPiece ('\x7b' :: (inside ++ '\x7d' :: rest)) =
      ([bracedReference inside], rest) := by
    rw [dollarPiece, if_pos rfl, Text.dropWhile_append_mark h, Text.takeWhile_append_mark h]
  rw [pieces, if_pos rfl, hpiece]
  rfl

lemma pieces_plain {text : List Char} (h : '$' ∉ text) (rest : List Char) :
    pieces (text ++ rest) = text.map .literal ++ pieces rest := by
  induction text with
  | nil => rfl
  | cons c text ih =>
    obtain ⟨hc, htext⟩ := not_or.1 (List.mem_cons.not.1 h)
    rw [List.cons_append, pieces, if_neg (Ne.symm hc), ih htext]
    rfl

/-- A dollar sign that is written twice is read as one, whatever follows it. -/
lemma pieces_dollar (rest : List Char) :
    pieces ('$' :: '$' :: rest) = .literal '$' :: pieces rest := by
  have hname : isNameChar '$' = false := by decide +kernel
  have hpiece : dollarPiece ('$' :: rest) = ([.literal '$'], rest) := by
    simp [dollarPiece, hname]
  rw [pieces, if_pos rfl, hpiece]
  rfl

/-- A segment is read as its own pieces, whatever follows it. -/
lemma pieces_segment (s : Segment) (rest : List Char) :
    pieces (s.chars ++ rest) = s.pieces ++ pieces rest := by
  cases s with
  | plain text h => exact pieces_plain h rest
  | dollar => exact pieces_dollar rest
  | reference name h =>
    have hbrace : '\x7d' ∉ name.toList := h.not_mem rfl
    have hsplit := splitDefault_of_not_mem (h.not_mem (c := ':') rfl)
    have hread := pieces_braced hbrace rest
    rw [bracedReference, hsplit] at hread
    simpa [Segment.chars, Segment.pieces] using hread
  | withDefault name default h hdefault =>
    obtain ⟨c, tail, hname⟩ := h.exists_cons
    have hbrace : '\x7d' ∉ name.toList ++ ':' :: '-' :: default.toList := by
      simp [h.not_mem (c := '\x7d') rfl, hdefault]
    have hsplit := splitDefault_append (h.not_mem (c := ':') rfl) default.toList
    have hread := pieces_braced hbrace rest
    rw [bracedReference, hsplit, hname] at hread
    simpa [Segment.chars, Segment.pieces, ← hname] using hread

lemma pieces_segments (segments : List Segment) :
    pieces (segments.flatMap Segment.chars) = segments.flatMap Segment.pieces := by
  induction segments with
  | nil => rw [List.flatMap_nil, pieces, List.flatMap_nil]
  | cons s rest ih => rw [List.flatMap_cons, List.flatMap_cons, pieces_segment, ih]

/-! ## Replacing segments -/

section Substitution

variable {env : Environment}

lemma substitute_literals_append (text : List Char) (rest : List Piece) :
    substitute env (text.map .literal ++ rest) =
      (substitute env rest).map (text ++ ·) := by
  induction text with
  | nil => cases h : substitute env rest <;> simp [Except.map, h]
  | cons c text ih =>
    rw [List.map_cons, List.cons_append, substitute, ih]
    cases substitute env rest <;> rfl

/-- A segment is replaced by its value, unless its variable is missing. -/
lemma substitute_segment_append (s : Segment) (rest : List Piece) :
    substitute env (s.pieces ++ rest) =
      match s.missing? env with
      | some name => .error name
      | none => (substitute env rest).map ((s.value env).toList ++ ·) := by
  cases s with
  | plain text h => exact substitute_literals_append text.toList rest
  | dollar =>
    have hdollar : "$".toList = ['$'] := rfl
    simpa [Segment.pieces, Segment.value, Segment.missing?, hdollar] using
      @substitute_literals_append env ['$'] rest
  | reference name h =>
    simp only [Segment.pieces, List.singleton_append, substitute, Segment.missing?, Segment.value]
    cases env.lookup name with
    | none => rfl
    | some value => cases substitute env rest <;> rfl
  | withDefault name default h hdefault =>
    simp only [Segment.pieces, List.singleton_append, substitute, Segment.missing?, Segment.value]
    cases env.lookup name with
    | none => cases substitute env rest <;> rfl
    | some value => cases substitute env rest <;> rfl

/-- Segments are replaced one after the other, up to the first missing variable. -/
lemma substitute_segments (segments : List Segment) :
    substitute env (segments.flatMap Segment.pieces) =
      match segments.findSome? (Segment.missing? env) with
      | some name => .error name
      | none => .ok (String.join (segments.map (Segment.value env))).toList := by
  induction segments with
  | nil => rfl
  | cons s rest ih =>
    rw [List.flatMap_cons, substitute_segment_append, ih, List.findSome?_cons]
    cases s.missing? env with
    | some name => rfl
    | none =>
      cases rest.findSome? (Segment.missing? env) with
      | some name => rfl
      | none => simp [Except.map]

end Substitution

/-! ## Templates and other texts -/

lemma isTemplate_iff (text : List Char) :
    isTemplate text = true ↔ ['$', '\x7b'] <:+: text := by
  fun_induction isTemplate text with
  | case1 rest => simpa using (List.prefix_append ['$', '\x7b'] rest).isInfix
  | case2 c rest hc ih =>
    rw [ih, List.infix_cons_iff]
    refine ⟨Or.inr, fun h => h.resolve_left ?_⟩
    rintro ⟨tail, htail⟩
    obtain ⟨rfl, hrest⟩ := List.cons.inj htail
    exact hc tail rfl hrest.symm
  | case3 => simp

lemma expand_of_not_infix {env : Environment} {text : String}
    (h : ¬['$', '\x7b'] <:+: text.toList) : expand env text = .ok text := by
  rw [expand, if_neg (mt (isTemplate_iff _).1 h)]

lemma expand_text {env : Environment} {segments : List Segment}
    (h : ['$', '\x7b'] <:+: (Segment.text segments).toList) :
    expand env (Segment.text segments) =
      match segments.findSome? (Segment.missing? env) with
      | some name => .error name
      | none => .ok (String.join (segments.map (Segment.value env))) := by
  rw [expand, if_pos ((isTemplate_iff _).2 h), Segment.text, String.toList_ofList,
    pieces_segments, substitute_segments]
  cases segments.findSome? (Segment.missing? env) with
  | some name => rfl
  | none => exact congrArg Except.ok String.ofList_toList

end Template

namespace Settings

open Template (Segment)

/-! ## Lists of templates -/

section Entries

variable {env : Environment}

lemma expandAt_eq_ok_iff {key : SettingsKey} {text result : String} :
    expandAt env key text = .ok result ↔ Template.expand env text = .ok result := by
  rw [expandAt]
  cases Template.expand env text <;> simp [Except.mapError]

lemma expandEntries_eq_ok_iff {index : Nat} {texts results : List String} :
    expandEntries env index texts = .ok results ↔
      List.Forall₂ (fun text result => Template.expand env text = .ok result) texts results := by
  induction texts generalizing index results with
  | nil => simp [expandEntries, eq_comm]
  | cons text rest ih =>
    constructor
    · intro h
      obtain ⟨result, hresult, h⟩ := exists_of_bind_eq_ok h
      obtain ⟨others, hothers, h⟩ := exists_of_bind_eq_ok h
      obtain rfl := Except.ok.inj h
      exact .cons (expandAt_eq_ok_iff.1 hresult) (ih.1 hothers)
    · rintro (_ | ⟨hresult, hothers⟩)
      rw [expandEntries, expandAt_eq_ok_iff.2 hresult, ih.2 hothers]
      rfl

lemma expandEntries_cons_eq_error_iff {index : Nat} {text : String} {rest : List String}
    {e : SettingsError} : expandEntries env index (text :: rest) = .error e ↔
      expandAt env (.downstreamEntry index) text = .error e ∨
        (∃ result, Template.expand env text = .ok result) ∧
          expandEntries env (index + 1) rest = .error e := by
  simp only [expandEntries, ← @expandAt_eq_ok_iff env (.downstreamEntry index)]
  cases expandAt env (.downstreamEntry index) text with
  | error e' => simp [bind, Except.bind]
  | ok result =>
    cases expandEntries env (index + 1) rest <;> simp [bind, Except.bind, pure, Except.pure]

/-- A list fails with its first entry that has no expansion, at the index of this entry. -/
lemma expandEntries_eq_error_iff {index : Nat} {texts : List String} {e : SettingsError} :
    expandEntries env index texts = .error e ↔
      ∃ before text after, texts = before ++ text :: after ∧
        (∀ b ∈ before, ∃ result, Template.expand env b = .ok result) ∧
        expandAt env (.downstreamEntry (index + before.length)) text = .error e := by
  induction texts generalizing index with
  | nil => simp [expandEntries]
  | cons text rest ih =>
    rw [expandEntries_cons_eq_error_iff, ih]
    constructor
    · rintro (hfirst | ⟨hfirst, before, other, after, rfl, hbefore, hother⟩)
      · exact ⟨[], text, rest, rfl, by simp, hfirst⟩
      · refine ⟨text :: before, other, after, rfl, List.forall_mem_cons.2 ⟨hfirst, hbefore⟩, ?_⟩
        rwa [List.length_cons, Nat.add_comm before.length, ← Nat.add_assoc]
    · rintro ⟨_ | ⟨b, before⟩, other, after, htexts, hbefore, hother⟩
      · obtain ⟨rfl, rfl⟩ := List.cons.inj htexts
        exact .inl hother
      · obtain ⟨rfl, rfl⟩ := List.cons.inj htexts
        obtain ⟨hfirst, hbefore⟩ := List.forall_mem_cons.1 hbefore
        rw [List.length_cons, Nat.add_comm before.length, ← Nat.add_assoc] at hother
        exact .inr ⟨hfirst, before, other, after, rfl, hbefore, hother⟩

end Entries

/-! ## The main result -/

/-- **Expansion substitutes once and in order.**  A text that is put together from segments
and holds a dollar sign with an opening brace behind it expands to the values of the segments
in a row, or fails with the first variable that is missing, in the place of the text.  Any
text without this mark stays as it is.  A list is expanded entry by entry, and its first entry
without an expansion decides how it fails. -/
theorem expand_segments (env : Environment) :
    (∀ (key : SettingsKey) (segments : List Segment),
        ['$', '\x7b'] <:+: (Segment.text segments).toList →
          expandAt env key (Segment.text segments) =
            match segments.findSome? (Segment.missing? env) with
            | some name => .error (.unset key name)
            | none => .ok (String.join (segments.map (Segment.value env)))) ∧
      (∀ (key : SettingsKey) (text : String), ¬['$', '\x7b'] <:+: text.toList →
        expandAt env key text = .ok text) ∧
      (∀ texts results : List String, expandEntries env 0 texts = .ok results ↔
        List.Forall₂ (fun text result => Template.expand env text = .ok result) texts results) ∧
      ∀ (texts : List String) (e : SettingsError), expandEntries env 0 texts = .error e ↔
        ∃ before text after, texts = before ++ text :: after ∧
          (∀ b ∈ before, ∃ result, Template.expand env b = .ok result) ∧
          expandAt env (.downstreamEntry before.length) text = .error e := by
  refine ⟨fun key segments h => ?_, fun key text h => ?_, fun texts results => ?_,
    fun texts e => ?_⟩
  · rw [expandAt, Template.expand_text h]
    cases segments.findSome? (Segment.missing? env) <;> rfl
  · rw [expandAt, Template.expand_of_not_infix h]
    rfl
  · exact expandEntries_eq_ok_iff
  · simpa using @expandEntries_eq_error_iff env 0 texts e

/-- A variable whose value looks like a template, and one whose value is empty. -/
def trickyEnvironment : Environment :=
  ⟨[("A", "$\x7bB\x7d$$"), ("E", "")]⟩

/-- A template in which a dollar sign that is written twice stands in front of a brace, and a
default looks like another template. -/
def trickyTemplate : List Segment :=
  [.plain "x" (by decide), .dollar, .plain "\x7bA\x7d" (by decide),
    .reference "A" ⟨by decide, by simp⟩, .reference "E" ⟨by decide, by simp⟩,
    .withDefault "N_1" "$$\x7b:-A" ⟨by decide, by simp⟩ (by decide)]

/-- References without a default to variables that are not set. -/
def missingReferences : List Segment :=
  [.reference "N_2" ⟨by decide, by simp⟩, .reference "M" ⟨by decide, by simp⟩]

/-- The same template fails with the first of two missing variables behind it, and so does a
list at the index of the first entry with one. -/
theorem expand_segments_trickyTemplate :
    Segment.text trickyTemplate =
        "x$$\x7bA\x7d$\x7bA\x7d$\x7bE\x7d$\x7bN_1:-$$\x7b:-A\x7d" ∧
      ['$', '\x7b'] <:+: (Segment.text trickyTemplate).toList ∧
      expandAt trickyEnvironment .wrapperTag (Segment.text trickyTemplate) =
        .ok "x$\x7bA\x7d$\x7bB\x7d$$$$\x7b:-A" ∧
      expandAt trickyEnvironment .wrapperTag
          (Segment.text (trickyTemplate ++ missingReferences)) =
        .error (.unset .wrapperTag "N_2") ∧
      ¬['$', '\x7b'] <:+: "$A$$".toList ∧
      expandAt trickyEnvironment .codeTag "$A$$" = .ok "$A$$" ∧
      expandEntries trickyEnvironment 0 ["$A", Segment.text missingReferences, "$\x7bM\x7d"] =
        .error (.unset (.downstreamEntry 1) "N_2") := by
  obtain ⟨hsegments, hother, -, hentries⟩ := expand_segments trickyEnvironment
  have hinfix : ['$', '\x7b'] <:+: (Segment.text trickyTemplate).toList := by decide +kernel
  have hplain : ¬['$', '\x7b'] <:+: "$A$$".toList := by decide +kernel
  have hset : trickyTemplate.findSome? (Segment.missing? trickyEnvironment) = none := by
    decide +kernel
  have hvalue : String.join (trickyTemplate.map (Segment.value trickyEnvironment)) =
      "x$\x7bA\x7d$\x7bB\x7d$$$$\x7b:-A" := by decide +kernel
  have hmissing : missingReferences.findSome? (Segment.missing? trickyEnvironment) =
      some "N_2" := by decide +kernel
  have htemplate := hsegments .wrapperTag trickyTemplate hinfix
  have hbehind := hsegments .wrapperTag (trickyTemplate ++ missingReferences) (by decide +kernel)
  have hentry := hsegments (.downstreamEntry 1) missingReferences (by decide +kernel)
  simp only [hset, hvalue, hmissing, List.findSome?_append, Option.none_or]
    at htemplate hbehind hentry
  refine ⟨by decide +kernel, hinfix, htemplate, hbehind, hplain, hother .codeTag _ hplain, ?_⟩
  refine (hentries _ _).2 ⟨["$A"], _, _, rfl, ?_, hentry⟩
  exact List.forall_mem_singleton.2 ⟨"$A", rfl⟩

end Settings

end FencedCode
