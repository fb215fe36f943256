import FencedCode.Proofs.NameMap
import FencedCode.Proofs.Text.Words
import FencedCode.Tree.Properties

/-!
# Class tokens that are added one after the other

Whatever form the class tokens of some properties have, they are a list as soon as a token is
added, and a token that is there is not added again.  So after any sequence of tokens the list
has the tokens that were there, with repetitions, and behind them those of the sequence that
are new, each where it occurs first, `classTokens_foldl_addClass`.  The main result is
`get?_foldl_addClass`.
-/

namespace FencedCode.Properties

/-- The tokens in the value of the classes, if there is one: the items of a list, or the
parts of a text between blanks.  A scalar has none. -/
def tokensIn : Option PropertyValue → List String
  | some (.list items) => items
  | some (.text s) => Text.parts s
  | some (.flag _) => []
  | some (.number _) => []
  | none => []

lemma classTokens_eq (p : Properties) : p.classTokens = tokensIn (p.get? className) := by
  rw [classTokens]
  cases p.get? className with
  | none => rfl
  | some v =>
    cases v with
    | text s => exact Text.words_eq_parts s
    | flag _ | number _ | list _ => rfl

/-! ## One token -/

lemma addClass_eq (p : Properties) (token : String) :
    p.addClass token =
      p.insert className (.list (p.classTokens ++ [token].removeAll p.classTokens)) := by
  rw [addClass, List.cons_removeAll, List.nil_removeAll]
  cases p.classTokens.contains token <;> simp

lemma classTokens_addClass (p : Properties) (token : String) :
    (p.addClass token).classTokens = p.classTokens ++ [token].removeAll p.classTokens := by
  rw [classTokens_eq, addClass_eq, NameMap.get?_insert_self, tokensIn]

/-- The classes are a list of the tokens after one is added. -/
lemma get?_className_addClass (p : Properties) (token : String) :
    (p.addClass token).get? className = some (.list (p.addClass token).classTokens) := by
  rw [classTokens_addClass, addClass_eq, NameMap.get?_insert_self]

lemma get?_addClass_of_ne (p : Properties) (token : String) {name : String}
    (h : name ≠ className) : (p.addClass token).get? name = p.get? name := by
  rw [addClass_eq, NameMap.get?_insert_of_ne _ _ h.symm]

/-! ## Several tokens -/

-- Induction on the tokens that are added, for all properties: the first token is among those
-- that are there when the others are added, and so it is left out of their new ones.
/-- Behind the tokens that were there stand the new ones, each where it occurs first. -/
lemma classTokens_foldl_addClass (p : Properties) (tokens : List String) :
    (tokens.foldl addClass p).classTokens =
      p.classTokens ++ (tokens.removeAll p.classTokens).eraseDups := by
  induction tokens generalizing p with
  | nil => simp
  | cons token rest ih =>
    rw [List.foldl_cons, ih, classTokens_addClass, List.cons_removeAll, List.cons_removeAll,
      List.nil_removeAll]
    split
    · have hrest : rest.removeAll (p.classTokens ++ [token]) =
          (rest.removeAll p.classTokens).filter fun t => !t == token := by
        simp [List.removeAll, List.filter_filter, Bool.and_comm, beq_eq_decide]
      rw [hrest, List.eraseDups_cons, List.append_assoc, List.singleton_append]
    · rw [List.append_nil]

lemma get?_foldl_addClass_of_ne (p : Properties) (tokens : List String) {name : String}
    (h : name ≠ className) : (tokens.foldl addClass p).get? name = p.get? name := by
  induction tokens generalizing p with
  | nil => rfl
  | cons token rest ih => rw [List.foldl_cons, ih, get?_addClass_of_ne p token h]

lemma get?_className_foldl_addClass (p : Properties) {tokens : List String}
    (h : tokens ≠ []) :
    (tokens.foldl addClass p).get? className =
      some (.list (tokens.foldl addClass p).classTokens) := by
  obtain ⟨front, last, rfl⟩ := (List.eq_nil_or_concat' tokens).resolve_left h
  rw [List.foldl_append, List.foldl_cons, List.foldl_nil, get?_className_addClass]

/-- A token is among the class tokens if it was there or is among those that are added. -/
lemma hasClass_foldl_addClass (p : Properties) (tokens : List String) (token : String) :
    (tokens.foldl addClass p).hasClass token = true ↔
      p.hasClass token = true ∨ token ∈ tokens := by
  simp only [hasClass, List.contains_iff_mem, classTokens_foldl_addClass, List.mem_append,
    List.mem_eraseDups, List.removeAll, List.mem_filter]
  by_cases htoken : token ∈ p.classTokens <;> simp [htoken]

/-! ## The main result -/

/-- **Class tokens that are added one after the other.**  After any sequence of tokens the
classes are a list: the tokens that were there, in whatever form, and then those of the sequence
that are not among them, in the order in which they occur first and each once.  The other
properties are as before.  A token is among the classes exactly if it was there or is among
those that are added, in whatever order these are. -/
theorem get?_foldl_addClass (p : Properties) {tokens : List String} (h : tokens ≠ []) :
    let before := tokensIn (p.get? className)
    let q := tokens.foldl addClass p
    q.get? className = some (.list (before ++ (tokens.removeAll before).eraseDups)) ∧
      (∀ name, name ≠ className → q.get? name = p.get? name) ∧
      (∀ token, q.hasClass token = true ↔ p.hasClass token = true ∨ token ∈ tokens) ∧
      ∀ tokens' : List String, tokens'.Perm tokens →
        ∀ token, (tokens'.foldl addClass p).hasClass token = q.hasClass token := by
  intro before q
  have hbefore : p.classTokens = before := classTokens_eq p
  refine ⟨?_, fun name => get?_foldl_addClass_of_ne p tokens, hasClass_foldl_addClass p tokens,
    fun tokens' hperm token => ?_⟩
  · rw [get?_className_foldl_addClass p h, classTokens_foldl_addClass, hbefore]
  · rw [Bool.eq_iff_iff, hasClass_foldl_addClass, hasClass_foldl_addClass, hperm.mem_iff]

/-- Tokens are added to a text that has one of them twice; an empty token and one with a blank
are added as they are. -/
theorem get?_foldl_addClass_text :
    ["c", "a", "", "x y", "c"] ≠ [] ∧
      (["c", "a", "", "x y", "c"].foldl addClass
          (NameMap.ofList [(className, .text "a b\ta")])).get? className =
        some (.list ["a", "b", "a", "c", "", "x y"]) := by
  have hne : ["c", "a", "", "x y", "c"] ≠ [] := by decide
  refine ⟨hne, ?_⟩
  obtain ⟨hclasses, -⟩ :=
    get?_foldl_addClass (NameMap.ofList [(className, .text "a b\ta")]) hne
  exact hclasses.trans rfl

end FencedCode.Properties
