import FencedCode.Json.Reader
import FencedCode.Proofs.Json.Strings
import FencedCode.Proofs.Outcomes

/-!
# Items and members read one by one

What stands in front of an item or a member is a comma, unless it is the first, and the line
break of the layout.  Each run of a loop takes one of them off a written text and leaves the
item, or the value of the member, to the step.  Whatever text a loop runs on, it keeps what
its step keeps.
-/

namespace FencedCode.Json

/-! ## Blanks -/

/-- A value starts with a character that is neither a blank nor closes an array or an
object. -/
def ValueStarts (text : List Char) : Prop :=
  ∃ c rest, text = c :: rest ∧ isBetween c = false ∧ c ≠ ']' ∧ c ≠ '}'

lemma skipBlanks_cons {c : Char} (h : isBetween c = false) (rest : List Char) :
    skipBlanks (c :: rest) = c :: rest := by
  rw [skipBlanks, List.dropWhile_cons_of_neg (by simp [h])]

lemma ValueStarts.skipBlanks_eq {text : List Char} (h : ValueStarts text) :
    skipBlanks text = text := by
  obtain ⟨c, rest, rfl, hblank, -, -⟩ := h
  exact skipBlanks_cons hblank rest

/-- The line break of a layout is skipped. -/
lemma skipBlanks_break (layout : Layout) (level : Nat) (text : List Char) :
    skipBlanks (layout.break level ++ text) = skipBlanks text := by
  cases layout with
  | compact => rfl
  | pretty =>
    have hspaces : ∀ n, skipBlanks (List.replicate n ' ' ++ text) = skipBlanks text := by
      intro n
      induction n with
      | zero => rfl
      | succ n ih => exact ih
    exact hspaces (2 * level)

/-- The colon of a layout is taken, and at most a blank is left. -/
lemma readColon_colon (layout : Layout) (text : List Char) :
    ∃ rest, readColon (layout.colon ++ text) = .ok rest ∧ skipBlanks rest = skipBlanks text := by
  cases layout with
  | compact => exact ⟨text, rfl, rfl⟩
  | pretty => exact ⟨' ' :: text, rfl, rfl⟩

/-! ## Items -/

section

variable {σ : Type} (layout : Layout) (level fuel : Nat) (first : Bool) (state : σ)

lemma foldItems_close (step : σ → List Char → Except Error (σ × List Char))
    (behind : List Char) :
    foldItems step (fuel + 1) first state (layout.break level ++ ']' :: behind) =
      .ok (state, behind) := by
  rw [foldItems, skipBlanks_break, skipBlanks_cons (by decide)]
  rfl

/-- One run of the loop over the items takes one item. -/
lemma foldItems_item (step : σ → List Char → Except Error (σ × List Char))
    {text : List Char} (h : ValueStarts text) :
    foldItems step (fuel + 1) first state (comma first ++ (layout.break level ++ text)) =
      (step state text).bind fun r => foldItems step fuel false r.1 r.2 := by
  have hskip := h.skipBlanks_eq
  obtain ⟨c, rest, rfl, -, hclose, -⟩ := h
  cases first with
  | true =>
    simp only [foldItems, comma, if_true, List.nil_append, skipBlanks_break, hskip]
    split
    · simp_all
    · simp_all
    · simp [readSeparator, bind, Except.bind]
  | false =>
    simp [foldItems, comma, skipBlanks_cons, readSeparator, skipBlanks_break, hskip, hclose,
      isBetween, bind, Except.bind]

/-! ## Members -/

lemma foldMembers_close (step : σ → String → List Char → Except Error (σ × List Char))
    (behind : List Char) :
    foldMembers step (fuel + 1) first state (layout.break level ++ '}' :: behind) =
      .ok (state, behind) := by
  rw [foldMembers, skipBlanks_break, skipBlanks_cons (by decide)]
  rfl

/-- One run of the loop over the members takes one member. -/
lemma foldMembers_member (step : σ → String → List Char → Except Error (σ × List Char))
    (name : String) (text : List Char) :
    foldMembers step (fuel + 1) first state
        (comma first ++ (layout.break level ++ (stringChars name ++ text))) =
      (step state name text).bind fun r => foldMembers step fuel false r.1 r.2 := by
  obtain ⟨hchars, hread⟩ := readString_stringChars name text
  have hskip : ∀ rest, skipBlanks ('"' :: rest) = '"' :: rest :=
    fun rest => skipBlanks_cons (by decide) rest
  rw [hchars]
  cases first with
  | true =>
    simp [foldMembers, comma, readSeparator, skipBlanks_break, hskip, hread, bind, Except.bind]
  | false =>
    simp [foldMembers, comma, skipBlanks_cons, readSeparator, skipBlanks_break, hskip, hread,
      isBetween, bind, Except.bind]

end

/-! ## What the loops keep -/

section

variable {σ : Type} {P : σ → Prop}

/-- What every step keeps, the loop over the items keeps. -/
lemma foldItems_invariant {step : σ → List Char → Except Error (σ × List Char)}
    (hstep : ∀ {state text result}, P state → step state text = .ok result → P result.1)
    {fuel : Nat} {first : Bool} {state : σ} {text : List Char} {result : σ × List Char}
    (hstate : P state) (h : foldItems step fuel first state text = .ok result) :
    P result.1 := by
  induction fuel generalizing first state text with
  | zero => cases h
  | succ fuel ih =>
    rw [foldItems] at h
    split at h
    · cases h
    · obtain rfl := Except.ok.inj h
      exact hstate
    · obtain ⟨_, -, h⟩ := exists_of_bind_eq_ok h
      obtain ⟨next, hnext, h⟩ := exists_of_bind_eq_ok h
      exact ih (hstep hstate hnext) h

/-- What every step keeps, the loop over the members keeps. -/
lemma foldMembers_invariant {step : σ → String → List Char → Except Error (σ × List Char)}
    (hstep : ∀ {state name text result}, P state → step state name text = .ok result →
      P result.1)
    {fuel : Nat} {first : Bool} {state : σ} {text : List Char} {result : σ × List Char}
    (hstate : P state) (h : foldMembers step fuel first state text = .ok result) :
    P result.1 := by
  induction fuel generalizing first state text with
  | zero => cases h
  | succ fuel ih =>
    rw [foldMembers] at h
    split at h
    · cases h
    · obtain rfl := Except.ok.inj h
      exact hstate
    · obtain ⟨_, -, h⟩ := exists_of_bind_eq_ok h
      split at h
      · obtain ⟨_, -, h⟩ := exists_of_bind_eq_ok h
        obtain ⟨next, hnext, h⟩ := exists_of_bind_eq_ok h
        exact ih (hstep hstate hnext) h
      · cases h

end

/-! ## Loops side by side -/

/-- A loop over the members follows another, if each of its steps follows a step of the
other.  What the other loop ends with can be relied on if it was so all along. -/
lemma foldMembers_follows {σ τ : Type} {R : σ → τ → Prop} {Q : τ → Prop}
    (step : σ → String → List Char → Except Error (σ × List Char))
    (step' : τ → String → List Char → Except Error (τ × List Char))
    (hstep : ∀ {s t name text t' rest}, R s t → step' t name text = .ok (t', rest) →
      Q t' → ∃ s', step s name text = .ok (s', rest) ∧ R s' t')
    (hgood : ∀ {t name text t' rest}, step' t name text = .ok (t', rest) → Q t' → Q t)
    {fuel : Nat} {first : Bool} {s : σ} {t t' : τ} {text rest : List Char} (hR : R s t)
    (h : foldMembers step' fuel first t text = .ok (t', rest)) (ht' : Q t') :
    ∃ s', foldMembers step fuel first s text = .ok (s', rest) ∧ R s' t' := by
  induction fuel generalizing first s t text with
  | zero => cases h
  | succ fuel ih =>
    rw [foldMembers] at h ⊢
    revert h
    split
    · intro h
      cases h
    · intro h
      cases h
      exact ⟨s, rfl, hR⟩
    · intro h
      obtain ⟨member, hmember, h⟩ := exists_of_bind_eq_ok h
      rw [hmember]
      simp only [bind, Except.bind] at h ⊢
      split at h
      · rename_i behind
        obtain ⟨⟨name, text⟩, hname, h⟩ := exists_of_bind_eq_ok h
        obtain ⟨⟨next, text'⟩, hnext, h⟩ := exists_of_bind_eq_ok h
        -- What holds at the end held after this step.
        have hback : Q next := by
          by_contra hnot
          exact foldMembers_invariant (P := fun t => ¬ Q t)
            (fun hbad hstep' hresult => hbad (hgood hstep' hresult)) hnot h ht'
        obtain ⟨s', hs', hR'⟩ := hstep hR hnext hback
        obtain ⟨s'', hs'', hR''⟩ := ih hR' h
        refine ⟨s'', ?_, hR''⟩
        simp only [hname, hs', hs'']
      · cases h

end FencedCode.Json
