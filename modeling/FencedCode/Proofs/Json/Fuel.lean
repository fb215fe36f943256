import FencedCode.Json.Reader
import FencedCode.Proofs.Outcomes

/-!
# The loops of the reader never run out

Whatever is read takes at least one character off the text.  So the loop over the items of
an array runs at most once per character, and any bound that is not below the length of the
text gives the same result, `foldItems_fuel`.
-/

namespace FencedCode.Json

/-! ## What is left of a text -/

/-- Something that is read takes at least one character. -/
def Takes {α : Type} (read : List Char → Except Error (α × List Char)) : Prop :=
  ∀ ⦃text result⦄, read text = .ok result → result.2.length < text.length

/-- A step that reads an item takes at least one character. -/
def StepTakes {σ : Type} (step : σ → List Char → Except Error (σ × List Char)) : Prop :=
  ∀ s, Takes (step s)

lemma length_skipBlanks_le (text : List Char) : (skipBlanks text).length ≤ text.length :=
  (List.dropWhile_sublist isBetween).length_le

lemma length_lt_of_skipBlanks {c : Char} {text rest : List Char}
    (h : skipBlanks text = c :: rest) : rest.length < text.length := by
  have := length_skipBlanks_le text
  rw [h, List.length_cons] at this
  omega

lemma length_of_readWord {word text rest : List Char} (h : readWord word text = .ok rest) :
    rest.length ≤ text.length := by
  induction word generalizing text with
  | nil =>
    obtain rfl := Except.ok.inj h
    exact Nat.le_refl _
  | cons w word ih =>
    cases text with
    | nil => cases h
    | cons c text =>
      rw [readWord] at h
      split at h
      · exact Nat.le_succ_of_le (ih h)
      · cases h

/-- A character that is read ends the string, or the string goes on behind it. -/
lemma readString_cons_eq_ok {done : List Char} {state : StringState} {c : Char}
    {rest : List Char} {result : String × List Char}
    (h : readString done state (c :: rest) = .ok result) :
    result.2 = rest ∨ ∃ done state, readString done state rest = .ok result := by
  cases state with
  | plain =>
    rw [readString] at h
    split at h
    · obtain rfl := Except.ok.inj h
      exact .inl rfl
    · split at h
      · exact .inr ⟨_, _, h⟩
      · split at h
        · cases h
        · exact .inr ⟨_, _, h⟩
  | escape =>
    rw [readString] at h
    split at h
    · exact .inr ⟨_, _, h⟩
    · split at h
      · split at h
        · cases h
        · exact .inr ⟨_, _, h⟩
      · cases h
  | digits high left value =>
    rw [readString] at h
    split at h
    · cases h
    · split at h
      · exact .inr ⟨_, _, h⟩
      · split at h
        · cases h
        · exact .inr ⟨_, _, h⟩
        · exact .inr ⟨_, _, h⟩
  | afterHigh high =>
    rw [readString] at h
    split at h
    · exact .inr ⟨_, _, h⟩
    · cases h
  | afterHighEscape high =>
    rw [readString] at h
    split at h
    · split at h
      · cases h
      · exact .inr ⟨_, _, h⟩
    · cases h

lemma takes_readString (done : List Char) (state : StringState) :
    Takes (readString done state) := by
  intro text result h
  induction text generalizing done state with
  | nil => cases h
  | cons c rest ih =>
    rcases readString_cons_eq_ok h with hend | ⟨done, state, hrest⟩
    · rw [hend]
      exact Nat.lt_succ_self _
    · exact Nat.lt_succ_of_lt (ih done state hrest)

lemma takes_readDigits : Takes readDigits := by
  intro text result h
  have htake := List.takeWhile_append_dropWhile (p := Char.isDigit) (l := text)
  unfold readDigits at h
  split at h
  · cases h
  · cases h
  · rename_i hdigits hrest
    obtain rfl := Except.ok.inj h
    have hlength := congrArg List.length htake
    rw [List.length_append] at hlength
    have := List.length_pos_iff.2 hdigits
    dsimp only
    omega

lemma takes_readWhole : Takes readWhole := by
  intro text result h
  unfold readWhole at h
  split at h
  · cases h
  · exact takes_readDigits h

lemma length_of_readFraction {text : List Char} {result : List Char × List Char}
    (h : readFraction text = .ok result) : result.2.length ≤ text.length := by
  unfold readFraction at h
  split at h
  · exact Nat.le_succ_of_le (Nat.le_of_lt (takes_readDigits h))
  · obtain rfl := Except.ok.inj h
    exact Nat.le_refl _

lemma length_splitSign_le (text : List Char) :
    (Double.splitSign text).2.length ≤ text.length := by
  unfold Double.splitSign
  split <;> simp

lemma length_of_readExponent {text : List Char} {result : Option Int × List Char}
    (h : readExponent text = .ok result) : result.2.length ≤ text.length := by
  unfold readExponent at h
  split at h
  · rename_i mark rest
    split at h
    · dsimp only at h
      split at h
      · cases h
      · rename_i digits behind hdigits
        obtain rfl := Except.ok.inj h
        have := takes_readDigits hdigits
        have := length_splitSign_le rest
        simp only [List.length_cons] at *
        omega
    · obtain rfl := Except.ok.inj h
      exact Nat.le_refl _
  · obtain rfl := Except.ok.inj h
    exact Nat.le_refl _

lemma takes_readNumber (negative : Bool) : Takes (readNumber negative) := by
  intro text result h
  obtain ⟨whole, hwhole, h⟩ := exists_of_bind_eq_ok h
  obtain ⟨fraction, hfraction, h⟩ := exists_of_bind_eq_ok h
  obtain ⟨exponent, hexponent, h⟩ := exists_of_bind_eq_ok h
  obtain ⟨n, -, h⟩ := exists_of_bind_eq_ok h
  obtain rfl := Except.ok.inj h
  have := takes_readWhole hwhole
  have := length_of_readFraction hfraction
  have := length_of_readExponent hexponent
  dsimp only at *
  omega

lemma length_of_readScalar {c : Char} {text : List Char} {result : Json × List Char}
    (h : readScalar c text = .ok result) : result.2.length ≤ text.length := by
  unfold readScalar at h
  split at h
  · obtain ⟨rest, hrest, h⟩ := exists_of_bind_eq_ok h
    obtain rfl := Except.ok.inj h
    exact length_of_readWord hrest
  · obtain ⟨rest, hrest, h⟩ := exists_of_bind_eq_ok h
    obtain rfl := Except.ok.inj h
    exact length_of_readWord hrest
  · obtain ⟨rest, hrest, h⟩ := exists_of_bind_eq_ok h
    obtain rfl := Except.ok.inj h
    exact length_of_readWord hrest
  · obtain ⟨s, hs, h⟩ := exists_of_bind_eq_ok h
    obtain rfl := Except.ok.inj h
    exact Nat.le_of_lt (takes_readString _ _ hs)
  · obtain ⟨n, hn, h⟩ := exists_of_bind_eq_ok h
    obtain rfl := Except.ok.inj h
    exact Nat.le_of_lt (takes_readNumber _ hn)
  · split at h
    · obtain ⟨n, hn, h⟩ := exists_of_bind_eq_ok h
      obtain rfl := Except.ok.inj h
      exact Nat.le_of_lt_succ (takes_readNumber _ hn)
    · cases h

lemma length_of_readSeparator {close : Char} {first : Bool} {text rest : List Char}
    (h : readSeparator close first text = .ok rest) : rest.length ≤ text.length := by
  unfold readSeparator at h
  split at h
  · obtain rfl := Except.ok.inj h
    exact Nat.le_refl _
  · split at h
    · rename_i behind
      split at h
      · cases h
      · rename_i hskip
        split at h
        · cases h
        · obtain rfl := Except.ok.inj h
          exact Nat.le_succ_of_le (length_lt_of_skipBlanks hskip)
    · cases h

lemma length_of_readColon {text rest : List Char} (h : readColon text = .ok rest) :
    rest.length < text.length := by
  unfold readColon at h
  split at h
  · cases h
  · rename_i hskip
    obtain rfl := Except.ok.inj h
    exact length_lt_of_skipBlanks hskip
  · cases h

/-! ## What the loops leave -/

section

variable {σ : Type}

lemma takes_foldItems {step : σ → List Char → Except Error (σ × List Char)}
    (hstep : StepTakes step) (fuel : Nat) (first : Bool) (state : σ) :
    Takes (foldItems step fuel first state) := by
  induction fuel generalizing first state with
  | zero => intro text result h; cases h
  | succ fuel ih =>
    intro text result h
    rw [foldItems] at h
    split at h
    · cases h
    · rename_i hskip
      obtain rfl := Except.ok.inj h
      exact length_lt_of_skipBlanks hskip
    · obtain ⟨item, hitem, h⟩ := exists_of_bind_eq_ok h
      obtain ⟨next, hnext, h⟩ := exists_of_bind_eq_ok h
      have := length_skipBlanks_le text
      have := length_of_readSeparator hitem
      have := hstep _ hnext
      have := ih _ _ h
      omega

lemma takes_foldMembers {step : σ → String → List Char → Except Error (σ × List Char)}
    (hstep : ∀ s name, Takes (step s name)) (fuel : Nat) (first : Bool) (state : σ) :
    Takes (foldMembers step fuel first state) := by
  induction fuel generalizing first state with
  | zero => intro text result h; cases h
  | succ fuel ih =>
    intro text result h
    rw [foldMembers] at h
    split at h
    · cases h
    · rename_i hskip
      obtain rfl := Except.ok.inj h
      exact length_lt_of_skipBlanks hskip
    · obtain ⟨member, hmember, h⟩ := exists_of_bind_eq_ok h
      split at h
      · obtain ⟨name, hname, h⟩ := exists_of_bind_eq_ok h
        obtain ⟨next, hnext, h⟩ := exists_of_bind_eq_ok h
        have := length_skipBlanks_le text
        have := length_of_readSeparator hmember
        have := takes_readString _ _ hname
        have := hstep _ _ hnext
        have := ih _ _ h
        simp only [List.length_cons] at *
        omega
      · cases h

end

lemma stepTakes_collectItem {read : List Char → Except Error (Json × List Char)}
    (hread : Takes read) : StepTakes (collectItem read) := by
  intro items text result h
  obtain ⟨j, hj, h⟩ := exists_of_bind_eq_ok h
  obtain rfl := Except.ok.inj h
  exact hread hj

lemma takes_collectMember {read : List Char → Except Error (Json × List Char)}
    (hread : Takes read) (members : List (String × Json)) (name : String) :
    Takes (collectMember read members name) := by
  intro text result h
  obtain ⟨rest, hrest, h⟩ := exists_of_bind_eq_ok h
  obtain ⟨j, hj, h⟩ := exists_of_bind_eq_ok h
  obtain rfl := Except.ok.inj h
  exact Nat.lt_trans (hread hj) (length_of_readColon hrest)

/-- Whatever value is read takes at least one character off the text. -/
theorem takes_readValue (fuel depth : Nat) : Takes (readValue fuel depth) := by
  induction depth with
  | zero =>
    intro text result h
    rw [readValue] at h
    split at h
    · cases h
    · cases h
    · cases h
    · rename_i hskip
      exact Nat.lt_of_le_of_lt (length_of_readScalar h) (length_lt_of_skipBlanks hskip)
  | succ depth ih =>
    intro text result h
    rw [readValue] at h
    split at h
    · cases h
    · rename_i hskip
      obtain ⟨items, hitems, h⟩ := exists_of_bind_eq_ok h
      obtain rfl := Except.ok.inj h
      exact Nat.lt_trans (takes_foldItems (stepTakes_collectItem ih) _ _ _ hitems)
        (length_lt_of_skipBlanks hskip)
    · rename_i hskip
      obtain ⟨members, hmembers, h⟩ := exists_of_bind_eq_ok h
      obtain rfl := Except.ok.inj h
      exact Nat.lt_trans (takes_foldMembers (takes_collectMember ih) _ _ _ hmembers)
        (length_lt_of_skipBlanks hskip)
    · rename_i hskip
      exact Nat.lt_of_le_of_lt (length_of_readScalar h) (length_lt_of_skipBlanks hskip)

/-! ## Bounds of the loops -/

/-- **The loop over the items never runs out**: bounds that are not below the length of the
text give the same result. -/
theorem foldItems_fuel {σ : Type} {step : σ → List Char → Except Error (σ × List Char)}
    (hstep : StepTakes step) {fuel fuel' : Nat} {first : Bool} {state : σ} {text : List Char}
    (h : text.length < fuel) (h' : text.length < fuel') :
    foldItems step fuel first state text = foldItems step fuel' first state text := by
  induction fuel generalizing fuel' first state text with
  | zero => omega
  | succ fuel ih =>
    obtain ⟨fuel', rfl⟩ : ∃ n, fuel' = n + 1 := ⟨fuel' - 1, by omega⟩
    rw [foldItems, foldItems]
    have hskip := length_skipBlanks_le text
    split
    · rfl
    · rfl
    · cases hitem : readSeparator ']' first (skipBlanks text) with
      | error e => rfl
      | ok item =>
        cases hnext : step state item with
        | error e => simp only [hnext, bind, Except.bind]
        | ok next =>
          have := length_of_readSeparator hitem
          have := hstep _ hnext
          simp only [hnext, bind, Except.bind]
          exact ih (by omega) (by omega)

/-! ## The first item -/

/-- Items that were read before stay behind those that are read. -/
lemma foldItems_collectItem_append (read : List Char → Except Error (Json × List Char))
    (fuel : Nat) (first : Bool) (done : List Json) (text : List Char) :
    foldItems (collectItem read) fuel first done text =
      (foldItems (collectItem read) fuel first [] text).map fun r => (r.1 ++ done, r.2) := by
  have hstep : ∀ (done : List Json) (text : List Char),
      collectItem read done text = (read text).map fun r => (r.1 :: done, r.2) := by
    intro done text
    cases h : read text <;> simp [collectItem, h, bind, Except.bind, Except.map, pure, Except.pure]
  induction fuel generalizing first done text with
  | zero => rfl
  | succ fuel ih =>
    rw [foldItems, foldItems]
    split
    · rfl
    · rfl
    · cases hitem : readSeparator ']' first (skipBlanks text) with
      | error e => rfl
      | ok item =>
        simp only [bind, Except.bind, hstep]
        cases read item with
        | error e => rfl
        | ok r =>
          simp only [Except.map]
          rw [ih false (r.1 :: done), ih false [r.1]]
          cases foldItems (collectItem read) fuel false [] r.2 <;> simp [Except.map]

/-- The first item of an array is read, and then the others. -/
lemma foldItems_collectItem_first {read : List Char → Except Error (Json × List Char)}
    (hread : Takes read) {fuel : Nat} {text behind : List Char} {c : Char}
    (hfuel : text.length < fuel) (hskip : skipBlanks text = c :: behind) (hc : c ≠ ']') :
    foldItems (collectItem read) fuel true [] text =
      (read (c :: behind)).bind fun r =>
        (foldItems (collectItem read) fuel false [] r.2).map fun q => (q.1 ++ [r.1], q.2) := by
  have hlength := length_skipBlanks_le text
  obtain ⟨left, rfl⟩ : ∃ n, fuel = n + 1 := ⟨fuel - 1, by omega⟩
  have hopen : foldItems (collectItem read) (left + 1) true [] text =
      (collectItem read [] (c :: behind)).bind fun r =>
        foldItems (collectItem read) left false r.1 r.2 := by
    rw [foldItems, hskip]
    split
    · cases ‹_ :: _ = []›
    · rename_i heq
      cases heq
      exact absurd rfl hc
    · rfl
  rw [hopen]
  cases hj : read (c :: behind) with
  | error e => simp [collectItem, hj, bind, Except.bind]
  | ok r =>
    have htakes := hread hj
    rw [hskip] at hlength
    have hleft : r.2.length < left := by omega
    simp only [collectItem, hj, bind, Except.bind, pure, Except.pure]
    rw [foldItems_collectItem_append,
      foldItems_fuel (stepTakes_collectItem hread) hleft (Nat.lt_succ_of_lt hleft)]

end FencedCode.Json
