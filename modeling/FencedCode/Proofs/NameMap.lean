import FencedCode.Tree.NameMap
import Mathlib.Data.List.Basic
import Mathlib.Tactic.Lemma

/-!
# Look-up in maps keyed by names

A map keyed by names is determined by its entries, and looking a name up after an insertion
gives the inserted value for that name and the old one for every other name.  The entries
of a map, inserted one after the other, give the map back.
-/

namespace FencedCode.NameMap

variable {α β : Type}

@[ext]
lemma ext_entries {m n : NameMap α} (h : m.entries = n.entries) : m = n := by
  cases m
  cases n
  cases h
  rfl

lemma valueIn_insertIn (name other : String) (value : α) (entries : List (String × α)) :
    valueIn other (insertIn name value entries) =
      if name = other then some value else valueIn other entries := by
  induction entries with
  | nil => simp [insertIn, valueIn]
  | cons head rest ih =>
    obtain ⟨n, v⟩ := head
    rw [insertIn]
    split
    · simp [valueIn]
    · split
      · rename_i hn
        subst hn
        by_cases hne : n = other <;> simp [valueIn, hne]
      · rename_i hne
        by_cases hother : n = other
        · have : name ≠ other := fun h => hne (hother.trans h.symm)
          simp [valueIn, hother, this]
        · simp [valueIn, hother, ih]

/-- A value that is found is that of an entry. -/
lemma mem_of_valueIn {name : String} {value : α} {entries : List (String × α)}
    (h : valueIn name entries = some value) : (name, value) ∈ entries := by
  induction entries with
  | nil => cases h
  | cons head rest ih =>
    obtain ⟨n, v⟩ := head
    rw [valueIn] at h
    split at h
    · rename_i hn
      subst hn
      obtain rfl := Option.some.inj h
      exact List.mem_cons_self
    · exact List.mem_cons_of_mem _ (ih h)

/-- Looking a name up after an insertion. -/
lemma get?_insert (m : NameMap α) (name other : String) (value : α) :
    (m.insert name value).get? other = if name = other then some value else m.get? other :=
  valueIn_insertIn name other value m.entries

@[simp] lemma get?_insert_self (m : NameMap α) (name : String) (value : α) :
    (m.insert name value).get? name = some value := by
  simp [get?_insert]

lemma get?_insert_of_ne (m : NameMap α) {name other : String} (value : α)
    (h : name ≠ other) : (m.insert name value).get? other = m.get? other := by
  simp [get?_insert, h]

lemma insertIn_eq_self {name : String} {value : α} {entries : List (String × α)}
    (hsorted : entries.Pairwise fun a b => a.1 < b.1) (h : valueIn name entries = some value) :
    insertIn name value entries = entries := by
  induction entries with
  | nil => cases h
  | cons head rest ih =>
    obtain ⟨n, v⟩ := head
    obtain ⟨hhead, hrest⟩ := List.pairwise_cons.1 hsorted
    rw [valueIn] at h
    split at h
    · rename_i hn
      subst hn
      obtain rfl := Option.some.inj h
      simp [insertIn]
    · rename_i hn
      have hlt : n < name := hhead _ (mem_of_valueIn h)
      rw [insertIn, if_neg (String.lt_asymm hlt), if_neg hn, ih hrest h]

/-- Giving a name the value that it has changes nothing. -/
lemma insert_eq_self {m : NameMap α} {name : String} {value : α}
    (h : m.get? name = some value) : m.insert name value = m := by
  ext1
  exact insertIn_eq_self m.sorted h

/-! ## Building a map from its entries -/

lemma insertIn_of_forall_lt {name : String} (value : α) {entries : List (String × α)}
    (h : ∀ e ∈ entries, e.1 < name) :
    insertIn name value entries = entries ++ [(name, value)] := by
  induction entries with
  | nil => rfl
  | cons head rest ih =>
    have hlt := h head List.mem_cons_self
    rw [insertIn, if_neg (String.lt_asymm hlt), if_neg (String.ne_of_lt hlt),
      ih fun e he => h e (List.mem_cons_of_mem head he), List.cons_append]

lemma entries_foldl_insert (m : NameMap α) {entries : List (String × α)}
    (h : (m.entries ++ entries).Pairwise fun a b => a.1 < b.1) :
    (entries.foldl (fun m e => m.insert e.1 e.2) m).entries = m.entries ++ entries := by
  induction entries generalizing m with
  | nil => simp
  | cons head rest ih =>
    have hinsert : (m.insert head.1 head.2).entries = m.entries ++ [head] :=
      insertIn_of_forall_lt head.2 fun e he =>
        (List.pairwise_append.1 h).2.2 e he head List.mem_cons_self
    have hassoc : m.entries ++ head :: rest = m.entries ++ [head] ++ rest := by simp
    rw [List.foldl_cons, ih _ (by rwa [hinsert, ← hassoc]), hinsert, hassoc]

/-- The entries of a map, inserted one after the other, give the map back. -/
lemma ofList_entries (m : NameMap α) : ofList m.entries = m := by
  ext1
  exact entries_foldl_insert empty m.sorted

/-- A map that is built from a list has entries of the list only. -/
lemma mem_of_mem_foldl_insert {entries : List (String × α)} {m : NameMap α} {e : String × α}
    (h : e ∈ (entries.foldl (fun m e => m.insert e.1 e.2) m).entries) :
    e ∈ m.entries ∨ e ∈ entries := by
  induction entries generalizing m with
  | nil => exact .inl h
  | cons head rest ih =>
    rcases ih h with hm | hrest
    · rcases mem_insertIn hm with rfl | hm
      · exact .inr List.mem_cons_self
      · exact .inl hm
    · exact .inr (List.mem_cons_of_mem head hrest)

lemma mem_of_mem_ofList {entries : List (String × α)} {e : String × α}
    (h : e ∈ (ofList entries).entries) : e ∈ entries :=
  (mem_of_mem_foldl_insert h).resolve_left List.not_mem_nil

/-! ## Maps as what they hold -/

lemma valueIn_eq_none {name : String} {entries : List (String × α)}
    (h : ∀ e ∈ entries, e.1 ≠ name) : valueIn name entries = none := by
  induction entries with
  | nil => rfl
  | cons head rest ih =>
    obtain ⟨hhead, hrest⟩ := List.forall_mem_cons.1 h
    rw [valueIn, if_neg hhead, ih hrest]

/-- A name in front of all names of an ordered list has no value. -/
lemma valueIn_eq_none_of_forall_lt {name : String} {entries : List (String × α)}
    (h : ∀ e ∈ entries, name < e.1) : valueIn name entries = none :=
  valueIn_eq_none fun e he => (String.ne_of_lt (h e he)).symm

lemma entries_eq_of_valueIn {xs ys : List (String × α)}
    (hxs : xs.Pairwise fun a b => a.1 < b.1) (hys : ys.Pairwise fun a b => a.1 < b.1)
    (h : ∀ name, valueIn name xs = valueIn name ys) : xs = ys := by
  induction xs generalizing ys with
  | nil =>
    cases ys with
    | nil => rfl
    | cons head ys => simpa [valueIn] using h head.1
  | cons head xs ih =>
    obtain ⟨n, v⟩ := head
    obtain ⟨hhead, hxs'⟩ := List.pairwise_cons.1 hxs
    cases ys with
    | nil => simpa [valueIn] using h n
    | cons head' ys =>
      obtain ⟨n', v'⟩ := head'
      obtain ⟨hhead', hys'⟩ := List.pairwise_cons.1 hys
      -- The lesser of two first names would be missing from the other list.
      have hbehind : ∀ {n n' : String} {zs : List (String × α)}, (∀ e ∈ zs, n' < e.1) →
          n < n' → ∀ v', valueIn n ((n', v') :: zs) = none := by
        intro n n' zs hzs hlt v'
        refine valueIn_eq_none_of_forall_lt (List.forall_mem_cons.2 ⟨hlt, fun e he => ?_⟩)
        exact String.lt_trans hlt (hzs e he)
      have hn : n = n' := by
        by_contra hne
        by_cases hlt : n < n'
        · have hv := h n
          rw [hbehind hhead' hlt] at hv
          simp [valueIn] at hv
        · have hv := h n'
          rw [hbehind hhead (Std.lt_of_le_of_ne (String.not_lt.1 hlt) (Ne.symm hne))] at hv
          simp [valueIn] at hv
      subst hn
      obtain rfl : v = v' := by simpa [valueIn] using h n
      refine congrArg _ (ih hxs' hys' fun name => ?_)
      by_cases hname : n = name
      · subst hname
        rw [valueIn_eq_none_of_forall_lt hhead, valueIn_eq_none_of_forall_lt hhead']
      · simpa [valueIn, hname] using h name

/-- A map is determined by the values of the names. -/
lemma ext_get? {m n : NameMap α} (h : ∀ name, m.get? name = n.get? name) : m = n := by
  ext1
  exact entries_eq_of_valueIn m.sorted n.sorted h

/-- Entries of other names leave the value of a name. -/
lemma get?_foldl_insert {name : String} {entries : List (String × α)} (m : NameMap α)
    (h : ∀ e ∈ entries, e.1 ≠ name) :
    (entries.foldl (fun m e => m.insert e.1 e.2) m).get? name = m.get? name := by
  induction entries generalizing m with
  | nil => rfl
  | cons head rest ih =>
    obtain ⟨hhead, hrest⟩ := List.forall_mem_cons.1 h
    rw [List.foldl_cons, ih _ hrest, get?_insert_of_ne m head.2 hhead]

/-- A name that occurs has a last entry. -/
lemma exists_last_entry (name : String) (entries : List (String × α)) :
    (∀ e ∈ entries, e.1 ≠ name) ∨ ∃ before value after,
      entries = before ++ (name, value) :: after ∧ ∀ e ∈ after, e.1 ≠ name := by
  induction entries with
  | nil => exact .inl (by simp)
  | cons head rest ih =>
    rcases ih with hrest | ⟨before, value, after, rfl, hafter⟩
    · by_cases hhead : head.1 = name
      · exact .inr ⟨[], head.2, rest, by rw [← hhead]; rfl, hrest⟩
      · exact .inl (List.forall_mem_cons.2 ⟨hhead, hrest⟩)
    · exact .inr ⟨head :: before, value, after, rfl, hafter⟩

/-- Of the entries with a name the last counts. -/
lemma get?_ofList_eq_some_iff {entries : List (String × α)} {name : String} {value : α} :
    (ofList entries).get? name = some value ↔
      ∃ before after, entries = before ++ (name, value) :: after ∧
        ∀ e ∈ after, e.1 ≠ name := by
  have hlast : ∀ {before after : List (String × α)} {value : α}, (∀ e ∈ after, e.1 ≠ name) →
      (ofList (before ++ (name, value) :: after)).get? name = some value := by
    intro before after value hafter
    rw [ofList, List.foldl_append, List.foldl_cons, get?_foldl_insert _ hafter,
      get?_insert_self]
  constructor
  · intro h
    rcases exists_last_entry name entries with hnone | ⟨before, value', after, rfl, hafter⟩
    · rw [ofList, get?_foldl_insert _ hnone] at h
      cases h
    · rw [hlast hafter] at h
      obtain rfl := Option.some.inj h
      exact ⟨before, after, rfl, hafter⟩
  · rintro ⟨before, after, rfl, hafter⟩
    exact hlast hafter

lemma get?_foldl_insert_congr {other : String} {m n : NameMap α}
    (h : m.get? other = n.get? other) (entries : List (String × α)) :
    (entries.foldl (fun m e => m.insert e.1 e.2) m).get? other =
      (entries.foldl (fun m e => m.insert e.1 e.2) n).get? other := by
  induction entries generalizing m n with
  | nil => exact h
  | cons head rest ih => exact ih (by rw [get?_insert, get?_insert, h])

/-- The value of an entry says nothing about other names. -/
lemma get?_ofList_of_ne {name other : String} (h : other ≠ name)
    (before after : List (String × α)) (value value' : α) :
    (ofList (before ++ (name, value) :: after)).get? other =
      (ofList (before ++ (name, value') :: after)).get? other := by
  simp only [ofList, List.foldl_append, List.foldl_cons]
  refine get?_foldl_insert_congr ?_ after
  rw [get?_insert_of_ne _ value h.symm, get?_insert_of_ne _ value' h.symm]

/-- If no name is repeated, every entry counts. -/
lemma get?_ofList_eq_some_iff_mem {entries : List (String × α)}
    (hnodup : (entries.map Prod.fst).Nodup) {name : String} {value : α} :
    (ofList entries).get? name = some value ↔ (name, value) ∈ entries := by
  rw [get?_ofList_eq_some_iff]
  constructor
  · rintro ⟨before, after, rfl, -⟩
    simp
  · intro h
    obtain ⟨before, after, rfl⟩ := List.append_of_mem h
    refine ⟨before, after, rfl, fun e he hname => ?_⟩
    rw [List.map_append, List.map_cons] at hnodup
    refine (List.nodup_cons.1 (List.nodup_append.1 hnodup).2.1).1 ?_
    exact List.mem_map.2 ⟨e, he, hname⟩

/-- If no name is repeated, the order of the entries does not count. -/
lemma ofList_eq_of_perm {entries entries' : List (String × α)} (h : entries.Perm entries')
    (hnodup : (entries.map Prod.fst).Nodup) : ofList entries = ofList entries' := by
  have hnodup' : (entries'.map Prod.fst).Nodup := (h.map Prod.fst).nodup_iff.1 hnodup
  refine ext_get? fun name => Option.ext fun value => ?_
  rw [get?_ofList_eq_some_iff_mem hnodup, get?_ofList_eq_some_iff_mem hnodup', h.mem_iff]

/-! ## Converting the values -/

lemma filterMap_congr {f g : α → Option β} {m : NameMap α}
    (h : ∀ e ∈ m.entries, f e.2 = g e.2) : m.filterMap f = m.filterMap g := by
  ext1
  exact List.filterMap_congr fun e he => by rw [h e he]

lemma filterMap_eq_self {f : α → Option α} {m : NameMap α}
    (h : ∀ e ∈ m.entries, f e.2 = some e.2) : m.filterMap f = m := by
  ext1
  have hsome : ∀ e ∈ m.entries, ((f e.2).map fun v => (e.1, v)) = some e := by
    intro e he
    rw [h e he, Option.map_some]
  exact (List.filterMap_congr hsome).trans List.filterMap_some

lemma entries_filterMap_some (f : α → β) (m : NameMap α) :
    (m.filterMap fun v => some (f v)).entries = m.entries.map fun e => (e.1, f e.2) := by
  simp [filterMap]

lemma filterMap_filterMap {γ : Type} (f : α → Option β) (g : β → Option γ) (m : NameMap α) :
    (m.filterMap f).filterMap g = m.filterMap fun v => (f v).bind g := by
  ext1
  simp only [filterMap, List.filterMap_filterMap]
  exact List.filterMap_congr fun e _ => by cases f e.2 <;> rfl

lemma exists_of_mem_filterMap {f : α → Option β} {m : NameMap α} {e : String × β}
    (h : e ∈ (m.filterMap f).entries) : ∃ v, (e.1, v) ∈ m.entries ∧ f v = some e.2 := by
  obtain ⟨⟨name, v⟩, hentry, hvalue⟩ := List.mem_filterMap.1 h
  obtain ⟨w, hw, rfl⟩ := Option.map_eq_some_iff.1 hvalue
  exact ⟨v, hentry, hw⟩

lemma get?_filterMap (f : α → Option β) (m : NameMap α) (name : String) :
    (m.filterMap f).get? name = (m.get? name).bind f := by
  obtain ⟨entries, hsorted⟩ := m
  change valueIn name (entries.filterMap fun e => (f e.2).map fun v => (e.1, v)) =
    (valueIn name entries).bind f
  induction entries with
  | nil => rfl
  | cons head rest ih =>
    obtain ⟨n, v⟩ := head
    obtain ⟨hhead, hrest⟩ := List.pairwise_cons.1 hsorted
    have hrest' := ih hrest
    cases hf : f v with
    | some w =>
      rw [List.filterMap_cons_some (by rw [hf]; rfl), valueIn, valueIn]
      split
      · rw [Option.bind_some, hf]
      · exact hrest'
    | none =>
      rw [List.filterMap_cons_none (by rw [hf]; rfl), hrest', valueIn]
      split
      · -- The value has no conversion, and the name does not occur again.
        rename_i hn
        subst hn
        rw [valueIn_eq_none_of_forall_lt hhead, Option.bind_some, hf]
        rfl
      · rfl

end FencedCode.NameMap
