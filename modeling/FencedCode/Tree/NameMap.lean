/-!
# Maps keyed by names

A finite map from names to values is kept as a list of entries in strictly increasing order
of the names, so that a map has one form only.  Names are compared by code points.
-/

namespace FencedCode

/-- A finite map from names. -/
structure NameMap (α : Type) where
  /-- The entries in order of their names. -/
  entries : List (String × α)
  /-- The names increase strictly. -/
  sorted : entries.Pairwise fun a b => a.1 < b.1
  deriving DecidableEq

namespace NameMap

variable {α β : Type}

/-- The map without entries. -/
def empty : NameMap α :=
  ⟨[], List.Pairwise.nil⟩

instance : EmptyCollection (NameMap α) :=
  ⟨empty⟩

instance : Inhabited (NameMap α) :=
  ⟨empty⟩

/-! ## Look-up -/

/-- The value of a name in a list of entries. -/
def valueIn (name : String) : List (String × α) → Option α
  | [] => none
  | (n, v) :: rest => if n = name then some v else valueIn name rest

/-- The value of a name. -/
def get? (m : NameMap α) (name : String) : Option α :=
  valueIn name m.entries

/-- The number of entries. -/
def size (m : NameMap α) : Nat :=
  m.entries.length

/-- Whether there is no entry. -/
def isEmpty (m : NameMap α) : Bool :=
  m.entries.isEmpty

/-! ## Insertion -/

/-- Gives a name a value in an ordered list of entries, in place of the value that it has. -/
def insertIn (name : String) (value : α) : List (String × α) → List (String × α)
  | [] => [(name, value)]
  | (n, v) :: rest =>
    if name < n then (name, value) :: (n, v) :: rest
    else if n = name then (name, value) :: rest
    else (n, v) :: insertIn name value rest

theorem mem_insertIn {name : String} {value : α} {entries : List (String × α)}
    {e : String × α} (h : e ∈ insertIn name value entries) :
    e = (name, value) ∨ e ∈ entries := by
  induction entries with
  | nil => simpa [insertIn] using h
  | cons head rest ih =>
    obtain ⟨n, v⟩ := head
    rw [insertIn] at h
    split at h
    · simpa using h
    · split at h
      · rcases List.mem_cons.1 h with h | h
        · exact .inl h
        · exact .inr (List.mem_cons_of_mem _ h)
      · rcases List.mem_cons.1 h with h | h
        · exact .inr (h ▸ List.mem_cons_self)
        · exact (ih h).imp id (List.mem_cons_of_mem _)

theorem sorted_insertIn {name : String} {value : α} {entries : List (String × α)}
    (h : entries.Pairwise fun a b => a.1 < b.1) :
    (insertIn name value entries).Pairwise fun a b => a.1 < b.1 := by
  induction entries with
  | nil => exact List.pairwise_singleton _ _
  | cons head rest ih =>
    obtain ⟨n, v⟩ := head
    have ⟨hhead, hrest⟩ := List.pairwise_cons.1 h
    rw [insertIn]
    split
    · rename_i hlt
      refine List.pairwise_cons.2 ⟨fun e he => ?_, h⟩
      rcases List.mem_cons.1 he with he | he
      · exact he ▸ hlt
      · exact String.lt_trans hlt (hhead e he)
    · split
      · rename_i heq
        exact List.pairwise_cons.2 ⟨fun e he => heq ▸ hhead e he, hrest⟩
      · rename_i hlt hne
        refine List.pairwise_cons.2 ⟨fun e he => ?_, ih hrest⟩
        rcases mem_insertIn he with he | he
        · exact he ▸ Std.lt_of_le_of_ne (String.not_lt.1 hlt) hne
        · exact hhead e he

/-- Gives a name a value, in place of the value that it has. -/
def insert (m : NameMap α) (name : String) (value : α) : NameMap α :=
  ⟨insertIn name value m.entries, sorted_insertIn m.sorted⟩

/-- The map that a list of entries describes, in which later entries win. -/
def ofList (entries : List (String × α)) : NameMap α :=
  entries.foldl (fun m e => m.insert e.1 e.2) empty

/-! ## Removal -/

/-- Removes a name. -/
def erase (m : NameMap α) (name : String) : NameMap α :=
  ⟨m.entries.filter (fun e => e.1 ≠ name), m.sorted.filter _⟩

/-- Converts the values, and leaves out those that have no conversion. -/
def filterMap (f : α → Option β) (m : NameMap α) : NameMap β where
  entries := m.entries.filterMap fun e => (f e.2).map fun v => (e.1, v)
  sorted := by
    refine m.sorted.filterMap _ fun a b hab c hc d hd => ?_
    obtain ⟨v, _, rfl⟩ := Option.map_eq_some_iff.1 hc
    obtain ⟨w, _, rfl⟩ := Option.map_eq_some_iff.1 hd
    exact hab

end NameMap

end FencedCode
