import FencedCode.Proofs.Files.Reading

/-!
# Writing files

Writing a file below a directory makes the directories on the way and then the file.  If it
fails it leaves directories at most, `addsDirectories_writeBelow`.  If it succeeds the path
leads to the file afterwards, and nothing else is new or different but for directories,
`exists_isWritten_writeBelow`.  What a run may do at a place never changes.
-/

namespace FencedCode.FileTree

open Files

variable {tree tree' : FileTree}

/-! ## Putting something at a place -/

lemma lookup_nil (tree : FileTree) : tree.lookup [] = some .directory :=
  rfl

lemma ne_nil_of_lookup_ne {place : List String} (h : tree.lookup place ≠ some .directory) :
    place ≠ [] :=
  fun hnil => h (hnil ▸ tree.lookup_nil)

lemma itemAt_set (tree : FileTree) (place : List String) (entry : Entry)
    (other : List String) :
    (tree.set place entry).itemAt other =
      if other = place then some ⟨place, entry, tree.accessAt place⟩ else tree.itemAt other := by
  obtain ⟨items⟩ := tree
  simp only [set, itemAt, accessAt]
  induction items with
  | nil => by_cases hother : other = place <;> simp [setIn, hother, eq_comm]
  | cons item rest ih =>
    obtain ⟨p, e, access⟩ := item
    by_cases hp : p = place
    · subst hp
      by_cases hother : other = p
      · simp [setIn, hother]
      · simp [setIn, hother, Ne.symm hother]
    · by_cases hother : other = place
      · subst hother
        simpa [setIn, hp] using ih
      · by_cases hother' : p = other
        · simp [setIn, hother, hother']
        · simpa [setIn, hp, hother, hother'] using ih

lemma lookup_set (tree : FileTree) {place : List String} (h : place ≠ []) (entry : Entry)
    (other : List String) :
    (tree.set place entry).lookup other =
      if other = place then some entry else tree.lookup other := by
  cases other with
  | nil => rw [if_neg (Ne.symm h), lookup_nil, lookup_nil]
  | cons name rest =>
    change ((tree.set place entry).itemAt (name :: rest)).map Item.entry = _
    rw [itemAt_set]
    split <;> rfl

/-- What a run may do at a place does not depend on what is put anywhere. -/
@[simp] lemma accessAt_set (tree : FileTree) (place : List String) (entry : Entry)
    (other : List String) : (tree.set place entry).accessAt other = tree.accessAt other := by
  rw [accessAt, itemAt_set]
  split
  · rename_i hsame
    rw [hsame]
    rfl
  · rfl

/-! ## Making directories -/

/-- Whether a tree has all that another has, and besides that at most directories. -/
structure AddsDirectories (tree tree' : FileTree) : Prop where
  kept : ∀ place entry, tree.lookup place = some entry → tree'.lookup place = some entry
  new : ∀ place, tree.lookup place = none →
    tree'.lookup place = none ∨ tree'.lookup place = some .directory
  access : ∀ place, tree'.accessAt place = tree.accessAt place

namespace AddsDirectories

lemma refl (tree : FileTree) : tree.AddsDirectories tree :=
  ⟨fun _ _ h => h, fun _ h => .inl h, fun _ => rfl⟩

lemma trans {tree'' : FileTree} (h : tree.AddsDirectories tree')
    (h' : tree'.AddsDirectories tree'') : tree.AddsDirectories tree'' := by
  refine ⟨fun place entry hentry => h'.kept _ _ (h.kept _ _ hentry), fun place hnone => ?_,
    fun place => (h'.access place).trans (h.access place)⟩
  rcases h.new place hnone with hnone' | hdirectory
  · exact h'.new place hnone'
  · exact .inr (h'.kept _ _ hdirectory)

/-- A directory at a place where nothing stood. -/
lemma set {place : List String} (h : tree.lookup place = none) :
    tree.AddsDirectories (tree.set place .directory) := by
  have hne : tree.lookup place ≠ some .directory := by simp [h]
  have hplace : place ≠ [] := ne_nil_of_lookup_ne hne
  refine ⟨?_, ?_, tree.accessAt_set place .directory⟩
  · intro other entry hentry
    rw [tree.lookup_set hplace, if_neg, hentry]
    rintro rfl
    rw [h] at hentry
    cases hentry
  · intro other hnone
    rw [tree.lookup_set hplace, hnone]
    split
    · exact .inr rfl
    · exact .inl rfl

end AddsDirectories

lemma addsDirectories_makeDirectory {place way : List String}
    (h : tree.makeDirectory place way = .ok tree') : tree.AddsDirectories tree' := by
  rw [makeDirectory] at h
  split at h
  · cases h
  · split at h
    · cases h
    · obtain ⟨parent, -, h⟩ := exists_of_bind_eq_ok h
      split at h
      · split at h
        · cases h
        · split at h
          · cases h
          · split at h
            · cases h
            · rename_i hvacant
              split at h
              · cases h
              · cases h
                exact .set (Option.not_isSome_iff_eq_none.1 hvacant)
      · cases h

/-- Whether it succeeds or not, making directories makes nothing else. -/
lemma addsDirectories_makeDirectories (tree : FileTree) (place way : List String) (count : Nat) :
    tree.AddsDirectories (tree.makeDirectories place way count).1 := by
  induction count with
  | zero => exact .refl tree
  | succ count ih =>
    rw [makeDirectories]
    split
    · rename_i tree' hmade
      exact addsDirectories_makeDirectory hmade
    · split
      · rename_i tree' e hbelow
        rw [hbelow] at ih
        exact ih
      · rename_i tree' hbelow
        rw [hbelow] at ih
        split
        · rename_i tree'' hmade
          exact ih.trans (addsDirectories_makeDirectory hmade)
        · split <;> exact ih
    · split <;> exact .refl tree

/-! ## Writing a file -/

/-- A walk goes through the same places in a tree that has the same directories, if it may. -/
lemma walk_of_directories {place dest way : List String}
    (hdirectories : ∀ p, tree.lookup p = some .directory → tree'.lookup p = some .directory)
    (haccess : ∀ p, tree'.accessAt p = tree.accessAt p)
    (hdest : (tree'.lookup dest).isSome = true) (h : tree.walk place way = .ok dest) :
    tree'.walk place way = .ok dest := by
  induction way generalizing place with
  | nil =>
    obtain ⟨rfl, -⟩ := walk_nil_eq_ok_iff.1 h
    exact walk_nil_eq_ok_iff.2 ⟨rfl, hdest⟩
  | cons segment rest ih =>
    obtain ⟨⟨hplace, hsearch, hsize⟩, h⟩ := walk_cons_eq_ok_iff.1 h
    rw [← haccess] at hsearch
    exact walk_cons_eq_ok_iff.2 ⟨⟨hdirectories _ hplace, hsearch, hsize⟩, ih h⟩

/-- A walk goes on from its end by one name. -/
lemma walk_concat {place parent way : List String} {name : String}
    (h : tree.walk place way = .ok parent) (hparent : tree.LetsThrough parent name)
    (hname : (tree.lookup (next parent name)).isSome = true) :
    tree.walk place (way ++ [name]) = .ok (next parent name) := by
  induction way generalizing place with
  | nil =>
    obtain ⟨rfl, -⟩ := walk_nil_eq_ok_iff.1 h
    exact walk_cons_eq_ok_iff.2 ⟨hparent, walk_nil_eq_ok_iff.2 ⟨rfl, hname⟩⟩
  | cons segment rest ih =>
    obtain ⟨hplace, h⟩ := walk_cons_eq_ok_iff.1 h
    exact walk_cons_eq_ok_iff.2 ⟨hplace, ih h⟩

/-- A path without a slash at its end has the name of a file for its last segment. -/
lemma segments_of_trimmed {path name : String} {way : List String}
    (h : trimmed path = (way, false)) (hname : way.getLast? = some name) :
    segments path = way ∧ name ≠ "" := by
  have hsuffix : (segments path).reverse.dropWhile (· = "") <:+ (segments path).reverse :=
    List.dropWhile_suffix _
  have hall : (segments path).reverse.dropWhile (· = "") = (segments path).reverse := by
    have hlength := congrArg Prod.snd h
    refine hsuffix.eq_of_length ?_
    simpa [trimmed] using hlength
  have hway : segments path = way := by
    have hkept := congrArg Prod.fst h
    simpa [trimmed, hall] using hkept
  refine ⟨hway, ?_⟩
  -- Were the last segment empty, it would have been dropped.
  rintro rfl
  rw [← hway, List.getLast?_eq_head?_reverse] at hname
  obtain ⟨rest, hrest⟩ := List.head?_eq_some_iff.1 hname
  have hdrop := List.head?_dropWhile_not (fun s : String => decide (s = ""))
    (segments path).reverse
  rw [hall, hrest] at hdrop
  simp at hdrop

/-- A file does not take the place of a directory. -/
lemma lookup_ne_of_checkWritable {parent place : List String}
    (h : tree.checkWritable parent place = .ok ()) : tree.lookup place ≠ some .directory := by
  intro hdirectory
  rw [checkWritable, hdirectory] at h
  cases h

/-- What a write has checked when it succeeds. -/
lemma exists_of_writeFile_eq_ok {cwd : List String} {path : String} {content : ByteArray}
    (h : tree.writeFile cwd path content = .ok tree') :
    ∃ way name parent, pathFault? path = none ∧ trimmed path = (way, false) ∧
      way.getLast? = some name ∧ name ≠ "." ∧ name ≠ ".." ∧
      tree.walk (start cwd path) way.dropLast = .ok parent ∧
      tree.LetsThrough parent name ∧
      tree.lookup (next parent name) ≠ some .directory ∧
      tree' = tree.set (next parent name) (.file content) := by
  rcases htrimmed : trimmed path with ⟨way, closed⟩
  rw [writeFile, htrimmed] at h
  dsimp only at h
  split at h
  · cases h
  · cases h
  · rename_i name hfault hlast
    obtain ⟨parent, hwalk, h⟩ := exists_of_bind_eq_ok h
    split at h
    · rename_i hparent
      split at h
      · cases h
      · rename_i hsearch
        split at h
        · cases h
        · rename_i hname
          push Not at hname
          obtain ⟨hopen, hdot, hdots⟩ := hname
          split at h
          · cases h
          · rename_i hsize
            obtain ⟨_, hwritable, h⟩ := exists_of_bind_eq_ok h
            cases h
            exact ⟨way, name, parent, hfault, by rw [Bool.eq_false_iff.2 hopen], hlast, hdot,
              hdots, hwalk, ⟨hparent, fun _ => Bool.of_not_eq_false hsearch, Nat.not_lt.1 hsize⟩,
              lookup_ne_of_checkWritable hwritable, rfl⟩
    · cases h

/-- A file that is written stands where its path leads afterwards, in a directory, and is new
there or takes the place of a file. -/
lemma exists_dest_of_writeFile {cwd : List String} {path : String} {content : ByteArray}
    (h : tree.writeFile cwd path content = .ok tree') :
    ∃ dest, tree'.resolve cwd path = .ok dest ∧ tree' = tree.set dest (.file content) ∧
      tree.lookup dest ≠ some .directory ∧ tree.lookup dest.dropLast = some .directory := by
  obtain ⟨way, name, parent, hfault, htrimmed, hlast, hdot, hdots, hwalk, hparent, hdest,
    rfl⟩ := exists_of_writeFile_eq_ok h
  obtain ⟨hway, hempty⟩ := segments_of_trimmed htrimmed hlast
  have hnext : next parent name = parent ++ [name] := by simp [next, hempty, hdot, hdots]
  have hset := tree.lookup_set (ne_nil_of_lookup_ne hdest) (.file content)
  have haccess := tree.accessAt_set (next parent name) (.file content)
  have hdirectories : ∀ p, tree.lookup p = some .directory →
      (tree.set (next parent name) (.file content)).lookup p = some .directory := by
    intro p hp
    rw [hset, if_neg, hp]
    rintro rfl
    exact hdest hp
  refine ⟨next parent name, ?_, rfl, hdest, by rw [hnext, List.dropLast_concat, hparent.directory]⟩
  have hpath : path.isEmpty = false := by
    rw [Bool.eq_false_iff]
    intro hnil
    rw [String.isEmpty_iff.1 hnil] at htrimmed
    have hclosed : trimmed "" = ([], true) := rfl
    rw [hclosed] at htrimmed
    cases htrimmed
  have hwalk' := walk_of_directories hdirectories haccess
    (Option.isSome_iff_exists.2 ⟨_, hdirectories _ hparent.directory⟩) hwalk
  have hparent' : (tree.set (next parent name) (.file content)).LetsThrough parent name :=
    ⟨hdirectories _ hparent.directory, fun hne => by rw [haccess, hparent.search hne],
      hparent.size⟩
  have hall := walk_concat hwalk' hparent' (by rw [hset, if_pos rfl]; rfl)
  rw [List.dropLast_append_getLast? name hlast] at hall
  rw [resolve, hpath, hfault, hway]
  exact hall

/-! ## Writing below a directory -/

/-- Whether a tree differs from another by a file with a content at a place, in a directory,
and by directories at most; the file is new or takes the place of a file. -/
structure IsWritten (tree tree' : FileTree) (dest : List String) (content : ByteArray) :
    Prop where
  written : tree'.lookup dest = some (.file content)
  below : tree'.lookup dest.dropLast = some .directory
  replaced : tree.lookup dest ≠ some .directory
  kept : ∀ place entry, place ≠ dest → tree.lookup place = some entry →
    tree'.lookup place = some entry
  new : ∀ place, place ≠ dest → tree.lookup place = none →
    tree'.lookup place = none ∨ tree'.lookup place = some .directory
  access : ∀ place, tree'.accessAt place = tree.accessAt place

/-- After making directories a write either fails or writes the file. -/
lemma writeBelow_cases (tree : FileTree) (cwd : List String) (path : String)
    (content : ByteArray) :
    ∃ made, tree.AddsDirectories made ∧
      ((∃ e, tree.writeBelow cwd path content = (made, .error e)) ∨
        ∃ tree', made.writeFile cwd path content = .ok tree' ∧
          tree.writeBelow cwd path content = (tree', .ok ())) := by
  have hmakes := addsDirectories_makeDirectories tree (start cwd path) (parts path).dropLast
    (parts path).dropLast.length
  rw [writeBelow]
  cases pathFault? (parentOf path) with
  | some e => exact ⟨tree, .refl tree, .inl ⟨e, rfl⟩⟩
  | none =>
    dsimp only
    rcases hmade : tree.makeDirectories (start cwd path) (parts path).dropLast
      (parts path).dropLast.length with ⟨made, outcome⟩
    rw [hmade] at hmakes
    refine ⟨made, hmakes, ?_⟩
    cases outcome with
    | error e => exact .inl ⟨e, rfl⟩
    | ok =>
      dsimp only
      cases made.writeFile cwd path content with
      | error e => exact .inl ⟨e, rfl⟩
      | ok tree' => exact .inr ⟨tree', rfl, rfl⟩

lemma addsDirectories_writeBelow {cwd : List String} {path : String} {content : ByteArray}
    {e : IoError} (h : (tree.writeBelow cwd path content).2 = .error e) :
    tree.AddsDirectories (tree.writeBelow cwd path content).1 := by
  obtain ⟨made, hmade, ⟨e, hfails⟩ | ⟨tree', -, hwrites⟩⟩ :=
    writeBelow_cases tree cwd path content
  · rwa [hfails]
  · rw [hwrites] at h
    cases h

lemma exists_isWritten_writeBelow {cwd : List String} {path : String} {content : ByteArray}
    (h : (tree.writeBelow cwd path content).2 = .ok ()) :
    ∃ dest, (tree.writeBelow cwd path content).1.resolve cwd path = .ok dest ∧
      tree.IsWritten (tree.writeBelow cwd path content).1 dest content := by
  obtain ⟨made, hmade, ⟨e, hfails⟩ | ⟨tree', hfile, hwrites⟩⟩ :=
    writeBelow_cases tree cwd path content
  · rw [hfails] at h
    cases h
  · rw [hwrites]
    obtain ⟨dest, hresolve, rfl, hdest, hparent⟩ := exists_dest_of_writeFile hfile
    have hset := made.lookup_set (ne_nil_of_lookup_ne hdest) (.file content)
    have haccess := made.accessAt_set dest (.file content)
    refine ⟨dest, hresolve,
      ⟨?_, ?_, ?_, ?_, ?_, fun place => (haccess place).trans (hmade.access place)⟩⟩
    · rw [hset, if_pos rfl]
    · rw [hset, if_neg, hparent]
      intro hsame
      exact hdest (hsame ▸ hparent)
    · exact fun hdirectory => hdest (hmade.kept dest _ hdirectory)
    · intro place entry hne hentry
      rw [hset, if_neg hne, hmade.kept place entry hentry]
    · intro place hne hnone
      rw [hset, if_neg hne]
      exact hmade.new place hnone

end FencedCode.FileTree
