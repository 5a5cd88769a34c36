import DocumentHost.Proofs.Files.Following
import Mathlib.Data.List.Induction

/-!
# Writing and moving files

A file is written to one place of a tree and moved from one place to another.  Directories stay
what they are, so paths lead to the places they led to, and no other place is touched.
-/

namespace DocumentHost

namespace FileTree

variable {tree other : FileTree} {path source target : String} {place below : List String}
  {directory : List String} {name : String} {bytes : List UInt8} {modified : Instant}

/-! ## Rooted trees -/

/-- Whatever there is in a tree lies in a directory of the tree. -/
def Rooted (tree : FileTree) : Prop :=
  ∀ place name, (tree.find? (place ++ [name])).isSome = true → tree.isDirectoryAt place = true

theorem mem_of_lookup_eq_some {entries : List (List String × FileEntry)} {entry : FileEntry}
    (found : entries.lookup place = some entry) : (place, entry) ∈ entries := by
  induction entries with
  | nil => cases found
  | cons known rest ih =>
      rw [List.lookup_cons] at found
      split at found
      · next same =>
          cases found
          obtain rfl := eq_of_beq same
          exact List.mem_cons_self
      · exact List.mem_cons_of_mem _ (ih found)

theorem isDirectoryAt_nil (tree : FileTree) : tree.isDirectoryAt [] = true :=
  rfl

theorem isDirectoryAt_iff (inside : place ≠ []) :
    tree.isDirectoryAt place = true ↔
      ∃ modified, tree.find? place = some (.directory modified) := by
  rw [isDirectoryAt, List.isEmpty_eq_false_iff.2 inside, Bool.false_or]
  cases tree.find? place with
  | none => simp
  | some entry => cases entry <;> simp

theorem isSome_find?_of_isDirectoryAt (isDirectory : tree.isDirectoryAt place = true)
    (inside : place ≠ []) : (tree.find? place).isSome = true := by
  obtain ⟨modified, found⟩ := (isDirectoryAt_iff inside).1 isDirectory
  rw [found]
  rfl

theorem rooted_of_entries
    (directories : ∀ known ∈ tree.entries, tree.isDirectoryAt known.1.dropLast = true) :
    tree.Rooted := by
  intro place name known
  obtain ⟨entry, found⟩ := Option.isSome_iff_exists.1 known
  have inside := directories _ (mem_of_lookup_eq_some found)
  rwa [List.dropLast_concat] at inside

/-- In a rooted tree there is nothing below what is no directory. -/
theorem Rooted.find?_below (rooted : tree.Rooted) (noDirectory : tree.isDirectoryAt place = false)
    (strictly : below ≠ []) : tree.find? (place ++ below) = none := by
  induction below using List.reverseRecOn with
  | nil => exact absurd rfl strictly
  | append_singleton front last ih =>
      rw [← List.append_assoc]
      refine Option.not_isSome_iff_eq_none.1 fun known => ?_
      have above := rooted _ _ known
      rcases List.eq_nil_or_concat' front with rfl | ⟨_, _, rfl⟩
      · rw [List.append_nil, noDirectory] at above
        cases above
      · have found := isSome_find?_of_isDirectoryAt above (by simp)
        rw [ih (by simp)] at found
        cases found

/-! ## Files put in their places and removed -/

/-- A file in the place of what is no directory changes no directory. -/
theorem isDirectoryAt_put (noDirectory : tree.isDirectoryAt place = false)
    (bytes : List UInt8) (modified : Instant) (there : List String) :
    (tree.put place (.file bytes modified)).isDirectoryAt there = tree.isDirectoryAt there := by
  by_cases root : there = []
  · rw [root, isDirectoryAt_nil, isDirectoryAt_nil]
  rw [Bool.eq_iff_iff, isDirectoryAt_iff root, isDirectoryAt_iff root]
  by_cases here : there = place
  · subst here
    rw [find?_put_self, ← isDirectoryAt_iff root, noDirectory]
    simp
  · rw [find?_put_of_ne _ _ here]

theorem find?_put (tree : FileTree) (place there : List String) (entry : FileEntry) :
    (tree.put place entry).find? there =
      if there = place then some entry else tree.find? there := by
  by_cases here : there = place
  · rw [if_pos here, here, find?_put_self]
  · rw [if_neg here, find?_put_of_ne _ _ here]

/-- Removing what is no directory removes nothing else. -/
theorem Rooted.find?_removeAt (rooted : tree.Rooted)
    (noDirectory : tree.isDirectoryAt place = false) (there : List String) :
    (tree.removeAt place).find? there = if there = place then none else tree.find? there := by
  cases outside : place.isPrefixOf there with
  | false =>
      have elsewhere : there ≠ place := by
        rintro rfl
        rw [List.isPrefixOf_iff_prefix.2 (List.prefix_refl there)] at outside
        cases outside
      rw [if_neg elsewhere, find?_removeAt_of_outside _ outside]
  | true =>
      obtain ⟨below, rfl⟩ := List.isPrefixOf_iff_prefix.1 outside
      have removed : (tree.removeAt place).find? (place ++ below) = none := by
        rw [find?, removeAt, List.lookup_eq_none_iff]
        intro known member
        refine bne_iff_ne.2 fun same => ?_
        have kept := (List.mem_filter.1 member).2
        rw [← same, outside] at kept
        cases kept
      rw [removed]
      by_cases here : place ++ below = place
      · rw [if_pos here]
      · have strictly : below ≠ [] := by
          rintro rfl
          exact here (List.append_nil _)
        rw [if_neg here, rooted.find?_below noDirectory strictly]

/-- Removing what is no directory changes no directory. -/
theorem Rooted.isDirectoryAt_removeAt (rooted : tree.Rooted)
    (noDirectory : tree.isDirectoryAt place = false) (there : List String) :
    (tree.removeAt place).isDirectoryAt there = tree.isDirectoryAt there := by
  by_cases root : there = []
  · rw [root, isDirectoryAt_nil, isDirectoryAt_nil]
  rw [Bool.eq_iff_iff, isDirectoryAt_iff root, isDirectoryAt_iff root,
    rooted.find?_removeAt noDirectory]
  by_cases here : there = place
  · subst here
    rw [if_pos rfl, ← isDirectoryAt_iff root, noDirectory]
    simp
  · rw [if_neg here]

theorem Rooted.put (rooted : tree.Rooted) (above : tree.isDirectoryAt directory = true)
    (noDirectory : tree.isDirectoryAt (directory ++ [name]) = false) (bytes : List UInt8)
    (modified : Instant) : (tree.put (directory ++ [name]) (.file bytes modified)).Rooted := by
  intro place last known
  rw [isDirectoryAt_put noDirectory]
  rw [find?_put] at known
  split at known
  · next here =>
      obtain ⟨rfl, -⟩ := List.append_inj' here rfl
      exact above
  · exact rooted place last known

theorem Rooted.removeAt (rooted : tree.Rooted) (noDirectory : tree.isDirectoryAt place = false) :
    (tree.removeAt place).Rooted := by
  intro there last known
  rw [rooted.isDirectoryAt_removeAt noDirectory]
  rw [rooted.find?_removeAt noDirectory] at known
  split at known
  · cases known
  · exact rooted there last known

/-! ## Where files of paths stand -/

/-- The second tree has the directories of the first, and the same working directory. -/
structure KeepsDirectories (tree other : FileTree) : Prop where
  working : other.working = tree.working
  directory : ∀ place, tree.isDirectoryAt place = true → other.isDirectoryAt place = true

/-- A path leads to a directory wherever the directories are the same. -/
theorem KeepsDirectories.follow (keeps : tree.KeepsDirectories other) {current : List String}
    {parts : List String} (followed : tree.follow current parts = .ok place)
    (isDirectory : tree.isDirectoryAt place = true) : other.follow current parts = .ok place := by
  induction parts generalizing current with
  | nil => exact followed
  | cons piece rest ih =>
      obtain ⟨starts, next, leads, behind⟩ := follow_cons_eq_ok_iff.1 followed
      refine follow_cons_eq_ok_iff.2 ⟨keeps.directory _ starts, next, ?_, ih behind⟩
      cases leads with
      | stay trivial => exact .stay trivial
      | up parent => exact .up parent
      | down proper short known =>
          have passed := keeps.directory _ (isDirectoryAt_of_follow behind isDirectory)
          exact .down proper short (isSome_find?_of_isDirectoryAt passed (by simp))

/-- A path is taken apart into the directory that it leads to up to its last piece, and that
piece. -/
theorem locateParent_eq_ok_iff :
    tree.locateParent path = .ok (directory, name) ↔
      ensureUsable path = .ok () ∧
        tree.follow (tree.start path)
          ((Path.pieces path).reverse.dropWhile (· = "")).reverse.dropLast = .ok directory ∧
        tree.isDirectoryAt directory = true ∧
        ((Path.pieces path).reverse.dropWhile (· = "")).reverse.getLastD "" = name := by
  rw [locateParent, Outcome.bind_eq_ok_iff]
  simp only [Outcome.bind_eq_ok_iff]
  constructor
  · rintro ⟨⟨⟩, usable, found, followed, ends⟩
    cases isDirectory : tree.isDirectoryAt found with
    | false =>
        rw [isDirectory] at ends
        cases ends
    | true =>
        rw [isDirectory] at ends
        cases ends
        exact ⟨usable, followed, isDirectory, rfl⟩
  · rintro ⟨usable, followed, isDirectory, rfl⟩
    refine ⟨(), usable, directory, followed, ?_⟩
    rw [isDirectory]
    rfl

theorem KeepsDirectories.start (keeps : tree.KeepsDirectories other) (path : String) :
    other.start path = tree.start path := by
  rw [FileTree.start, FileTree.start, keeps.working]

theorem KeepsDirectories.locateParent (keeps : tree.KeepsDirectories other)
    (located : tree.locateParent path = .ok (directory, name)) :
    other.locateParent path = .ok (directory, name) := by
  obtain ⟨usable, followed, isDirectory, isName⟩ := locateParent_eq_ok_iff.1 located
  refine locateParent_eq_ok_iff.2 ⟨usable, ?_, keeps.directory _ isDirectory, isName⟩
  rw [keeps.start]
  exact keeps.follow followed isDirectory

/-- No piece of a path is left out if the path does not end with a slash. -/
theorem exists_pieces_eq (usable : ensureUsable path = .ok ())
    (noSlash : path.endsWith "/" = false) :
    ∃ front last, Path.pieces path = front ++ [last] ∧
      ((Path.pieces path).reverse.dropWhile (· = "")).reverse = front ++ [last] := by
  obtain ⟨last, isLast, -, whole⟩ := Path.exists_lastComponent path
  obtain ⟨front, pieces⟩ := List.getLast?_eq_some_iff.1 isLast
  have named : last ≠ "" := by
    rintro rfl
    rcases whole with rfl | ⟨before, rfl⟩
    · exact (ensureUsable_eq_ok_iff.1 usable).2.2 rfl
    · rw [String.append_empty, Path.endsWith_slash_iff.2 ⟨before, rfl⟩] at noSlash
      cases noSlash
  refine ⟨front, last, pieces, ?_⟩
  rw [pieces, List.reverse_append, List.reverse_singleton, List.singleton_append,
    List.dropWhile_cons_of_neg (by simpa using named)]
  simp

/-- A path leads to the entry that stands where its file would. -/
theorem locate_of_locateParent (located : tree.locateParent path = .ok (directory, name))
    (noSlash : path.endsWith "/" = false) (proper : isPlace name = false)
    (short : name.utf8ByteSize ≤ nameLimit)
    (known : (tree.find? (directory ++ [name])).isSome = true) :
    tree.locate path = .ok (directory ++ [name]) := by
  obtain ⟨usable, followed, isDirectory, isName⟩ := locateParent_eq_ok_iff.1 located
  obtain ⟨front, last, pieces, parts⟩ := exists_pieces_eq usable noSlash
  rw [parts, List.dropLast_concat] at followed
  rw [parts, List.getLastD_concat] at isName
  subst isName
  refine locate_eq_ok_iff.2 ⟨usable, ?_⟩
  rw [pieces]
  exact follow_append_eq_ok_iff.2 ⟨directory, followed,
    (follow_singleton_eq_ok_iff proper).2 ⟨isDirectory, rfl, short, known⟩⟩

/-- A path leads to a place for a file: the place may be vacant, or a file may stand there. -/
structure LeadsToFile (tree : FileTree) (path : String) (place : List String) : Prop where
  exists_name : ∃ directory name, tree.locateParent path = .ok (directory, name) ∧
    isPlace name = false ∧ name.utf8ByteSize ≤ nameLimit ∧ place = directory ++ [name]
  noSlash : path.endsWith "/" = false
  noDirectory : tree.isDirectoryAt place = false

namespace LeadsToFile

theorem of_same (leads : tree.LeadsToFile path place) (working : other.working = tree.working)
    (same : ∀ there, other.isDirectoryAt there = tree.isDirectoryAt there) :
    other.LeadsToFile path place := by
  have keeps : tree.KeepsDirectories other :=
    ⟨working, fun there isDirectory => (same there).trans isDirectory⟩
  obtain ⟨directory, name, located, named⟩ := leads.exists_name
  exact ⟨⟨directory, name, keeps.locateParent located, named⟩, leads.noSlash,
    (same place).trans leads.noDirectory⟩

theorem locate (leads : tree.LeadsToFile path place)
    (known : (tree.find? place).isSome = true) : tree.locate path = .ok place := by
  obtain ⟨directory, name, located, proper, short, rfl⟩ := leads.exists_name
  exact locate_of_locateParent located leads.noSlash proper short known

theorem read (leads : tree.LeadsToFile path place)
    (holds : tree.find? place = some (.file bytes modified)) : tree.read path = .ok bytes := by
  have located := leads.locate (by rw [holds]; rfl)
  refine Outcome.bind_eq_ok_iff.2 ⟨place, located, ?_⟩
  rw [holds]
  rfl

theorem rooted_put (leads : tree.LeadsToFile path place) (rooted : tree.Rooted)
    (bytes : List UInt8) (modified : Instant) :
    (tree.put place (.file bytes modified)).Rooted := by
  obtain ⟨directory, name, located, -, -, rfl⟩ := leads.exists_name
  exact rooted.put (locateParent_eq_ok_iff.1 located).2.2.1 leads.noDirectory bytes modified

/-- The directory of a path for a file can be found, if it is named. -/
theorem exists_locate_parent (leads : tree.LeadsToFile path place)
    (named : Path.parent path ≠ "") :
    ∃ directory, tree.locate (Path.parent path) = .ok directory := by
  obtain ⟨directory, name, located, proper, -, -⟩ := leads.exists_name
  obtain ⟨usable, followed, isDirectory, isName⟩ := locateParent_eq_ok_iff.1 located
  obtain ⟨front, last, pieces, parts⟩ := exists_pieces_eq usable leads.noSlash
  rw [parts, List.dropLast_concat] at followed
  rw [parts, List.getLastD_concat] at isName
  subst isName
  rw [isPlace, Bool.or_eq_false_iff] at proper
  have names : Path.names path = front.filter (fun piece => !Path.isTrivial piece) ++ [last] := by
    rw [Path.names, pieces, List.filter_append, List.filter_cons_of_pos (by simp [proper.1])]
    rfl
  obtain ⟨behind, whole⟩ := Path.exists_eq_parent_append names
  obtain ⟨noNull, short, -⟩ := ensureUsable_eq_ok_iff.1 usable
  rw [whole, String.toList_append, List.mem_append, not_or] at noNull
  rw [whole, String.utf8ByteSize_append] at short
  refine ⟨directory, locate_eq_ok_iff.2 ⟨?_, follow_of_filter ?_ isDirectory⟩⟩
  · exact ensureUsable_eq_ok_iff.2 ⟨noNull.1, by omega, named⟩
  · rw [← Path.names, Path.names_parent names,
      start_of_startsWith (Path.startsWith_parent names named)]
    exact follow_filter followed

end LeadsToFile

/-! ## Writing and moving -/

theorem ensureShort_eq_ok_iff {done : Unit} :
    ensureShort name = .ok done ↔ name.utf8ByteSize ≤ nameLimit := by
  rw [ensureShort]
  by_cases long : nameLimit < name.utf8ByteSize
  · simp [long]
  · simp [long, Nat.not_lt.1 long]

theorem locateFile_eq_ok_iff :
    tree.locateFile directory name = .ok place ↔
      tree.isDirectoryAt (directory ++ [name]) = false ∧ place = directory ++ [name] := by
  rw [locateFile]
  cases tree.isDirectoryAt (directory ++ [name]) <;> simp [eq_comm]

/-- A file is written if its path leads to a place for it. -/
theorem write_eq_ok_iff {after : FileTree} :
    tree.write path bytes modified = .ok after ↔
      ∃ place, tree.LeadsToFile path place ∧ after = tree.put place (.file bytes modified) := by
  rw [write, Outcome.bind_eq_ok_iff]
  simp only [Outcome.refuse_eq_ok_iff, Outcome.bind_eq_ok_iff, ensureShort_eq_ok_iff,
    locateFile_eq_ok_iff, Outcome.pure_eq_ok_iff, Bool.or_eq_true, not_or, Bool.not_eq_true]
  constructor
  · rintro ⟨⟨directory, name⟩, located, ⟨proper, noSlash⟩, ⟨⟩, short, place, ⟨free, rfl⟩, rfl⟩
    exact ⟨_, ⟨⟨directory, name, located, proper, short, rfl⟩, noSlash, free⟩, rfl⟩
  · rintro ⟨place, ⟨⟨directory, name, located, proper, short, rfl⟩, noSlash, free⟩, rfl⟩
    exact ⟨_, located, ⟨proper, noSlash⟩, (), short, _, ⟨free, rfl⟩, rfl⟩

/-- A file that has been written is moved if the other path leads to a place for it. -/
theorem rename_eq_ok_iff {after : FileTree} (leads : tree.LeadsToFile source place)
    (holds : tree.find? place = some (.file bytes modified)) :
    tree.rename source target = .ok after ↔
      ∃ there, tree.LeadsToFile target there ∧
        after = if there = place then tree
          else (tree.removeAt place).put there (.file bytes modified) := by
  have located := leads.locate (by rw [holds]; rfl)
  rw [rename, Outcome.bind_eq_ok_iff]
  simp only [Outcome.refuse_eq_ok_iff, Outcome.bind_eq_ok_iff, ensureShort_eq_ok_iff,
    locateFile_eq_ok_iff, Bool.not_eq_true]
  constructor
  · rintro ⟨_, isPlace, entry, isEntry, ⟨directory, name⟩, found, proper, ⟨⟩, short, noSlash, _,
      ⟨free, rfl⟩, moved⟩
    cases located.symm.trans isPlace
    rw [holds] at isEntry
    cases isEntry
    refine ⟨_, ⟨⟨directory, name, found, proper, short, rfl⟩, noSlash, free⟩, ?_⟩
    by_cases same : directory ++ [name] = place
    · rw [if_pos same] at moved ⊢
      exact (Outcome.pure_eq_ok_iff.1 moved).symm
    · rw [if_neg same] at moved ⊢
      exact (Outcome.pure_eq_ok_iff.1 moved).symm
  · rintro ⟨_, ⟨⟨directory, name, found, proper, short, rfl⟩, noSlash, free⟩, rfl⟩
    refine ⟨place, located, .file bytes modified, by rw [holds], _, found, proper, (), short,
      noSlash, _, ⟨free, rfl⟩, ?_⟩
    split <;> rfl

end FileTree

end DocumentHost
