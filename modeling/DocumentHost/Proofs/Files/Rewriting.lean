import DocumentHost.Files.Resolve
import DocumentHost.Proofs.Outcome

/-!
# Trees whose files are rewritten

Which file a name stands for depends on what there is in a tree, not on what the files hold.
So names stand for the same files as long as files are only rewritten, and a file whose time
of modification has not advanced holds what it held.
-/

namespace DocumentHost

/-- In a sorted list the first element of a kind is determined by the elements of the list. -/
theorem find?_eq_of_sorted {first second : List String} (kind : String → Bool)
    (sorted : first.Pairwise (· ≤ ·)) (otherSorted : second.Pairwise (· ≤ ·))
    (same : ∀ name, name ∈ first ↔ name ∈ second) : first.find? kind = second.find? kind := by
  have least {names : List String} (sorted : names.Pairwise (· ≤ ·)) {found other : String}
      (isFound : names.find? kind = some found) (member : other ∈ names)
      (passes : kind other = true) : found ≤ other := by
    obtain ⟨-, before, behind, rfl, none⟩ := List.find?_eq_some_iff_append.1 isFound
    rcases List.mem_append.1 member with early | late
    · have fails := none other early
      simp [passes] at fails
    · rcases List.mem_cons.1 late with rfl | later
      · exact String.le_refl _
      · exact (List.pairwise_cons.1 (List.pairwise_append.1 sorted).2.1).1 other later
  cases found : first.find? kind with
  | none =>
      rw [List.find?_eq_none] at found
      exact (List.find?_eq_none.2 fun name member => found name ((same name).2 member)).symm
  | some name =>
      cases otherFound : second.find? kind with
      | none =>
          have fails := List.find?_eq_none.1 otherFound name
            ((same name).1 (List.mem_of_find?_eq_some found))
          exact absurd (List.find?_some found) fails
      | some other =>
          have below := least sorted found ((same other).2 (List.mem_of_find?_eq_some otherFound))
            (List.find?_some otherFound)
          have above := least otherSorted otherFound
            ((same name).1 (List.mem_of_find?_eq_some found)) (List.find?_some found)
          rw [String.le_antisymm below above]

/-- What is sorted by names is in the order of the names. -/
theorem pairwise_mergeSort_names {α : Type} (name : α → String) (items : List α) :
    (items.mergeSort fun first second => decide (name first ≤ name second)).Pairwise
      fun first second => name first ≤ name second := by
  have transitive (first second third : α) (below : decide (name first ≤ name second) = true)
      (above : decide (name second ≤ name third) = true) :
      decide (name first ≤ name third) = true :=
    decide_eq_true (String.le_trans (of_decide_eq_true below) (of_decide_eq_true above))
  have total (first second : α) :
      (decide (name first ≤ name second) || decide (name second ≤ name first)) = true := by
    simpa using String.le_total (name first) (name second)
  exact (List.pairwise_mergeSort transitive total _).imp of_decide_eq_true

namespace FileTree

/-- Two trees have files and directories at the same places, and the same working directory. -/
structure SameShape (tree other : FileTree) : Prop where
  working : other.working = tree.working
  present : ∀ components, (other.find? components).isSome = (tree.find? components).isSome
  directory : ∀ components, other.isDirectoryAt components = tree.isDirectoryAt components

theorem isSome_find?_iff (tree : FileTree) (components : List String) :
    (tree.find? components).isSome = true ↔ ∃ entry, (components, entry) ∈ tree.entries := by
  unfold find?
  induction tree.entries with
  | nil => simp
  | cons known rest ih =>
      obtain ⟨place, held⟩ := known
      by_cases here : components = place
      · simp [here]
      · simp [List.lookup_cons, beq_false_of_ne here, here, ih]

/-- The names in a directory, in order. -/
def namesIn (tree : FileTree) (components : List String) : List String :=
  (tree.entries.filterMap fun (known, _) =>
    if known.length = components.length + 1 && known.take components.length = components then
      known.getLast?
    else none).mergeSort fun first second => decide (first ≤ second)

theorem list_eq (tree : FileTree) (path : String) :
    tree.list path =
      match tree.locate path with
      | .error reason => .error reason
      | .ok components =>
          if tree.isDirectoryAt components then .ok (tree.namesIn components)
          else .error .notDirectory := by
  rw [FileTree.list]
  cases tree.locate path with
  | error reason => rfl
  | ok components =>
      change (if !tree.isDirectoryAt components then _ else _) = _
      dsimp only
      cases tree.isDirectoryAt components <;> rfl

theorem pairwise_namesIn (tree : FileTree) (components : List String) :
    (tree.namesIn components).Pairwise (· ≤ ·) :=
  pairwise_mergeSort_names id _

theorem mem_namesIn {tree : FileTree} {components : List String} {name : String} :
    name ∈ tree.namesIn components ↔
      ∃ place, (tree.find? place).isSome = true ∧ place.length = components.length + 1 ∧
        place.take components.length = components ∧ place.getLast? = some name := by
  simp only [namesIn, List.mem_mergeSort, List.mem_filterMap, isSome_find?_iff]
  constructor
  · rintro ⟨⟨place, entry⟩, member, named⟩
    split at named
    · rename_i below
      rw [Bool.and_eq_true, decide_eq_true_eq, decide_eq_true_eq] at below
      exact ⟨place, ⟨entry, member⟩, below.1, below.2, named⟩
    · cases named
  · rintro ⟨place, ⟨entry, member⟩, length, below, named⟩
    exact ⟨(place, entry), member, by simp [length, below, named]⟩

namespace SameShape

variable {tree other : FileTree}

theorem follow (same : SameShape tree other) (current pieces : List String) :
    other.follow current pieces = tree.follow current pieces := by
  induction pieces generalizing current with
  | nil => rfl
  | cons piece rest ih =>
      simp only [FileTree.follow, same.directory, same.present, ih]

theorem locate (same : SameShape tree other) (path : String) :
    other.locate path = tree.locate path := by
  simp only [FileTree.locate, FileTree.start, same.working, same.follow]

theorem isFile (same : SameShape tree other) : other.isFile = tree.isFile := by
  funext path
  simp only [FileTree.isFile, same.locate, same.directory]

theorem isDirectory (same : SameShape tree other) (path : String) :
    other.isDirectory path = tree.isDirectory path := by
  simp only [FileTree.isDirectory, same.locate, same.directory]

/-- The first name of a kind in a directory is the same. -/
theorem find?_namesIn (same : SameShape tree other) (components : List String)
    (kind : String → Bool) :
    (other.namesIn components).find? kind = (tree.namesIn components).find? kind := by
  refine find?_eq_of_sorted kind (pairwise_namesIn _ _) (pairwise_namesIn _ _) fun name => ?_
  simp only [mem_namesIn, same.present]

end SameShape

end FileTree

/-- A search among the candidates is a search among the names. -/
theorem exists_find?_candidates (start path : String → Bool) (join : String → String)
    (kind : String → Bool) :
    ∃ test, ∀ names : List String,
      (((names.filter start).map join).filter path).find? kind = (names.find? test).map join := by
  refine ⟨fun name => start name && (path (join name) && kind (join name)), fun names => ?_⟩
  rw [List.find?_filter, List.find?_map, List.find?_filter]
  congr 2
  funext name
  simp

theorem head?_eq_find? {α : Type} (items : List α) :
    items.head? = items.find? fun _ => true := by
  cases items <;> rfl

theorem candidate?_of_sameShape {tree other : FileTree} (same : tree.SameShape other)
    (settings : FileSettings) (directory start : String) :
    candidate? settings other directory start = candidate? settings tree directory start := by
  unfold candidate?
  rw [FileTree.list_eq, FileTree.list_eq, same.locate]
  cases tree.locate directory with
  | error reason => rfl
  | ok components =>
      dsimp only
      rw [same.directory]
      cases tree.isDirectoryAt components with
      | false => rfl
      | true =>
          rw [if_pos rfl, if_pos rfl]
          dsimp only
          rw [same.isFile]
          have first (kind : String → Bool) :
              ((((other.namesIn components).filter fun name =>
                  start.toList.isPrefixOf name.toList).map (Path.join directory)).filter
                tree.isFile).find? kind =
              ((((tree.namesIn components).filter fun name =>
                  start.toList.isPrefixOf name.toList).map (Path.join directory)).filter
                tree.isFile).find? kind := by
            obtain ⟨test, found⟩ := exists_find?_candidates
              (fun name => start.toList.isPrefixOf name.toList) tree.isFile (Path.join directory) kind
            rw [found, found, same.find?_namesIn]
          rw [head?_eq_find?, head?_eq_find?, first]
          cases settings.preferredExtension with
          | none => rfl
          | some extension => simp only [first]

/-- Names stand for the same files. -/
theorem resolve?_of_sameShape {tree other : FileTree} (same : tree.SameShape other)
    (settings : FileSettings) (name : String) :
    resolve? settings other name = resolve? settings tree name := by
  unfold resolve?
  simp only [same.isDirectory, same.isFile, candidate?_of_sameShape same]

/-! ## Rewriting -/

namespace FileTree

/-- Files have been rewritten: what is found under a path is as it was, or it has been modified
at a later time. -/
structure Rewritten (tree after : FileTree) : Prop where
  shape : SameShape tree after
  newer : ∀ path,
    (after.modified path = tree.modified path ∧ after.readText path = tree.readText path) ∨
      ∃ modified modifiedAfter, tree.modified path = .ok modified ∧
        after.modified path = .ok modifiedAfter ∧
        modified.nanoseconds < modifiedAfter.nanoseconds

theorem Rewritten.refl (tree : FileTree) : Rewritten tree tree :=
  ⟨⟨rfl, fun _ => rfl, fun _ => rfl⟩, fun _ => .inl ⟨rfl, rfl⟩⟩

theorem modified_eq (tree : FileTree) (path : String) :
    tree.modified path =
      (tree.locate path).map fun place => (tree.find? place).elim ⟨0⟩ FileEntry.modified := by
  rw [FileTree.modified]
  cases tree.locate path <;> rfl

theorem readText_eq_of_find? {tree other : FileTree} {path : String}
    (located : other.locate path = tree.locate path)
    (found : ∀ place, tree.locate path = .ok place → other.find? place = tree.find? place) :
    other.readText path = tree.readText path := by
  have same : other.read path = tree.read path := by
    rw [FileTree.read, FileTree.read, located]
    cases located : tree.locate path with
    | error reason => rfl
    | ok place =>
        simp only [bind, Except.bind, found place located]
  rw [FileTree.readText, FileTree.readText, same]

/-- A text that is read is the text of a file in the tree. -/
theorem exists_file_of_readText {tree : FileTree} {path text : String}
    (read : tree.readText path = .ok text) :
    ∃ place bytes modified, tree.locate path = .ok place ∧
      tree.find? place = some (.file bytes modified) ∧ Text.decode? bytes = some text := by
  obtain ⟨bytes, readBytes, decoded⟩ := Outcome.bind_eq_ok_iff.1 read
  obtain ⟨place, located, found⟩ := Outcome.bind_eq_ok_iff.1 readBytes
  cases there : tree.find? place with
  | none =>
      simp only [there] at found
      cases found
  | some entry =>
  cases entry with
  | directory modified =>
      simp only [there] at found
      cases found
  | file held modified =>
      simp only [there] at found
      cases found
      refine ⟨place, bytes, modified, located, there, ?_⟩
      cases isDecoded : Text.decode? bytes with
      | none =>
          simp only [isDecoded] at decoded
          cases decoded
      | some decodedText =>
          simp only [isDecoded] at decoded
          cases decoded
          rfl

variable {tree : FileTree} {place : List String} {bytes before : List UInt8}
  {modified modifiedBefore : Instant}

theorem sameShape_put (found : tree.find? place = some (.file before modifiedBefore)) :
    SameShape tree (tree.put place (.file bytes modified)) := by
  refine ⟨rfl, fun components => ?_, fun components => ?_⟩
  · by_cases here : components = place
    · rw [here, find?_put_self, found]
      rfl
    · rw [find?_put_of_ne _ _ here]
  · rw [isDirectoryAt, isDirectoryAt]
    by_cases here : components = place
    · rw [here, find?_put_self, found]
    · rw [find?_put_of_ne _ _ here]

/-- A file is rewritten at a later time. -/
theorem rewritten_put (found : tree.find? place = some (.file before modifiedBefore))
    (later : modifiedBefore.nanoseconds < modified.nanoseconds) :
    Rewritten tree (tree.put place (.file bytes modified)) := by
  have shape : SameShape tree (tree.put place (.file bytes modified)) := sameShape_put found
  refine ⟨shape, fun path => ?_⟩
  by_cases here : tree.locate path = .ok place
  · refine .inr ⟨modifiedBefore, modified, ?_, ?_, later⟩
    · rw [modified_eq, here]
      simp [Except.map, found, FileEntry.modified]
    · rw [modified_eq, shape.locate, here]
      simp [Except.map, FileEntry.modified]
  · have elsewhere (components : List String) (located : tree.locate path = .ok components) :
        (tree.put place (.file bytes modified)).find? components = tree.find? components := by
      refine find?_put_of_ne _ _ ?_
      rintro rfl
      exact here located
    refine .inl ⟨?_, readText_eq_of_find? (shape.locate path) elsewhere⟩
    rw [modified_eq, modified_eq, shape.locate]
    cases located : tree.locate path with
    | error reason => rfl
    | ok components =>
        simp only [Except.map]
        rw [elsewhere components located]

end FileTree

end DocumentHost
