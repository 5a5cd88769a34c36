import DocumentHost.Files.Tree
import DocumentHost.Proofs.Files.Pieces
import DocumentHost.Proofs.Outcome

/-!
# Where paths lead

The names of a path are its pieces without those that name the directory they stand in.  A path
that leads to a directory leads there by its names alone; names behind a directory lead below it
unless one of them is that of the directory above.
-/

namespace DocumentHost

namespace Path

/-! ## The names of a path -/

/-- The pieces of a path without the trivial ones. -/
def names (path : String) : List String :=
  (pieces path).filter fun piece => !isTrivial piece

theorem mem_names {path name : String} :
    name ∈ names path ↔ name ∈ pieces path ∧ isTrivial name = false := by
  simp [names]

theorem mem_names_parent {path : String} : ".." ∈ names path ↔ ".." ∈ pieces path := by
  rw [mem_names, and_iff_left (by decide)]

@[simp]
theorem names_append_slash (front behind : String) :
    names (front ++ "/" ++ behind) = names front ++ names behind := by
  simp [names, pieces_append_slash]

@[simp]
theorem names_empty : names "" = [] := by
  rw [names, pieces_of_not_mem (by simp)]
  rfl

theorem endsWith_slash_iff {path : String} :
    path.endsWith "/" = true ↔ ∃ front, path = front ++ "/" := by
  rw [String.endsWith_eq_endsWith_toSlice, String.Slice.endsWith_string_iff,
    String.copy_toSlice]
  constructor
  · rintro ⟨front, split⟩
    exact ⟨String.ofList front, String.toList_injective (by simpa using split.symm)⟩
  · rintro ⟨front, rfl⟩
    exact ⟨front.toList, by simp⟩

/-- A relative path seen from a directory stands behind a slash. -/
theorem join_cases {directory relative : String} (isRelative : relative.startsWith "/" = false)
    (some : directory ≠ "") :
    join directory relative = directory ++ "/" ++ relative ∨
      ∃ front, directory = front ++ "/" ∧ join directory relative = front ++ "/" ++ relative := by
  rw [join, if_neg (by simp [isRelative, some])]
  split
  · rename_i ends
    obtain ⟨front, isFront⟩ := endsWith_slash_iff.1 ends
    exact .inr ⟨front, isFront, by rw [isFront]⟩
  · exact .inl rfl

@[simp]
theorem names_slash (front : String) : names (front ++ "/") = names front := by
  have slash := names_append_slash front ""
  rwa [String.append_empty, names_empty, List.append_nil] at slash

theorem join_of_not_endsWith {directory relative : String}
    (isRelative : relative.startsWith "/" = false) (some : directory ≠ "")
    (noSlash : directory.toList.getLast? ≠ Option.some '/') :
    join directory relative = directory ++ "/" ++ relative := by
  obtain joined | ⟨front, rfl, -⟩ := join_cases isRelative some
  · exact joined
  · simp at noSlash

/-- In front of the slash before a relative path there are the names of the directory. -/
theorem join_eq_append {directory relative : String}
    (isRelative : relative.startsWith "/" = false) (some : directory ≠ "") :
    ∃ front, join directory relative = front ++ "/" ++ relative ∧
      names front = names directory := by
  obtain joined | ⟨front, rfl, joined⟩ := join_cases isRelative some
  · exact ⟨directory, joined, rfl⟩
  · exact ⟨front, joined, (names_slash front).symm⟩

theorem names_join {directory relative : String} (isRelative : relative.startsWith "/" = false)
    (some : directory ≠ "") :
    names (join directory relative) = names directory ++ names relative := by
  obtain ⟨front, joined, sameNames⟩ := join_eq_append isRelative some
  rw [joined, names_append_slash, sameNames]

/-! ## The last name -/

/-- Behind the last name there are only trivial pieces. -/
theorem trimmed_of_names {path last : String} {front : List String}
    (names : names path = front ++ [last]) :
    ∃ before, trimmed (pieces path) = before ++ [last] ∧
      before.filter (fun piece => !isTrivial piece) = front := by
  have reversed : (pieces path).reverse.filter (fun piece => !isTrivial piece) =
      last :: front.reverse := by
    rw [List.filter_reverse, ← Path.names, names, List.reverse_append]
    rfl
  obtain ⟨trivials, before, split, trivial, proper, kept⟩ := List.filter_eq_cons_iff.1 reversed
  refine ⟨before.reverse, ?_, ?_⟩
  · have isTrivial : ∀ piece ∈ trivials, isTrivial piece = true := by
      intro piece member
      simpa using trivial piece member
    rw [trimmed, split, List.dropWhile_append_of_pos isTrivial,
      List.dropWhile_cons_of_neg (by simpa using proper), List.reverse_cons]
  · rw [List.filter_reverse, kept, List.reverse_reverse]

theorem fileName?_of_names {path last : String} {front : List String}
    (names : names path = front ++ [last]) (proper : last ≠ "..") :
    fileName? path = some last := by
  obtain ⟨before, trimmed, -⟩ := trimmed_of_names names
  rw [fileName?, trimmed, List.getLast?_concat]
  exact if_neg proper

theorem isTrivial_of_names_eq_nil {path part : String} (noNames : names path = [])
    (member : part ∈ pieces path) : isTrivial part = true := by
  simpa using List.filter_eq_nil_iff.1 noNames part member

theorem trimmed_append_of_trivial {parts trivials : List String}
    (trivial : ∀ part ∈ trivials, isTrivial part = true) :
    trimmed (parts ++ trivials) = trimmed parts := by
  rw [trimmed, List.reverse_append, List.dropWhile_append_of_pos, trimmed]
  exact fun part member => trivial part (List.mem_reverse.1 member)

theorem filter_trimmed (parts : List String) :
    (trimmed parts).filter (fun piece => !isTrivial piece) =
      parts.filter fun piece => !isTrivial piece := by
  have dropped (reversed : List String) :
      (reversed.dropWhile isTrivial).filter (fun piece => !isTrivial piece) =
        reversed.filter fun piece => !isTrivial piece := by
    induction reversed with
    | nil => rfl
    | cons piece rest ih =>
        cases trivial : isTrivial piece <;> simp [trivial, ih]
  rw [trimmed, List.filter_reverse, dropped, List.filter_reverse, List.reverse_reverse]

theorem filter_trimmedBehindFirst (parts : List String) :
    (trimmedBehindFirst parts).filter (fun piece => !isTrivial piece) =
      parts.filter fun piece => !isTrivial piece := by
  cases parts with
  | nil => rfl
  | cons first rest =>
      have kept := filter_trimmed rest
      rw [trimmedBehindFirst]
      cases trimmedRest : trimmed rest <;>
        rw [trimmedRest] at kept <;> simp [List.filter_cons, ← kept]

theorem isPrefix_trimmed (parts : List String) : trimmed parts <+: parts := by
  rw [trimmed, ← List.reverse_suffix, List.reverse_reverse]
  exact List.dropWhile_suffix _

theorem isPrefix_trimmedBehindFirst (parts : List String) : trimmedBehindFirst parts <+: parts := by
  cases parts with
  | nil => exact List.prefix_refl _
  | cons first rest =>
      rw [trimmedBehindFirst]
      split
      · exact (List.cons_prefix_cons).2 ⟨rfl, List.nil_prefix⟩
      · exact (List.cons_prefix_cons).2 ⟨rfl, isPrefix_trimmed rest⟩

/-- The names in front of the last one are those of the directory. -/
theorem names_parent {path last : String} {front : List String}
    (names : names path = front ++ [last]) : Path.names (parent path) = front := by
  obtain ⟨before, trimmed, kept⟩ := trimmed_of_names names
  rw [parent, trimmed, List.dropLast_concat]
  rw [← filter_trimmedBehindFirst before] at kept
  split
  · rename_i root
    have rootNames : Path.names "/" = [] := by
      rw [Path.names, pieces_eq]
      decide
    rw [← kept, root, rootNames]
    rfl
  · rw [← kept]
    have noSlash : ∀ part ∈ trimmedBehindFirst before, '/' ∉ part.toList := by
      intro part member
      have inTrimmed : part ∈ Path.trimmed (pieces path) :=
        trimmed ▸ List.mem_append_left _ ((isPrefix_trimmedBehindFirst before).subset member)
      exact not_mem_of_mem_pieces ((isPrefix_trimmed _).subset inTrimmed)
    by_cases nothing : trimmedBehindFirst before = []
    · rw [nothing, String.intercalate_nil, names_empty]
      rfl
    · rw [Path.names, pieces_intercalate noSlash nothing]

/-- What names nothing does not matter for the directory in front of the last name. -/
theorem parent_append_of_names_eq_nil {front behind : String} (noNames : names behind = []) :
    parent (front ++ "/" ++ behind) = parent front := by
  rw [parent, pieces_append_slash,
    trimmed_append_of_trivial fun part => isTrivial_of_names_eq_nil noNames, parent]

/-! ## Where a path starts -/

/-- A path begins with a slash if its first piece is empty and not the only one. -/
theorem startsWith_slash_iff {path : String} :
    path.startsWith "/" = true ↔ ∃ rest, rest ≠ [] ∧ pieces path = "" :: rest := by
  rw [String.startsWith_string_iff]
  constructor
  · rintro ⟨rest, split⟩
    have whole : path = "" ++ "/" ++ String.ofList rest :=
      String.toList_injective (by simpa using split.symm)
    refine ⟨pieces (String.ofList rest), pieces_ne_nil _, ?_⟩
    rw [whole, pieces_append_slash, pieces_of_not_mem (by simp)]
    rfl
  · rintro ⟨rest, some, split⟩
    obtain ⟨next, others, rfl⟩ := List.exists_cons_of_ne_nil some
    rw [← intercalate_pieces path, split, String.intercalate_cons_cons]
    simp

theorem startsWith_join {directory relative : String}
    (isRelative : relative.startsWith "/" = false) (some : directory ≠ "") :
    (join directory relative).startsWith "/" = directory.startsWith "/" := by
  have begins : ∃ rest, join directory relative = directory ++ rest := by
    obtain joined | ⟨front, isFront, joined⟩ := join_cases isRelative some
    · exact ⟨"/" ++ relative, by rw [joined, String.append_assoc]⟩
    · exact ⟨relative, by rw [joined, isFront]⟩
  obtain ⟨rest, joined⟩ := begins
  rw [Bool.eq_iff_iff, String.startsWith_string_iff, String.startsWith_string_iff, joined]
  have slash : "/".toList = ['/'] := rfl
  obtain ⟨first, others, split⟩ :=
    List.exists_cons_of_ne_nil (l := directory.toList) (by simpa using some)
  simp [split, slash]

/-- The directory of a path that has a name ends somewhere in front of its last name, and is the
root only if the path begins there. -/
theorem parent_cases {path last : String} {front : List String}
    (names : names path = front ++ [last]) :
    parent path = "" ∨ (parent path = "/" ∧ path.startsWith "/" = true) ∨
      ∃ more, more ≠ [] ∧ pieces path = pieces (parent path) ++ more := by
  obtain ⟨before, trimmed, -⟩ := trimmed_of_names names
  obtain ⟨behind, whole⟩ := isPrefix_trimmed (pieces path)
  obtain ⟨dropped, isBefore⟩ := isPrefix_trimmedBehindFirst before
  rw [trimmed, ← isBefore, List.append_assoc, List.append_assoc] at whole
  rw [parent, trimmed, List.dropLast_concat]
  split
  · rename_i root
    rw [root] at whole
    exact .inr (.inl ⟨rfl, startsWith_slash_iff.2 ⟨_, by simp, whole.symm⟩⟩)
  · by_cases nothing : trimmedBehindFirst before = []
    · exact .inl (by rw [nothing, String.intercalate_nil])
    · have noSlash : ∀ part ∈ trimmedBehindFirst before, '/' ∉ part.toList := fun part member =>
        not_mem_of_mem_pieces (whole ▸ List.mem_append_left _ member)
      rw [pieces_intercalate noSlash nothing]
      exact .inr (.inr ⟨_, by simp, whole.symm⟩)

/-- The directory of a path begins where the path does, unless it has no name. -/
theorem startsWith_parent {path last : String} {front : List String}
    (names : names path = front ++ [last]) (some : parent path ≠ "") :
    (parent path).startsWith "/" = path.startsWith "/" := by
  obtain none | ⟨root, begins⟩ | ⟨more, others, whole⟩ := parent_cases names
  · exact absurd none some
  · rw [begins, root, startsWith_slash_iff]
    exact ⟨[""], by simp, by rw [pieces_eq]; decide⟩
  · rw [Bool.eq_iff_iff, startsWith_slash_iff, startsWith_slash_iff, whole]
    constructor
    · rintro ⟨rest, -, split⟩
      exact ⟨rest ++ more, by simp [others], by rw [split]; rfl⟩
    · rintro ⟨rest, -, split⟩
      cases isParent : pieces (parent path) with
      | nil => exact absurd isParent (pieces_ne_nil _)
      | cons first kept =>
          rw [isParent] at split
          obtain rfl : first = "" := (List.cons.inj split).1
          refine ⟨kept, fun none => some ?_, rfl⟩
          rw [← intercalate_pieces (parent path), isParent, none, String.intercalate_singleton]

/-- The directory of a path is the beginning of the path. -/
theorem exists_eq_parent_append {path last : String} {front : List String}
    (names : names path = front ++ [last]) : ∃ behind, path = parent path ++ behind := by
  obtain none | ⟨root, begins⟩ | ⟨more, others, whole⟩ := parent_cases names
  · exact ⟨path, by rw [none, String.empty_append]⟩
  · obtain ⟨rest, split⟩ := String.startsWith_string_iff.1 begins
    exact ⟨String.ofList rest, String.toList_injective (by simpa [root] using split.symm)⟩
  · refine ⟨"/" ++ "/".intercalate more, ?_⟩
    have noSlash : ∀ part ∈ more, '/' ∉ part.toList := fun part member =>
      not_mem_of_mem_pieces (whole ▸ List.mem_append_right _ member)
    have same : pieces (parent path ++ "/" ++ "/".intercalate more) = pieces path := by
      rw [pieces_append_slash, pieces_intercalate noSlash others, whole]
    rw [← String.append_assoc, ← intercalate_pieces (_ ++ _), same, intercalate_pieces]

end Path

/-! ## Following pieces -/

namespace FileTree

/-- One piece leads from a directory to a place. -/
inductive Leads (tree : FileTree) (current : List String) (piece : String) : List String → Prop
  | stay (trivial : Path.isTrivial piece = true) : Leads tree current piece current
  | up (parent : piece = "..") : Leads tree current piece current.dropLast
  | down (proper : isPlace piece = false) (short : piece.utf8ByteSize ≤ nameLimit)
      (known : (tree.find? (current ++ [piece])).isSome = true) :
      Leads tree current piece (current ++ [piece])

variable {tree : FileTree} {current place : List String} {parts : List String}

theorem leads_iff_of_trivial {piece : String} {next : List String}
    (trivial : Path.isTrivial piece = true) : tree.Leads current piece next ↔ next = current := by
  constructor
  · rintro (_ | parent | ⟨proper, -, -⟩)
    · rfl
    · rw [parent] at trivial
      exact absurd trivial (by decide)
    · simp [isPlace, trivial] at proper
  · rintro rfl
    exact .stay trivial

theorem leads_parent_iff {next : List String} :
    tree.Leads current ".." next ↔ next = current.dropLast := by
  constructor
  · rintro (trivial | - | ⟨proper, -, -⟩)
    · exact absurd trivial (by decide)
    · rfl
    · exact absurd proper (by decide)
  · rintro rfl
    exact .up rfl

/-- A proper name leads below a directory if the tree has an entry there. -/
theorem leads_iff_of_proper {piece : String} {next : List String}
    (proper : isPlace piece = false) : tree.Leads current piece next ↔
      next = current ++ [piece] ∧ piece.utf8ByteSize ≤ nameLimit ∧
        (tree.find? (current ++ [piece])).isSome = true := by
  constructor
  · rintro (trivial | parent | ⟨-, short, known⟩)
    · simp [isPlace, trivial] at proper
    · simp [isPlace, parent] at proper
    · exact ⟨rfl, short, known⟩
  · rintro ⟨rfl, short, known⟩
    exact .down proper short known

theorem follow_cons_eq_ok_iff {piece : String} :
    tree.follow current (piece :: parts) = .ok place ↔
      tree.isDirectoryAt current = true ∧
        ∃ next, tree.Leads current piece next ∧ tree.follow next parts = .ok place := by
  rw [follow]
  cases tree.isDirectoryAt current with
  | false => simp
  | true =>
  rw [if_neg (by decide), and_iff_right rfl]
  by_cases trivial : Path.isTrivial piece = true
  · rw [if_pos trivial]
    simp only [leads_iff_of_trivial trivial, exists_eq_left]
  rw [if_neg trivial]
  by_cases parent : piece = ".."
  · rw [if_pos parent, parent]
    simp only [leads_parent_iff, exists_eq_left]
  · have proper : isPlace piece = false := by simp [isPlace, trivial, parent]
    rw [if_neg parent, Outcome.bind_eq_ok_iff]
    simp only [leads_iff_of_proper proper, and_assoc, exists_eq_left]
    constructor
    · rintro ⟨_, short, followed⟩
      unfold ensureShort at short
      split at short
      · cases short
      · rename_i long
        split at followed
        · rename_i known
          exact ⟨Nat.not_lt.1 long, known, followed⟩
        · cases followed
    · rintro ⟨short, known, followed⟩
      exact ⟨(), if_neg (Nat.not_lt.2 short), (if_pos known).trans followed⟩

theorem follow_append_eq_ok_iff {front behind : List String} :
    tree.follow current (front ++ behind) = .ok place ↔
      ∃ between, tree.follow current front = .ok between ∧
        tree.follow between behind = .ok place := by
  induction front generalizing current with
  | nil => simp [follow]
  | cons piece front ih =>
      simp only [List.cons_append, follow_cons_eq_ok_iff, ih]
      constructor
      · rintro ⟨directory, next, leads, between, first, second⟩
        exact ⟨between, ⟨directory, next, leads, first⟩, second⟩
      · rintro ⟨between, ⟨directory, next, leads, first⟩, second⟩
        exact ⟨directory, next, leads, between, first, second⟩

/-- What leads to a directory starts in a directory. -/
theorem isDirectoryAt_of_follow (followed : tree.follow current parts = .ok place)
    (directory : tree.isDirectoryAt place = true) : tree.isDirectoryAt current = true := by
  cases parts with
  | nil =>
      cases followed
      exact directory
  | cons piece rest => exact (follow_cons_eq_ok_iff.1 followed).1

/-- Trivial pieces can be left out. -/
theorem follow_filter (followed : tree.follow current parts = .ok place) :
    tree.follow current (parts.filter fun piece => !Path.isTrivial piece) = .ok place := by
  induction parts generalizing current with
  | nil => exact followed
  | cons piece rest ih =>
      obtain ⟨directory, next, leads, behind⟩ := follow_cons_eq_ok_iff.1 followed
      cases trivial : Path.isTrivial piece with
      | true =>
          obtain rfl := (leads_iff_of_trivial trivial).1 leads
          simpa [trivial] using ih behind
      | false =>
          rw [List.filter_cons_of_pos (by simp [trivial])]
          exact follow_cons_eq_ok_iff.2 ⟨directory, next, leads, ih behind⟩

/-- Trivial pieces can be added on the way to a directory. -/
theorem follow_of_filter
    (followed : tree.follow current (parts.filter fun piece => !Path.isTrivial piece) = .ok place)
    (directory : tree.isDirectoryAt place = true) : tree.follow current parts = .ok place := by
  induction parts generalizing current with
  | nil => exact followed
  | cons piece rest ih =>
      cases trivial : Path.isTrivial piece with
      | true =>
          rw [List.filter_cons_of_neg (by simp [trivial])] at followed
          exact follow_cons_eq_ok_iff.2
            ⟨isDirectoryAt_of_follow followed directory, current, .stay trivial, ih followed⟩
      | false =>
          rw [List.filter_cons_of_pos (by simp [trivial])] at followed
          obtain ⟨starts, next, leads, behind⟩ := follow_cons_eq_ok_iff.1 followed
          exact follow_cons_eq_ok_iff.2 ⟨starts, next, leads, ih behind⟩

/-- Names lead below the place they are followed from, unless one is that of the directory
above. -/
theorem eq_append_of_follow (followed : tree.follow current parts = .ok place)
    (proper : ∀ part ∈ parts, isPlace part = false) : place = current ++ parts := by
  induction parts generalizing current with
  | nil =>
      cases followed
      exact (List.append_nil _).symm
  | cons piece rest ih =>
      obtain ⟨-, next, leads, behind⟩ := follow_cons_eq_ok_iff.1 followed
      have isProper := proper piece List.mem_cons_self
      have further := ih behind fun part member => proper part (List.mem_cons_of_mem _ member)
      obtain trivial | parent | ⟨-, -, -⟩ := leads
      · simp [isPlace, trivial] at isProper
      · simp [isPlace, parent] at isProper
      · simpa using further

theorem follow_singleton_eq_ok_iff {piece : String} (proper : isPlace piece = false) :
    tree.follow current [piece] = .ok place ↔
      tree.isDirectoryAt current = true ∧ place = current ++ [piece] ∧
        piece.utf8ByteSize ≤ nameLimit ∧ (tree.find? (current ++ [piece])).isSome = true := by
  rw [follow_cons_eq_ok_iff]
  constructor
  · rintro ⟨directory, next, leads, followed⟩
    cases followed
    exact ⟨directory, (leads_iff_of_proper proper).1 leads⟩
  · rintro ⟨directory, leads⟩
    exact ⟨directory, place, (leads_iff_of_proper proper).2 leads, rfl⟩

/-- What is found behind names is in the tree. -/
theorem known_of_follow (followed : tree.follow current parts = .ok place)
    (proper : ∀ part ∈ parts, isPlace part = false) (some : parts ≠ []) :
    (tree.find? place).isSome = true := by
  obtain ⟨front, last, rfl⟩ := (List.eq_nil_or_concat' parts).resolve_left some
  obtain ⟨between, -, behind⟩ := follow_append_eq_ok_iff.1 followed
  obtain ⟨-, rfl, -, known⟩ := (follow_singleton_eq_ok_iff (proper last (by simp))).1 behind
  exact known

/-! ## Locating paths -/

theorem start_of_startsWith {path other : String}
    (same : path.startsWith "/" = other.startsWith "/") : tree.start path = tree.start other := by
  rw [start, start, same]

theorem locate_eq_ok_iff {path : String} :
    tree.locate path = .ok place ↔
      ensureUsable path = .ok () ∧
        tree.follow (tree.start path) (Path.pieces path) = .ok place := by
  rw [locate, Outcome.bind_eq_ok_iff]
  constructor
  · rintro ⟨⟨⟩, usable, followed⟩
    exact ⟨usable, followed⟩
  · rintro ⟨usable, followed⟩
    exact ⟨(), usable, followed⟩

theorem ensureUsable_eq_ok_iff {path : String} :
    ensureUsable path = .ok () ↔
      '\x00' ∉ path.toList ∧ path.utf8ByteSize ≤ pathLimit ∧ path ≠ "" := by
  unfold ensureUsable
  by_cases null : '\x00' ∈ path.toList
  · simp [null]
  by_cases long : pathLimit < path.utf8ByteSize
  · simp [null, long]
  by_cases empty : path = "" <;> simp [null, long, empty, Nat.le_of_not_lt]

end FileTree

end DocumentHost
