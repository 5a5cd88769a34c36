import DocumentHost.Proofs.Files.Following
import DocumentHost.Proofs.Files.Rewriting
import DocumentHost.Proofs.Host.Evaluation
import DocumentHost.Host.Source

/-!
# Which file a name stands for

A name without the directory above in it stands for a file below the base directory, or for
none: the file that the name leads to, or else the chosen one among the files of the directory
that it leads to, or else among the files beside it.  The choice is by extension and name, so it
does not matter in which order a directory lists its entries.
-/

namespace DocumentHost

open DocumentHost.Path

/-! ## Names relative to the base directory -/

theorem names_relativeName (name : String) : names (relativeName name) = names name := by
  have slash (rest : List Char) :
      names (String.ofList ('/' :: rest)) = names (String.ofList rest) := by
    have split : String.ofList ('/' :: rest) = "" ++ "/" ++ String.ofList rest :=
      String.toList_injective (by simp)
    rw [split, names_append_slash, names_empty, List.nil_append]
  have dropped (characters : List Char) :
      names (String.ofList (characters.dropWhile (· = '/'))) = names (String.ofList characters) := by
    induction characters with
    | nil => rfl
    | cons character rest ih =>
        by_cases isSlash : character = '/'
        · rw [List.dropWhile_cons_of_pos (by simp [isSlash]), ih, isSlash, slash]
        · rw [List.dropWhile_cons_of_neg (by simp [isSlash])]
  rw [relativeName, dropped, String.ofList_toList]

theorem startsWith_slash_eq_false_iff {path : String} :
    path.startsWith "/" = false ↔ path.toList.head? ≠ some '/' := by
  rw [String.startsWith_string_eq_false_iff]
  cases path.toList with
  | nil => simp
  | cons first rest => simp [eq_comm]

theorem relativeName_isRelative (name : String) :
    (relativeName name).startsWith "/" = false := by
  rw [startsWith_slash_eq_false_iff, relativeName, String.toList_ofList]
  intro first
  have fails := List.head?_dropWhile_not (· = '/') name.toList
  simp [first] at fails

namespace FileTree

/-- A name that a directory can hold. -/
structure IsName (name : String) : Prop where
  proper : isPlace name = false
  noSlash : '/' ∉ name.toList
  noNull : '\x00' ∉ name.toList
  short : name.utf8ByteSize ≤ nameLimit

instance : DecidablePred IsName := fun name =>
  decidable_of_iff
    (isPlace name = false ∧ '/' ∉ name.toList ∧ '\x00' ∉ name.toList ∧
      name.utf8ByteSize ≤ nameLimit)
    ⟨fun ⟨proper, noSlash, noNull, short⟩ => ⟨proper, noSlash, noNull, short⟩,
      fun ⟨proper, noSlash, noNull, short⟩ => ⟨proper, noSlash, noNull, short⟩⟩

/-- A tree has at most one entry at each place, and under proper names only. -/
structure Proper (tree : FileTree) : Prop where
  names : ∀ known ∈ tree.entries, ∀ name ∈ known.1, IsName name
  once : (tree.entries.map Prod.fst).Nodup

/-- A path leads to a directory at a place. -/
def Opens (tree : FileTree) (path : String) (place : List String) : Prop :=
  tree.locate path = .ok place ∧ tree.isDirectoryAt place = true

/-- The tree has a file at a place. -/
def HasFile (tree : FileTree) (place : List String) : Prop :=
  ∃ bytes modified, tree.find? place = some (.file bytes modified)

variable {tree : FileTree} {path directory name start result : String}
  {base place there : List String} {settings : FileSettings}

theorem isDirectory_iff : tree.isDirectory path = true ↔ ∃ place, tree.Opens path place := by
  rw [isDirectory]
  unfold Opens
  cases tree.locate path <;> simp

theorem isFile_iff : tree.isFile path = true ↔
    ∃ place, tree.locate path = .ok place ∧ tree.isDirectoryAt place = false := by
  rw [isFile]
  cases tree.locate path <;> simp

theorem opens_iff : tree.Opens path place ↔
    ensureUsable path = .ok () ∧ tree.follow (tree.start path) (names path) = .ok place ∧
      tree.isDirectoryAt place = true := by
  rw [Opens, locate_eq_ok_iff, and_assoc]
  constructor
  · rintro ⟨usable, followed, directory⟩
    exact ⟨usable, follow_filter followed, directory⟩
  · rintro ⟨usable, followed, directory⟩
    exact ⟨usable, follow_of_filter followed directory, directory⟩

theorem start_eq : tree.start path =
    if path.toList.head? = some '/' then [] else tree.working := by
  rw [start]
  cases begins : path.startsWith "/" with
  | false =>
      rw [if_neg (by decide), if_neg (startsWith_slash_eq_false_iff.1 begins)]
  | true =>
      have slash : path.toList.head? = some '/' := by
        by_contra noSlash
        rw [startsWith_slash_eq_false_iff.2 noSlash] at begins
        cases begins
      rw [if_pos rfl, if_pos slash]

theorem locate_of_pieces {parts : List String} (found : pieces path = parts)
    (noNull : '\x00' ∉ path.toList) (short : path.utf8ByteSize ≤ pathLimit) (named : path ≠ "")
    (followed : tree.follow (if path.toList.head? = some '/' then [] else tree.working) parts =
      .ok place) : tree.locate path = .ok place := by
  refine locate_eq_ok_iff.2 ⟨ensureUsable_eq_ok_iff.2 ⟨noNull, short, named⟩, ?_⟩
  rw [start_eq, found]
  exact followed

theorem opens_of_pieces {parts : List String} (found : pieces path = parts)
    (noNull : '\x00' ∉ path.toList) (short : path.utf8ByteSize ≤ pathLimit) (named : path ≠ "")
    (followed : tree.follow (if path.toList.head? = some '/' then [] else tree.working) parts =
      .ok place) (directory : tree.isDirectoryAt place = true) : tree.Opens path place :=
  ⟨locate_of_pieces found noNull short named followed, directory⟩

theorem Opens.unique {other : List String} (first : tree.Opens path place)
    (second : tree.Opens path other) : place = other :=
  Except.ok.inj (first.1.symm.trans second.1)

theorem hasFile_iff (some : place ≠ []) : tree.HasFile place ↔
    (tree.find? place).isSome = true ∧ tree.isDirectoryAt place = false := by
  have notRoot : place.isEmpty = false := by simpa using some
  rw [HasFile, isDirectoryAt, notRoot, Bool.false_or]
  rcases tree.find? place with _ | ⟨bytes, modified⟩ | ⟨modified⟩ <;> simp

/-! ## Files of a directory -/

theorem IsName.isRelative (isName : IsName name) : name.startsWith "/" = false := by
  rw [startsWith_slash_eq_false_iff]
  exact fun first => isName.noSlash (List.mem_of_head? first)

/-- A relative path seen from a directory can be used unless it is too long. -/
theorem ensureUsable_join (usable : ensureUsable directory = .ok ())
    (isRelative : name.startsWith "/" = false) (noNull : '\x00' ∉ name.toList) :
    ensureUsable (join directory name) = .ok () ↔
      (join directory name).utf8ByteSize ≤ pathLimit := by
  obtain ⟨directoryNoNull, -, some⟩ := ensureUsable_eq_ok_iff.1 usable
  have begins : ∃ rest, join directory name = directory ++ rest ∧ '\x00' ∉ rest.toList := by
    obtain joined | ⟨front, isFront, joined⟩ := join_cases isRelative some
    · refine ⟨"/" ++ name, by rw [joined, String.append_assoc], ?_⟩
      simpa using noNull
    · exact ⟨name, by rw [joined, isFront], noNull⟩
  obtain ⟨rest, joined, restNoNull⟩ := begins
  rw [ensureUsable_eq_ok_iff, joined, String.toList_append, List.mem_append]
  simp [directoryNoNull, restNoNull, some]

theorem locate_join (opens : tree.Opens directory place) (isName : IsName name) :
    tree.locate (join directory name) = .ok there ↔
      (join directory name).utf8ByteSize ≤ pathLimit ∧ there = place ++ [name] ∧
        (tree.find? (place ++ [name])).isSome = true := by
  obtain ⟨usable, followed, isDirectory⟩ := opens_iff.1 opens
  have some := (ensureUsable_eq_ok_iff.1 usable).2.2
  obtain ⟨front, joined, sameNames⟩ := join_eq_append isName.isRelative some
  rw [locate_eq_ok_iff, ensureUsable_join usable isName.isRelative isName.noNull,
    start_of_startsWith (startsWith_join isName.isRelative some)]
  refine and_congr_right fun _ => ?_
  rw [joined, pieces_append_slash, pieces_of_not_mem isName.noSlash, follow_append_eq_ok_iff]
  simp only [follow_singleton_eq_ok_iff isName.proper]
  constructor
  · rintro ⟨between, first, -, rfl, -, known⟩
    have again := follow_filter first
    rw [← Path.names, sameNames, followed] at again
    obtain rfl := Except.ok.inj again
    exact ⟨rfl, known⟩
  · rintro ⟨rfl, known⟩
    refine ⟨place, follow_of_filter ?_ isDirectory, isDirectory, rfl, isName.short, known⟩
    rw [← Path.names, sameNames, followed]

theorem isFile_join (opens : tree.Opens directory place) (isName : IsName name) :
    tree.isFile (join directory name) = true ↔
      tree.HasFile (place ++ [name]) ∧ (join directory name).utf8ByteSize ≤ pathLimit := by
  rw [isFile_iff, hasFile_iff (by simp)]
  simp only [locate_join opens isName]
  constructor
  · rintro ⟨_, ⟨short, rfl, known⟩, notDirectory⟩
    exact ⟨⟨known, notDirectory⟩, short⟩
  · rintro ⟨⟨known, notDirectory⟩, short⟩
    exact ⟨_, ⟨short, rfl, known⟩, notDirectory⟩

theorem Proper.isName (proper : tree.Proper) (known : (tree.find? (place ++ [name])).isSome = true) :
    IsName name := by
  obtain ⟨entry, member⟩ := (isSome_find?_iff tree _).1 known
  exact proper.names _ member name (by simp)

theorem mem_namesIn_iff :
    name ∈ tree.namesIn place ↔ (tree.find? (place ++ [name])).isSome = true := by
  rw [mem_namesIn]
  constructor
  · rintro ⟨there, known, length, below, last⟩
    have split := List.dropLast_append_getLast? name last
    rw [List.dropLast_eq_take, length, Nat.add_sub_cancel, below] at split
    rwa [split]
  · intro known
    exact ⟨place ++ [name], known, by simp, by simp, by simp⟩

/-! ## The chosen file -/

/-- A file of a directory whose name starts in a given way, and to which there is a path. -/
structure Candidate (tree : FileTree) (directory : String) (place : List String)
    (start name : String) : Prop where
  file : tree.HasFile (place ++ [name])
  starts : start.toList <+: name.toList
  short : (join directory name).utf8ByteSize ≤ pathLimit

/-- A file name has the preferred extension. -/
def Preferred (settings : FileSettings) (name : String) : Prop :=
  ∃ extension, settings.preferredExtension = some extension ∧ HasExtension name extension

/-- The first candidate by name: among those with the preferred extension if there are any. -/
def Chosen (settings : FileSettings) (tree : FileTree) (directory : String)
    (place : List String) (start name : String) : Prop :=
  tree.Candidate directory place start name ∧
    ((Preferred settings name ∧
        ∀ other, tree.Candidate directory place start other → Preferred settings other →
          name ≤ other) ∨
      ∀ other, tree.Candidate directory place start other →
        ¬Preferred settings other ∧ name ≤ other)

/-- In a sorted list the first element of a kind is the least one. -/
theorem find?_eq_some_iff_of_sorted {names : List String} {kind : String → Bool}
    (sorted : names.Pairwise (· ≤ ·)) : names.find? kind = some name ↔
      (name ∈ names ∧ kind name = true) ∧
        ∀ other, other ∈ names ∧ kind other = true → name ≤ other := by
  induction names with
  | nil => simp
  | cons first rest ih =>
      obtain ⟨least, sortedRest⟩ := List.pairwise_cons.1 sorted
      cases fits : kind first with
      | true =>
          rw [List.find?_cons_of_pos fits, Option.some.injEq]
          constructor
          · rintro rfl
            refine ⟨⟨List.mem_cons_self, fits⟩, ?_⟩
            rintro other ⟨member, -⟩
            rcases List.mem_cons.1 member with rfl | later
            · exact String.le_refl _
            · exact least other later
          · rintro ⟨⟨member, -⟩, lowest⟩
            rcases List.mem_cons.1 member with rfl | later
            · rfl
            · exact String.le_antisymm (least name later)
                (lowest first ⟨List.mem_cons_self, fits⟩)
      | false =>
          rw [List.find?_cons_of_neg (by simp [fits]), ih sortedRest]
          have elsewhere (other : String) :
              other ∈ first :: rest ∧ kind other = true ↔ other ∈ rest ∧ kind other = true := by
            refine and_congr_left fun isKind => ?_
            rw [List.mem_cons, or_iff_right]
            rintro rfl
            rw [fits] at isKind
            cases isKind
          simp only [elsewhere]

theorem names_of_isName (isName : IsName name) : Path.names name = [name] := by
  have proper : isTrivial name = false := by
    have isProper := isName.proper
    rw [isPlace, Bool.or_eq_false_iff] at isProper
    exact isProper.1
  rw [Path.names, pieces_of_not_mem isName.noSlash, List.filter_cons_of_pos (by simp [proper])]
  rfl

theorem extension?_join_iff {extension : String} (opens : tree.Opens directory place)
    (isName : IsName name) :
    extension? (join directory name) = some extension ↔ HasExtension name extension := by
  have some := (ensureUsable_eq_ok_iff.1 (opens_iff.1 opens).1).2.2
  have named := names_join isName.isRelative some
  have notParent : name ≠ ".." := by
    rintro rfl
    exact absurd isName.proper (by decide)
  rw [names_of_isName isName] at named
  rw [extension?, fileName?_of_names named notParent, Option.bind_some,
    splitExtension_eq_some_iff]

/-- The files of a directory whose names start in a given way, in the order of their names. -/
def filesStarting (tree : FileTree) (directory : String) (place : List String)
    (start : String) : List String :=
  (((tree.namesIn place).filter fun name => start.toList.isPrefixOf name.toList).map
    (join directory)).filter tree.isFile

theorem candidate?_eq (opens : tree.Opens directory place) :
    candidate? settings tree directory start =
      (settings.preferredExtension.bind fun extension =>
        (tree.filesStarting directory place start).find? fun path =>
          extension? path = some extension).or (tree.filesStarting directory place start).head? := by
  rw [candidate?, list_eq, opens.1]
  dsimp only
  rw [opens.2, if_pos rfl]
  cases settings.preferredExtension <;> rfl

theorem opens_of_candidate? (found : candidate? settings tree directory start = some result) :
    ∃ place, tree.Opens directory place := by
  rw [candidate?, list_eq] at found
  cases located : tree.locate directory with
  | error reason => simp [located] at found
  | ok place =>
      cases isDirectory : tree.isDirectoryAt place with
      | false => simp [located, isDirectory] at found
      | true => exact ⟨place, located, isDirectory⟩

section Choosing

variable (proper : tree.Proper) (opens : tree.Opens directory place) (kind : String → Bool)
include proper opens

theorem candidate_iff : tree.Candidate directory place start name ↔
    name ∈ tree.namesIn place ∧ start.toList.isPrefixOf name.toList = true ∧
      tree.isFile (join directory name) = true := by
  rw [mem_namesIn_iff, List.isPrefixOf_iff_prefix]
  constructor
  · rintro ⟨file, starts, short⟩
    have known := ((hasFile_iff (by simp)).1 file).1
    exact ⟨known, starts, (isFile_join opens (proper.isName known)).2 ⟨file, short⟩⟩
  · rintro ⟨known, starts, isFile⟩
    obtain ⟨file, short⟩ := (isFile_join opens (proper.isName known)).1 isFile
    exact ⟨file, starts, short⟩

theorem Candidate.isName (candidate : tree.Candidate directory place start name) : IsName name :=
  proper.isName (mem_namesIn_iff.1 ((candidate_iff proper opens).1 candidate).1)

/-- The first file of a kind is the candidate of that kind with the least name. -/
theorem find?_filesStarting_eq_some_iff :
    (tree.filesStarting directory place start).find? kind = some result ↔
      ∃ name, (tree.Candidate directory place start name ∧ kind (join directory name) = true) ∧
        (∀ other, tree.Candidate directory place start other ∧
          kind (join directory other) = true → name ≤ other) ∧ join directory name = result := by
  rw [filesStarting, List.find?_filter, List.find?_map, List.find?_filter,
    Option.map_eq_some_iff]
  simp only [find?_eq_some_iff_of_sorted (pairwise_namesIn tree place), candidate_iff proper opens,
    Function.comp_apply, decide_eq_true_eq, and_assoc]

theorem find?_filesStarting_eq_none_iff :
    (tree.filesStarting directory place start).find? kind = none ↔
      ∀ name, tree.Candidate directory place start name → kind (join directory name) = false := by
  rw [filesStarting, List.find?_eq_none]
  simp only [candidate_iff proper opens, List.mem_filter, List.mem_map, Bool.not_eq_true]
  constructor
  · intro none name candidate
    exact none _ ⟨⟨name, ⟨candidate.1, candidate.2.1⟩, rfl⟩, candidate.2.2⟩
  · rintro none _ ⟨⟨name, ⟨known, starts⟩, rfl⟩, isFile⟩
    exact none name ⟨known, starts, isFile⟩

/-- The candidate that is found in a directory is the chosen one. -/
theorem candidate?_of_opens :
    candidate? settings tree directory start = some result ↔
      ∃ name, tree.Chosen settings directory place start name ∧ join directory name = result := by
  have hasExtension {name extension : String}
      (candidate : tree.Candidate directory place start name) :
      decide (extension? (join directory name) = some extension) = true ↔
        HasExtension name extension := by
    rw [decide_eq_true_eq, extension?_join_iff opens (candidate.isName proper opens)]
  rw [candidate?_eq opens, Option.or_eq_some_iff, head?_eq_find?,
    find?_filesStarting_eq_some_iff proper opens]
  cases preferred : settings.preferredExtension with
  | none =>
      have notPreferred (name : String) : ¬Preferred settings name := by
        simp [Preferred, preferred]
      simp [Chosen, notPreferred, and_assoc]
  | some extension =>
      have isPreferred (name : String) : Preferred settings name ↔ HasExtension name extension := by
        simp [Preferred, preferred]
      rw [Option.bind_some, find?_filesStarting_eq_some_iff proper opens,
        find?_filesStarting_eq_none_iff proper opens]
      simp only [Chosen, isPreferred]
      constructor
      · rintro (⟨name, ⟨candidate, has⟩, least, joined⟩ |
          ⟨none, name, ⟨candidate, -⟩, least, joined⟩)
        · refine ⟨name, ⟨candidate, .inl ⟨(hasExtension candidate).1 has, ?_⟩⟩, joined⟩
          exact fun other isCandidate has => least other ⟨isCandidate, (hasExtension isCandidate).2 has⟩
        · refine ⟨name, ⟨candidate, .inr fun other isCandidate => ⟨fun has => ?_, ?_⟩⟩, joined⟩
          · exact absurd ((hasExtension isCandidate).2 has) (by simp [none other isCandidate])
          · exact least other ⟨isCandidate, trivial⟩
      · rintro ⟨name, ⟨candidate, ⟨has, least⟩ | none⟩, joined⟩
        · refine .inl ⟨name, ⟨candidate, (hasExtension candidate).2 has⟩, ?_, joined⟩
          rintro other ⟨isCandidate, otherHas⟩
          exact least other isCandidate ((hasExtension isCandidate).1 otherHas)
        · refine .inr ⟨fun other isCandidate => ?_, name, ⟨candidate, trivial⟩, ?_, joined⟩
          · exact Bool.eq_false_iff.2 fun has =>
              (none other isCandidate).1 ((hasExtension isCandidate).1 has)
          · exact fun other isCandidate => (none other isCandidate.1).2

end Choosing

theorem candidate?_eq_some_iff (proper : tree.Proper) :
    candidate? settings tree directory start = some result ↔
      ∃ place name, tree.Opens directory place ∧
        tree.Chosen settings directory place start name ∧ join directory name = result := by
  constructor
  · intro found
    obtain ⟨place, opens⟩ := opens_of_candidate? found
    obtain ⟨name, chosen, joined⟩ := (candidate?_of_opens proper opens).1 found
    exact ⟨place, name, opens, chosen, joined⟩
  · rintro ⟨place, name, opens, chosen, joined⟩
    exact (candidate?_of_opens proper opens).2 ⟨name, chosen, joined⟩

/-! ## The order of the entries -/

theorem find?_eq_some_iff_mem (proper : tree.Proper) {entry : FileEntry} :
    tree.find? place = some entry ↔ (place, entry) ∈ tree.entries := by
  have once := proper.once
  rw [find?]
  generalize tree.entries = entries at once ⊢
  induction entries with
  | nil => simp
  | cons known rest ih =>
      obtain ⟨there, held⟩ := known
      rw [List.map_cons, List.nodup_cons] at once
      by_cases here : place = there
      · subst here
        have nowhereElse : (place, entry) ∉ rest := fun member =>
          once.1 (List.mem_map.2 ⟨(place, entry), member, rfl⟩)
        simp [nowhereElse, eq_comm]
      · simp [List.lookup_cons, beq_false_of_ne here, here, ih once.2]

/-- Trees with the same entries in another order have the same shape. -/
theorem sameShape_of_perm {entries : List (List String × FileEntry)} (proper : tree.Proper)
    (permuted : entries.Perm tree.entries) : tree.SameShape { tree with entries } := by
  have otherProper : Proper { tree with entries } :=
    { names := fun known member => proper.names known (permuted.mem_iff.1 member)
      once := (permuted.map Prod.fst).nodup_iff.2 proper.once }
  have same (place : List String) : find? { tree with entries } place = tree.find? place := by
    refine Option.ext fun entry => ?_
    rw [find?_eq_some_iff_mem proper, find?_eq_some_iff_mem otherProper, permuted.mem_iff]
  exact ⟨rfl, fun place => by rw [same], fun place => by rw [isDirectoryAt, isDirectoryAt, same]⟩

end FileTree

/-! ## What a name stands for -/

/-- The path that a name leads to from the base directory. -/
def FileSettings.pathOf (settings : FileSettings) (name : String) : String :=
  join settings.basePath (relativeName name)

/-- How the names of files begin that stand for a directory. -/
def FileSettings.startOfDefault (settings : FileSettings) : String :=
  settings.defaultName ++ "." ++ settings.preExtension.elim "" (· ++ ".")

/-- The file that a name stands for, seen from the base directory at a place: the one that the
name leads to, or the chosen default file of the directory that it leads to, or else, if it leads
nowhere, the chosen file beside it that has the last name and an extension. -/
inductive Resolves (settings : FileSettings) (tree : FileTree) (base : List String)
    (name : String) : String → Prop
  | itself (isFile : tree.isFile (settings.pathOf name) = true) :
      Resolves settings tree base name (settings.pathOf name)
  | within {file : String}
      (opens : tree.Opens (settings.pathOf name) (base ++ names name))
      (chosen : tree.Chosen settings (settings.pathOf name) (base ++ names name)
        settings.startOfDefault file) :
      Resolves settings tree base name (join (settings.pathOf name) file)
  | beside {front : List String} {last file : String} (named : names name = front ++ [last])
      (noFile : tree.isFile (settings.pathOf name) = false)
      (noDirectory : tree.isDirectory (settings.pathOf name) = false)
      (opens : tree.Opens (parent (settings.pathOf name)) (base ++ front))
      (chosen : tree.Chosen settings (parent (settings.pathOf name)) (base ++ front)
        (last ++ ".") file) :
      Resolves settings tree base name (join (parent (settings.pathOf name)) file)

section Base

variable {settings : FileSettings} {tree : FileTree} {base : List String} {name result : String}

/-- A name with the directory above in it stands for no file. -/
theorem resolve?_of_parent (parent : ".." ∈ pieces name) : resolve? settings tree name = none := by
  rw [← mem_names_parent, ← names_relativeName, mem_names_parent] at parent
  rw [resolve?]
  exact if_pos (List.contains_iff_mem.2 parent)

theorem resolve?_eq (noParent : ".." ∉ pieces name) :
    resolve? settings tree name =
      if tree.isDirectory (settings.pathOf name) then
        candidate? settings tree (settings.pathOf name) settings.startOfDefault
      else if tree.isFile (settings.pathOf name) then some (settings.pathOf name)
      else (fileName? (settings.pathOf name)).bind fun last =>
        candidate? settings tree (parent (settings.pathOf name)) (last ++ ".") := by
  rw [← mem_names_parent, ← names_relativeName, mem_names_parent] at noParent
  rw [resolve?]
  refine (if_neg (fun parent => noParent (List.contains_iff_mem.1 parent))).trans ?_
  rw [FileSettings.startOfDefault, FileSettings.pathOf]
  generalize join settings.basePath (relativeName name) = path
  dsimp only
  cases settings.preExtension <;> cases fileName? path <;> rfl

theorem isPlace_of_mem_names (noParent : ".." ∉ pieces name) :
    ∀ part ∈ names name, FileTree.isPlace part = false := by
  intro part member
  have notParent : part ≠ ".." := by
    rintro rfl
    exact noParent (mem_names_parent.1 member)
  rw [FileTree.isPlace, (mem_names.1 member).2]
  simpa using notParent

section Opened

variable (opens : tree.Opens settings.basePath base)
include opens

theorem basePath_ne_empty : settings.basePath ≠ "" :=
  (FileTree.ensureUsable_eq_ok_iff.1 (FileTree.opens_iff.1 opens).1).2.2

theorem names_pathOf :
    names (settings.pathOf name) = names settings.basePath ++ names name := by
  rw [FileSettings.pathOf, names_join (relativeName_isRelative name) (basePath_ne_empty opens),
    names_relativeName]

theorem start_pathOf :
    tree.start (settings.pathOf name) = tree.start settings.basePath :=
  FileTree.start_of_startsWith
    (startsWith_join (relativeName_isRelative name) (basePath_ne_empty opens))

/-- Names followed behind those of the base directory lead below it. -/
theorem eq_append_of_follow_names {place parts : List String}
    (followed : tree.follow (tree.start settings.basePath) (names settings.basePath ++ parts) =
      .ok place)
    (proper : ∀ part ∈ parts, FileTree.isPlace part = false) :
    place = base ++ parts ∧ tree.follow base parts = .ok place := by
  obtain ⟨between, first, behind⟩ := FileTree.follow_append_eq_ok_iff.1 followed
  rw [(FileTree.opens_iff.1 opens).2.1] at first
  obtain rfl := Except.ok.inj first
  exact ⟨FileTree.eq_append_of_follow behind proper, behind⟩

/-- A name that leads to a directory leads below the base directory by its names. -/
theorem eq_append_of_opens_pathOf {place : List String} (noParent : ".." ∉ pieces name)
    (opensPath : tree.Opens (settings.pathOf name) place) : place = base ++ names name := by
  have followed := (FileTree.opens_iff.1 opensPath).2.1
  rw [names_pathOf opens, start_pathOf opens] at followed
  exact (eq_append_of_follow_names opens followed (isPlace_of_mem_names noParent)).1

/-- A name that leads to a file leads below the base directory. -/
theorem hasFile_of_isFile_pathOf (noParent : ".." ∉ pieces name)
    (isFile : tree.isFile (settings.pathOf name) = true) :
    tree.locate (settings.pathOf name) = .ok (base ++ names name) ∧ names name ≠ [] ∧
      tree.HasFile (base ++ names name) := by
  obtain ⟨place, located, notDirectory⟩ := FileTree.isFile_iff.1 isFile
  have followed := FileTree.follow_filter (FileTree.locate_eq_ok_iff.1 located).2
  rw [← Path.names, names_pathOf opens, start_pathOf opens] at followed
  obtain ⟨rfl, behind⟩ :=
    eq_append_of_follow_names opens followed (isPlace_of_mem_names noParent)
  have below : names name ≠ [] := by
    intro nothing
    rw [nothing, List.append_nil, opens.2] at notDirectory
    cases notDirectory
  have known := FileTree.known_of_follow behind (isPlace_of_mem_names noParent) below
  exact ⟨located, below, (FileTree.hasFile_iff (by simp [below])).2 ⟨known, notDirectory⟩⟩

end Opened

theorem not_isFile_of_opens {path : String} {place : List String} (opens : tree.Opens path place) :
    tree.isFile path = false := by
  rw [Bool.eq_false_iff]
  intro isFile
  obtain ⟨there, located, notDirectory⟩ := FileTree.isFile_iff.1 isFile
  obtain rfl := Except.ok.inj (opens.1.symm.trans located)
  rw [opens.2] at notDirectory
  cases notDirectory

/-- A name that names nothing leads to the base directory, unless its path is too long. -/
theorem opens_pathOf_of_names_eq_nil (opens : tree.Opens settings.basePath base)
    (noNames : names name = [])
    (short : (settings.pathOf name).utf8ByteSize ≤ FileTree.pathLimit) :
    tree.Opens (settings.pathOf name) base := by
  obtain ⟨usable, followed, directory⟩ := FileTree.opens_iff.1 opens
  have noNull : '\x00' ∉ (relativeName name).toList := by
    intro member
    obtain ⟨part, isPart, inside⟩ := exists_mem_pieces_of_mem member (by decide)
    have trivial := isTrivial_of_names_eq_nil ((names_relativeName name).trans noNames) isPart
    rw [isTrivial, Bool.or_eq_true, decide_eq_true_eq, decide_eq_true_eq] at trivial
    rcases trivial with rfl | rfl
    · simp at inside
    · exact absurd inside (by decide)
  refine FileTree.opens_iff.2 ⟨?_, ?_, directory⟩
  · exact (FileTree.ensureUsable_join usable (relativeName_isRelative name) noNull).2 short
  · rwa [names_pathOf opens, start_pathOf opens, noNames, List.append_nil]

theorem resolves_iff_of_opens (opensPath : tree.Opens (settings.pathOf name) (base ++ names name)) :
    Resolves settings tree base name result ↔
      ∃ file, tree.Chosen settings (settings.pathOf name) (base ++ names name)
        settings.startOfDefault file ∧ join (settings.pathOf name) file = result := by
  constructor
  · rintro (isFile | ⟨-, chosen⟩ | ⟨-, -, noDirectory, -, -⟩)
    · rw [not_isFile_of_opens opensPath] at isFile
      cases isFile
    · exact ⟨_, chosen, rfl⟩
    · rw [FileTree.isDirectory_iff.2 ⟨_, opensPath⟩] at noDirectory
      cases noDirectory
  · rintro ⟨file, chosen, rfl⟩
    exact .within opensPath chosen

section NoDirectory

variable (noDirectory : tree.isDirectory (settings.pathOf name) = false)
include noDirectory

theorem not_opens_of_not_isDirectory (place : List String) :
    ¬tree.Opens (settings.pathOf name) place := by
  intro opensPath
  rw [FileTree.isDirectory_iff.2 ⟨place, opensPath⟩] at noDirectory
  cases noDirectory

theorem resolves_iff_of_isFile (isFile : tree.isFile (settings.pathOf name) = true) :
    Resolves settings tree base name result ↔ settings.pathOf name = result := by
  constructor
  · rintro (_ | ⟨opensPath, -⟩ | ⟨-, noFile, -, -, -⟩)
    · rfl
    · exact absurd opensPath (not_opens_of_not_isDirectory noDirectory _)
    · rw [isFile] at noFile
      cases noFile
  · rintro rfl
    exact .itself isFile

theorem resolves_iff_of_missing (noFile : tree.isFile (settings.pathOf name) = false)
    {front : List String} {last : String} (named : names name = front ++ [last]) :
    Resolves settings tree base name result ↔
      ∃ file, tree.Opens (parent (settings.pathOf name)) (base ++ front) ∧
        tree.Chosen settings (parent (settings.pathOf name)) (base ++ front) (last ++ ".") file ∧
        join (parent (settings.pathOf name)) file = result := by
  constructor
  · rintro (isFile | ⟨opensPath, -⟩ | ⟨otherNamed, -, -, opensParent, chosen⟩)
    · rw [noFile] at isFile
      cases isFile
    · exact absurd opensPath (not_opens_of_not_isDirectory noDirectory _)
    · rw [named] at otherNamed
      obtain ⟨rfl, same⟩ := List.append_inj' otherNamed rfl
      obtain rfl := List.singleton_inj.1 same
      exact ⟨_, opensParent, chosen, rfl⟩
  · rintro ⟨file, opensParent, chosen, rfl⟩
    exact .beside named noFile noDirectory opensParent chosen

end NoDirectory

/-- The directory of a name lies below the base directory by the names in front of the last. -/
theorem eq_append_of_opens_parent (opens : tree.Opens settings.basePath base)
    (noParent : ".." ∉ pieces name) {front place : List String} {last : String}
    (named : names name = front ++ [last])
    (opensParent : tree.Opens (parent (settings.pathOf name)) place) : place = base ++ front := by
  have namedPath : names (settings.pathOf name) =
      (names settings.basePath ++ front) ++ [last] := by
    rw [names_pathOf opens, named, List.append_assoc]
  obtain ⟨usable, followed, -⟩ := FileTree.opens_iff.1 opensParent
  have some := (FileTree.ensureUsable_eq_ok_iff.1 usable).2.2
  rw [names_parent namedPath,
    FileTree.start_of_startsWith (startsWith_parent namedPath some), start_pathOf opens] at followed
  have proper : ∀ part ∈ front, FileTree.isPlace part = false := fun part member =>
    isPlace_of_mem_names noParent part (by simp [named, member])
  exact (eq_append_of_follow_names opens followed proper).1

theorem fileName?_pathOf (opens : tree.Opens settings.basePath base)
    (noParent : ".." ∉ pieces name) {front : List String} {last : String}
    (named : names name = front ++ [last]) : fileName? (settings.pathOf name) = some last := by
  have namedPath : names (settings.pathOf name) =
      (names settings.basePath ++ front) ++ [last] := by
    rw [names_pathOf opens, named, List.append_assoc]
  refine fileName?_of_names namedPath ?_
  rintro rfl
  exact noParent (mem_names_parent.1 (by simp [named]))

/-- What stands for a name is determined as described, if the path of a name that names nothing
below the base directory is not too long for the base directory to be found. -/
theorem resolve?_eq_some_iff (proper : tree.Proper) (opens : tree.Opens settings.basePath base)
    (noParent : ".." ∉ pieces name)
    (short : names name = [] → (settings.pathOf name).utf8ByteSize ≤ FileTree.pathLimit) :
    resolve? settings tree name = some result ↔ Resolves settings tree base name result := by
  rw [resolve?_eq noParent]
  cases isDirectory : tree.isDirectory (settings.pathOf name) with
  | true =>
      obtain ⟨place, opensPath⟩ := FileTree.isDirectory_iff.1 isDirectory
      obtain rfl := eq_append_of_opens_pathOf opens noParent opensPath
      rw [if_pos rfl, FileTree.candidate?_eq_some_iff proper, resolves_iff_of_opens opensPath]
      constructor
      · rintro ⟨place, file, opensThere, chosen, joined⟩
        obtain rfl := opensThere.unique opensPath
        exact ⟨file, chosen, joined⟩
      · rintro ⟨file, chosen, joined⟩
        exact ⟨_, file, opensPath, chosen, joined⟩
  | false =>
  rw [if_neg (by decide)]
  cases isFile : tree.isFile (settings.pathOf name) with
  | true => rw [if_pos rfl, Option.some.injEq, resolves_iff_of_isFile isDirectory isFile]
  | false =>
  rw [if_neg (by decide)]
  have someNames : names name ≠ [] := fun noNames =>
    not_opens_of_not_isDirectory isDirectory base
      (opens_pathOf_of_names_eq_nil opens noNames (short noNames))
  obtain ⟨front, last, named⟩ := (List.eq_nil_or_concat' (names name)).resolve_left someNames
  rw [fileName?_pathOf opens noParent named, Option.bind_some,
    FileTree.candidate?_eq_some_iff proper, resolves_iff_of_missing isDirectory isFile named]
  constructor
  · rintro ⟨place, file, opensParent, chosen, joined⟩
    obtain rfl := eq_append_of_opens_parent opens noParent named opensParent
    exact ⟨file, opensParent, chosen, joined⟩
  · rintro ⟨file, opensParent, chosen, joined⟩
    exact ⟨_, file, opensParent, chosen, joined⟩

/-- What stands for a name is a file below the base directory. -/
theorem Resolves.below (proper : tree.Proper) (opens : tree.Opens settings.basePath base)
    (noParent : ".." ∉ pieces name) (resolves : Resolves settings tree base name result) :
    ∃ below, below ≠ [] ∧ tree.locate result = .ok (base ++ below) ∧
      tree.HasFile (base ++ below) := by
  have chosenBelow {directory start file : String} {parts : List String}
      (opensThere : tree.Opens directory (base ++ parts))
      (chosen : tree.Chosen settings directory (base ++ parts) start file) :
      ∃ below, below ≠ [] ∧ tree.locate (join directory file) = .ok (base ++ below) ∧
        tree.HasFile (base ++ below) := by
    have candidate := chosen.1
    have isName := candidate.isName proper opensThere
    have known := ((FileTree.hasFile_iff (by simp)).1 candidate.file).1
    refine ⟨parts ++ [file], by simp, ?_, ?_⟩
    · rw [FileTree.locate_join opensThere isName]
      exact ⟨candidate.short, (List.append_assoc _ _ _).symm, known⟩
    · rw [← List.append_assoc]
      exact candidate.file
  cases resolves with
  | itself isFile =>
      obtain ⟨located, below, hasFile⟩ := hasFile_of_isFile_pathOf opens noParent isFile
      exact ⟨names name, below, located, hasFile⟩
  | within opensPath chosen => exact chosenBelow opensPath chosen
  | beside named noFile noDirectory opensParent chosen => exact chosenBelow opensParent chosen

end Base

/-- A name with the directory above in it is not found.  Any other that stands for a file stands
for one below the base directory, and for the one described; it does not matter in which order the
entries are listed. -/
theorem names_stand_for_files_below {settings : FileSettings} {tree : FileTree}
    {base : List String} (proper : tree.Proper) (opens : tree.Opens settings.basePath base)
    (name : String) :
    (".." ∈ pieces name → resolve? settings tree name = none ∧
      ∀ world : World, world.files = tree →
        (readDocument settings name).eval world = (.error (.notFound name), world)) ∧
    (".." ∉ pieces name →
      (names name = [] → (settings.pathOf name).utf8ByteSize ≤ FileTree.pathLimit) →
      ∀ result, (resolve? settings tree name = some result ↔
          Resolves settings tree base name result) ∧
        (resolve? settings tree name = some result →
          ∃ below, below ≠ [] ∧ tree.locate result = .ok (base ++ below) ∧
            tree.HasFile (base ++ below))) ∧
    ∀ entries, entries.Perm tree.entries →
      resolve? settings { tree with entries } name = resolve? settings tree name := by
  refine ⟨fun parent => ⟨resolve?_of_parent parent, ?_⟩, fun noParent short result => ?_,
    fun entries permuted => ?_⟩
  · rintro world rfl
    rw [readDocument, HostM.eval_bind_of_ok (HostM.eval_get _)]
    simp only [resolve?_of_parent parent]
    rfl
  · have resolved : resolve? settings tree name = some result ↔
        Resolves settings tree base name result :=
      resolve?_eq_some_iff proper opens noParent short
    exact ⟨resolved, fun found => (resolved.1 found).below proper opens noParent⟩
  · exact resolve?_of_sameShape (FileTree.sameShape_of_perm proper permuted) settings name

section Site

/-- A directory of two default files, beside the working directory. -/
def siteTree : FileTree where
  entries := [(["work"], .directory ⟨0⟩), (["site"], .directory ⟨0⟩),
    (["site", "lib"], .directory ⟨0⟩),
    (["site", "lib", "default.mini"], .file [] ⟨0⟩),
    (["site", "lib", "default.txt"], .file [] ⟨0⟩)]

def siteSettings : FileSettings where
  basePath := "/site"
  preferredExtension := some "txt"

theorem siteTree_proper : siteTree.Proper :=
  ⟨by decide, by decide⟩

theorem siteTree_opens : siteTree.Opens siteSettings.basePath ["site"] := by
  have found : pieces siteSettings.basePath = ["", "site"] := by
    rw [pieces_eq]
    decide
  exact FileTree.opens_of_pieces found (by decide) (by decide) (by decide) (by rfl) (by decide)

theorem siteSettings_pathOf : siteSettings.pathOf "/./lib" = "/site/./lib" := by
  have relative : relativeName "/./lib" = "./lib" := by decide
  rw [FileSettings.pathOf, relative,
    join_of_not_endsWith (startsWith_slash_eq_false_iff.2 (by decide)) (by decide) (by decide)]
  rfl

theorem siteTree_opens_lib : siteTree.Opens "/site/./lib" ["site", "lib"] := by
  have found : pieces "/site/./lib" = ["", "site", ".", "lib"] := by
    rw [pieces_eq]
    decide
  exact FileTree.opens_of_pieces found (by decide) (by decide) (by decide) (by rfl) (by decide)

/-- Of the two files the one with the preferred extension is chosen, though it is the later. -/
theorem siteTree_chosen :
    siteTree.Chosen siteSettings "/site/./lib" ["site", "lib"] "default." "default.txt" := by
  have short : (join "/site/./lib" "default.txt").utf8ByteSize ≤ FileTree.pathLimit := by
    rw [join_of_not_endsWith (startsWith_slash_eq_false_iff.2 (by decide)) (by decide) (by decide)]
    decide
  refine ⟨⟨⟨[], ⟨0⟩, by rfl⟩, by decide, short⟩, .inl ⟨⟨"txt", rfl, ?_⟩, ?_⟩⟩
  · exact ⟨"default", by decide, rfl, by decide⟩
  · rintro other ⟨⟨bytes, modified, found⟩, -, -⟩ ⟨extension, isTxt, has⟩
    rw [FileTree.find?_eq_some_iff_mem siteTree_proper] at found
    obtain rfl := Option.some.inj isTxt
    simp only [siteTree, List.cons_append, List.nil_append, List.mem_cons, Prod.mk.injEq,
      List.cons.injEq, reduceCtorEq, true_and, and_true, and_false, false_or, List.not_mem_nil, or_false] at found
    obtain ⟨rfl, -⟩ | ⟨rfl, -⟩ := found
    · exact absurd (splitExtension_eq_some_iff.2 has) (by decide)
    · exact String.le_refl _

/-- The default file with the preferred extension stands for the directory, below a base directory
that is named from the root. -/
theorem names_stand_for_files_below_site :
    siteTree.Proper ∧ siteTree.Opens siteSettings.basePath ["site"] ∧
      resolve? siteSettings siteTree "/./lib" = some "/site/./lib/default.txt" := by
  have parts : pieces "/./lib" = ["", ".", "lib"] := by
    rw [pieces_eq]
    decide
  have named : names "/./lib" = ["lib"] := by
    rw [Path.names, parts]
    decide
  have resolves : Resolves siteSettings siteTree ["site"] "/./lib"
      (join (siteSettings.pathOf "/./lib") "default.txt") := by
    refine .within ?_ ?_
    · rw [siteSettings_pathOf, named]
      exact siteTree_opens_lib
    · rw [siteSettings_pathOf, named]
      exact siteTree_chosen
  rw [siteSettings_pathOf, join_of_not_endsWith
    (startsWith_slash_eq_false_iff.2 (by decide)) (by decide) (by decide)] at resolves
  obtain ⟨-, found, -⟩ := names_stand_for_files_below siteTree_proper siteTree_opens "/./lib"
  exact ⟨siteTree_proper, siteTree_opens,
    (found (by simp [parts]) (by simp [named]) _).1.2 resolves⟩

end Site

section Beside

/-- The directory one stands in, named a number of times. -/
def dots : Nat → String
  | 0 => ""
  | count + 1 => "." ++ "/" ++ dots count

theorem names_dots (count : Nat) : names (dots count) = [] := by
  induction count with
  | zero => exact names_empty
  | succ count ih =>
      rw [dots, names_append_slash, ih, List.append_nil]
      rw [Path.names, pieces_of_not_mem (by decide)]
      rfl

theorem utf8ByteSize_dots (count : Nat) : (dots count).utf8ByteSize = 2 * count := by
  induction count with
  | zero => rfl
  | succ count ih =>
      rw [dots, String.utf8ByteSize_append, String.utf8ByteSize_append, ih]
      have dot : ".".utf8ByteSize = 1 := rfl
      have slash : "/".utf8ByteSize = 1 := rfl
      omega

/-- A directory without files, and a file beside it that has its name and an extension. -/
def besideTree : FileTree where
  working := []
  entries := [(["a"], .directory ⟨0⟩), (["a", "site"], .directory ⟨0⟩),
    (["a", "site.txt"], .file [] ⟨0⟩)]

def besideSettings : FileSettings where
  basePath := "a/site"

theorem besideTree_opens : besideTree.Opens besideSettings.basePath ["a", "site"] := by
  have found : pieces besideSettings.basePath = ["a", "site"] := by
    rw [pieces_eq]
    decide
  exact FileTree.opens_of_pieces found (by decide) (by decide) (by decide) (by rfl) (by decide)

theorem besideSettings_pathOf (count : Nat) :
    besideSettings.pathOf (dots (count + 1)) = "a/site" ++ "/" ++ dots (count + 1) := by
  have isRelative := relativeName_isRelative (dots (count + 1))
  have relative : relativeName (dots (count + 1)) = dots (count + 1) := by
    rw [relativeName, dots]
    simp [← String.append_assoc]
  rw [relative] at isRelative
  rw [FileSettings.pathOf, relative, join_of_not_endsWith isRelative (by decide) (by decide)]
  rfl

theorem besideTree_proper : besideTree.Proper :=
  ⟨by decide, by decide⟩

theorem besideTree_opens_parent : besideTree.Opens "a" ["a"] :=
  FileTree.opens_of_pieces (pieces_of_not_mem (by decide)) (by decide) (by decide) (by decide)
    (by rfl) (by decide)

theorem join_siteFile : join "a" "site.txt" = "a/site.txt" := by
  rw [join_of_not_endsWith (startsWith_slash_eq_false_iff.2 (by decide)) (by decide) (by decide)]
  rfl

theorem besideTree_candidate :
    candidate? besideSettings besideTree "a" "site." = some "a/site.txt" := by
  refine (FileTree.candidate?_of_opens besideTree_proper besideTree_opens_parent).2
    ⟨"site.txt", ⟨⟨⟨[], ⟨0⟩, by rfl⟩, by decide, ?_⟩, .inr ?_⟩, join_siteFile⟩
  · rw [join_siteFile]
    decide
  · rintro other ⟨⟨bytes, modified, found⟩, -, -⟩
    refine ⟨fun ⟨_, preferred, _⟩ => Option.some_ne_none _ preferred.symm, ?_⟩
    rw [FileTree.find?_eq_some_iff_mem besideTree_proper] at found
    simp only [besideTree, List.cons_append, List.nil_append, List.mem_cons, Prod.mk.injEq,
      List.cons.injEq, reduceCtorEq, true_and, and_true, and_false, false_or, List.not_mem_nil,
      or_false] at found
    obtain ⟨rfl, -⟩ := found
    exact String.le_refl _

/-- A name that does nothing but stay in the base directory, so often that its path is too long,
stands for a file beside the base directory. -/
theorem name_stands_for_file_beside_base :
    besideTree.Opens besideSettings.basePath ["a", "site"] ∧ ".." ∉ pieces (dots 2100) ∧
      ∃ result, resolve? besideSettings besideTree (dots 2100) = some result ∧
        ∀ below, besideTree.locate result ≠ .ok (["a", "site"] ++ below) := by
  have noParent : ".." ∉ pieces (dots 2100) := by
    rw [← mem_names_parent, names_dots]
    exact List.not_mem_nil
  have long : FileTree.pathLimit < (besideSettings.pathOf (dots 2100)).utf8ByteSize := by
    rw [besideSettings_pathOf, String.utf8ByteSize_append, utf8ByteSize_dots]
    decide
  have notLocated (place : List String) :
      besideTree.locate (besideSettings.pathOf (dots 2100)) ≠ .ok place := by
    intro located
    have usable := FileTree.ensureUsable_eq_ok_iff.1 (FileTree.locate_eq_ok_iff.1 located).1
    exact absurd usable.2.1 (Nat.not_le.2 long)
  have noDirectory : besideTree.isDirectory (besideSettings.pathOf (dots 2100)) = false := by
    rw [Bool.eq_false_iff]
    intro isDirectory
    obtain ⟨place, opens⟩ := FileTree.isDirectory_iff.1 isDirectory
    exact notLocated place opens.1
  have noFile : besideTree.isFile (besideSettings.pathOf (dots 2100)) = false := by
    rw [Bool.eq_false_iff]
    intro isFile
    obtain ⟨place, located, -⟩ := FileTree.isFile_iff.1 isFile
    exact notLocated place located
  have baseNames : names "a/site" = ["a"] ++ ["site"] := by
    rw [Path.names, pieces_eq]
    decide
  have named : names (besideSettings.pathOf (dots 2100)) = ["a"] ++ ["site"] := by
    rw [names_pathOf besideTree_opens, names_dots, List.append_nil]
    exact baseNames
  have inFront : parent (besideSettings.pathOf (dots 2100)) = "a" := by
    have basePieces : pieces "a/site" = ["a", "site"] := by
      rw [pieces_eq]
      decide
    rw [besideSettings_pathOf, parent_append_of_names_eq_nil (names_dots _), parent, basePieces]
    decide
  have found : resolve? besideSettings besideTree (dots 2100) = some "a/site.txt" := by
    rw [resolve?_eq noParent, noDirectory, noFile, if_neg (by decide), if_neg (by decide),
      fileName?_of_names named (by decide), inFront]
    exact besideTree_candidate
  refine ⟨besideTree_opens, noParent, "a/site.txt", found, fun below located => ?_⟩
  rw [← join_siteFile, FileTree.locate_join besideTree_opens_parent (by decide)] at located
  simp at located

end Beside

end DocumentHost
