import DocumentHost.Config.Storage
import DocumentHost.Proofs.Files.Resolving
import DocumentHost.Proofs.Files.Writing

/-!
# What storing a configuration touches

A file is replaced by way of a temporary file beside it, and its directory is flushed then.  Two
places of the tree are touched: the place of the file and that of the temporary file.  The one
holds what has been written, or what it held before; whatever has stood in the other is lost.  The
drive may refuse every step, and what has been done before stays done.
-/

namespace DocumentHost

/-- A drive refuses no step up to the move of the temporary file. -/
structure Drive.Stores (drive : Drive) : Prop where
  creation : drive.creation = none
  contents : drive.contents = none
  flush : drive.flush = none
  move : drive.move = none

/-- A drive refuses nothing that it is asked for when the file of a path is replaced. -/
structure Drive.Serves (drive : Drive) (path : String) : Prop extends drive.Stores where
  opening : Path.parent path ≠ "" → drive.opening = none
  directoryFlush : Path.parent path ≠ "" → drive.directoryFlush = none

theorem Drive.allow_eq_ok_iff {α : Type} {refusal : Option FileError}
    {step : Except FileError α} {value : α} :
    Drive.allow refusal step = .ok value ↔ refusal = none ∧ step = .ok value := by
  cases refusal <;> simp [Drive.allow]

theorem Drive.allow_eq_error_iff {α : Type} {refusal : Option FileError}
    {step : Except FileError α} {reason : FileError} :
    Drive.allow refusal step = .error reason ↔
      refusal = some reason ∨ refusal = none ∧ step = .error reason := by
  cases refusal <;> simp [Drive.allow]

namespace FileTree

variable {tree : FileTree} {path : String} {place temporary : List String} {bytes : List UInt8}
  {now : Instant} {drive : Drive}

/-- The tree in which the temporary file has been moved to the place of the file. -/
def moved (tree : FileTree) (temporary place : List String) (bytes : List UInt8) (now : Instant) :
    FileTree :=
  let written := tree.put temporary (.file bytes now)
  if place = temporary then written
  else (written.removeAt temporary).put place (.file bytes now)

theorem working_moved : (tree.moved temporary place bytes now).working = tree.working := by
  rw [moved]
  split <;> rfl

/-! ## The tree behind a move -/

section Moved

variable (rooted : tree.Rooted)
  (written : tree.LeadsToFile (Path.withExtension path "tmp") temporary)

include written

include rooted

theorem find?_moved (there : List String) :
    (tree.moved temporary place bytes now).find? there =
      if there = place then some (.file bytes now)
      else if there = temporary then none else tree.find? there := by
  rw [moved]
  by_cases same : place = temporary
  · subst same
    rw [if_pos rfl, find?_put]
    by_cases here : there = place <;> simp [here]
  · have free := (isDirectoryAt_put written.noDirectory bytes now temporary).trans
      written.noDirectory
    rw [if_neg same, find?_put, (written.rooted_put rooted bytes now).find?_removeAt free,
      find?_put]
    by_cases here : there = temporary <;> simp [here]

theorem find?_moved_self :
    (tree.moved temporary place bytes now).find? place = some (.file bytes now) := by
  rw [find?_moved rooted written, if_pos rfl]

theorem isDirectoryAt_moved (leads : tree.LeadsToFile path place) (there : List String) :
    (tree.moved temporary place bytes now).isDirectoryAt there = tree.isDirectoryAt there := by
  have between := isDirectoryAt_put written.noDirectory bytes now
  have free := (between temporary).trans written.noDirectory
  have removed := (written.rooted_put rooted bytes now).isDirectoryAt_removeAt free
  rw [moved]
  split
  · exact between there
  · have vacant := (removed place).trans ((between place).trans leads.noDirectory)
    rw [isDirectoryAt_put vacant, removed, between]

theorem rooted_moved (leads : tree.LeadsToFile path place) :
    (tree.moved temporary place bytes now).Rooted := by
  have between := written.rooted_put rooted bytes now
  have same := isDirectoryAt_put written.noDirectory bytes now
  have free := (same temporary).trans written.noDirectory
  rw [moved]
  split
  · exact between
  · have still : ((tree.put temporary (.file bytes now)).removeAt temporary).LeadsToFile
        path place := leads.of_same rfl fun there => by
      rw [between.isDirectoryAt_removeAt free, same]
    exact still.rooted_put (between.removeAt free) bytes now

end Moved

/-- What has been written is in its place.  What stood in the place of the temporary file is gone,
and every other place is as it was. -/
structure InPlace (tree : FileTree) (path : String) (temporary place : List String)
    (bytes : List UInt8) (now : Instant) (after : FileTree) : Prop where
  written : tree.LeadsToFile (Path.withExtension path "tmp") temporary
  leads : tree.LeadsToFile path place
  reads : after.read path = .ok bytes
  holds : after.find? place = some (.file bytes now)
  vacated : temporary ≠ place → after.find? temporary = none
  others : ∀ there, there ≠ place → there ≠ temporary → after.find? there = tree.find? there
  alone : temporary = place ∨ tree.find? temporary = none →
    ∀ there, there ≠ place → after.find? there = tree.find? there

theorem inPlace_moved (rooted : tree.Rooted) (bytes : List UInt8) (now : Instant)
    (written : tree.LeadsToFile (Path.withExtension path "tmp") temporary)
    (leads : tree.LeadsToFile path place) :
    tree.InPlace path temporary place bytes now (tree.moved temporary place bytes now) where
  written := written
  leads := leads
  reads := (leads.of_same working_moved (isDirectoryAt_moved rooted written leads)).read
    (find?_moved_self rooted written)
  holds := find?_moved_self rooted written
  vacated apart := by rw [find?_moved rooted written, if_neg apart, if_pos rfl]
  others there notPlace notTemporary := by
    rw [find?_moved rooted written, if_neg notPlace, if_neg notTemporary]
  alone harmless there notPlace := by
    rw [find?_moved rooted written, if_neg notPlace]
    split
    · next here =>
        rcases harmless with same | vacant
        · exact absurd (here.trans same) notPlace
        · rw [here, vacant]
    · rfl

/-! ## Steps and refusals -/

/-- Why a temporary file has been left behind: the drive has not taken all of it, or not kept it,
or it cannot be moved. -/
inductive Unfinished (tree : FileTree) (path : String) (drive : Drive) : ConfigError → Prop
  | contents {count : Nat} {reason : FileError} (created : drive.creation = none)
      (refused : drive.contents = some (count, reason)) :
      Unfinished tree path drive (.contents reason)
  | flush {reason : FileError} (created : drive.creation = none) (taken : drive.contents = none)
      (refused : drive.flush = some reason) : Unfinished tree path drive (.flush reason)
  | rename {reason : FileError} (created : drive.creation = none) (taken : drive.contents = none)
      (flushed : drive.flush = none)
      (refused : drive.move = some reason ∨ ∀ place, ¬tree.LeadsToFile path place) :
      Unfinished tree path drive (.rename (Path.withExtension path "tmp") path reason)

/-- How the flushing of the directory of a path ends: it is not tried if the path names no
directory, and it fails if the drive refuses to open the directory or to flush it. -/
inductive DirectoryFlushed (path : String) (drive : Drive) : Except ConfigError Unit → Prop
  | unnamed (unnamed : Path.parent path = "") : DirectoryFlushed path drive (.ok ())
  | unopened {reason : FileError} (named : Path.parent path ≠ "")
      (refused : drive.opening = some reason) :
      DirectoryFlushed path drive (.error (.directory (Path.parent path) reason))
  | unflushed {reason : FileError} (named : Path.parent path ≠ "") (opened : drive.opening = none)
      (refused : drive.directoryFlush = some reason) :
      DirectoryFlushed path drive (.error (.directoryFlush reason))
  | flushed (opened : drive.opening = none) (flushed : drive.directoryFlush = none) :
      DirectoryFlushed path drive (.ok ())

theorem DirectoryFlushed.serves (flushed : DirectoryFlushed path drive (.ok ()))
    (stores : drive.Stores) : drive.Serves path := by
  cases flushed with
  | unnamed unnamed => exact ⟨stores, fun named => absurd unnamed named,
      fun named => absurd unnamed named⟩
  | flushed opened flushed => exact ⟨stores, fun _ => opened, fun _ => flushed⟩

theorem DirectoryFlushed.eq_ok {outcome : Except ConfigError Unit}
    (flushed : DirectoryFlushed path drive outcome) (serves : drive.Serves path) :
    outcome = .ok () := by
  cases flushed with
  | unnamed | flushed => rfl
  | unopened named refused =>
      rw [serves.opening named] at refused
      cases refused
  | unflushed named _ refused =>
      rw [serves.directoryFlush named] at refused
      cases refused

theorem not_unfinished (stores : drive.Stores) (leads : tree.LeadsToFile path place)
    (error : ConfigError) : ¬tree.Unfinished path drive error := by
  intro unfinished
  cases unfinished with
  | contents _ refused =>
      rw [stores.contents] at refused
      cases refused
  | flush _ _ refused =>
      rw [stores.flush] at refused
      cases refused
  | rename _ _ _ refused =>
      rcases refused with refused | nowhere
      · rw [stores.move] at refused
        cases refused
      · exact nowhere place leads

/-- Replacing a file ends in one of three ways: the temporary file cannot be made, or it is left
behind, or it has been moved, and then only the flushing of the directory can fail. -/
inductive Replaced (tree : FileTree) (path : String) (bytes : List UInt8) (now : Instant)
    (drive : Drive) : Except ConfigError Unit × FileTree → Prop
  | unwritten {reason : FileError}
      (refused : drive.creation = some reason ∨
        ∀ place, ¬tree.LeadsToFile (Path.withExtension path "tmp") place) :
      Replaced tree path bytes now drive
        (.error (.temporaryFile (Path.withExtension path "tmp") reason), tree)
  | unfinished {error : ConfigError} {temporary : List String}
      (written : tree.LeadsToFile (Path.withExtension path "tmp") temporary)
      (unfinished : tree.Unfinished path drive error) :
      Replaced tree path bytes now drive
        (.error error, tree.put temporary (.file (drive.taken bytes) now))
  | moved {outcome : Except ConfigError Unit} {temporary place : List String}
      (stores : drive.Stores) (written : tree.LeadsToFile (Path.withExtension path "tmp") temporary)
      (leads : tree.LeadsToFile path place) (flushed : DirectoryFlushed path drive outcome) :
      Replaced tree path bytes now drive (outcome, tree.moved temporary place bytes now)

/-- The directory of a path for a file is flushed unless the drive refuses. -/
theorem directoryFlushed_of_leads (leads : tree.LeadsToFile path place) (drive : Drive) :
    DirectoryFlushed path drive (tree.flushDirectory path drive) := by
  rw [flushDirectory]
  split
  · rename_i unnamed
    exact .unnamed unnamed
  · rename_i named
    obtain ⟨directory, located⟩ := leads.exists_locate_parent named
    cases opens : Drive.allow drive.opening (tree.locate (Path.parent path)) with
    | error reason =>
        refine .unopened named ((Drive.allow_eq_error_iff.1 opens).resolve_right ?_)
        rintro ⟨-, missing⟩
        rw [located] at missing
        cases missing
    | ok found =>
        dsimp only
        obtain ⟨opened, -⟩ := Drive.allow_eq_ok_iff.1 opens
        cases flushes : drive.directoryFlush with
        | some reason => exact .unflushed named opened flushes
        | none => exact .flushed opened flushes

section Replacing

variable (rooted : tree.Rooted) (bytes : List UInt8) (now : Instant)
include rooted

/-- A temporary file that has been written is moved, and the directory of its new place is
flushed, unless the drive refuses or the path leads to no place for a file. -/
theorem replaced_of_written
    (written : tree.LeadsToFile (Path.withExtension path "tmp") temporary)
    (creation : drive.creation = none) (contents : drive.contents = none)
    (flush : drive.flush = none) :
    Replaced tree path bytes now drive
      (match (tree.put temporary (.file bytes now)).moveTemporary (Path.withExtension path "tmp")
          path drive with
        | (.error error, left) => (.error error, left)
        | (.ok (), moved) => (moved.flushDirectory path drive, moved)) := by
  have same := isDirectoryAt_put written.noDirectory bytes now
  have renames (after : FileTree) :
      (tree.put temporary (.file bytes now)).rename (Path.withExtension path "tmp") path =
        .ok after ↔ _ :=
    rename_eq_ok_iff (written.of_same rfl same) (find?_put_self tree temporary _)
  rw [moveTemporary]
  cases moves : Drive.allow drive.move
      ((tree.put temporary (.file bytes now)).rename (Path.withExtension path "tmp") path) with
  | error reason =>
      have taken : drive.taken bytes = bytes := by rw [Drive.taken, contents]
      have left := @Replaced.unfinished tree path bytes now drive _ temporary written
        (.rename creation contents flush ((Drive.allow_eq_error_iff.1 moves).imp_right ?_))
      · rwa [taken] at left
      · rintro ⟨-, stays⟩ place leads
        rw [(renames _).2 ⟨place, leads.of_same rfl same, rfl⟩] at stays
        cases stays
  | ok after =>
      obtain ⟨move, renamed⟩ := Drive.allow_eq_ok_iff.1 moves
      obtain ⟨place, leads, rfl⟩ := (renames _).1 renamed
      have leadsBefore : tree.LeadsToFile path place := leads.of_same rfl fun there =>
        (same there).symm
      have leadsBehind : (tree.moved temporary place bytes now).LeadsToFile path place :=
        leadsBefore.of_same working_moved (isDirectoryAt_moved rooted written leadsBefore)
      exact .moved ⟨creation, contents, flush, move⟩ written leadsBefore
        (directoryFlushed_of_leads leadsBehind drive)

theorem replaceFile_replaced (path : String) (drive : Drive) :
    Replaced tree path bytes now drive (tree.replaceFile path bytes now drive) := by
  rw [replaceFile, fillTemporary]
  cases creates : Drive.allow drive.creation
      (tree.write (Path.withExtension path "tmp") (drive.taken bytes) now) with
  | error reason =>
      refine .unwritten ((Drive.allow_eq_error_iff.1 creates).imp_right ?_)
      rintro ⟨-, unwritten⟩ place leads
      rw [write_eq_ok_iff.2 ⟨place, leads, rfl⟩] at unwritten
      cases unwritten
  | ok between =>
      obtain ⟨creation, writes⟩ := Drive.allow_eq_ok_iff.1 creates
      obtain ⟨temporary, written, rfl⟩ := write_eq_ok_iff.1 writes
      dsimp only
      cases contents : drive.contents with
      | some refusal => exact .unfinished written (.contents creation contents)
      | none =>
      cases flush : drive.flush with
      | some reason => exact .unfinished written (.flush creation contents flush)
      | none =>
          have taken : drive.taken bytes = bytes := by rw [Drive.taken, contents]
          rw [taken]
          exact replaced_of_written rooted bytes now written creation contents flush

/-- A file is replaced if its path and that of the temporary file lead to places for files and the
drive refuses nothing. -/
theorem exists_replaceFile (written : tree.LeadsToFile (Path.withExtension path "tmp") temporary)
    (leads : tree.LeadsToFile path place) :
    ∃ after, tree.replaceFile path bytes now = (.ok (), after) := by
  have cases := replaceFile_replaced rooted bytes now path {}
  cases replaced : tree.replaceFile path bytes now with
  | mk outcome after =>
      rw [replaced] at cases
      cases cases with
      | unwritten refused => exact absurd written (refused.resolve_left nofun temporary)
      | unfinished _ unfinished =>
          exact absurd unfinished (not_unfinished ⟨rfl, rfl, rfl, rfl⟩ leads _)
      | moved _ _ _ flushed =>
          obtain rfl := flushed.eq_ok ⟨⟨rfl, rfl, rfl, rfl⟩, fun _ => rfl, fun _ => rfl⟩
          exact ⟨_, rfl⟩

/-- Replacing a file keeps a tree rooted. -/
theorem Rooted.replaceFile (path : String) (drive : Drive) :
    (tree.replaceFile path bytes now drive).2.Rooted := by
  cases replaced : tree.replaceFile path bytes now drive with
  | mk outcome after =>
      have cases := replaceFile_replaced rooted bytes now path drive
      rw [replaced] at cases
      cases cases with
      | unwritten => exact rooted
      | unfinished written => exact written.rooted_put rooted _ now
      | moved _ written leads => exact rooted_moved rooted written leads

end Replacing

theorem exists_inPlace_of_replaceFile (rooted : tree.Rooted) {after : FileTree}
    (replaced : tree.replaceFile path bytes now drive = (.ok (), after)) :
    ∃ temporary place, tree.InPlace path temporary place bytes now after := by
  have cases := replaceFile_replaced rooted bytes now path drive
  rw [replaced] at cases
  cases cases with
  | moved _ written leads => exact ⟨_, _, inPlace_moved rooted bytes now written leads⟩

/-! ## Storing -/

/-- Storing a configuration succeeds just if both its path and that of the temporary file lead to
places for files and the drive refuses nothing.  What has been written is in the place of the
configuration then, nothing stands in the place of the temporary file, unless it is the same, and
every other place is as it was.  If the storing fails, either nothing has changed; or at most the
place of the temporary file has, which holds what the drive has taken; or it has failed only after
everything was in its place, because the drive would not open or flush the directory. -/
theorem storing_touches_two_places (rooted : tree.Rooted) {config : Configuration}
    {outcome : Except ConfigError Unit} {after : FileTree}
    (stored : tree.storeConfig path config now drive = (outcome, after)) :
    after.Rooted ∧
    (outcome = .ok () ↔ drive.Serves path ∧
      (∃ place, tree.LeadsToFile (Path.withExtension path "tmp") place) ∧
        ∃ place, tree.LeadsToFile path place) ∧
    (outcome = .ok () → ∃ temporary place,
      tree.InPlace path temporary place (Text.encode config.toValue.pretty) now after) ∧
    ∀ error, outcome = .error error →
      (after = tree ∧ ∃ reason,
        error = .temporaryFile (Path.withExtension path "tmp") reason ∧
        (drive.creation = some reason ∨
          ∀ place, ¬tree.LeadsToFile (Path.withExtension path "tmp") place)) ∨
      (∃ temporary, tree.LeadsToFile (Path.withExtension path "tmp") temporary ∧
        after.find? temporary =
          some (.file (drive.taken (Text.encode config.toValue.pretty)) now) ∧
        (∀ there, there ≠ temporary → after.find? there = tree.find? there) ∧
        tree.Unfinished path drive error) ∨
      ((∃ temporary place,
        tree.InPlace path temporary place (Text.encode config.toValue.pretty) now after) ∧
        drive.Stores ∧ DirectoryFlushed path drive (.error error)) := by
  rw [storeConfig] at stored
  have keeps := rooted.replaceFile (Text.encode config.toValue.pretty) now path drive
  have cases := replaceFile_replaced rooted (Text.encode config.toValue.pretty) now path drive
  rw [stored] at keeps cases
  refine ⟨keeps, ?_⟩
  cases cases with
  | @unwritten reason refused =>
      refine ⟨⟨nofun, ?_⟩, nofun, ?_⟩
      · rintro ⟨serves, ⟨place, leads⟩, -⟩
        have nowhere := refused.resolve_left fun refuses => by
          rw [serves.creation] at refuses
          cases refuses
        exact absurd leads (nowhere place)
      · rintro error ⟨⟩
        exact .inl ⟨rfl, reason, rfl, refused⟩
  | @unfinished error temporary written unfinished =>
      refine ⟨⟨nofun, ?_⟩, nofun, ?_⟩
      · rintro ⟨serves, -, ⟨place, leads⟩⟩
        exact absurd unfinished (not_unfinished serves.toStores leads _)
      · rintro error ⟨⟩
        exact .inr (.inl ⟨temporary, written, find?_put_self .., fun there elsewhere =>
          find?_put_of_ne _ _ elsewhere, unfinished⟩)
  | @moved outcome temporary place stores written leads flushed =>
      have inPlace := inPlace_moved rooted (Text.encode config.toValue.pretty) now written leads
      refine ⟨⟨?_, ?_⟩, fun _ => ⟨temporary, place, inPlace⟩, ?_⟩
      · rintro rfl
        exact ⟨flushed.serves stores, ⟨temporary, written⟩, ⟨place, leads⟩⟩
      · rintro ⟨serves, -⟩
        exact flushed.eq_ok serves
      · rintro error rfl
        exact .inr (.inr ⟨⟨temporary, place, inPlace⟩, stores, flushed⟩)

section Names

variable {name : String}

/-- A path whose last piece is a name leads to its place in the directory of the others. -/
theorem locateParent_of_pieces {front directory : List String}
    (pieces : Path.pieces path = front ++ [name]) (isName : IsName name)
    (noNull : '\x00' ∉ path.toList) (short : path.utf8ByteSize ≤ pathLimit)
    (followed : tree.follow (if path.toList.head? = some '/' then [] else tree.working) front =
      .ok directory) (inside : tree.isDirectoryAt directory = true) :
    tree.locateParent path = .ok (directory, name) := by
  have named : name ≠ "" := by
    rintro rfl
    exact absurd isName.proper (by decide)
  have parts : ((Path.pieces path).reverse.dropWhile (· = "")).reverse = front ++ [name] := by
    rw [pieces, List.reverse_append, List.reverse_singleton, List.singleton_append,
      List.dropWhile_cons_of_neg (by simpa using named)]
    simp
  have some : path ≠ "" := by
    rintro rfl
    have empty : Path.pieces "" = [] ++ [""] := Path.pieces_of_not_mem (by simp)
    obtain ⟨-, same⟩ := List.append_inj' (empty.symm.trans pieces) rfl
    exact named (List.singleton_inj.1 same).symm
  rw [locateParent_eq_ok_iff, parts, List.dropLast_concat, List.getLastD_concat, start_eq]
  exact ⟨ensureUsable_eq_ok_iff.2 ⟨noNull, short, some⟩, followed, inside, rfl⟩

theorem leadsToFile_iff_of_pieces {front directory : List String}
    (pieces : Path.pieces path = front ++ [name]) (isName : IsName name)
    (noNull : '\x00' ∉ path.toList) (short : path.utf8ByteSize ≤ pathLimit)
    (followed : tree.follow (if path.toList.head? = some '/' then [] else tree.working) front =
      .ok directory) (inside : tree.isDirectoryAt directory = true) :
    tree.LeadsToFile path place ↔
      place = directory ++ [name] ∧ tree.isDirectoryAt (directory ++ [name]) = false := by
  have located := locateParent_of_pieces pieces isName noNull short followed inside
  constructor
  · rintro ⟨⟨_, _, otherLocated, -, -, rfl⟩, -, noDirectory⟩
    cases located.symm.trans otherLocated
    exact ⟨rfl, noDirectory⟩
  · rintro ⟨rfl, noDirectory⟩
    refine ⟨⟨directory, name, located, isName.proper, isName.short, rfl⟩, ?_, noDirectory⟩
    refine Bool.eq_false_iff.2 fun ends => ?_
    obtain ⟨before, rfl⟩ := Path.endsWith_slash_iff.1 ends
    have empty : Path.pieces "" = [""] := Path.pieces_of_not_mem (by simp)
    have split := Path.pieces_append_slash before ""
    rw [String.append_empty, empty, pieces] at split
    obtain ⟨-, last⟩ := List.append_inj' split rfl
    obtain rfl := List.singleton_inj.1 last
    exact absurd isName.proper (by decide)

end Names

theorem withExtension_tessera : Path.withExtension "tessera.json" "tmp" = "tessera.tmp" := by
  have pieces : Path.pieces "tessera.json" = ["tessera.json"] := Path.pieces_of_not_mem (by decide)
  have bare : Path.withoutExtension "tessera.json" = "tessera." := by
    rw [Path.withoutExtension, Path.extension?, Path.fileName?, pieces]
    decide
  have barePieces : Path.pieces "tessera." = ["tessera."] := Path.pieces_of_not_mem (by decide)
  rw [Path.withExtension, bare, Path.fileName?, barePieces]
  decide

section Tessera

variable (inside : tree.isDirectoryAt tree.working = true)
include inside

theorem leadsToFile_tessera_iff :
    tree.LeadsToFile "tessera.json" place ↔ place = tree.working ++ ["tessera.json"] ∧
      tree.isDirectoryAt (tree.working ++ ["tessera.json"]) = false := by
  have pieces : Path.pieces "tessera.json" = [] ++ ["tessera.json"] :=
    Path.pieces_of_not_mem (by decide)
  exact leadsToFile_iff_of_pieces pieces (by decide) (by decide) (by decide) (by rfl) inside

theorem leadsToFile_temporary_iff :
    tree.LeadsToFile (Path.withExtension "tessera.json" "tmp") place ↔
      place = tree.working ++ ["tessera.tmp"] ∧
        tree.isDirectoryAt (tree.working ++ ["tessera.tmp"]) = false := by
  have pieces : Path.pieces "tessera.tmp" = [] ++ ["tessera.tmp"] :=
    Path.pieces_of_not_mem (by decide)
  rw [withExtension_tessera]
  exact leadsToFile_iff_of_pieces pieces (by decide) (by decide) (by decide) (by rfl) inside

end Tessera

/-- A tree with a configuration and documents. -/
def storedTree : FileTree where
  entries := [(["work"], .directory ⟨0⟩), (["work", "tessera.json"], .file [0x7b, 0x7d] ⟨0⟩),
    (["work", "docs"], .directory ⟨0⟩), (["work", "docs", "tessera.tmp"], .file [0x61] ⟨0⟩)]

/-- A drive that takes one byte. -/
def fullDrive : Drive where
  contents := some (1, .refused "No space left on device (os error 28)")

/-- A configuration is stored over another, and no document is touched; on a drive that is full
only the beginning of a temporary file is left. -/
theorem storing_touches_two_places_stored :
    storedTree.Rooted ∧
      (∃ after, storedTree.storeConfig "tessera.json" {} ⟨1⟩ = (.ok (), after) ∧
        after.read "tessera.json" = .ok (Text.encode (Configuration.toValue {}).pretty) ∧
        ∀ there, there ≠ ["work", "tessera.json"] →
          after.find? there = storedTree.find? there) ∧
      ∃ error after,
        storedTree.storeConfig "tessera.json" {} ⟨1⟩ fullDrive = (.error error, after) ∧
        ∀ there, there ≠ ["work", "tessera.tmp"] →
          after.find? there = storedTree.find? there := by
  have rooted : storedTree.Rooted := rooted_of_entries (by decide)
  have inside : storedTree.isDirectoryAt storedTree.working = true := rfl
  refine ⟨rooted, ?_, ?_⟩
  · cases stored : storedTree.storeConfig "tessera.json" {} ⟨1⟩ with
    | mk outcome after =>
        obtain ⟨-, succeeds, success, -⟩ := storing_touches_two_places rooted stored
        obtain rfl := succeeds.2 ⟨⟨⟨rfl, rfl, rfl, rfl⟩, fun _ => rfl, fun _ => rfl⟩,
          ⟨_, (leadsToFile_temporary_iff inside).2 ⟨rfl, rfl⟩⟩,
          ⟨_, (leadsToFile_tessera_iff inside).2 ⟨rfl, rfl⟩⟩⟩
        obtain ⟨temporary, place, inPlace⟩ := success rfl
        obtain ⟨rfl, -⟩ := (leadsToFile_temporary_iff inside).1 inPlace.written
        obtain ⟨rfl, -⟩ := (leadsToFile_tessera_iff inside).1 inPlace.leads
        exact ⟨after, rfl, inPlace.reads, inPlace.alone (.inr (by decide))⟩
  · cases stored : storedTree.storeConfig "tessera.json" {} ⟨1⟩ fullDrive with
    | mk outcome after =>
        obtain ⟨-, succeeds, -, failure⟩ := storing_touches_two_places rooted stored
        cases outcome with
        | ok => exact absurd (succeeds.1 rfl).1.contents nofun
        | error error =>
            refine ⟨error, after, rfl, ?_⟩
            obtain ⟨rfl, -⟩ | ⟨temporary, written, -, others, -⟩ | ⟨-, stores, -⟩ := failure error rfl
            · exact fun _ _ => rfl
            · obtain ⟨rfl, -⟩ := (leadsToFile_temporary_iff inside).1 written
              exact others
            · exact absurd stores.contents nofun

/-- A file stands in the place of the temporary file. -/
def occupiedTree : FileTree where
  entries := [(["work"], .directory ⟨0⟩), (["work", "tessera.tmp"], .file [0x61] ⟨0⟩)]

/-- A directory stands in the place of the configuration. -/
def blockedTree : FileTree where
  entries := [(["work"], .directory ⟨0⟩), (["work", "tessera.json"], .directory ⟨0⟩)]

/-- A configuration stands in a directory of the root. -/
def docsTree : FileTree where
  entries := [(["docs"], .directory ⟨0⟩), (["docs", "tessera.json"], .file [0x61] ⟨0⟩)]

/-- A drive that does not open directories. -/
def closedDrive : Drive where
  opening := some (.refused "Permission denied (os error 13)")

theorem withExtension_docs :
    Path.withExtension "/docs/tessera.json" "tmp" = "/docs/tessera.tmp" := by
  have pieces : Path.pieces "/docs/tessera.json" = ["", "docs", "tessera.json"] := by
    rw [Path.pieces_eq]
    decide
  have bare : Path.withoutExtension "/docs/tessera.json" = "/docs/tessera." := by
    rw [Path.withoutExtension, Path.extension?, Path.fileName?, pieces]
    decide
  have barePieces : Path.pieces "/docs/tessera." = ["", "docs", "tessera."] := by
    rw [Path.pieces_eq]
    decide
  rw [Path.withExtension, bare, Path.fileName?, barePieces]
  decide

theorem parent_docs : Path.parent "/docs/tessera.json" ≠ "" := by
  have pieces : Path.pieces "/docs/tessera.json" = ["", "docs", "tessera.json"] := by
    rw [Path.pieces_eq]
    decide
  rw [Path.parent, pieces]
  decide

theorem docsTree_leadsToFile_iff :
    docsTree.LeadsToFile "/docs/tessera.json" place ↔ place = ["docs", "tessera.json"] ∧
      docsTree.isDirectoryAt ["docs", "tessera.json"] = false := by
  have pieces : Path.pieces "/docs/tessera.json" = ["", "docs"] ++ ["tessera.json"] := by
    rw [Path.pieces_eq]
    decide
  have followed : docsTree.follow [] ["", "docs"] = .ok ["docs"] := rfl
  exact leadsToFile_iff_of_pieces pieces (by decide) (by decide) (by decide) followed rfl

theorem docsTree_leadsToFile_temporary :
    docsTree.LeadsToFile (Path.withExtension "/docs/tessera.json" "tmp")
      ["docs", "tessera.tmp"] := by
  have pieces : Path.pieces "/docs/tessera.tmp" = ["", "docs"] ++ ["tessera.tmp"] := by
    rw [Path.pieces_eq]
    decide
  have followed : docsTree.follow [] ["", "docs"] = .ok ["docs"] := rfl
  rw [withExtension_docs]
  exact (leadsToFile_iff_of_pieces pieces (by decide) (by decide) (by decide) followed rfl).2
    ⟨rfl, rfl⟩

/-- What stands in the place of the temporary file is lost, a temporary file that cannot be moved
stays, and a file has been replaced though its directory cannot be opened. -/
theorem stored_over_temporary_file :
    (∃ after, occupiedTree.storeConfig "tessera.json" {} ⟨1⟩ = (.ok (), after) ∧
        occupiedTree.find? ["work", "tessera.tmp"] = some (.file [0x61] ⟨0⟩) ∧
        after.find? ["work", "tessera.tmp"] = none) ∧
      (∃ error after, blockedTree.storeConfig "tessera.json" {} ⟨1⟩ = (.error error, after) ∧
        blockedTree.find? ["work", "tessera.tmp"] = none ∧
        (after.find? ["work", "tessera.tmp"]).isSome = true) ∧
      ∃ error after,
        docsTree.storeConfig "/docs/tessera.json" {} ⟨1⟩ closedDrive = (.error error, after) ∧
        docsTree.find? ["docs", "tessera.json"] = some (.file [0x61] ⟨0⟩) ∧
        after.find? ["docs", "tessera.json"] =
          some (.file (Text.encode (Configuration.toValue {}).pretty) ⟨1⟩) := by
  refine ⟨?_, ?_, ?_⟩
  · have rooted : occupiedTree.Rooted := rooted_of_entries (by decide)
    have inside : occupiedTree.isDirectoryAt occupiedTree.working = true := rfl
    obtain ⟨after, stored⟩ := exists_replaceFile rooted
      (Text.encode (Configuration.toValue {}).pretty) ⟨1⟩
      ((leadsToFile_temporary_iff inside).2 ⟨rfl, rfl⟩)
      ((leadsToFile_tessera_iff inside).2 ⟨rfl, rfl⟩)
    obtain ⟨temporary, place, inPlace⟩ := exists_inPlace_of_replaceFile rooted stored
    obtain ⟨rfl, -⟩ := (leadsToFile_temporary_iff inside).1 inPlace.written
    obtain ⟨rfl, -⟩ := (leadsToFile_tessera_iff inside).1 inPlace.leads
    exact ⟨after, stored, rfl, inPlace.vacated (by decide)⟩
  · have rooted : blockedTree.Rooted := rooted_of_entries (by decide)
    have inside : blockedTree.isDirectoryAt blockedTree.working = true := rfl
    have cases := replaceFile_replaced rooted (Text.encode (Configuration.toValue {}).pretty) ⟨1⟩
      "tessera.json" {}
    cases stored : blockedTree.replaceFile "tessera.json"
      (Text.encode (Configuration.toValue {}).pretty) ⟨1⟩ with
    | mk outcome after =>
    rw [stored] at cases
    cases cases with
    | unwritten refused =>
        exact absurd ((leadsToFile_temporary_iff inside).2 ⟨rfl, rfl⟩)
          (refused.resolve_left nofun _)
    | unfinished isTemporary _ =>
        obtain ⟨rfl, -⟩ := (leadsToFile_temporary_iff inside).1 isTemporary
        exact ⟨_, _, stored, rfl, congrArg Option.isSome (find?_put_self blockedTree _ _)⟩
    | moved _ _ leads =>
        exact absurd ((leadsToFile_tessera_iff inside).1 leads).2 (by decide)
  · have rooted : docsTree.Rooted := rooted_of_entries (by decide)
    have leads := docsTree_leadsToFile_iff.2 ⟨rfl, rfl⟩
    have cases := replaceFile_replaced rooted (Text.encode (Configuration.toValue {}).pretty) ⟨1⟩
      "/docs/tessera.json" closedDrive
    cases stored : docsTree.replaceFile "/docs/tessera.json"
      (Text.encode (Configuration.toValue {}).pretty) ⟨1⟩ closedDrive with
    | mk outcome after =>
    rw [stored] at cases
    cases cases with
    | unwritten refused =>
        exact absurd docsTree_leadsToFile_temporary (refused.resolve_left nofun _)
    | unfinished _ unfinished =>
        exact absurd unfinished (not_unfinished ⟨rfl, rfl, rfl, rfl⟩ leads _)
    | moved _ isTemporary isPlace flushed =>
        obtain ⟨rfl, -⟩ := docsTree_leadsToFile_iff.1 isPlace
        have holds := (inPlace_moved rooted (Text.encode (Configuration.toValue {}).pretty) ⟨1⟩
          isTemporary isPlace).holds
        cases flushed with
        | unopened => exact ⟨_, _, stored, rfl, holds⟩
        | unflushed _ opened => cases opened
        | flushed opened => cases opened
        | unnamed unnamed => exact absurd unnamed parent_docs

end FileTree

end DocumentHost
