import DocumentHost.Proofs.Files.Resolving
import DocumentHost.Proofs.Files.Rewriting
import Mathlib.Data.List.Nodup

/-!
# The names of the files below a directory

Every file below the base directory has a name of its own, the names on the way to it with
slashes between them, and this name stands for the file.
-/

namespace DocumentHost

open Path

/-- The name of a file below the base directory. -/
def nameBelow (below : List String) : String :=
  "/".intercalate below

/-- The base directory is there, and every file below it can be read as a text under its name. -/
structure TextsBelow (settings : FileSettings) (tree : FileTree) (base : List String) : Prop where
  proper : tree.Proper
  opens : tree.Opens settings.basePath base
  inside : ∀ known ∈ tree.entries, known.1 ≠ []
  readable : ∀ below ∈ filesBelow tree base,
    ∃ text, tree.readText (settings.pathOf (nameBelow below)) = .ok text

variable {settings : FileSettings} {tree : FileTree} {base below : List String}

theorem mem_filesBelow_iff_mem : below ∈ filesBelow tree base ↔
    ∃ bytes modified, (base ++ below, .file bytes modified) ∈ tree.entries := by
  rw [filesBelow, List.mem_filterMap]
  constructor
  · rintro ⟨⟨known, entry⟩, member, found⟩
    cases entry with
    | directory modified => cases found
    | file bytes modified =>
        dsimp only at found
        split at found
        · next starts =>
            obtain ⟨rest, rfl⟩ := List.isPrefixOf_iff_prefix.1 starts
            rw [List.drop_left, Option.some.injEq] at found
            exact ⟨bytes, modified, found ▸ member⟩
        · cases found
  · rintro ⟨bytes, modified, member⟩
    refine ⟨_, member, ?_⟩
    dsimp only
    rw [if_pos (List.isPrefixOf_iff_prefix.2 (List.prefix_append ..)), List.drop_left]

theorem mem_filesBelow_iff (proper : tree.Proper) :
    below ∈ filesBelow tree base ↔ tree.HasFile (base ++ below) := by
  rw [mem_filesBelow_iff_mem]
  simp only [FileTree.HasFile, FileTree.find?_eq_some_iff_mem proper]

/-- No place is listed twice. -/
theorem nodup_filesBelow (proper : tree.Proper) : (filesBelow tree base).Nodup := by
  obtain ⟨working, entries⟩ := tree
  have once : (entries.map Prod.fst).Nodup := proper.once
  clear proper
  induction entries with
  | nil => exact List.nodup_nil
  | cons known rest ih =>
      obtain ⟨notAgain, once⟩ := List.nodup_cons.1 once
      have split : filesBelow ⟨working, known :: rest⟩ base =
          filesBelow ⟨working, [known]⟩ base ++ filesBelow ⟨working, rest⟩ base :=
        List.filterMap_append (l := [known])
      have single : (filesBelow ⟨working, [known]⟩ base).length ≤ 1 := List.length_filterMap_le ..
      rw [split]
      refine List.nodup_append.2 ⟨?_, ih once, fun below isKnown other isRest same => ?_⟩
      · cases listed : filesBelow ⟨working, [known]⟩ base with
        | nil => exact List.nodup_nil
        | cons below others =>
            rw [listed, List.length_cons] at single
            rw [List.eq_nil_of_length_eq_zero (by omega : others.length = 0)]
            exact List.nodup_singleton below
      · obtain ⟨_, _, first⟩ := mem_filesBelow_iff_mem.1 isKnown
        obtain ⟨_, _, later⟩ := mem_filesBelow_iff_mem.1 isRest
        rw [← List.mem_singleton.1 first, same] at notAgain
        exact notAgain (List.mem_map.2 ⟨_, later, rfl⟩)

namespace TextsBelow

variable (texts : TextsBelow settings tree base) (member : below ∈ filesBelow tree base)

include texts member

theorem ne_nil : below ≠ [] := by
  rintro rfl
  obtain ⟨bytes, modified, found⟩ := (mem_filesBelow_iff texts.proper).1 member
  rw [List.append_nil] at found
  have some := texts.inside _ ((FileTree.find?_eq_some_iff_mem texts.proper).1 found)
  have noDirectory := ((FileTree.hasFile_iff some).1 ⟨bytes, modified, found⟩).2
  rw [texts.opens.2] at noDirectory
  cases noDirectory

theorem isName : ∀ name ∈ below, FileTree.IsName name := by
  intro name isPart
  obtain ⟨bytes, modified, found⟩ := (mem_filesBelow_iff texts.proper).1 member
  exact texts.proper.names _ ((FileTree.find?_eq_some_iff_mem texts.proper).1 found) name
    (List.mem_append_right _ isPart)

/-- The pieces of the name of a file are the names on the way to it. -/
theorem pieces_nameBelow : pieces (nameBelow below) = below :=
  pieces_intercalate (fun name isPart => (texts.isName member name isPart).noSlash)
    (texts.ne_nil member)

theorem noParent : ".." ∉ pieces (nameBelow below) := by
  rw [texts.pieces_nameBelow member]
  exact fun isPart => absurd (texts.isName member _ isPart).proper (by decide)

end TextsBelow

/-- The names of the files below a directory. -/
def fileNames (tree : FileTree) (base : List String) : List String :=
  (filesBelow tree base).map nameBelow

/-- Different files have different names. -/
theorem TextsBelow.nodup_names (texts : TextsBelow settings tree base) :
    (fileNames tree base).Nodup := by
  refine (nodup_filesBelow texts.proper).map_on fun first isFirst second isSecond same => ?_
  rw [← texts.pieces_nameBelow isFirst, same, texts.pieces_nameBelow isSecond]

/-- In whatever order a tree has its entries, it has the same files. -/
theorem perm_fileNames {other : FileTree} (permuted : other.entries.Perm tree.entries)
    (base : List String) : (fileNames other base).Perm (fileNames tree base) :=
  (permuted.filterMap _).map _

end DocumentHost
