import DocumentHost.Proofs.Descriptor.Filing
import DocumentHost.Proofs.Descriptor.OnePerName
import DocumentHost.Proofs.Descriptor.Rereading
import DocumentHost.Proofs.Files.Below
import Mathlib.Data.List.Count
import Mathlib.Data.List.Forall2

/-!
# The listing of a source of files

The documents of a source of files are the files below its base directory and the descriptors
that it keeps without a file.  The listing fetches the first by their names and adds the second
as they are then.  So it has every file once and every document without a file once, and the
name of a document that stands in for a file twice.
-/

namespace DocumentHost

namespace World

variable {world after : World} {name : String} {id : DescriptorId} {settings : FileSettings}
  {base below : List String}

/-- The name of a descriptor. -/
def nameOf (world : World) (id : DescriptorId) : String :=
  (world.descriptors.get id).name

/-- A document that comes from no file and has not been invalidated. -/
structure Fileless (world : World) (id : DescriptorId) : Prop where
  known : id.index < world.descriptors.size
  unbacked : (world.descriptors.get id).backing = none
  unmarked : (world.descriptors.get id).invalidated = false

/-- The documents without a file that the source keeps. -/
def fileless (world : World) : List DescriptorId :=
  world.standing.filter fun id => (world.descriptors.get id).backing.isNone

/-! ## Documents without a file -/

theorem standing_eq (world : World) : world.standing =
    (world.documentEntries.map Prod.snd).filter fun id =>
      !(world.descriptors.get id).invalidated := by
  rw [standing, documentEntries]
  cases world.source <;> rfl

/-- The source keeps all documents without a file. -/
theorem Tended.mem_fileless_iff (tended : Tended [] world) :
    id ∈ world.fileless ↔ world.Fileless id := by
  rw [fileless, standing_eq]
  simp only [List.mem_filter, List.mem_map, Option.isNone_iff_eq_none, Bool.not_eq_true']
  constructor
  · rintro ⟨⟨⟨⟨name, _⟩, isKept, rfl⟩, unmarked⟩, unbacked⟩
    exact ⟨tended.known name _ isKept, unbacked, unmarked⟩
  · rintro ⟨known, unbacked, unmarked⟩
    have kept := (tended.kept id known unmarked).resolve_right List.not_mem_nil
    exact ⟨⟨⟨_, mem_documentEntries_of_kept kept, rfl⟩, unmarked⟩, unbacked⟩

/-- No two documents without a file have the same name. -/
theorem Tended.nodup_names_fileless (tended : Tended [] world) (distinct : world.Distinct) :
    (world.fileless.map world.nameOf).Nodup := by
  have names : (world.documentEntries.map Prod.snd).map world.nameOf =
      world.documentEntries.map Prod.fst := by
    rw [List.map_map]
    refine List.map_congr_left fun entry isEntry => ?_
    exact tended.named entry.1 entry.2 isEntry
  have some : (world.fileless.map world.nameOf).Sublist (world.documentEntries.map Prod.fst) := by
    rw [← names, fileless, standing_eq]
    exact (List.filter_sublist.trans List.filter_sublist).map _
  exact distinct.sublist some

/-- Fetching makes no document without a file, and it marks some. -/
theorem Fetches.fileless_iff (tended : Tended [] world) (fetches : Fetches world after) :
    after.Fileless id ↔
      world.Fileless id ∧ (after.descriptors.get id).invalidated = false := by
  have rereads := fetches.rereads
  have progress := (fetches.tends tended).continues.progress
  constructor
  · rintro ⟨knownAfter, unbacked, unmarked⟩
    have known : id.index < world.descriptors.size := by
      by_contra new
      exact (rereads.made id new knownAfter).1 unbacked
    exact ⟨⟨known, (rereads.backing id known).1 unbacked, progress.unmarked unmarked⟩, unmarked⟩
  · rintro ⟨⟨known, unbacked, -⟩, unmarked⟩
    exact ⟨Nat.lt_of_lt_of_le known rereads.size, (rereads.backing id known).2 unbacked, unmarked⟩

/-! ## What has been offered -/

/-- The name of a descriptor stays. -/
theorem Fetches.nameOf_eq (tended : Tended [] world) (fetches : Fetches world after)
    (kept : world.kept? name = some id) : after.nameOf id = name := by
  have member := mem_documentEntries_of_kept kept
  have names := (fetches.tends tended).continues.names
  exact (names id (tended.known name id member)).trans (tended.named name id member)

theorem Offers.nameOf_eq (tended : Tended [] world) (offers : Offers world after name id) :
    after.nameOf id = name := by
  obtain ⟨between, before, onward, kept, -⟩ := offers
  have tendedBetween := (before.tends tended).tended
  exact onward.nameOf_eq tendedBetween kept

/-- A document without a file is what has been offered under its name. -/
theorem Offers.eq_of_fileless (tended : Tended [] world)
    (offers : Offers world after name id) {other : DescriptorId} (fileless : after.Fileless other)
    (named : after.nameOf other = name) : id = other := by
  obtain ⟨between, before, onward, kept, -⟩ := offers
  have tendedBetween := (before.tends tended).tended
  have onwardTends := onward.tends tendedBetween
  obtain ⟨⟨known, -, unmarked⟩, -⟩ := (onward.fileless_iff tendedBetween).1 fileless
  have otherKept := (tendedBetween.kept other known unmarked).resolve_right List.not_mem_nil
  rw [← onwardTends.continues.names other known, ← nameOf, named, kept] at otherKept
  exact Option.some.inj otherKept

/-- What is offered under some names has these names. -/
theorem map_nameOf_of_offers (tended : Tended [] world) {names : List String}
    {ids : List DescriptorId} (offered : List.Forall₂ (Offers world after) names ids) :
    ids.map after.nameOf = names := by
  induction offered with
  | nil => rfl
  | cons offers _ ih => rw [List.map_cons, offers.nameOf_eq tended, ih]

/-! ## Fetching all files -/

end World

open World

/-- What can be read by a source of files. -/
structure World.Readable (settings : FileSettings) (base : List String) (world : World) : Prop where
  kind : world.source.map Source.kind = some (.files settings)
  texts : TextsBelow settings world.files base

namespace World.Readable

variable {world after : World} {name : String} {id : DescriptorId} {settings : FileSettings}
  {base below : List String}

theorem beside (readable : Readable settings base world) {context : ContextId}
    (beside : Beside context world after) : Readable settings base after := by
  refine ⟨?_, ?_⟩
  · rw [kind_of_emptied beside.source]
    exact readable.kind
  · rw [beside.files]
    exact readable.texts

end World.Readable

/-- What is listed of a source of files: every file below the base directory, with what was
valid under its name when the listing came to it, and every document without a file.  A name has
one descriptor, and it is there twice if it is both the name of a file and the one of a document
without a file. -/
structure World.Listing (base : List String) (world : World) (ids : List DescriptorId)
    (after : World) : Prop where
  sorted : (ids.map after.nameOf).Pairwise (· ≤ ·)
  counted : ∀ name, (ids.map after.nameOf).count name =
    (if name ∈ (filesBelow world.files base).map nameBelow then 1 else 0) +
      if name ∈ after.fileless.map after.nameOf then 1 else 0
  single : ∀ first ∈ ids, ∀ second ∈ ids, after.nameOf first = after.nameOf second →
    first = second
  offered : ∀ below ∈ filesBelow world.files base,
    ∃ id ∈ ids, Offers world after (nameBelow below) id
  fileless : ∀ id, id ∈ after.fileless ↔
    world.Fileless id ∧ (after.descriptors.get id).invalidated = false
  listed : ∀ id ∈ after.fileless, id ∈ ids

/-- The listing has no name twice just if no document stands in for a file. -/
theorem World.Listing.nodup_iff {base : List String} {world after : World}
    {ids : List DescriptorId} (listing : Listing base world ids after) :
    (ids.map after.nameOf).Nodup ↔ ∀ below ∈ filesBelow world.files base,
      nameBelow below ∉ after.fileless.map after.nameOf := by
  rw [List.nodup_iff_count_le_one]
  simp only [listing.counted]
  constructor
  · intro few below member standsIn
    have twice := few (nameBelow below)
    rw [if_pos (List.mem_map_of_mem member), if_pos standsIn] at twice
    omega
  · intro apart name
    by_cases isFile : name ∈ (filesBelow world.files base).map nameBelow
    · obtain ⟨below, member, rfl⟩ := List.mem_map.1 isFile
      rw [if_pos isFile, if_neg (apart below member)]
    · rw [if_neg isFile]
      split <;> omega

/-- The order in which a tree has its entries, and so the one in which its files are fetched, does
not matter for the names that are listed, as far as the same documents without a file are left. -/
theorem World.Listing.names_eq_of_perm {base : List String} {world after other otherAfter : World}
    {ids otherIds : List DescriptorId} (listing : Listing base world ids after)
    (otherListing : Listing base other otherIds otherAfter)
    (permuted : other.files.entries.Perm world.files.entries)
    (fileless : (otherAfter.fileless.map otherAfter.nameOf).Perm
      (after.fileless.map after.nameOf)) :
    otherIds.map otherAfter.nameOf = ids.map after.nameOf := by
  have files := perm_fileNames permuted base
  have sameNames : (otherIds.map otherAfter.nameOf).Perm (ids.map after.nameOf) := by
    refine List.perm_iff_count.2 fun name => ?_
    have isFile : name ∈ (filesBelow other.files base).map nameBelow ↔
        name ∈ (filesBelow world.files base).map nameBelow := files.mem_iff
    rw [listing.counted, otherListing.counted]
    simp only [isFile, fileless.mem_iff]
  exact sameNames.eq_of_pairwise (fun _ _ _ _ => String.le_antisymm) otherListing.sorted
    listing.sorted

namespace World.Readable

variable {world after : World} {settings : FileSettings} {base : List String}

/-- What has been fetched of the files makes a listing with the documents without a file. -/
theorem listing (readable : Readable settings base world) (tended : Tended [] world)
    (distinct : world.Distinct) {ids : List DescriptorId}
    (fetched : (fetchDocuments (fileNames world.files base)).eval world = (.ok ids, after)) :
    Listing base world (after.sortedByName (ids ++ after.fileless)) after := by
  obtain ⟨fetches, offered⟩ := tended.offers fetched
  have tendedAfter := (fetches.tends tended).tended
  have distinctAfter :=
    (fetches.of_lasting Filing.lasting Filing.fetching.fetchDocument).distinct distinct
  have names : ids.map after.nameOf = fileNames world.files base :=
    map_nameOf_of_offers tended offered
  have once : (ids.map after.nameOf).Nodup := names ▸ readable.texts.nodup_names
  have onceFileless := tendedAfter.nodup_names_fileless distinctAfter
  have sorts : (after.sortedByName (ids ++ after.fileless)).Perm (ids ++ after.fileless) :=
    List.mergeSort_perm ..
  have mem {id : DescriptorId} : id ∈ after.sortedByName (ids ++ after.fileless) ↔
      id ∈ ids ∨ id ∈ after.fileless := by
    rw [sorts.mem_iff, List.mem_append]
  have offer {id : DescriptorId} (member : id ∈ ids) : Offers world after (after.nameOf id) id := by
    rw [← names, List.forall₂_map_left_iff, List.forall₂_same] at offered
    exact offered id member
  have met {id other : DescriptorId} (member : id ∈ ids) (isFileless : other ∈ after.fileless)
      (same : after.nameOf other = after.nameOf id) : id = other :=
    (offer member).eq_of_fileless tended (tendedAfter.mem_fileless_iff.1 isFileless) same
  refine ⟨?_, fun name => ?_, ?_, ?_, fun id => ?_, fun id isFileless => mem.2 (.inr isFileless)⟩
  · rw [List.pairwise_map]
    exact pairwise_mergeSort_names after.nameOf _
  · rw [(sorts.map after.nameOf).count_eq, List.map_append, List.count_append,
      onceFileless.count, once.count, names]
    rfl
  · intro first isFirst second isSecond same
    rcases mem.1 isFirst with isFirst | isFirst <;> rcases mem.1 isSecond with isSecond | isSecond
    · exact List.inj_on_of_nodup_map once isFirst isSecond same
    · exact met isFirst isSecond same.symm
    · exact (met isSecond isFirst same).symm
    · exact List.inj_on_of_nodup_map onceFileless isFirst isSecond same
  · intro below member
    have isName : nameBelow below ∈ ids.map after.nameOf := by
      rw [names]
      exact List.mem_map_of_mem member
    obtain ⟨id, isRead, named⟩ := List.mem_map.1 isName
    exact ⟨id, mem.2 (.inl isRead), named ▸ offer isRead⟩
  · rw [tendedAfter.mem_fileless_iff]
    exact fetches.fileless_iff tended

end World.Readable

open World

section Shelf

end Shelf

end DocumentHost
