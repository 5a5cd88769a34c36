import DocumentHost.Files.Path
import Mathlib.Data.List.TakeWhile
import Mathlib.Data.String.Basic

/-!
# The pieces of a path

A path is taken apart at its slashes, and putting the pieces together again gives the path.
What is behind the last slash is the last component; its extension is what is behind the last
dot of it, unless that dot is its first character.
-/

namespace DocumentHost.Path

open String

/-- The search for slashes has passed `done`, with the pieces in it, and stands in a piece that
has begun with `begun`. -/
theorem splitOnAux_slash (done begun rest : List Char) (found : List String) :
    splitOnAux (ofList (done ++ (begun ++ rest))) "/" ⟨utf8Len done⟩
        ⟨utf8Len done + utf8Len begun⟩ 0 found =
      found.reverse ++ (List.splitOnPPrepend (· == '/') rest begun.reverse).map ofList := by
  induction rest generalizing done begun found with
  | nil =>
      have piece := extract_of_valid done begun []
      have ends := atEnd_of_valid (done ++ begun) []
      rw [List.append_assoc] at piece
      rw [utf8Len_append, List.append_assoc] at ends
      rw [splitOnAux, if_pos (ends.2 rfl), piece]
      simp
  | cons character rest ih =>
      have within := atEnd_of_valid (done ++ begun) (character :: rest)
      have reads := get_of_valid (done ++ begun) (character :: rest)
      have follows := next_of_valid (done ++ begun) character rest
      rw [utf8Len_append, List.append_assoc] at within reads follows
      rw [splitOnAux, if_neg (fun ends => List.cons_ne_nil _ _ (within.1 ends)), reads, follows]
      by_cases slash : character = '/'
      · subst slash
        have piece := extract_of_valid done begun ('/' :: rest)
        rw [List.append_assoc] at piece
        have back : Pos.Raw.unoffsetBy ⟨utf8Len done + utf8Len begun + '/'.utf8Size⟩
            (Pos.Raw.next "/" 0) = ⟨utf8Len done + utf8Len begun⟩ :=
          Pos.Raw.ext (Nat.add_sub_cancel _ 1)
        have further := ih (done ++ begun ++ ['/']) [] (ofList begun :: found)
        simp only [List.append_assoc, List.singleton_append, List.nil_append, utf8Len_append,
          utf8Len_cons, utf8Len_nil, Nat.add_zero, ← Nat.add_assoc] at further
        rw [if_pos (by rfl), if_pos (by rfl), back, piece, further,
          List.splitOnPPrepend_cons_pos (by rfl), List.reverse_reverse]
        simp
      · have differs : ¬((character :: rest).headD default == Pos.Raw.get "/" 0) = true :=
          fun same => slash (beq_iff_eq.1 same)
        have stays : Pos.Raw.unoffsetBy ⟨utf8Len done + utf8Len begun⟩ 0 =
            ⟨utf8Len done + utf8Len begun⟩ := rfl
        have further := ih done (begun ++ [character]) found
        simp only [List.append_assoc, List.singleton_append, utf8Len_append, utf8Len_cons,
          utf8Len_nil, Nat.add_zero, ← Nat.add_assoc, List.reverse_append,
          List.reverse_singleton] at further
        rw [if_neg differs, stays, follows, further,
          List.splitOnPPrepend_cons_neg (by simpa using slash)]

theorem pieces_eq (path : String) :
    pieces path = (path.toList.splitOn '/').map ofList := by
  have whole := splitOnAux_slash [] [] path.toList []
  simpa [pieces, splitOn, List.splitOn_eq_splitOnP] using whole

theorem pieces_ne_nil (path : String) : pieces path ≠ [] := by
  simp [pieces_eq, List.splitOn_ne_nil]

/-- The pieces in front of a slash and those behind it. -/
theorem pieces_append_slash (front behind : String) :
    pieces (front ++ "/" ++ behind) = pieces front ++ pieces behind := by
  simp [pieces_eq, List.splitOn_append_cons_self]

theorem pieces_of_not_mem {path : String} (noSlash : '/' ∉ path.toList) :
    pieces path = [path] := by
  simp [pieces_eq, List.splitOn_eq_singleton noSlash]

theorem intercalate_pieces (path : String) : "/".intercalate (pieces path) = path := by
  apply String.toList_injective
  rw [toList_intercalate, pieces_eq, List.map_map]
  have same : String.toList ∘ ofList = id := funext fun _ => toList_ofList
  rw [same, List.map_id]
  exact List.intercalate_splitOn '/'

/-- A path that is put together from pieces without slashes has these pieces. -/
theorem pieces_intercalate {parts : List String}
    (noSlash : ∀ part ∈ parts, '/' ∉ part.toList) (some : parts ≠ []) :
    pieces ("/".intercalate parts) = parts := by
  rw [pieces_eq, toList_intercalate]
  have split : List.splitOn '/' (['/'].intercalate (parts.map String.toList)) =
      parts.map String.toList := by
    refine List.splitOn_intercalate '/' ?_ (by simpa using some)
    intro characters member
    obtain ⟨part, isPart, rfl⟩ := List.mem_map.1 member
    exact noSlash part isPart
  have slash : "/".toList = ['/'] := rfl
  rw [slash, split, List.map_map]
  have same : ofList ∘ String.toList = id := funext fun _ => ofList_toList
  rw [same, List.map_id]

theorem not_mem_of_mem_splitOn {characters part : List Char}
    (member : part ∈ characters.splitOn '/') : '/' ∉ part := by
  induction characters generalizing part with
  | nil =>
      rw [List.splitOn_nil, List.mem_singleton] at member
      simp [member]
  | cons character rest ih =>
      rw [List.splitOn_cons_eq_if_modifyHead] at member
      split at member
      · rcases List.mem_cons.1 member with rfl | later
        · exact List.not_mem_nil
        · exact ih later
      · rename_i differs
        cases split : rest.splitOn '/' with
        | nil => exact absurd split (List.splitOn_ne_nil '/' rest)
        | cons first others =>
            rw [split] at member ih
            rcases List.mem_cons.1 member with rfl | later
            · have noSlash := ih List.mem_cons_self
              rintro (_ | ⟨_, inside⟩)
              · exact differs (by rfl)
              · exact noSlash inside
            · exact ih (List.mem_cons_of_mem _ later)

theorem exists_mem_splitOn_of_mem {characters : List Char} {character : Char}
    (member : character ∈ characters) (noSlash : character ≠ '/') :
    ∃ part ∈ characters.splitOn '/', character ∈ part := by
  induction characters with
  | nil => cases member
  | cons first rest ih =>
      rw [List.splitOn_cons_eq_if_modifyHead]
      split
      · rename_i isSlash
        rcases List.mem_cons.1 member with rfl | later
        · exact absurd (beq_iff_eq.1 isSlash) noSlash
        · obtain ⟨part, isPart, inside⟩ := ih later
          exact ⟨part, List.mem_cons_of_mem _ isPart, inside⟩
      · cases split : rest.splitOn '/' with
        | nil => exact absurd split (List.splitOn_ne_nil '/' rest)
        | cons begun others =>
            rw [split] at ih
            rw [List.modifyHead_cons]
            rcases List.mem_cons.1 member with rfl | later
            · exact ⟨_, List.mem_cons_self, List.mem_cons_self⟩
            · obtain ⟨part, isPart, inside⟩ := ih later
              rcases List.mem_cons.1 isPart with rfl | other
              · exact ⟨_, List.mem_cons_self, List.mem_cons_of_mem _ inside⟩
              · exact ⟨part, List.mem_cons_of_mem _ other, inside⟩

/-- A character of a path that is not a slash is in one of the pieces. -/
theorem exists_mem_pieces_of_mem {path : String} {character : Char}
    (member : character ∈ path.toList) (noSlash : character ≠ '/') :
    ∃ part ∈ pieces path, character ∈ part.toList := by
  obtain ⟨part, isPart, inside⟩ := exists_mem_splitOn_of_mem member noSlash
  rw [pieces_eq]
  exact ⟨ofList part, List.mem_map_of_mem isPart, by rwa [toList_ofList]⟩

theorem not_mem_of_mem_pieces {path part : String} (member : part ∈ pieces path) :
    '/' ∉ part.toList := by
  rw [pieces_eq] at member
  obtain ⟨characters, isPart, rfl⟩ := List.mem_map.1 member
  rw [toList_ofList]
  exact not_mem_of_mem_splitOn isPart

/-! ## The last component and its extension -/

/-- What a path has behind its last slash. -/
def LastComponent (path component : String) : Prop :=
  '/' ∉ component.toList ∧ (path = component ∨ ∃ front, path = front ++ "/" ++ component)

/-- A component has an extension behind its last dot, with something in front of that dot. -/
def HasExtension (component extension : String) : Prop :=
  ∃ stem, stem ≠ "" ∧ component = stem ++ "." ++ extension ∧ '.' ∉ extension.toList

theorem getLast?_pieces {path component : String} :
    (pieces path).getLast? = some component ↔ LastComponent path component := by
  constructor
  · intro last
    obtain ⟨front, split⟩ := List.getLast?_eq_some_iff.1 last
    refine ⟨not_mem_of_mem_pieces (List.mem_of_getLast? last), ?_⟩
    rw [← intercalate_pieces path, split]
    by_cases first : front = []
    · exact .inl (by simp [first])
    · exact .inr ⟨"/".intercalate front, by simp [intercalate_append_of_ne_nil first]⟩
  · rintro ⟨noSlash, rfl | ⟨front, rfl⟩⟩
    · rw [pieces_of_not_mem noSlash]
      rfl
    · rw [pieces_append_slash, pieces_of_not_mem noSlash, List.getLast?_concat]

theorem exists_lastComponent (path : String) :
    ∃ component, (pieces path).getLast? = some component ∧ LastComponent path component := by
  have last := List.getLast?_eq_some_getLast (pieces_ne_nil path)
  exact ⟨_, last, getLast?_pieces.1 last⟩

theorem splitExtension_eq_some_iff {component extension : String} :
    (splitExtension component).2 = some extension ↔ HasExtension component extension := by
  constructor
  · intro found
    rw [splitExtension] at found
    split at found
    · cases found
    · rename_i some
      obtain rfl := Option.some.inj found
      have parts := List.takeWhile_append_dropWhile (p := (· != '.')) (l := component.toList.reverse)
      cases behind : component.toList.reverse.dropWhile (· != '.') with
      | nil => simp [behind] at some
      | cons dot front =>
          have isDot : dot = '.' := by
            simpa [behind] using
              List.head_dropWhile_not (· != '.') (l := component.toList.reverse) (by simp [behind])
          rw [behind, isDot] at parts
          rw [behind, List.drop_one, List.tail_cons] at some
          refine ⟨ofList front.reverse, ?_, ?_, ?_⟩
          · simpa using some
          · apply String.toList_injective
            simpa using (congrArg List.reverse parts).symm
          · rw [toList_ofList, List.mem_reverse]
            intro inside
            simpa using List.mem_takeWhile_imp inside
  · rintro ⟨stem, some, rfl, noDot⟩
    have plain : ∀ character ∈ extension.toList.reverse, (character != '.') = true := by
      intro character inside
      rw [List.mem_reverse] at inside
      exact bne_iff_ne.2 fun isDot => noDot (isDot ▸ inside)
    have reversed : (stem ++ "." ++ extension).toList.reverse =
        extension.toList.reverse ++ '.' :: stem.toList.reverse := by
      simp
    have taken : (stem ++ "." ++ extension).toList.reverse.takeWhile (· != '.') =
        extension.toList.reverse := by
      rw [reversed, List.takeWhile_append_of_pos plain]
      simp
    have dropped : (stem ++ "." ++ extension).toList.reverse.dropWhile (· != '.') =
        '.' :: stem.toList.reverse := by
      rw [reversed, List.dropWhile_append_of_pos plain]
      simp
    rw [splitExtension, taken, dropped]
    simp [some]

end DocumentHost.Path
