import DocumentHost.Proofs.Json.Lexemes
import DocumentHost.Proofs.Text.Occurrence

/-!
# Values are read as they are written

The written form of a value, spread over lines, is read as the structure of the value: the
integers as their literals, the members in their order.  Numbers with a point are left out.
-/

namespace DocumentHost.Json

/-! ## The structure of a value -/

mutual

/-- The structure that is read from the written form of a value.  Numbers with a point have
none here. -/
def structure? : Json → Option Node
  | .null => some .null
  | .bool value => some (.bool value)
  | .integer value => some (.number (literalOf value))
  | .float _ => none
  | .text value => some (.text (some value))
  | .array items => (itemStructures? items).map .array
  | .object members => (memberStructures? members).map .object

/-- The structures of items. -/
def itemStructures? : List Json → Option (List Node)
  | [] => some []
  | item :: rest => do return (← structure? item) :: (← itemStructures? rest)

/-- The structures of members. -/
def memberStructures? : List (String × Json) → Option (List (Option String × Node))
  | [] => some []
  | (name, value) :: rest => do
      return (some name, ← structure? value) :: (← memberStructures? rest)

end

theorem itemStructures?_cons {item : Json} {others : List Json} {nodes : List Node}
    (areStructures : itemStructures? (item :: others) = some nodes) :
    ∃ node rest, item.structure? = some node ∧ itemStructures? others = some rest ∧
      nodes = node :: rest := by
  simp only [itemStructures?, Option.bind_eq_bind, Option.bind_eq_some_iff, Option.pure_def,
    Option.some.injEq] at areStructures
  obtain ⟨node, isItem, rest, areOthers, rfl⟩ := areStructures
  exact ⟨node, rest, isItem, areOthers, rfl⟩

theorem memberStructures?_cons {name : String} {value : Json} {others : List (String × Json)}
    {written : List (Option String × Node)}
    (areStructures : memberStructures? ((name, value) :: others) = some written) :
    ∃ node rest, value.structure? = some node ∧ memberStructures? others = some rest ∧
      written = (some name, node) :: rest := by
  simp only [memberStructures?, Option.bind_eq_bind, Option.bind_eq_some_iff, Option.pure_def,
    Option.some.injEq] at areStructures
  obtain ⟨node, isValue, rest, areOthers, rfl⟩ := areStructures
  exact ⟨node, rest, isValue, areOthers, rfl⟩

/-! ## Blanks and brackets -/

theorem skipSpace_cons {byte : UInt8} (visible : isSpace byte = false) (rest : List UInt8) :
    skipSpace (byte :: rest) = byte :: rest := by
  rw [skipSpace, List.dropWhile_cons_of_neg (by simp [visible])]

theorem encode_indentation (level : Nat) :
    Text.encode (indentation level) = 0x0A :: List.replicate (2 * level) 0x20 := by
  have blanks (count : Nat) :
      (List.replicate count ' ').flatMap String.utf8EncodeChar = List.replicate count 0x20 := by
    induction count with
    | zero => rfl
    | succ count ih =>
        rw [List.replicate_succ, List.flatMap_cons, ih]
        rfl
  rw [indentation, Text.encode_append, Text.encode_ofList, Text.encode_ofList, blanks]
  rfl

theorem skipSpace_indentation (level : Nat) (rest : List UInt8) :
    skipSpace (Text.encode (indentation level) ++ rest) = skipSpace rest := by
  rw [skipSpace, skipSpace, List.dropWhile_append_of_pos]
  intro byte belongs
  rw [encode_indentation, List.mem_cons, List.mem_replicate] at belongs
  rcases belongs with rfl | ⟨-, rfl⟩ <;> rfl

theorem length_indentation_pos (level : Nat) : 0 < (Text.encode (indentation level)).length := by
  rw [encode_indentation]
  exact Nat.succ_pos _

theorem closed_indentation (level : Nat) (rest : List UInt8) :
    Closed (Text.encode (indentation level) ++ rest) := by
  rw [encode_indentation]
  rintro byte ⟨⟩
  exact .inr rfl

theorem closed_comma (rest : List UInt8) : Closed (0x2C :: rest) := by
  rintro byte ⟨⟩
  exact .inl rfl

/-- Blanks at the front do not matter. -/
theorem readNode?_skip {bytes others : List UInt8} (same : skipSpace bytes = skipSpace others)
    (fuel : Nat) : readNode? fuel bytes = readNode? fuel others := by
  cases fuel with
  | zero => rfl
  | succ fuel => rw [readNode?, readNode?, same]

section Brackets

variable (fuel : Nat) {rest left : List UInt8}

/-- A byte that is not blank says what stands at the front. -/
theorem readNode?_cons {byte : UInt8} (visible : isSpace byte = false) (rest : List UInt8) :
    readNode? (fuel + 1) (byte :: rest) =
      if byte = byteOf '"' then
        (readText? {} rest).map fun read => (Node.text read.1, read.2)
      else if byte = byteOf '[' then
        match skipSpace rest with
        | 0x5D :: left => some (.array [], left)
        | _ => (readItems? fuel rest).map fun read => (Node.array read.1, read.2)
      else if byte = 0x7B then
        match skipSpace rest with
        | 0x7D :: left => some (.object [], left)
        | _ => (readMembers? fuel rest).map fun read => (Node.object read.1, read.2)
      else if byte = byteOf 'n' then
        (takeWord? "null" (byte :: rest)).map fun left => (Node.null, left)
      else if byte = byteOf 't' then
        (takeWord? "true" (byte :: rest)).map fun left => (Node.bool true, left)
      else if byte = byteOf 'f' then
        (takeWord? "false" (byte :: rest)).map fun left => (Node.bool false, left)
      else readNumber? (byte :: rest) := by
  have unfolded := readNode?.eq_2 (byte :: rest) fuel
  rwa [skipSpace_cons visible] at unfolded

theorem readNode?_emptyArray (closes : skipSpace rest = 0x5D :: left) :
    readNode? (fuel + 1) (0x5B :: rest) = some (.array [], left) := by
  rw [readNode?_cons fuel rfl, if_neg (by decide), if_pos (by decide), closes]
  rfl

theorem readNode?_array {byte : UInt8} (opens : skipSpace rest = byte :: left)
    (isItem : byte ≠ 0x5D) :
    readNode? (fuel + 1) (0x5B :: rest) =
      (readItems? fuel rest).map fun read => (Node.array read.1, read.2) := by
  rw [readNode?_cons fuel rfl, if_neg (by decide), if_pos (by decide), opens]
  split
  · next closes => exact absurd (List.cons.inj closes).1 isItem
  · rfl

theorem readNode?_emptyObject (closes : skipSpace rest = 0x7D :: left) :
    readNode? (fuel + 1) (0x7B :: rest) = some (.object [], left) := by
  rw [readNode?_cons fuel rfl, if_neg (by decide), if_neg (by decide), if_pos rfl, closes]
  rfl

theorem readNode?_object {byte : UInt8} (opens : skipSpace rest = byte :: left)
    (isMember : byte ≠ 0x7D) :
    readNode? (fuel + 1) (0x7B :: rest) =
      (readMembers? fuel rest).map fun read => (Node.object read.1, read.2) := by
  rw [readNode?_cons fuel rfl, if_neg (by decide), if_neg (by decide), if_pos rfl, opens]
  split
  · next closes => exact absurd (List.cons.inj closes).1 isMember
  · rfl

theorem readNode?_text (text : String) (rest : List UInt8) :
    readNode? (fuel + 1) (Text.encode (quote text) ++ rest) = some (.text (some text), rest) := by
  obtain ⟨written, isWritten, read⟩ := readText?_quote text rest
  rw [isWritten, readNode?_cons fuel rfl, if_pos (by decide), read]
  rfl

theorem takeWord?_append (word : String) (rest : List UInt8) :
    takeWord? word (Text.encode word ++ rest) = some rest :=
  Text.behindFront?_eq_some_iff.2 rfl

theorem readNode?_null (rest : List UInt8) :
    readNode? (fuel + 1) (Text.encode "null" ++ rest) = some (.null, rest) := by
  have word := takeWord?_append "null" rest
  rw [Text.encode_ofList] at word ⊢
  exact congrArg (Option.map fun left => (Node.null, left)) word

theorem readNode?_bool (value : Bool) (rest : List UInt8) :
    readNode? (fuel + 1) (Text.encode (if value then "true" else "false") ++ rest) =
      some (.bool value, rest) := by
  cases value with
  | false =>
      have word := takeWord?_append "false" rest
      rw [if_neg (by decide), Text.encode_ofList] at *
      exact congrArg (Option.map fun left => (Node.bool false, left)) word
  | true =>
      have word := takeWord?_append "true" rest
      rw [if_pos rfl, Text.encode_ofList] at *
      exact congrArg (Option.map fun left => (Node.bool true, left)) word

theorem differs_of_number {byte : UInt8} (above : 0x2D ≤ byte) (below : byte ≤ 0x39)
    (other : UInt8) (outside : other < 0x2D ∨ 0x39 < other := by decide) : byte ≠ other := by
  rintro rfl
  exact outside.elim (fun low => absurd above (UInt8.not_le.2 low))
    fun high => absurd below (UInt8.not_le.2 high)

theorem visible_of_number {byte : UInt8} (above : 0x2D ≤ byte) (below : byte ≤ 0x39) :
    isSpace byte = false := by
  simp [isSpace, differs_of_number above below 0x20, differs_of_number above below 0x09,
    differs_of_number above below 0x0A, differs_of_number above below 0x0D]

theorem readNode?_integer (value : Int) {rest : List UInt8} (closed : Closed rest) :
    readNode? (fuel + 1) (Text.encode (toString value) ++ rest) =
      some (.number (literalOf value), rest) := by
  have read := readNumber?_literalOf value closed
  obtain ⟨byte, others, isFront, above, below⟩ := front_toString value rest
  rw [isFront] at read ⊢
  rw [readNode?_cons fuel (visible_of_number above below)]
  iterate 6 rw [if_neg (differs_of_number above below _)]
  rw [read]

end Brackets

/-! ## Reading what has been written -/

theorem encode_array (item : Json) (others : List Json) (level : Nat) :
    Text.encode (spread level (.array (item :: others))) =
      0x5B :: (Text.encode (spreadItems (level + 1) (item :: others)) ++
        (Text.encode (indentation level) ++ [0x5D])) := by
  rw [spread, Text.encode_append, Text.encode_append, Text.encode_append, Text.encode_ofList,
    Text.encode_ofList, List.append_assoc, List.append_assoc]
  · rfl
  · nofun

theorem encode_object (member : String × Json) (others : List (String × Json)) (level : Nat) :
    Text.encode (spread level (.object (member :: others))) =
      0x7B :: (Text.encode (spreadMembers (level + 1) (member :: others)) ++
        (Text.encode (indentation level) ++ [0x7D])) := by
  rw [spread, Text.encode_append, Text.encode_append, Text.encode_append, Text.encode_ofList,
    Text.encode_ofList, List.append_assoc, List.append_assoc]
  · rfl
  · nofun

/-- At the front of a written value stands no blank and no closing bracket. -/
theorem front_spread {value : Json} {node : Node} (isStructure : value.structure? = some node)
    (level : Nat) (rest : List UInt8) :
    ∃ byte others, Text.encode (spread level value) ++ rest = byte :: others ∧
      isSpace byte = false ∧ byte ≠ 0x5D := by
  cases value with
  | null => exact ⟨0x6E, _, by rw [spread, Text.encode_ofList]; rfl, rfl, by decide⟩
  | bool value =>
      rw [spread]
      cases value with
      | false =>
          exact ⟨0x66, _, by rw [if_neg (by decide), Text.encode_ofList]; rfl, rfl, by decide⟩
      | true => exact ⟨0x74, _, by rw [if_pos rfl, Text.encode_ofList]; rfl, rfl, by decide⟩
  | integer value =>
      obtain ⟨byte, others, isFront, above, below⟩ := front_toString value rest
      exact ⟨byte, others, isFront, visible_of_number above below, by
        rintro rfl
        exact absurd below (by decide)⟩
  | float value => cases isStructure
  | text value => exact ⟨0x22, _, by rw [spread, encode_quote]; rfl, rfl, by decide⟩
  | array items =>
      cases items with
      | nil => exact ⟨0x5B, _, by rw [spread, Text.encode_ofList]; rfl, rfl, by decide⟩
      | cons item others => exact ⟨0x5B, _, by rw [encode_array]; rfl, rfl, by decide⟩
  | object members =>
      cases members with
      | nil => exact ⟨0x7B, _, by rw [spread, Text.encode_ofList]; rfl, rfl, by decide⟩
      | cons member others => exact ⟨0x7B, _, by rw [encode_object]; rfl, rfl, by decide⟩

/-- Items start on lines of their own. -/
theorem encode_spreadItems (level : Nat) (item : Json) (others : List Json) :
    Text.encode (spreadItems level (item :: others)) =
      Text.encode (indentation level) ++ (Text.encode (spread level item) ++
        (if others.isEmpty then [] else 0x2C :: Text.encode (spreadItems level others))) := by
  cases others with
  | nil =>
      rw [List.isEmpty_nil, if_pos rfl, List.append_nil, ← Text.encode_append, ← spreadItems]
  | cons next others =>
      rw [spreadItems, Text.encode_append, Text.encode_append, Text.encode_append,
        Text.encode_ofList, List.append_assoc, List.append_assoc, List.isEmpty_cons,
        if_neg (by decide)]
      rfl

/-- Members start on lines of their own. -/
theorem encode_spreadMembers (level : Nat) (name : String) (value : Json)
    (others : List (String × Json)) :
    Text.encode (spreadMembers level ((name, value) :: others)) =
      Text.encode (indentation level) ++ (Text.encode (quote name) ++
        (0x3A :: 0x20 :: (Text.encode (spread level value) ++
          (if others.isEmpty then [] else 0x2C :: Text.encode (spreadMembers level others))))) := by
  have colon : Text.encode ": " = [0x3A, 0x20] := Text.encode_ofList [':', ' ']
  cases others with
  | nil =>
      rw [List.isEmpty_nil, if_pos rfl, List.append_nil, spreadMembers.eq_def]
      dsimp only
      rw [Text.encode_append, Text.encode_append, Text.encode_append, colon, List.append_assoc,
        List.append_assoc]
      rfl
  | cons next others =>
      rw [spreadMembers, Text.encode_append, Text.encode_append, Text.encode_append,
        Text.encode_append, Text.encode_append, colon, Text.encode_ofList, List.isEmpty_cons,
        if_neg (by decide)]
      simp only [List.append_assoc]
      rfl

theorem front_spreadItems {item : Json} {others : List Json} {nodes : List Node}
    (areStructures : itemStructures? (item :: others) = some nodes) (level : Nat)
    (behind : List UInt8) :
    ∃ byte left, skipSpace (Text.encode (spreadItems level (item :: others)) ++ behind) =
      byte :: left ∧ byte ≠ 0x5D := by
  obtain ⟨node, -, isItem, -⟩ := itemStructures?_cons areStructures
  rw [encode_spreadItems, List.append_assoc, List.append_assoc, skipSpace_indentation]
  obtain ⟨byte, left, isFront, visible, notClosing⟩ := front_spread isItem level
    ((if others.isEmpty then [] else 0x2C :: Text.encode (spreadItems level others)) ++ behind)
  exact ⟨byte, left, by rw [isFront, skipSpace_cons visible], notClosing⟩

theorem front_spreadMembers (level : Nat) (name : String) (value : Json)
    (others : List (String × Json)) (behind : List UInt8) :
    ∃ left, skipSpace (Text.encode (spreadMembers level ((name, value) :: others)) ++ behind) =
      0x22 :: left := by
  rw [encode_spreadMembers, List.append_assoc, List.append_assoc, skipSpace_indentation,
    encode_quote]
  exact ⟨_, skipSpace_cons rfl _⟩

section Separators

variable (level : Nat) {fuel : Nat} {bytes behind rest left : List UInt8} {item value : Node}
  {items : List Node}

/-- Blanks at the front do not matter. -/
theorem readNode?_indentation :
    readNode? fuel (Text.encode (indentation level) ++ bytes) = readNode? fuel bytes :=
  readNode?_skip (skipSpace_indentation level bytes) fuel

/-- What stands behind an item says whether more items follow. -/
theorem readItems?_indentation (read : readNode? fuel bytes = some (item, behind)) :
    readItems? (fuel + 1) (Text.encode (indentation level) ++ bytes) =
      match skipSpace behind with
      | 0x2C :: rest => do
          let (items, left) ← readItems? fuel rest
          return (item :: items, left)
      | 0x5D :: left => return ([item], left)
      | _ => none := by
  rw [readItems?, readNode?_indentation, read]
  rfl

theorem readItems?_last (read : readNode? fuel bytes = some (item, behind))
    (closes : skipSpace behind = 0x5D :: left) :
    readItems? (fuel + 1) (Text.encode (indentation level) ++ bytes) = some ([item], left) := by
  rw [readItems?_indentation level read, closes]
  rfl

theorem readItems?_more (read : readNode? fuel bytes = some (item, 0x2C :: rest))
    (others : readItems? fuel rest = some (items, left)) :
    readItems? (fuel + 1) (Text.encode (indentation level) ++ bytes) =
      some (item :: items, left) := by
  rw [readItems?_indentation level read, skipSpace_cons rfl]
  simp [others]

variable (name : String) {members : List (Option String × Node)}

/-- What stands behind a member says whether more members follow. -/
theorem readMembers?_indentation (read : readNode? fuel bytes = some (value, behind)) :
    readMembers? (fuel + 1) (Text.encode (indentation level) ++
      (Text.encode (quote name) ++ 0x3A :: 0x20 :: bytes)) =
        match skipSpace behind with
        | 0x2C :: rest => do
            let (members, left) ← readMembers? fuel rest
            return ((some name, value) :: members, left)
        | 0x7D :: left => return ([(some name, value)], left)
        | _ => none := by
  obtain ⟨behindQuote, isQuote, named⟩ := readText?_quote name (0x3A :: 0x20 :: bytes)
  have opens : skipSpace (Text.encode (indentation level) ++
      (Text.encode (quote name) ++ 0x3A :: 0x20 :: bytes)) = 0x22 :: behindQuote := by
    rw [skipSpace_indentation, isQuote, skipSpace_cons rfl]
  have colon : skipSpace (0x3A :: 0x20 :: bytes) = 0x3A :: 0x20 :: bytes := skipSpace_cons rfl _
  have blank : readNode? fuel (0x20 :: bytes) = some (value, behind) :=
    (readNode?_skip (List.dropWhile_cons_of_pos rfl) fuel).trans read
  -- The equation is simplified, not the goal, whose right side has the same match.
  have unfolded := readMembers?.eq_2 (Text.encode (indentation level) ++
    (Text.encode (quote name) ++ 0x3A :: 0x20 :: bytes)) fuel
  simp only [opens, named, colon, blank, Option.bind_eq_bind, Option.bind_some] at unfolded
  exact unfolded

theorem readMembers?_last (read : readNode? fuel bytes = some (value, behind))
    (closes : skipSpace behind = 0x7D :: left) :
    readMembers? (fuel + 1) (Text.encode (indentation level) ++
      (Text.encode (quote name) ++ 0x3A :: 0x20 :: bytes)) = some ([(some name, value)], left) := by
  rw [readMembers?_indentation level name read, closes]
  rfl

theorem readMembers?_more (read : readNode? fuel bytes = some (value, 0x2C :: rest))
    (others : readMembers? fuel rest = some (members, left)) :
    readMembers? (fuel + 1) (Text.encode (indentation level) ++
      (Text.encode (quote name) ++ 0x3A :: 0x20 :: bytes)) =
        some ((some name, value) :: members, left) := by
  rw [readMembers?_indentation level name read, skipSpace_cons rfl]
  simp [others]

end Separators

mutual

theorem readNode?_spread (value : Json) {node : Node} (isStructure : value.structure? = some node)
    {level fuel : Nat} (enough : (Text.encode (spread level value)).length < fuel)
    {rest : List UInt8} (closed : Closed rest) :
    readNode? fuel (Text.encode (spread level value) ++ rest) = some (node, rest) := by
  match fuel with
  | 0 => exact absurd enough (Nat.not_lt_zero _)
  | fuel + 1 =>
    match value with
    | .null =>
        cases isStructure
        rw [spread]
        exact readNode?_null fuel rest
    | .bool value =>
        cases isStructure
        rw [spread]
        exact readNode?_bool fuel value rest
    | .integer value =>
        cases isStructure
        rw [spread]
        exact readNode?_integer fuel value closed
    | .float value => cases isStructure
    | .text value =>
        cases isStructure
        rw [spread]
        exact readNode?_text fuel value rest
    | .array [] =>
        cases isStructure
        rw [spread, Text.encode_ofList]
        exact readNode?_emptyArray fuel rfl
    | .array (item :: others) =>
        rw [structure?, Option.map_eq_some_iff] at isStructure
        obtain ⟨nodes, areStructures, rfl⟩ := isStructure
        rw [encode_array, List.length_cons, List.length_append] at enough
        have read : readItems? fuel (Text.encode (spreadItems (level + 1) (item :: others)) ++
            (Text.encode (indentation level) ++ 0x5D :: rest)) = some (nodes, rest) :=
          readItems?_spread item others areStructures (by omega) level rest
        obtain ⟨byte, left, opens, isItem⟩ := front_spreadItems areStructures (level + 1)
          (Text.encode (indentation level) ++ 0x5D :: rest)
        rw [encode_array, List.cons_append, List.append_assoc, List.append_assoc,
          List.singleton_append, readNode?_array fuel opens isItem, read]
        rfl
    | .object [] =>
        cases isStructure
        rw [spread, Text.encode_ofList]
        exact readNode?_emptyObject fuel rfl
    | .object ((name, value) :: others) =>
        rw [structure?, Option.map_eq_some_iff] at isStructure
        obtain ⟨written, areStructures, rfl⟩ := isStructure
        rw [encode_object, List.length_cons, List.length_append] at enough
        have read : readMembers? fuel
            (Text.encode (spreadMembers (level + 1) ((name, value) :: others)) ++
              (Text.encode (indentation level) ++ 0x7D :: rest)) = some (written, rest) :=
          readMembers?_spread name value others areStructures (by omega) level rest
        obtain ⟨left, opens⟩ := front_spreadMembers (level + 1) name value others
          (Text.encode (indentation level) ++ 0x7D :: rest)
        rw [encode_object, List.cons_append, List.append_assoc, List.append_assoc,
          List.singleton_append, readNode?_object fuel opens (by decide), read]
        rfl
termination_by structural fuel

theorem readItems?_spread (item : Json) (others : List Json) {nodes : List Node}
    (areStructures : itemStructures? (item :: others) = some nodes) {level fuel : Nat}
    (enough : (Text.encode (spreadItems level (item :: others))).length < fuel) (lower : Nat)
    (rest : List UInt8) :
    readItems? fuel (Text.encode (spreadItems level (item :: others)) ++
      (Text.encode (indentation lower) ++ 0x5D :: rest)) = some (nodes, rest) := by
  match fuel with
  | 0 => exact absurd enough (Nat.not_lt_zero _)
  | fuel + 1 =>
    obtain ⟨node, nodes, isItem, areOthers, rfl⟩ := itemStructures?_cons areStructures
    have longer := length_indentation_pos level
    rw [encode_spreadItems, List.length_append, List.length_append] at enough
    rw [encode_spreadItems, List.append_assoc, List.append_assoc]
    cases others with
    | nil =>
        cases areOthers
        exact readItems?_last level
          (readNode?_spread item isItem (by omega) (closed_indentation lower _))
          ((skipSpace_indentation lower _).trans (skipSpace_cons rfl _))
    | cons next others =>
        rw [List.isEmpty_cons, if_neg (by decide), List.length_cons] at enough
        rw [List.isEmpty_cons, if_neg (by decide)]
        exact readItems?_more level (readNode?_spread item isItem (by omega) (closed_comma _))
          (readItems?_spread next others areOthers (by omega) lower rest)
termination_by structural fuel

theorem readMembers?_spread (name : String) (value : Json) (others : List (String × Json))
    {written : List (Option String × Node)}
    (areStructures : memberStructures? ((name, value) :: others) = some written) {level fuel : Nat}
    (enough : (Text.encode (spreadMembers level ((name, value) :: others))).length < fuel)
    (lower : Nat) (rest : List UInt8) :
    readMembers? fuel (Text.encode (spreadMembers level ((name, value) :: others)) ++
      (Text.encode (indentation lower) ++ 0x7D :: rest)) = some (written, rest) := by
  match fuel with
  | 0 => exact absurd enough (Nat.not_lt_zero _)
  | fuel + 1 =>
    obtain ⟨node, written, isValue, areOthers, rfl⟩ := memberStructures?_cons areStructures
    have longer := length_indentation_pos level
    rw [encode_spreadMembers] at enough ⊢
    simp only [List.length_append, List.length_cons] at enough
    simp only [List.append_assoc, List.cons_append]
    cases others with
    | nil =>
        cases areOthers
        exact readMembers?_last level name
          (readNode?_spread value isValue (by omega) (closed_indentation lower _))
          ((skipSpace_indentation lower _).trans (skipSpace_cons rfl _))
    | cons next others =>
        obtain ⟨next, nextValue⟩ := next
        rw [List.isEmpty_cons, if_neg (by decide), List.length_cons] at enough
        rw [List.isEmpty_cons, if_neg (by decide)]
        exact readMembers?_more level name
          (readNode?_spread value isValue (by omega) (closed_comma _))
          (readMembers?_spread next nextValue others areOthers (by omega) lower rest)
termination_by structural fuel

end

/-- The structure of a value is read from its written form. -/
theorem ofBytes?_pretty {value : Json} {node : Node} (isStructure : value.structure? = some node) :
    Node.ofBytes? (Text.encode value.pretty) = some node := by
  have closed : Closed [] := by
    rintro byte ⟨⟩
  have read : readNode? (2 * (Text.encode (spread 0 value)).length + 2)
      (Text.encode (spread 0 value) ++ []) = some (node, []) :=
    readNode?_spread value isStructure (by omega) closed
  rw [List.append_nil] at read
  rw [pretty, Node.ofBytes?, read]
  rfl

end DocumentHost.Json
