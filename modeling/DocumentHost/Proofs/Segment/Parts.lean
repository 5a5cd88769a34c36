import DocumentHost.Proofs.Segment.Splitting

/-!
# The parts of a document

The segments of a document stand for its parts: literal texts that are not empty, and
scriptlets that are no comments.  A part is known with the text and the scriptlets in front of
it.  The body of a scriptlet is worded with a marker, a language tag, and code, of which the
first two may be missing.
-/

namespace DocumentHost

/-! ## The wording of a scriptlet -/

/-- How a body is treated by its marker, and the tag and the code behind the marker. -/
structure Wording where
  treatment : Treatment
  tag : Option String
  code : String
deriving DecidableEq, Repr

/-- The wording of a body. -/
def Markers.wording (markers : Markers) (body : List Char) : Wording :=
  let (treatment, marked) := treatmentOf body markers.treatments
  let (tag, code) := leadingTag marked
  ⟨treatment, tag.map String.ofList, String.ofList code⟩

/-- What a scriptlet does depends on its wording. -/
theorem scriptletSegment_eq (setting : Setting) (document : Document) (active : Option String)
    (number : Nat) (body : List Char) (position : Position) :
    scriptletSegment setting document active number body position =
      let wording := setting.options.markers.wording body
      let place := document.place position
      if wording.treatment = .comment then return (none, active)
      else
        match wording.tag.or active with
        | none => throw (.noAdapter place "")
        | some tag => do
            let adapter ← requireAdapter setting place tag
            let sticks := wording.tag.isSome && wording.treatment != .inFlow &&
              !((← get).profile adapter).ephemeral
            let nextTag := if sticks then some tag else active
            match wording.treatment with
            | .expression =>
                let text ← codeForExpression place adapter wording.code
                return (some (.program text (some tag) position), nextTag)
            | .documentInclude =>
                let text ← codeForInclude place adapter wording.code
                return (some (.program text (some tag) position), nextTag)
            | .inFlow =>
                if active = some tag then
                  return (some (.program wording.code (some tag) position), nextTag)
                else
                  let segment ←
                    inFlowSegment setting document active number wording.code tag position
                  return (some segment, nextTag)
            | _ => return (some (.program wording.code (some tag) position), nextTag) := by
  rw [scriptletSegment]
  rfl

/-- A marker is followed by the rest of the body. -/
theorem exists_append_treatmentOf (body : List Char) (treatments : List (String × Treatment)) :
    ∃ marker, body = marker ++ (treatmentOf body treatments).2 := by
  induction treatments with
  | nil => exact ⟨[], rfl⟩
  | cons entry rest ih =>
      rw [treatmentOf]
      split
      · exact ih
      split
      · rename_i front
        exact ⟨_, Text.behindFront?_eq_some_iff.1 front⟩
      · exact ih

/-- A tag and its blank are followed by the code. -/
theorem exists_append_leadingTag (text : List Char) :
    ∃ tag, text = tag ++ (leadingTag text).2 := by
  cases text with
  | nil => exact ⟨[], rfl⟩
  | cons first rest =>
      rw [leadingTag]
      split
      · exact ⟨[], rfl⟩
      split
      · exact ⟨[], rfl⟩
      · rename_i blank code behind
        refine ⟨(first :: rest).takeWhile (fun character => !Text.isBlank character) ++ [blank], ?_⟩
        rw [List.append_assoc, List.singleton_append, ← behind, List.takeWhile_append_dropWhile]

/-- The code of a body is what it ends with. -/
theorem Markers.exists_append_code (markers : Markers) (body : List Char) :
    ∃ lead, body = lead ++ (markers.wording body).code.toList := by
  obtain ⟨marker, marked⟩ := exists_append_treatmentOf body markers.treatments
  obtain ⟨tag, tagged⟩ := exists_append_leadingTag (treatmentOf body markers.treatments).2
  have code : (markers.wording body).code.toList =
      (leadingTag (treatmentOf body markers.treatments).2).2 := String.toList_ofList
  refine ⟨marker ++ tag, ?_⟩
  rw [code, List.append_assoc, ← tagged, ← marked]

/-! ## Parts -/

/-- The pair of delimiters that opens first in a text. -/
def FirstPair (options : CompileOptions) (text : List Char) (pair : Delimiters) : Prop :=
  ∃ front back before inside, options.delimiters = front ++ pair :: back ∧
    OpensFirst text front pair back before inside

namespace FirstPair

variable {options : CompileOptions} {text : List Char} {pair other : Delimiters}

theorem unique (first : FirstPair options text pair) (otherwise : FirstPair options text other) :
    pair = other := by
  obtain ⟨front, back, before, inside, among, opens⟩ := first
  obtain ⟨_, _, _, _, amongToo, opensToo⟩ := otherwise
  exact opens.unique opensToo (among.symm.trans amongToo)

theorem exists_opening (first : FirstPair options text pair) :
    ∃ pair ∈ options.delimiters, pair.Usable ∧ pair.opening.toList <:+: text := by
  obtain ⟨front, back, before, inside, among, opens⟩ := first
  exact ⟨pair, by simp [among], opens.usable, opens.opened.isInfix⟩

end FirstPair

/-- A part of a document that becomes a segment. -/
structure Part where
  kind : SegmentKind
  /-- The literal text, or the body of the scriptlet. -/
  text : List Char
  /-- The text of the document in front of the part. -/
  passed : List Char
  /-- The bodies of the scriptlets in front of the part, comments among them. -/
  earlier : List (List Char)
  /-- The number of parts in front of the part. -/
  number : Nat
deriving DecidableEq, Repr

namespace Part

/-- The part of a document that is all literal text. -/
def whole (text : List Char) : Part :=
  ⟨.literal, text, [], [], 0⟩

/-- The part that a literal text is, unless it is empty. -/
def literals (text passed : List Char) (earlier : List (List Char)) (number : Nat) : List Part :=
  if text.isEmpty then [] else [⟨.literal, text, passed, earlier, number⟩]

/-- The part that a scriptlet is, unless it is a comment. -/
def scriptlets (markers : Markers) (body passed : List Char) (earlier : List (List Char))
    (number : Nat) : List Part :=
  if (markers.wording body).treatment = .comment then []
  else [⟨.program, body, passed, earlier, number⟩]

/-- A part as it is written between delimiters. -/
def written (opening closing : List Char) (part : Part) : List Char :=
  match part.kind with
  | .literal => part.text
  | .program => opening ++ part.text ++ closing

/-- A part stands in a text where the text in front of it ends, a scriptlet with its opening
first. -/
structure StandsIn (options : CompileOptions) (text : List Char) (part : Part) : Prop where
  literal : part.kind = .literal → part.passed ++ part.text <+: text
  scriptlet : part.kind = .program → ∃ pair, FirstPair options text pair ∧
    part.passed ++ pair.opening.toList ++ part.text ++ pair.closing.toList <+: text

end Part

namespace Division

/-- The parts behind a text, some scriptlets and some parts. -/
def partsBehind (markers : Markers) (opening closing last : List Char) :
    (passed : List Char) → (earlier : List (List Char)) → (number : Nat) → List Stretch →
      List Part
  | passed, earlier, number, [] => Part.literals last passed earlier number
  | passed, earlier, number, stretch :: rest =>
      let literals := Part.literals stretch.literal passed earlier number
      let scriptlets := Part.scriptlets markers stretch.body (passed ++ stretch.literal) earlier
        (number + literals.length)
      literals ++ scriptlets ++
        partsBehind markers opening closing last (passed ++ stretch.joined opening closing)
          (earlier ++ [stretch.body]) (number + literals.length + scriptlets.length) rest

/-- The parts of a division. -/
def parts (markers : Markers) (opening closing : List Char) (division : Division) : List Part :=
  partsBehind markers opening closing division.last [] [] 0 division.stretches

section

variable {markers : Markers} {opening closing last : List Char} {part : Part}

/-- Each part stands in the text of the division, behind what it has in front of it.  By
induction on the stretches. -/
theorem stands_of_mem_partsBehind {passed : List Char} {earlier : List (List Char)}
    {number : Nat} {stretches : List Stretch}
    (member : part ∈ partsBehind markers opening closing last passed earlier number stretches) :
    part.passed ++ part.written opening closing <+:
      passed ++ stretches.flatMap (Stretch.joined opening closing) ++ last := by
  induction stretches generalizing passed earlier number with
  | nil =>
      rw [partsBehind, Part.literals] at member
      split at member
      · cases member
      · rw [List.mem_singleton.1 member]
        simp [Part.written]
  | cons stretch rest ih =>
      rw [partsBehind, List.append_assoc, List.mem_append, List.mem_append] at member
      rcases member with isLiteral | isScriptlet | further
      · rw [Part.literals] at isLiteral
        split at isLiteral
        · cases isLiteral
        · rw [List.mem_singleton.1 isLiteral]
          simp [Part.written, Stretch.joined, List.prefix_append_right_inj]
      · rw [Part.scriptlets] at isScriptlet
        split at isScriptlet
        · cases isScriptlet
        · rw [List.mem_singleton.1 isScriptlet]
          simp [Part.written, Stretch.joined, List.prefix_append_right_inj]
      · have stands := ih further
        simpa [List.append_assoc] using stands

theorem number_partsBehind (passed : List Char) (earlier : List (List Char)) (number : Nat)
    (stretches : List Stretch) :
    let parts := partsBehind markers opening closing last passed earlier number stretches
    parts.map Part.number = List.range' number parts.length := by
  induction stretches generalizing passed earlier number with
  | nil =>
      rw [partsBehind, Part.literals]
      split <;> rfl
  | cons stretch rest ih =>
      have front (text : List Char) :
          (Part.literals text passed earlier number).map Part.number =
            List.range' number (Part.literals text passed earlier number).length := by
        rw [Part.literals]
        split <;> rfl
      have own (passed : List Char) (number : Nat) :
          (Part.scriptlets markers stretch.body passed earlier number).map Part.number =
            List.range' number
              (Part.scriptlets markers stretch.body passed earlier number).length := by
        rw [Part.scriptlets]
        split <;> rfl
      dsimp only
      rw [partsBehind, List.map_append, List.map_append, front, own, ih, List.length_append,
        List.length_append, List.range'_append_1, Nat.add_assoc, List.range'_append_1]

end

end Division

/-- The parts of a document: one literal text if nothing opens in it, and otherwise those of
the division by the pair that opens first. -/
inductive PartsOf (options : CompileOptions) (text : List Char) : List Part → Prop where
  | whole
      (noOpening : ∀ pair ∈ options.delimiters, pair.Usable → ¬pair.opening.toList <:+: text) :
      PartsOf options text [.whole text]
  | divided {pair : Delimiters} {division : Division} (first : FirstPair options text pair)
      (divides : Divides pair.opening.toList pair.closing.toList text division) :
      PartsOf options text
        (division.parts options.markers pair.opening.toList pair.closing.toList)

namespace PartsOf

variable {options : CompileOptions} {text : List Char} {parts other : List Part}

/-- A document has its parts in one way. -/
theorem unique (partsOf : PartsOf options text parts) (otherwise : PartsOf options text other) :
    parts = other := by
  cases partsOf with
  | whole noOpening =>
      cases otherwise with
      | whole => rfl
      | divided first =>
          obtain ⟨pair, member, usable, opens⟩ := first.exists_opening
          exact absurd opens (noOpening pair member usable)
  | divided first divides =>
      cases otherwise with
      | whole noOpening =>
          obtain ⟨pair, member, usable, opens⟩ := first.exists_opening
          exact absurd opens (noOpening pair member usable)
      | divided firstToo dividesToo =>
          obtain rfl := first.unique firstToo
          rw [divides.unique dividesToo]

/-- Each part stands in the document. -/
theorem standsIn (partsOf : PartsOf options text parts) :
    ∀ part ∈ parts, part.StandsIn options text := by
  intro part member
  cases partsOf with
  | whole =>
      obtain rfl := List.mem_singleton.1 member
      exact ⟨fun _ => List.prefix_rfl, nofun⟩
  | @divided pair division first divides =>
      have stands : part.passed ++ part.written pair.opening.toList pair.closing.toList <+:
          text := by
        rw [← divides.joined_eq, Division.joined]
        exact (Division.stands_of_mem_partsBehind member).trans (List.prefix_append _ _)
      constructor
      · intro kind
        simpa [Part.written, kind] using stands
      · intro kind
        exact ⟨pair, first, by simpa [Part.written, kind] using stands⟩

theorem number (partsOf : PartsOf options text parts) :
    parts.map Part.number = List.range parts.length := by
  cases partsOf with
  | whole => rfl
  | divided =>
      rw [Division.parts, Division.number_partsBehind, List.range_eq_range']

end PartsOf

/-- The pair that opens first in a text is opened behind all that it divides, and not closed. -/
structure LeftOpen (options : CompileOptions) (text : List Char) (pair : Delimiters)
    (passed inside : List Char) : Prop where
  first : FirstPair options text pair
  divided : ∃ division, Divides pair.opening.toList pair.closing.toList text division ∧
    division.unclosed = some inside ∧
    division.closedPart pair.opening.toList pair.closing.toList ++ division.last = passed
  joined : text = passed ++ pair.opening.toList ++ inside
  noClosing : ¬pair.closing.toList <:+: inside

/-- A document in which nothing opens is left whole, and any other is split along its
division. -/
theorem whole_or_divided (setting : Setting) (document : Document) (world : World) :
    (PartsOf setting.options document.text.toList [.whole document.text.toList] ∧
      (splitDocument setting document).eval world =
        (.ok [.literal document.text (world.initialTag setting document) .start], world)) ∨
    ∃ pair division, FirstPair setting.options document.text.toList pair ∧
      Divides pair.opening.toList pair.closing.toList document.text.toList division ∧
      (splitDocument setting document).eval world =
        let tag := world.initialTag setting document
        let done := (acceptAll setting document pair.opening.toList pair.closing.toList tag 0 .start
          division.stretches).eval world
        (outcomeAlong document pair.opening.toList pair.closing.toList tag division done.1,
          done.2) := by
  cases found : Fence.ofDocument? setting.options.delimiters document.text.toList with
  | none =>
      refine .inl ⟨.whole (Fence.ofDocument?_eq_none_iff.1 found), ?_⟩
      rw [splitDocument, HostM.eval_bind_of_ok (HostM.eval_get world)]
      dsimp only
      rw [found]
      rfl
  | some fence =>
      obtain ⟨⟨offset, _⟩, foremost, rfl⟩ := Option.map_eq_some_iff.1 found
      obtain ⟨front, pair, back, before, inside, among, ofPair, -, opens⟩ :=
        Fence.exists_opensFirst foremost
      obtain ⟨-, opening, closing⟩ := Fence.ofDelimiters?_eq_some ofPair
      obtain ⟨division, divides⟩ := exists_divides (Fence.opening_ne_nil _) _ _
      have split := eval_splitDocument_of_divides found divides world
      rw [opening, closing] at divides split
      exact .inr ⟨pair, division, ⟨front, back, before, inside, among, opens⟩, divides, split⟩

end DocumentHost
