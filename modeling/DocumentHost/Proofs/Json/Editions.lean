import DocumentHost.Json.Record
import DocumentHost.Proofs.Json.Rereading
import Mathlib.Data.List.Nodup

/-!
# Editions of a written value

A value that has been written can be edited: members are put in another order, further members
are added, and members are dropped.  An edition says the same as the value in all that has not
been dropped.  Which members are dropped is said by their paths, the names of the members from
the outermost object on.  What a record reads of an edition is what it would read of the value,
with its default in place of every field that has been dropped.
-/

namespace DocumentHost.Json

open Decimal (Literal)

variable {dropped : List (List String)} {path : List String}

mutual

/-- A structure is an edition of a value that stands at a path. -/
inductive Edition (dropped : List (List String)) : List String → Json → Node → Prop
  | null {path : List String} : Edition dropped path .null .null
  | bool {path : List String} (value : Bool) : Edition dropped path (.bool value) (.bool value)
  | integer {path : List String} {value : Int} {literal : Literal}
      (denotes : literal.number? = some (.integer value)) :
      Edition dropped path (.integer value) (.number literal)
  | text {path : List String} (value : String) :
      Edition dropped path (.text value) (.text (some value))
  | array {path : List String} {items : List Json} {nodes : List Node}
      (each : ItemEditions dropped path items nodes) :
      Edition dropped path (.array items) (.array nodes)
  | object {path : List String} {members : List (String × Json)}
      {written : List (Option String × Node)}
      (named : ∀ member ∈ written, member.1.isSome = true)
      (each : MemberEditions dropped path written members) :
      Edition dropped path (.object members) (.object written)

/-- Structures are editions of items, one by one. -/
inductive ItemEditions (dropped : List (List String)) :
    List String → List Json → List Node → Prop
  | nil {path : List String} : ItemEditions dropped path [] []
  | cons {path : List String} {item : Json} {node : Node} {items : List Json} {nodes : List Node}
      (edition : Edition dropped path item node) (others : ItemEditions dropped path items nodes) :
      ItemEditions dropped path (item :: items) (node :: nodes)

/-- Among the written members, every member has one edition, or none if it has been dropped. -/
inductive MemberEditions (dropped : List (List String)) :
    List String → List (Option String × Node) → List (String × Json) → Prop
  | nil {path : List String} {written : List (Option String × Node)} :
      MemberEditions dropped path written []
  | drop {path : List String} {written : List (Option String × Node)} {name : String}
      {value : Json} {members : List (String × Json)} (isDropped : path ++ [name] ∈ dropped)
      (absent : Node.membersNamed name written = [])
      (others : MemberEditions dropped path written members) :
      MemberEditions dropped path written ((name, value) :: members)
  | keep {path : List String} {written : List (Option String × Node)} {name : String}
      {value : Json} {inner : Node} {members : List (String × Json)}
      (isKept : path ++ [name] ∉ dropped) (only : Node.membersNamed name written = [inner])
      (edition : Edition dropped (path ++ [name]) value inner)
      (others : MemberEditions dropped path written members) :
      MemberEditions dropped path written ((name, value) :: members)

end

/-! ## The plainest edition -/

mutual

/-- A value has no numbers with a point, its integers denote themselves when they are written,
and its objects name no member twice. -/
def Regular : Json → Prop
  | .integer value => (literalOf value).number? = some (.integer value)
  | .float _ => False
  | .array items => RegularItems items
  | .object members => (members.map Prod.fst).Nodup ∧ RegularMembers members
  | _ => True

/-- All items are regular. -/
def RegularItems : List Json → Prop
  | [] => True
  | item :: rest => Regular item ∧ RegularItems rest

/-- The values of all members are regular. -/
def RegularMembers : List (String × Json) → Prop
  | [] => True
  | (_, value) :: rest => Regular value ∧ RegularMembers rest

end

mutual

theorem Regular.exists_structure (value : Json) (regular : Regular value) :
    ∃ node, value.structure? = some node := by
  cases value with
  | null | bool | integer | text => exact ⟨_, rfl⟩
  | float value => exact regular.elim
  | array items =>
      obtain ⟨nodes, areStructures⟩ := RegularItems.exists_structures items regular
      exact ⟨.array nodes, by rw [structure?, areStructures, Option.map_some]⟩
  | object members =>
      obtain ⟨written, areStructures⟩ := RegularMembers.exists_structures members regular.2
      exact ⟨.object written, by rw [structure?, areStructures, Option.map_some]⟩

theorem RegularItems.exists_structures (items : List Json) (regular : RegularItems items) :
    ∃ nodes, itemStructures? items = some nodes := by
  cases items with
  | nil => exact ⟨[], rfl⟩
  | cons item others =>
      obtain ⟨node, isItem⟩ := Regular.exists_structure item regular.1
      obtain ⟨nodes, areOthers⟩ := RegularItems.exists_structures others regular.2
      exact ⟨node :: nodes, by rw [itemStructures?, isItem, areOthers]; rfl⟩

theorem RegularMembers.exists_structures (members : List (String × Json))
    (regular : RegularMembers members) : ∃ written, memberStructures? members = some written := by
  cases members with
  | nil => exact ⟨[], rfl⟩
  | cons member others =>
      obtain ⟨name, value⟩ := member
      obtain ⟨node, isValue⟩ := Regular.exists_structure value regular.1
      obtain ⟨written, areOthers⟩ := RegularMembers.exists_structures others regular.2
      exact ⟨(some name, node) :: written, by rw [memberStructures?, isValue, areOthers]; rfl⟩

end

theorem names_memberStructures? {members : List (String × Json)}
    {written : List (Option String × Node)}
    (areStructures : memberStructures? members = some written) :
    written.map Prod.fst = members.map fun member => some member.1 := by
  induction members generalizing written with
  | nil =>
      cases areStructures
      rfl
  | cons member others ih =>
      obtain ⟨node, written, -, areOthers, rfl⟩ := memberStructures?_cons areStructures
      rw [List.map_cons, List.map_cons, ih areOthers]

theorem membersNamed_append (name : String) (front back : List (Option String × Node)) :
    Node.membersNamed name (front ++ back) =
      Node.membersNamed name front ++ Node.membersNamed name back := by
  rw [Node.membersNamed, List.filter_append, List.map_append]
  rfl

/-- If no name is written twice, every member is the only one of its name. -/
theorem membersNamed_of_nodup {written : List (Option String × Node)}
    (distinct : (written.map Prod.fst).Nodup) {name : String} {node : Node}
    (belongs : (some name, node) ∈ written) : Node.membersNamed name written = [node] := by
  induction written with
  | nil => cases belongs
  | cons member others ih =>
      obtain ⟨notAgain, distinct⟩ := List.nodup_cons.1 distinct
      rcases List.mem_cons.1 belongs with rfl | later
      · have noOther : Node.membersNamed name others = [] := by
          rw [Node.membersNamed, List.map_eq_nil_iff, List.filter_eq_nil_iff]
          intro other isOther same
          have isName : other.1 = some name := of_decide_eq_true same
          exact notAgain (List.mem_map.2 ⟨other, isOther, isName⟩)
        rw [← List.singleton_append, membersNamed_append, noOther]
        simp [Node.membersNamed]
      · have differs : member.1 ≠ some name := fun same =>
          notAgain (by rw [same]; exact List.mem_map_of_mem later)
        rw [← List.singleton_append, membersNamed_append, ih distinct later]
        simp [Node.membersNamed, differs]

mutual

theorem Edition.of_structure (value : Json) {node : Node}
    (isStructure : value.structure? = some node) (regular : Regular value) (path : List String) :
    Edition [] path value node := by
  cases value with
  | null =>
      cases isStructure
      exact .null
  | bool value =>
      cases isStructure
      exact .bool value
  | integer value =>
      cases isStructure
      exact .integer regular
  | float value => exact regular.elim
  | text value =>
      cases isStructure
      exact .text value
  | array items =>
      rw [structure?, Option.map_eq_some_iff] at isStructure
      obtain ⟨nodes, areStructures, rfl⟩ := isStructure
      exact .array (ItemEditions.of_structures items areStructures regular path)
  | object members =>
      rw [structure?, Option.map_eq_some_iff] at isStructure
      obtain ⟨written, areStructures, rfl⟩ := isStructure
      have names := names_memberStructures? areStructures
      have distinct : (written.map Prod.fst).Nodup := by
        rw [names, ← Function.comp_def, ← List.map_map]
        exact List.Nodup.map (Option.some_injective _) regular.1
      refine .object (fun member belongs => ?_) (MemberEditions.of_structures members areStructures
        regular.2 (fun name node => membersNamed_of_nodup distinct) path)
      have isName := List.mem_map_of_mem (f := Prod.fst) belongs
      rw [names] at isName
      obtain ⟨_, -, isName⟩ := List.mem_map.1 isName
      rw [← isName, Option.isSome_some]

theorem ItemEditions.of_structures (items : List Json) {nodes : List Node}
    (areStructures : itemStructures? items = some nodes) (regular : RegularItems items)
    (path : List String) : ItemEditions [] path items nodes := by
  cases items with
  | nil =>
      cases areStructures
      exact .nil
  | cons item others =>
      obtain ⟨node, nodes, isItem, areOthers, rfl⟩ := itemStructures?_cons areStructures
      exact .cons (Edition.of_structure item isItem regular.1 path)
        (ItemEditions.of_structures others areOthers regular.2 path)

theorem MemberEditions.of_structures (members : List (String × Json))
    {written all : List (Option String × Node)}
    (areStructures : memberStructures? members = some written) (regular : RegularMembers members)
    (only : ∀ name node, (some name, node) ∈ written → Node.membersNamed name all = [node])
    (path : List String) : MemberEditions [] path all members := by
  cases members with
  | nil => exact .nil
  | cons member others =>
      obtain ⟨node, written, isValue, areOthers, rfl⟩ := memberStructures?_cons areStructures
      exact .keep (List.not_mem_nil) (only member.1 node List.mem_cons_self)
        (Edition.of_structure member.2 isValue regular.1 (path ++ [member.1]))
        (MemberEditions.of_structures others areOthers regular.2
          (fun name node belongs => only name node (List.mem_cons_of_mem _ belongs)) path)

end

/-! ## Reading an edition -/

/-- What is written in a field: nothing if the member has been dropped, else an edition of it. -/
inductive FieldEdition (dropped : List (List String)) (path : List String) :
    String × Json → Option Node → Prop
  | drop {name : String} {value : Json} (isDropped : path ++ [name] ∈ dropped) :
      FieldEdition dropped path (name, value) none
  | keep {name : String} {value : Json} {inner : Node} (isKept : path ++ [name] ∉ dropped)
      (edition : Edition dropped (path ++ [name]) value inner) :
      FieldEdition dropped path (name, value) (some inner)

/-- The fields of an edition are editions of the members. -/
theorem Edition.fields? {members : List (String × Json)} {node : Node}
    (edition : Edition dropped path (.object members) node) :
    ∃ fields, node.fields? (members.map Prod.fst) = some fields ∧
      List.Forall₂ (FieldEdition dropped path) members fields := by
  cases edition with
  | @object _ _ written named each =>
      have allNamed : (written.any fun member => member.1.isNone) = false := by
        rw [List.any_eq_false]
        intro member belongs
        have isNamed := named member belongs
        cases name : member.1 with
        | none =>
            rw [name] at isNamed
            cases isNamed
        | some _ => simp
      rw [Node.fields?, allNamed, if_neg (by decide)]
      induction members with
      | nil => exact ⟨[], rfl, .nil⟩
      | cons member others ih =>
          cases each with
          | drop isDropped absent others =>
              obtain ⟨fields, areFields, editions⟩ := ih others
              refine ⟨none :: fields, ?_, .cons (.drop isDropped) editions⟩
              rw [List.map_cons, List.mapM_cons, absent, areFields]
              rfl
          | keep isKept only edition others =>
              obtain ⟨fields, areFields, editions⟩ := ih others
              refine ⟨some _ :: fields, ?_, .cons (.keep isKept edition) editions⟩
              rw [List.map_cons, List.mapM_cons, only, areFields]
              rfl

/-- What is held at a path, unless it has been dropped. -/
def kept {α : Type} (dropped : List (List String)) (path : List String) (held unset : α) : α :=
  if path ∈ dropped then unset else held

/-- A field is read from its edition, or it has its default. -/
theorem FieldEdition.orDefault {α : Type} {read? : Node → Option α} {held unset : α}
    {name : String} {value : Json} {field : Option Node}
    (edition : FieldEdition dropped path (name, value) field)
    (reads : ∀ inner, Edition dropped (path ++ [name]) value inner → read? inner = some held) :
    Node.orDefault read? unset field = some (kept dropped (path ++ [name]) held unset) := by
  cases edition with
  | drop isDropped => rw [kept, if_pos isDropped, Node.orDefault]
  | keep isKept edition => rw [kept, if_neg isKept, Node.orDefault, reads _ edition]

variable {node : Node}

theorem Edition.text? {value : String} (edition : Edition dropped path (.text value) node) :
    node.text? = some value := by
  cases edition
  rfl

theorem Edition.bool? {value : Bool} (edition : Edition dropped path (.bool value) node) :
    node.bool? = some value := by
  cases edition
  rfl

theorem Edition.optionalText? {value : Option String}
    (edition : Edition dropped path (.ofOption value) node) :
    node.optionalText? = some value := by
  cases value <;>
    cases edition
  all_goals rfl

theorem Edition.natural? {value : Nat} (edition : Edition dropped path (.integer value) node) :
    node.natural? = some value := by
  cases edition with
  | integer denotes =>
      rw [Node.natural?, denotes]
      simp

theorem Edition.list? {α : Type} {item? : Node → Option α} {write : α → Json}
    (reads : ∀ item inner, Edition dropped path (write item) inner → item? inner = some item)
    {items : List α} (edition : Edition dropped path (.array (items.map write)) node) :
    node.list? item? = some items := by
  cases edition with
  | @array _ _ nodes each =>
      rw [Node.list?]
      induction items generalizing nodes with
      | nil =>
          cases each
          rfl
      | cons item others ih =>
          rw [List.map_cons] at each
          cases each with
          | cons edition editions =>
              rw [List.mapM_cons, reads item _ edition, ih editions]
              rfl

end DocumentHost.Json
