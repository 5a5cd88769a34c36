import DocumentHost.Json.Reader

/-!
# Records in written values

A record is written as an object with a member for each field, or as an array
with the fields in their order.  Members of other names are passed over, but a
field may be written once only, and an array may not be longer than the record.
Fields that are not written are left to the reader of the record.
-/

namespace DocumentHost.Json.Node

/-- The members of a name. -/
def membersNamed (name : String) (members : List (Option String × Node)) : List Node :=
  (members.filter fun member => member.1 = some name).map Prod.snd

/-- The fields of a record, in the order of their names. -/
def fields? (names : List String) : Node → Option (List (Option Node))
  | .object members =>
      if members.any fun member => member.1.isNone then none
      else
        names.mapM fun name =>
          match membersNamed name members with
          | [] => some none
          | [value] => some (some value)
          | _ => none
  | .array items =>
      if names.length < items.length then none
      else some (items.map some ++ List.replicate (names.length - items.length) none)
  | _ => none

/-- A text. -/
def text? : Node → Option String
  | .text value => value
  | _ => none

/-- A text, or nothing for null. -/
def optionalText? : Node → Option (Option String)
  | .null => some none
  | .text value => value.map some
  | _ => none

/-- A truth value. -/
def bool? : Node → Option Bool
  | .bool value => some value
  | _ => none

/-- A natural number of 64 bits. -/
def natural? : Node → Option Nat
  | .number literal =>
      match literal.number? with
      | some (.integer value) => if 0 ≤ value then some value.toNat else none
      | _ => none
  | _ => none

/-- A list of records of one kind. -/
def list? {α : Type} (item? : Node → Option α) : Node → Option (List α)
  | .array items => items.mapM item?
  | _ => none

/-- A field that has a default. -/
def orDefault {α : Type} (read? : Node → Option α) (default : α) : Option Node → Option α
  | none => some default
  | some node => read? node

end DocumentHost.Json.Node
