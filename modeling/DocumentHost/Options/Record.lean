import DocumentHost.Json.Record
import DocumentHost.Options.Basic

/-!
# Options as records

The written form of the options, and its reading.  Every field but those of a
pair of delimiters has a default.
-/

namespace DocumentHost

open Json

/-- The fields of a pair of delimiters. -/
def Delimiters.fieldNames : List String := ["start", "end"]

/-- The pair that a record writes; both fields are needed. -/
def Delimiters.ofNode? (node : Node) : Option Delimiters := do
  match ← node.fields? fieldNames with
  | [some opening, some closing] => return ⟨← opening.text?, ← closing.text?⟩
  | _ => none

/-- The record of a pair. -/
def Delimiters.toValue (pair : Delimiters) : Json :=
  .object [("start", .text pair.opening), ("end", .text pair.closing)]

/-- The fields of the markers. -/
def Markers.fieldNames : List String := ["comment", "expression", "include", "in_flow"]

/-- The markers that a record writes. -/
def Markers.ofNode? (node : Node) : Option Markers := do
  let unset : Markers := {}
  match ← node.fields? fieldNames with
  | [comment, expression, documentInclude, inFlow] =>
      return {
        comment := ← Node.orDefault Node.text? unset.comment comment
        expression := ← Node.orDefault Node.text? unset.expression expression
        documentInclude := ← Node.orDefault Node.text? unset.documentInclude documentInclude
        inFlow := ← Node.orDefault Node.text? unset.inFlow inFlow }
  | _ => none

/-- The record of the markers. -/
def Markers.toValue (markers : Markers) : Json :=
  .object [("comment", .text markers.comment), ("expression", .text markers.expression),
    ("include", .text markers.documentInclude), ("in_flow", .text markers.inFlow)]

namespace CompileOptions

/-- The fields of the options. -/
def fieldNames : List String :=
  ["parser", "include_parser", "default_language_tag", "prepare", "delimiters", "markers",
    "container_service_name"]

/-- The options that a record writes; fields that are not written are taken from
`unset`. -/
def ofFields? (unset : CompileOptions) : List (Option Node) → Option CompileOptions
  | [parser, includeParser, defaultTag, prepare, delimiters, markers, containerService] => do
      return {
        parser := ← Node.orDefault Node.text? unset.parser parser
        includeParser := ← Node.orDefault Node.text? unset.includeParser includeParser
        defaultTag := ← Node.orDefault Node.optionalText? unset.defaultTag defaultTag
        prepare := ← Node.orDefault Node.bool? unset.prepare prepare
        delimiters :=
          ← Node.orDefault (Node.list? Delimiters.ofNode?) unset.delimiters delimiters
        markers := ← Node.orDefault Markers.ofNode? unset.markers markers
        containerService :=
          ← Node.orDefault Node.text? unset.containerService containerService }
  | _ => none

/-- The options that a record writes. -/
def ofNode? (node : Node) : Option CompileOptions := do
  ofFields? {} (← node.fields? fieldNames)

/-- The record of the options. -/
def toValue (options : CompileOptions) : Json :=
  .object [("parser", .text options.parser), ("include_parser", .text options.includeParser),
    ("default_language_tag", .ofOption options.defaultTag),
    ("prepare", .bool options.prepare),
    ("delimiters", .array (options.delimiters.map Delimiters.toValue)),
    ("markers", options.markers.toValue),
    ("container_service_name", .text options.containerService)]

end CompileOptions

end DocumentHost
