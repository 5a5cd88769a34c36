import DocumentHost.Host.Descriptor
import DocumentHost.Language.Registry
import DocumentHost.Mini.Outline

/-!
# Inspection

What can be seen of segments, adapters, services and descriptors, as values.  A
segment is shown as a row: its number if it is compiled, its kind, its text,
its language, and the line and column where it starts.
-/

namespace DocumentHost

/-- The written form of a kind of segment. -/
def SegmentKind.name : SegmentKind → String
  | .literal => "literal"
  | .program => "program"

/-- The row of a raw segment. -/
def RawSegment.row (segment : RawSegment) : Json :=
  .array [.text segment.kind.name, .text segment.text, .ofOption segment.tag,
    .integer segment.position.line, .integer segment.position.column]

/-- The rows of raw segments. -/
def RawSegment.rows (segments : List RawSegment) : Json :=
  .array (segments.map row)

namespace World

/-- The name of an adapter. -/
def adapterName (world : World) (id : AdapterId) : String :=
  (world.profile id).name

/-- The row of a compiled segment. -/
def segmentRow (world : World) (number : Nat) (segment : Segment) : Json :=
  let (kind, tag, adapter) :=
    match segment with
    | .literal _ _ => (SegmentKind.literal, none, none)
    | .program _ tag _ adapter _ => (.program, some tag, some (world.adapterName adapter))
  .array [.integer number, .text kind.name, .text segment.text, .ofOption tag,
    .ofOption adapter, .integer segment.position.line, .integer segment.position.column]

/-- The rows of compiled segments with their numbers. -/
def segmentRows (world : World) (segments : List Segment) : Json :=
  .array (segments.zipIdx.map fun (segment, number) => world.segmentRow number segment)

/-- What can be seen of a descriptor.  A file behind it shows as a path and a time. -/
def descriptorMembers (world : World) (id : DescriptorId) : List (String × Json) :=
  let descriptor := world.descriptors.get id
  let dependencies := (world.liveDependencies id).map fun other =>
    Json.text (world.descriptors.get other).name
  [("name", .text descriptor.name), ("partition", .text descriptor.partition),
    ("tag", .text descriptor.tag), ("source", .text descriptor.text),
    ("keys", .array (descriptor.formKeys.map .text)),
    ("dependencies", .array dependencies), ("invalidated", .bool descriptor.invalidated)] ++
  match descriptor.backing with
  | some backing =>
      [("path", .text backing.path), ("time", .text descriptor.timestamp.render)]
  | none => []

end World

/-- What can be seen of an adapter's description. -/
def AdapterProfile.toValue (profile : AdapterProfile) : Json :=
  .object
    [("name", .text profile.name), ("version", .text profile.version),
      ("language_name", .text profile.languageName),
      ("tags", .array (profile.tags.map .text)),
      ("extensions", .array (profile.extensions.map .text)),
      ("priority", .integer profile.priority), ("thread_safe", .bool profile.threadSafe),
      ("ephemeral", .bool profile.ephemeral), ("default_tag", .text profile.defaultTag),
      ("default_extension", .ofOption profile.defaultExtension?)]

/-- What can be seen of a service: a text, or a routine with its outline. -/
def Service.toValue : Service → Json
  | .text value => .object [("text", .text value)]
  | .routine name body =>
      .object [("body", .array ((Mini.outlines body).map .text)), ("routine", .text name)]

/-- What can be seen under the name of a service. -/
def Service.valueOf (service : Option Service) : Json :=
  service.elim .null toValue

end DocumentHost
