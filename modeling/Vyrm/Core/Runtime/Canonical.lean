import Vyrm.Core.Runtime

/-!
# Canonical bytes of runtime commits

The encoders of `crates/vyrm-core/src/runtime.rs:1475-1790`, and the canonical
bytes of commits and changes whose digests are chained.
-/

namespace Vyrm.Core
open Lib

/-- `i64::to_be_bytes`. -/
def be64Signed (value : Int64) : Bytes := be64 value.toUInt64

/-- `encode_ref` (`runtime.rs:1487-1490`). -/
def encodeRef (reference : RuntimeRef) : Bytes := text reference.kind.asStr ++ text reference.id.asStr

/-- `encode_window` (`runtime.rs:1492-1498`). -/
def encodeWindow (validFrom : Millis) (validTo : Option Millis) : Bytes :=
  be64 validFrom ++ optional be64 validTo

/-- `encode_optional_u64` (`runtime.rs:1785-1790`). -/
def encodeOptionalU64 : Option UInt64 → Bytes := optional be64

mutual

/-- `encode_value` (`runtime.rs:1508-1547`). -/
def encodeValue : RuntimeValue → Bytes
  | .null => [0]
  | .bool value => 1 :: flag value
  | .integer value => 2 :: be64Signed value
  | .unsigned value => 3 :: be64 value
  | .decimal value => 4 :: text value
  | .string value => 5 :: text value
  | .digest value => 6 :: text value
  | .list values => 7 :: (toBE 8 values.length ++ encodeValues values)
  | .map values => 8 :: (toBE 8 values.length ++ encodeEntries values)

/-- The loop over a list of values. -/
def encodeValues : List RuntimeValue → Bytes
  | [] => []
  | value :: rest => encodeValue value ++ encodeValues rest

/-- The loop over the entries of a map (`runtime.rs:1502-1505`). -/
def encodeEntries : List (String × RuntimeValue) → Bytes
  | [] => []
  | (key, value) :: rest => text key ++ encodeValue value ++ encodeEntries rest

end

/-- `encode_properties` (`runtime.rs:1500-1506`). -/
def encodeProperties (properties : RuntimeProperties) : Bytes :=
  toBE 8 properties.length ++ encodeEntries properties

/-- `encode_f32s` (`runtime.rs:1711-1716`). -/
def encodeF32s (values : List F32) : Bytes := counted be32 values

/-- `encode_f64` (`runtime.rs:1718-1720`). -/
def encodeF64 (value : F64) : Bytes := be64 value

/-- `encode_vector_value` (`runtime.rs:1678-1709`). -/
def encodeVectorValue : VectorValue → Bytes
  | .dense values => 0 :: encodeF32s values
  | .sparse dimensions indices values =>
    1 :: (be32 dimensions ++ counted be32 indices ++ encodeF32s values)
  | .multiDense dimensions vectors => 2 :: (be32 dimensions ++ counted encodeF32s vectors)

/-- The tag of a value type (`runtime.rs:1763-1773`). -/
def RuntimeValueType.tag : RuntimeValueType → UInt8
  | .null => 0
  | .bool => 1
  | .integer => 2
  | .unsigned => 3
  | .decimal => 4
  | .string => 5
  | .digest => 6
  | .list => 7
  | .map => 8

/-- `encode_property_schemas` (`runtime.rs:1756-1776`). -/
def encodePropertySchemas : List (String × RuntimePropertySchema) → Bytes :=
  counted fun (name, schema) => text name ++ [schema.valueType.tag] ++ flag schema.required

/-- `encode_type_set` (`runtime.rs:1778-1783`). -/
def encodeTypeSet : List RuntimeType → Bytes := counted fun kind => text kind.asStr

/-- One record type of a registry (`runtime.rs:1726-1733`). -/
def encodeRecordSchema (entry : RuntimeType × RuntimeRecordSchema) : Bytes :=
  text entry.1.asStr ++ encodePropertySchemas entry.2.properties ++
    flag entry.2.allowAdditionalProperties ++ counted text entry.2.uniqueProperties

/-- One relation type of a registry (`runtime.rs:1736-1745`). -/
def encodeRelationSchema (entry : RuntimeType × RuntimeRelationSchema) : Bytes :=
  text entry.1.asStr ++ encodeTypeSet entry.2.from_ ++ encodeTypeSet entry.2.to_ ++
    encodePropertySchemas entry.2.properties ++ flag entry.2.allowAdditionalProperties ++
    flag entry.2.uniquePair ++ encodeOptionalU64 entry.2.maxOutgoing ++
    encodeOptionalU64 entry.2.maxIncoming

/-- One event type of a registry (`runtime.rs:1747-1753`). -/
def encodeEventSchema (entry : RuntimeType × RuntimeEventSchema) : Bytes :=
  text entry.1.asStr ++ flag entry.2.subjectRequired ++ encodeTypeSet entry.2.subjectTypes ++
    encodePropertySchemas entry.2.properties ++ flag entry.2.allowAdditionalProperties

/-- `encode_schema` (`runtime.rs:1722-1754`). -/
def encodeSchema (registry : RuntimeSchemaRegistry) : Bytes :=
  be64 registry.revision ++ text registry.migration ++ counted encodeRecordSchema registry.records ++
    counted encodeRelationSchema registry.relations ++ counted encodeEventSchema registry.events

/-- The value of a time-series sample (`runtime.rs:1612-1633`). -/
def encodeSeriesValue : SeriesValue → Bytes
  | .integer value => 0 :: be64Signed value
  | .unsigned value => 1 :: be64 value
  | .decimal value => 2 :: text value
  | .bool value => 3 :: flag value
  | .string value => 4 :: text value

/-- A point of a geometry: longitude, then latitude. -/
def encodePoint (point : GeoPoint) : Bytes := encodeF64 point.longitude ++ encodeF64 point.latitude

/-- The value of a geometry (`runtime.rs:1642-1658`). -/
def encodeGeoValue : GeoValue → Bytes
  | .point point => 0 :: encodePoint point
  | .boundingBox southwest northeast => 1 :: (encodePoint southwest ++ encodePoint northeast)

/-- The tag of a normalization (`runtime.rs:1600-1603`). -/
def VectorNormalization.tag : VectorNormalization → UInt8
  | .none => 0
  | .unitL2 => 1

/-- The provenance of a vector (`runtime.rs:1595-1605`). -/
def encodeProvenance (provenance : EmbeddingProvenance) : Bytes :=
  text provenance.sourceDigest ++ text provenance.model ++ text provenance.modelDigest ++
    be32 provenance.dimensions ++ [provenance.normalization.tag] ++
    encodeProperties provenance.generationParameters

/-- `encode_mutation` (`runtime.rs:1549-1676`). -/
def encodeMutation : RuntimeMutation → Bytes
  | .claim claim => 0 :: prefixed claim.canonicalBytes
  | .schema registry => 4 :: encodeSchema registry
  | .record record =>
    1 :: (encodeRef record.reference ++ encodeWindow record.validFrom record.validTo ++
      encodeProperties record.properties)
  | .relation relation =>
    2 :: (encodeRef relation.reference ++ encodeRef relation.from_ ++ encodeRef relation.to_ ++
      encodeWindow relation.validFrom relation.validTo ++ encodeProperties relation.properties)
  | .event event =>
    3 :: (text event.kind.asStr ++ optional encodeRef event.subject ++ encodeProperties event.properties)
  | .vector vector =>
    5 :: (encodeRef vector.reference ++ encodeRef vector.subject ++ text vector.field ++
      encodeWindow vector.validFrom vector.validTo ++ encodeVectorValue vector.value ++
      optional encodeProvenance vector.provenance ++ encodeProperties vector.properties)
  | .seriesSample sample =>
    6 :: (encodeRef sample.reference ++ encodeRef sample.series ++ be64 sample.observedAt ++
      encodeSeriesValue sample.value ++ encodeProperties sample.properties)
  | .geo geo =>
    7 :: (encodeRef geo.reference ++ encodeRef geo.subject ++ text geo.field ++
      encodeWindow geo.validFrom geo.validTo ++ encodeGeoValue geo.value ++
      encodeProperties geo.properties)
  | .object object =>
    8 :: (encodeRef object.reference ++ optional encodeRef object.subject ++ text object.sha256 ++
      be64 object.length ++ text object.mediaType ++ text object.receipt.backend ++
      text object.receipt.key ++ optionalText object.receipt.version ++
      optionalText object.receipt.etag ++ encodeProperties object.properties)

namespace RuntimeCommit

/-- `vyrm-runtime-commit-v1\0`. -/
def domain : Bytes :=
  [0x76, 0x79, 0x72, 0x6d, 0x2d, 0x72, 0x75, 0x6e, 0x74, 0x69, 0x6d, 0x65, 0x2d, 0x63, 0x6f, 0x6d,
   0x6d, 0x69, 0x74, 0x2d, 0x76, 0x31, 0x00]

/-- `canonical_bytes` (`runtime.rs:280-291`). -/
def canonicalBytes (commit : RuntimeCommit) : Bytes :=
  domain ++ text commit.scope.asStr ++ be64 commit.at_ ++ text commit.actor ++
    be64 commit.expectedCursor ++ counted encodeMutation commit.mutations

/-- `digest` (`runtime.rs:276-278`). -/
def digest (commit : RuntimeCommit) : String := sha256Hex commit.canonicalBytes

end RuntimeCommit

namespace RuntimeChange

/-- `vyrm-runtime-change-v1\0`. -/
def domain : Bytes :=
  [0x76, 0x79, 0x72, 0x6d, 0x2d, 0x72, 0x75, 0x6e, 0x74, 0x69, 0x6d, 0x65, 0x2d, 0x63, 0x68, 0x61,
   0x6e, 0x67, 0x65, 0x2d, 0x76, 0x31, 0x00]

/-- `canonical_bytes` (`runtime.rs:337-348`). -/
def canonicalBytes (change : RuntimeChange) : Bytes :=
  domain ++ be64 change.cursor ++ text change.commitId ++ be64 change.commitOrdinal ++
    text change.scope.asStr ++ be64 change.at_ ++ text change.actor ++ encodeMutation change.mutation ++
    optionalText change.previousDigest

/-- `committed` (`runtime.rs:310-331`). -/
def committed (cursor : UInt64) (commit : RuntimeCommit) (commitId : String) (commitOrdinal : UInt64)
    (mutation : RuntimeMutation) (previousDigest : Option String) : RuntimeChange :=
  let change : RuntimeChange :=
    { cursor, commitId, commitOrdinal, scope := commit.scope, at_ := commit.at_, actor := commit.actor,
      mutation, previousDigest, digest := "" }
  { change with digest := sha256Hex change.canonicalBytes }

/-- `verify_digest` (`runtime.rs:333-335`). -/
def verifyDigest (change : RuntimeChange) : Bool := sha256Hex change.canonicalBytes = change.digest

end RuntimeChange

end Vyrm.Core
