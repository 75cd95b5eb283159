import Vyrm.Core.Claim

/-!
# The typed runtime

The data of `crates/vyrm-core/src/runtime.rs`, `data.rs` and `schema.rs`: what a
runtime commit may contain, and the changes and snapshots made from it. Ordered
maps and sets are lists in key order, floats are bit patterns.
-/

namespace Vyrm.Core
open Lib

/-- `RuntimeRef` (`runtime.rs:89-92`). -/
structure RuntimeRef where
  kind : RuntimeType
  id : RuntimeId
  deriving DecidableEq

instance : Keyed RuntimeRef where
  parts reference := [reference.kind.bytes, reference.id.bytes]
  count := 2
  length_parts _ := rfl
  parts_inj a b same := by
    cases a
    cases b
    simpa [Ident.bytes_inj] using same

/-- `RuntimeValue` (`runtime.rs:107-117`). -/
inductive RuntimeValue where
  | null
  | bool (value : Bool)
  | integer (value : Int64)
  | unsigned (value : UInt64)
  | decimal (value : String)
  | string (value : String)
  | digest (value : String)
  | list (values : List RuntimeValue)
  | map (values : List (String × RuntimeValue))

mutual

/-- Derived equality of values. -/
def RuntimeValue.beq : RuntimeValue → RuntimeValue → Bool
  | .null, .null => true
  | .bool a, .bool b => a = b
  | .integer a, .integer b => a = b
  | .unsigned a, .unsigned b => a = b
  | .decimal a, .decimal b => a = b
  | .string a, .string b => a = b
  | .digest a, .digest b => a = b
  | .list as, .list bs => beqValues as bs
  | .map as, .map bs => beqEntries as bs
  | _, _ => false

def RuntimeValue.beqValues : List RuntimeValue → List RuntimeValue → Bool
  | [], [] => true
  | a :: as, b :: bs => a.beq b && beqValues as bs
  | _, _ => false

def RuntimeValue.beqEntries : List (String × RuntimeValue) → List (String × RuntimeValue) → Bool
  | [], [] => true
  | (k, a) :: as, (l, b) :: bs => k = l && a.beq b && beqEntries as bs
  | _, _ => false

end

namespace RuntimeValue

mutual

theorem beq_iff : ∀ a b : RuntimeValue, a.beq b = true ↔ a = b
  | .null, b => by cases b <;> simp [beq]
  | .bool a, b => by cases b <;> simp [beq]
  | .integer a, b => by cases b <;> simp [beq]
  | .unsigned a, b => by cases b <;> simp [beq]
  | .decimal a, b => by cases b <;> simp [beq]
  | .string a, b => by cases b <;> simp [beq]
  | .digest a, b => by cases b <;> simp [beq]
  | .list as, b => by
    cases b with
    | list bs => simp [beq, beqValues_iff as bs]
    | _ => simp [beq]
  | .map as, b => by
    cases b with
    | map bs => simp [beq, beqEntries_iff as bs]
    | _ => simp [beq]

theorem beqValues_iff : ∀ as bs : List RuntimeValue, beqValues as bs = true ↔ as = bs
  | [], bs => by cases bs <;> simp [beqValues]
  | a :: as, [] => by simp [beqValues]
  | a :: as, b :: bs => by simp [beqValues, beq_iff a b, beqValues_iff as bs]

theorem beqEntries_iff : ∀ as bs : List (String × RuntimeValue), beqEntries as bs = true ↔ as = bs
  | [], bs => by cases bs <;> simp [beqEntries]
  | (k, a) :: as, [] => by simp [beqEntries]
  | (k, a) :: as, (l, b) :: bs => by
    simp [beqEntries, beq_iff a b, beqEntries_iff as bs]

end

instance : DecidableEq RuntimeValue := fun a b => decidable_of_iff _ (beq_iff a b)

end RuntimeValue

/-- `RuntimeProperties` (`runtime.rs:119`). -/
abbrev RuntimeProperties := List (String × RuntimeValue)

/-- `RuntimeRecord` (`runtime.rs:123-131`). -/
structure RuntimeRecord where
  reference : RuntimeRef
  validFrom : Millis
  validTo : Option Millis
  properties : RuntimeProperties
  deriving DecidableEq

/-- `RuntimeRelation` (`runtime.rs:135-145`). -/
structure RuntimeRelation where
  reference : RuntimeRef
  from_ : RuntimeRef
  to_ : RuntimeRef
  validFrom : Millis
  validTo : Option Millis
  properties : RuntimeProperties
  deriving DecidableEq

/-- `RuntimeEvent` (`runtime.rs:149-155`). -/
structure RuntimeEvent where
  kind : RuntimeType
  subject : Option RuntimeRef
  properties : RuntimeProperties
  deriving DecidableEq

/-! ## Values of `data.rs` -/

/-- `VectorValue` (`data.rs:17-29`). -/
inductive VectorValue where
  | dense (values : List F32)
  | sparse (dimensions : UInt32) (indices : List UInt32) (values : List F32)
  | multiDense (dimensions : UInt32) (vectors : List (List F32))
  deriving DecidableEq

/-- `VectorNormalization` (`data.rs:103-106`). -/
inductive VectorNormalization where
  | none
  | unitL2
  deriving DecidableEq

/-- `EmbeddingProvenance` (`data.rs:110-118`). -/
structure EmbeddingProvenance where
  sourceDigest : String
  model : String
  modelDigest : String
  dimensions : UInt32
  normalization : VectorNormalization
  generationParameters : RuntimeProperties
  deriving DecidableEq

/-- `RuntimeVector` (`data.rs:137-150`). -/
structure RuntimeVector where
  reference : RuntimeRef
  subject : RuntimeRef
  field : String
  validFrom : Millis
  validTo : Option Millis
  value : VectorValue
  provenance : Option EmbeddingProvenance
  properties : RuntimeProperties
  deriving DecidableEq

/-- `SeriesValue` (`data.rs:170-176`). -/
inductive SeriesValue where
  | integer (value : Int64)
  | unsigned (value : UInt64)
  | decimal (value : String)
  | bool (value : Bool)
  | string (value : String)
  deriving DecidableEq

/-- `RuntimeSeriesSample` (`data.rs:181-189`). -/
structure RuntimeSeriesSample where
  reference : RuntimeRef
  series : RuntimeRef
  observedAt : Millis
  value : SeriesValue
  properties : RuntimeProperties
  deriving DecidableEq

/-- `GeoPoint` (`data.rs:201-204`). -/
structure GeoPoint where
  longitude : F64
  latitude : F64
  deriving DecidableEq

/-- `GeoValue` (`data.rs:221-229`). -/
inductive GeoValue where
  | point (point : GeoPoint)
  | boundingBox (southwest northeast : GeoPoint)
  deriving DecidableEq

/-- `RuntimeGeo` (`data.rs:253-264`). -/
structure RuntimeGeo where
  reference : RuntimeRef
  subject : RuntimeRef
  field : String
  validFrom : Millis
  validTo : Option Millis
  value : GeoValue
  properties : RuntimeProperties
  deriving DecidableEq

/-- `ObjectReceipt` (`data.rs:276-283`). -/
structure ObjectReceipt where
  backend : String
  key : String
  version : Option String
  etag : Option String
  deriving DecidableEq

/-- `ObjectReference` (`data.rs:287-298`). -/
structure ObjectReference where
  reference : RuntimeRef
  subject : Option RuntimeRef
  sha256 : String
  length : UInt64
  mediaType : String
  receipt : ObjectReceipt
  properties : RuntimeProperties
  deriving DecidableEq

/-! ## Schemas -/

/-- `RuntimeValueType` (`schema.rs:12-22`). -/
inductive RuntimeValueType where
  | null
  | bool
  | integer
  | unsigned
  | decimal
  | string
  | digest
  | list
  | map
  deriving DecidableEq

/-- `RuntimePropertySchema` (`schema.rs:42-46`). -/
structure RuntimePropertySchema where
  valueType : RuntimeValueType
  required : Bool
  deriving DecidableEq

/-- `RuntimeRecordSchema` (`schema.rs:65-72`). -/
structure RuntimeRecordSchema where
  properties : List (String × RuntimePropertySchema)
  allowAdditionalProperties : Bool
  uniqueProperties : List String
  deriving DecidableEq

/-- `RuntimeRelationSchema` (`schema.rs:75-90`). -/
structure RuntimeRelationSchema where
  from_ : List RuntimeType
  to_ : List RuntimeType
  properties : List (String × RuntimePropertySchema)
  allowAdditionalProperties : Bool
  uniquePair : Bool
  maxOutgoing : Option UInt64
  maxIncoming : Option UInt64
  deriving DecidableEq

/-- `RuntimeEventSchema` (`schema.rs:93-102`). -/
structure RuntimeEventSchema where
  subjectRequired : Bool
  subjectTypes : List RuntimeType
  properties : List (String × RuntimePropertySchema)
  allowAdditionalProperties : Bool
  deriving DecidableEq

/-- `RuntimeSchemaRegistry` (`schema.rs:105-114`). -/
structure RuntimeSchemaRegistry where
  revision : UInt64
  migration : String
  records : List (RuntimeType × RuntimeRecordSchema)
  relations : List (RuntimeType × RuntimeRelationSchema)
  events : List (RuntimeType × RuntimeEventSchema)
  deriving DecidableEq

/-! ## Commits and changes -/

/-- `RuntimeMutation` (`runtime.rs:159-190`). -/
inductive RuntimeMutation where
  | claim (claim : Claim)
  | schema (registry : RuntimeSchemaRegistry)
  | record (record : RuntimeRecord)
  | relation (relation : RuntimeRelation)
  | event (event : RuntimeEvent)
  | vector (vector : RuntimeVector)
  | seriesSample (sample : RuntimeSeriesSample)
  | geo (geo : RuntimeGeo)
  | object (object : ObjectReference)
  deriving DecidableEq

/-- `RuntimeCommit` (`runtime.rs:195-201`). -/
structure RuntimeCommit where
  scope : ScopeId
  at_ : Millis
  actor : String
  expectedCursor : UInt64
  mutations : List RuntimeMutation
  deriving DecidableEq

/-- `RuntimeChange` (`runtime.rs:296-308`). -/
structure RuntimeChange where
  cursor : UInt64
  commitId : String
  commitOrdinal : UInt64
  scope : ScopeId
  at_ : Millis
  actor : String
  mutation : RuntimeMutation
  previousDigest : Option String
  digest : String
  deriving DecidableEq

end Vyrm.Core
