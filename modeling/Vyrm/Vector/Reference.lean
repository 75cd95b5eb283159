import Vyrm.Vector.Runtime

/-!
# A surrounding that computes

Digests and scores the model can be evaluated with: a digest spells the generation of an artifact in
64 digits, and a score is the dot product of vectors of zeros and ones.
-/

namespace Vyrm.Vector.Reference
open Lib Vyrm.Core

def scope : ScopeId := ⟨"instance:example", by decide, by decide⟩

def vectorId : ProjectionId := ⟨"vector:body", by decide, by decide⟩

def otherId : ProjectionId := ⟨"vector:other", by decide, by decide⟩

/-- The 64 low bits of a number, a set bit as a digit of its own. -/
def spell (digit : Char) (number : Nat) : String :=
  String.ofList ((List.range 64).map fun place => if number.testBit place then digit else '0')

/-- The digit of an identity. -/
def digitOf (id : ProjectionId) : Char := if id = vectorId then '1' else '2'

instance segmentEncoding : SegmentEncoding where
  configDigest _ := spell '1' 0
  segmentDigest body := spell (digitOf body.config.id) body.generation
  denseDigest body := spell (digitOf body.config.id) body.generation
  segmentLength body := body.candidates.length
  denseLength body := body.rows.length

instance hnswEncoding : HnswEncoding where
  hnswConfigDigest _ := spell '1' 0
  hnswDigest body := spell (digitOf body.config.id) body.generation
  hnswLength body := body.nodes.length

/-- `1.0` of an `f32`. -/
def one : F32 := 0x3f800000

/-- The dot product of vectors of zeros and ones. -/
def dot (left right : List F32) : Nat := ((left.zip right).filter fun pair => pair = (one, one)).length

instance scoring : Scoring Nat where
  dense left right _ := dot left right
  sparse _ left _ right _ := dot left right
  total := List.sum

instance denseKernel : DenseKernel Nat where
  scoreRow left right _ := dot left right

/-! ## Segments without candidates -/

/-- A configuration for dense vectors of one dimension. -/
def config (id : ProjectionId) : VectorSegmentConfig :=
  { id, scope, field := "body", dimensions := 1, metric := .dot, embeddingModel := none, filterProperties := [] }

def emptyBody (id : ProjectionId) (generation : Nat) : SegmentBody := ⟨config id, generation, 1, 0, []⟩

theorem validateDigest_spell (kind : String) {digit : Char} (isDigit_ : digit = '1' ∨ digit = '2') (number : Nat) :
    validateDigest kind (spell digit number) = .ok () := by
  have chars : ∀ c ∈ (List.range 64).map fun place => if number.testBit place then digit else '0',
      c = '0' ∨ c = '1' ∨ c = '2' := by
    intro c member
    obtain ⟨place, -, rfl⟩ := List.mem_map.mp member
    by_cases set_ : number.testBit place
    · rw [if_pos set_]
      exact .inr isDigit_
    · rw [if_neg set_]
      exact .inl rfl
  have bytes : utf8 (spell digit number) = _ := utf8_ofList_ascii fun c member => by
    rcases chars c member with rfl | rfl | rfl <;> decide
  unfold validateDigest
  rw [bytes, if_neg]
  simp only [List.length_map, List.length_range, ne_eq, not_true, false_or, not_not, List.all_eq_true]
  intro byte member
  obtain ⟨c, listed, rfl⟩ := List.mem_map.mp member
  rcases chars c listed with rfl | rfl | rfl <;> decide

theorem digitOf_isDigit (id : ProjectionId) : digitOf id = '1' ∨ digitOf id = '2' := by
  unfold digitOf
  by_cases same : id = vectorId
  · exact .inl (if_pos same)
  · exact .inr (if_neg same)

theorem check_emptyBody (id : ProjectionId) {generation : Nat} (positive : generation ≠ 0) :
    (emptyBody id generation).check = .ok () := by
  have configured : (config id).validate = .ok () := by
    show (config vectorId).validate = .ok ()
    decide +kernel
  have stamped : (emptyBody id generation).descriptor.stamp.validate = .ok () := by
    unfold ProjectionStamp.validate
    rw [if_neg (by simpa [SegmentBody.descriptor, VectorSegmentConfig.describe, emptyBody] using positive)]
    show (validateDigest _ (spell '1' 0) >>= fun _ => validateDigest _ (spell (digitOf id) generation)) = _
    rw [validateDigest_spell _ (.inl rfl), validateDigest_spell _ (digitOf_isDigit id)]
    rfl
  unfold SegmentBody.check SegmentDescriptor.validate
  rw [show (emptyBody id generation).config.validate = .ok () from configured, stamped]
  rfl

/-- The segment of a generation under an identity. -/
def segment (id : ProjectionId) (generation : Nat) (positive : generation ≠ 0) : VectorArtifact :=
  .exactSegment ⟨emptyBody id generation, check_emptyBody id positive⟩

/-- Small numbers are spelled differently. -/
theorem spell_inj {digit : Char} (visible : digit ≠ '0') {number other : Nat} (small : number < 2 ^ 64)
    (otherSmall : other < 2 ^ 64) (same : spell digit number = spell digit other) : number = other := by
  have chars := String.ofList_injective same
  apply Nat.eq_of_testBit_eq
  intro place
  by_cases inside : place < 64
  · have here := List.map_inj_left.mp chars place (List.mem_range.mpr inside)
    cases left : number.testBit place <;> cases right : other.testBit place <;> simp [left, right] at here ⊢
    · exact visible here.symm
    · exact visible here
  · have large : 2 ^ 64 ≤ 2 ^ place := Nat.pow_le_pow_right (by decide) (by omega)
    rw [Nat.testBit_lt_two_pow (by omega), Nat.testBit_lt_two_pow (by omega)]

/-! ## Vectors and requests -/

/-- A version of a vector of the field `body`, valid from the start. -/
def candidate (scope : ScopeId) (id : RuntimeId) (cursor : UInt64) (values : List F32) : VectorCandidate :=
  { scope
    sourceCursor := cursor
    vector :=
      { reference := ⟨.lit "embedding" (Eq.refl true), id⟩
        subject := ⟨.lit "document" (Eq.refl true), id⟩
        field := "body"
        validFrom := 0
        validTo := none
        value := .dense values
        provenance := none
        properties := [] } }

/-- A stamp of a scope at a cursor that is not zero. -/
def stamp (scope : ScopeId) (commitCursor : UInt64) : ReadStamp :=
  let stamp : ReadStamp :=
    { contractVersion := dataRuntimeContractVersion
      scope
      schemaRevision := none
      catalogRevision := 0
      commitCursor
      headDigest := some (spell '1' 0)
      manifestId := "" }
  { stamp with manifestId := sha256Hex stamp.manifestBytes }

/-- A request for the vectors of the field `body` that are closest to a dense one. -/
def request (scope : ScopeId) (commitCursor : UInt64) (values : List F32) (topK : Nat) (mode : SearchMode) :
    SearchRequest :=
  { scope
    read := stamp scope commitCursor
    validAt := 0
    field := "body"
    query := .dense values
    metric := .dot
    embeddingModel := none
    topK
    mode
    filter := none }

end Vyrm.Vector.Reference
