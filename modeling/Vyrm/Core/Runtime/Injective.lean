import Mathlib.Data.Set.Function
import Vyrm.Core.Runtime.Canonical

/-!
# Canonical bytes are injective

Every encoder of the runtime is prefix-free, so a commit can be read back from its
canonical bytes and a digest stands for one commit.
-/

namespace Vyrm.Core
open Lib

/-! ## Fields -/

theorem prefixFree_be64 : PrefixFree be64 :=
  prefixFree_toBE (fun value => value.toNat_lt) fun _ _ => UInt64.toNat_inj.mp

theorem prefixFree_be32 : PrefixFree be32 :=
  prefixFree_toBE (fun value => value.toNat_lt) fun _ _ => UInt32.toNat_inj.mp

theorem prefixFree_be64Signed : PrefixFree be64Signed :=
  (prefixFree_be64.fixes Int64.toUInt64).prefixFree fun a b same => by
    cases a
    cases b
    simpa using same

theorem prefixFree_byte : PrefixFree fun byte : UInt8 => [byte] :=
  PrefixFree.of_width (fun _ => rfl) fun a b same => by simpa using same

theorem prefixFree_flag : PrefixFree flag :=
  PrefixFree.of_width (fun _ => rfl) (by decide)

theorem prefixFree_text : PrefixFree text :=
  (prefixFree_prefixed.fixes utf8).prefixFree fun _ _ => utf8_inj.mp

theorem prefixFree_optional {α : Type} {encode : α → Bytes} (free : PrefixFree encode) :
    PrefixFree (optional encode) := by
  convert Lib.prefixFree_optional free (show (0 : UInt8) ≠ 1 by decide) using 1
  funext value
  cases value <;> rfl

theorem prefixFree_optionalText : PrefixFree optionalText := prefixFree_optional prefixFree_text

theorem prefixFree_encodeOptionalU64 : PrefixFree encodeOptionalU64 := prefixFree_optional prefixFree_be64

theorem prefixFree_asStr {kind : IdentKind} : PrefixFree fun ident : Ident kind => text ident.asStr :=
  (prefixFree_text.fixes Ident.asStr).prefixFree fun a b same => by
    cases a
    cases b
    simpa using same

theorem text_ne_nil (value : String) : text value ≠ [] := by
  simp [text, prefixed, toBE]

theorem prefixFree_encodeRef : PrefixFree encodeRef :=
  ((prefixFree_asStr.fixes RuntimeRef.kind).append (prefixFree_asStr.fixes RuntimeRef.id)).prefixFree
    fun a b same => by
      cases a
      cases b
      simpa using same

theorem prefixFree_window :
    PrefixFree fun window : Millis × Option Millis => encodeWindow window.1 window.2 :=
  ((prefixFree_be64.fixes Prod.fst).append ((prefixFree_optional prefixFree_be64).fixes Prod.snd)).prefixFree
    fun _ _ same => same

/-! ## Claims -/

theorem prefixFree_tier : PrefixFree fun tier : Tier => [tier.tag] :=
  PrefixFree.of_width (fun _ => rfl) fun a b => by cases a <;> cases b <;> decide

theorem prefixFree_promotionState : PrefixFree fun state : PromotionState => [state.tag] :=
  PrefixFree.of_width (fun _ => rfl) fun a b => by cases a <;> cases b <;> decide

theorem Claim.prefixFree_canonicalBytes : PrefixFree Claim.canonicalBytes := by
  have fields := (Fixes.const Claim.domain).append (prefixFree_asStr.fixes Claim.subject)
    |>.append (prefixFree_asStr.fixes Claim.predicate) |>.append (prefixFree_text.fixes Claim.object)
    |>.append (prefixFree_be64.fixes Claim.validFrom)
    |>.append ((prefixFree_optional prefixFree_be64).fixes Claim.validTo)
    |>.append (prefixFree_be64.fixes Claim.txTime)
    |>.append (prefixFree_text.fixes fun claim => claim.producer.actor)
    |>.append (prefixFree_optionalText.fixes fun claim => claim.producer.onBehalfOf)
    |>.append (prefixFree_optionalText.fixes fun claim => claim.producer.session)
    |>.append ((prefixFree_optional prefixFree_be32).fixes Claim.confidence)
    |>.append (prefixFree_optionalText.fixes Claim.supersedes)
    |>.append (prefixFree_optionalText.fixes Claim.signature)
    |>.append (prefixFree_tier.fixes Claim.tier)
    |>.append (prefixFree_promotionState.fixes Claim.promotionState)
  apply fields.prefixFree
  intro a b same
  obtain ⟨_, _, _, _, _, _, ⟨_, _, _⟩, _, _, _, _, _⟩ := a
  obtain ⟨_, _, _, _, _, _, ⟨_, _, _⟩, _, _, _, _, _⟩ := b
  simp only [Prod.mk.injEq] at same
  obtain ⟨⟨⟨⟨⟨⟨⟨⟨⟨⟨⟨⟨⟨⟨-, rfl⟩, rfl⟩, rfl⟩, rfl⟩, rfl⟩, rfl⟩, rfl⟩, rfl⟩, rfl⟩, rfl⟩, rfl⟩, rfl⟩, rfl⟩, rfl⟩ := same
  rfl

/-! ## Values -/

theorem encodeValue_ne_nil (value : RuntimeValue) : encodeValue value ≠ [] := by
  cases value <;> simp [encodeValue]

theorem length_le_encodeValues (values : List RuntimeValue) :
    values.length ≤ (encodeValues values).length := by
  induction values with
  | nil => simp
  | cons value values ih =>
    have := List.length_pos_iff.mpr (encodeValue_ne_nil value)
    rw [encodeValues, List.length_append, List.length_cons]
    omega

theorem length_le_encodeEntries (entries : List (String × RuntimeValue)) :
    entries.length ≤ (encodeEntries entries).length := by
  induction entries with
  | nil => simp
  | cons entry entries ih =>
    have := List.length_pos_iff.mpr (encodeValue_ne_nil entry.2)
    rw [encodeEntries, List.length_append, List.length_append, List.length_cons]
    omega

/-- The counts of two lists agree before their items are compared. -/
theorem count_split {m n : Nat} {as bs x y : Bytes} (hm : m ≤ as.length) (hn : n ≤ bs.length)
    (fits : (toBE 8 m ++ as ++ x).length < 2 ^ 64) (same : toBE 8 m ++ as ++ x = toBE 8 n ++ bs ++ y) :
    m = n ∧ (as ++ x).length < 2 ^ 64 ∧ as ++ x = bs ++ y := by
  have fits' := fits
  rw [same] at fits'
  simp only [List.append_assoc, List.length_append, length_toBE] at fits fits' same
  obtain ⟨counts, same⟩ := toBE_split (by omega) (by omega) same
  refine ⟨counts, ?_, same⟩
  rw [List.length_append]
  omega

mutual

/-- Values, one case per constructor; lists and maps by what they contain. -/
theorem encodeValue_split : ∀ (a b : RuntimeValue) (x y : Bytes),
    (encodeValue a ++ x).length < 2 ^ 64 → encodeValue a ++ x = encodeValue b ++ y → a = b ∧ x = y
  | .null, b, x, y, fits, same => by
    cases b with
    | null => exact ⟨rfl, by simpa [encodeValue] using same⟩
    | _ => simp [encodeValue] at same
  | .bool a, b, x, y, fits, same => by
    cases b with
    | bool b =>
      obtain ⟨rfl, rest⟩ := prefixFree_flag.tagged 1 a b x y fits same
      exact ⟨rfl, rest⟩
    | _ => simp [encodeValue] at same
  | .integer a, b, x, y, fits, same => by
    cases b with
    | integer b =>
      obtain ⟨rfl, rest⟩ := prefixFree_be64Signed.tagged 2 a b x y fits same
      exact ⟨rfl, rest⟩
    | _ => simp [encodeValue] at same
  | .unsigned a, b, x, y, fits, same => by
    cases b with
    | unsigned b =>
      obtain ⟨rfl, rest⟩ := prefixFree_be64.tagged 3 a b x y fits same
      exact ⟨rfl, rest⟩
    | _ => simp [encodeValue] at same
  | .decimal a, b, x, y, fits, same => by
    cases b with
    | decimal b =>
      obtain ⟨rfl, rest⟩ := prefixFree_text.tagged 4 a b x y fits same
      exact ⟨rfl, rest⟩
    | _ => simp [encodeValue] at same
  | .string a, b, x, y, fits, same => by
    cases b with
    | string b =>
      obtain ⟨rfl, rest⟩ := prefixFree_text.tagged 5 a b x y fits same
      exact ⟨rfl, rest⟩
    | _ => simp [encodeValue] at same
  | .digest a, b, x, y, fits, same => by
    cases b with
    | digest b =>
      obtain ⟨rfl, rest⟩ := prefixFree_text.tagged 6 a b x y fits same
      exact ⟨rfl, rest⟩
    | _ => simp [encodeValue] at same
  | .list as, b, x, y, fits, same => by
    cases b with
    | list bs =>
      simp only [encodeValue, List.cons_append, List.length_cons] at fits same
      obtain ⟨counts, short, same⟩ := count_split (length_le_encodeValues as)
        (length_le_encodeValues bs) (by omega) (List.cons.inj same).2
      obtain ⟨items, rest⟩ := encodeValues_split as bs x y counts short same
      exact ⟨by rw [items], rest⟩
    | _ => simp [encodeValue] at same
  | .map as, b, x, y, fits, same => by
    cases b with
    | map bs =>
      simp only [encodeValue, List.cons_append, List.length_cons] at fits same
      obtain ⟨counts, short, same⟩ := count_split (length_le_encodeEntries as)
        (length_le_encodeEntries bs) (by omega) (List.cons.inj same).2
      obtain ⟨entries, rest⟩ := encodeEntries_split as bs x y counts short same
      exact ⟨by rw [entries], rest⟩
    | _ => simp [encodeValue] at same

theorem encodeValues_split : ∀ (as bs : List RuntimeValue) (x y : Bytes), as.length = bs.length →
    (encodeValues as ++ x).length < 2 ^ 64 → encodeValues as ++ x = encodeValues bs ++ y →
      as = bs ∧ x = y
  | [], [], x, y, _, _, same => ⟨rfl, by simpa [encodeValues] using same⟩
  | [], _ :: _, _, _, lengths, _, _ => by simp at lengths
  | _ :: _, [], _, _, lengths, _, _ => by simp at lengths
  | a :: as, b :: bs, x, y, lengths, fits, same => by
    rw [encodeValues, List.append_assoc] at fits
    rw [encodeValues, encodeValues, List.append_assoc, List.append_assoc] at same
    obtain ⟨first, same⟩ := encodeValue_split a b _ _ fits same
    have short : (encodeValues as ++ x).length < 2 ^ 64 := by
      rw [List.length_append] at fits
      omega
    obtain ⟨later, rest⟩ := encodeValues_split as bs x y (by simpa using lengths) short same
    exact ⟨by rw [first, later], rest⟩

theorem encodeEntries_split : ∀ (as bs : List (String × RuntimeValue)) (x y : Bytes),
    as.length = bs.length → (encodeEntries as ++ x).length < 2 ^ 64 →
      encodeEntries as ++ x = encodeEntries bs ++ y → as = bs ∧ x = y
  | [], [], x, y, _, _, same => ⟨rfl, by simpa [encodeEntries] using same⟩
  | [], _ :: _, _, _, lengths, _, _ => by simp at lengths
  | _ :: _, [], _, _, lengths, _, _ => by simp at lengths
  | (k, a) :: as, (l, b) :: bs, x, y, lengths, fits, same => by
    rw [encodeEntries, List.append_assoc, List.append_assoc] at fits
    rw [encodeEntries, encodeEntries] at same
    simp only [List.append_assoc] at same
    obtain ⟨keys, fits, same⟩ := prefixFree_text.split fits same
    obtain ⟨first, same⟩ := encodeValue_split a b _ _ fits same
    have short : (encodeEntries as ++ x).length < 2 ^ 64 := by
      rw [List.length_append] at fits
      omega
    obtain ⟨later, rest⟩ := encodeEntries_split as bs x y (by simpa using lengths) short same
    exact ⟨by rw [keys, first, later], rest⟩

end

theorem prefixFree_encodeProperties : PrefixFree encodeProperties := by
  intro as bs x y fits same
  obtain ⟨counts, short, same⟩ := count_split (length_le_encodeEntries as)
    (length_le_encodeEntries bs) fits same
  exact encodeEntries_split as bs x y counts short same

/-! ## Vectors, samples and geometries -/

theorem be32_ne_nil (value : UInt32) : be32 value ≠ [] := by
  simp [be32, toBE]

theorem prefixFree_encodeF32s : PrefixFree encodeF32s := prefixFree_counted prefixFree_be32 be32_ne_nil

theorem encodeF32s_ne_nil (values : List F32) : encodeF32s values ≠ [] := by
  simp [encodeF32s, counted, toBE]

theorem prefixFree_encodeVectorValue : PrefixFree encodeVectorValue := by
  have sparse : PrefixFree fun parts : UInt32 × List UInt32 × List F32 =>
      be32 parts.1 ++ counted be32 parts.2.1 ++ encodeF32s parts.2.2 := by
    have indices := prefixFree_counted prefixFree_be32 be32_ne_nil
    have fields := (prefixFree_be32.fixes fun parts : UInt32 × List UInt32 × List F32 => parts.1)
      |>.append (indices.fixes fun parts => parts.2.1)
      |>.append (prefixFree_encodeF32s.fixes fun parts => parts.2.2)
    apply fields.prefixFree
    intro a b same
    simp only [Prod.mk.injEq] at same
    exact Prod.ext same.1.1 (Prod.ext same.1.2 same.2)
  have multi : PrefixFree fun parts : UInt32 × List (List F32) =>
      be32 parts.1 ++ counted encodeF32s parts.2 :=
    ((prefixFree_be32.fixes Prod.fst).append
      ((prefixFree_counted prefixFree_encodeF32s encodeF32s_ne_nil).fixes Prod.snd)).prefixFree
      fun _ _ same => same
  intro a b x y fits same
  cases a with
  | dense values =>
    cases b with
    | dense values' =>
      obtain ⟨rfl, rest⟩ := prefixFree_encodeF32s.tagged 0 values values' x y fits same
      exact ⟨rfl, rest⟩
    | _ => simp [encodeVectorValue] at same
  | sparse dimensions indices values =>
    cases b with
    | sparse dimensions' indices' values' =>
      obtain ⟨parts, rest⟩ := sparse.tagged 1 (dimensions, indices, values)
        (dimensions', indices', values') x y fits same
      simp only [Prod.mk.injEq] at parts
      obtain ⟨rfl, rfl, rfl⟩ := parts
      exact ⟨rfl, rest⟩
    | _ => simp [encodeVectorValue] at same
  | multiDense dimensions vectors =>
    cases b with
    | multiDense dimensions' vectors' =>
      obtain ⟨parts, rest⟩ := multi.tagged 2 (dimensions, vectors) (dimensions', vectors') x y fits same
      simp only [Prod.mk.injEq] at parts
      obtain ⟨rfl, rfl⟩ := parts
      exact ⟨rfl, rest⟩
    | _ => simp [encodeVectorValue] at same

theorem prefixFree_encodeProvenance : PrefixFree encodeProvenance := by
  have normalization : PrefixFree fun value : VectorNormalization => [value.tag] :=
    PrefixFree.of_width (fun _ => rfl) fun a b => by cases a <;> cases b <;> decide
  have fields := (prefixFree_text.fixes EmbeddingProvenance.sourceDigest)
    |>.append (prefixFree_text.fixes EmbeddingProvenance.model)
    |>.append (prefixFree_text.fixes EmbeddingProvenance.modelDigest)
    |>.append (prefixFree_be32.fixes EmbeddingProvenance.dimensions)
    |>.append (normalization.fixes EmbeddingProvenance.normalization)
    |>.append (prefixFree_encodeProperties.fixes EmbeddingProvenance.generationParameters)
  apply fields.prefixFree
  intro a b same
  cases a
  cases b
  simp_all

theorem prefixFree_encodeSeriesValue : PrefixFree encodeSeriesValue := by
  intro a b x y fits same
  cases a with
  | integer a =>
    cases b with
    | integer b =>
      obtain ⟨rfl, rest⟩ := prefixFree_be64Signed.tagged 0 a b x y fits same
      exact ⟨rfl, rest⟩
    | _ => simp [encodeSeriesValue] at same
  | unsigned a =>
    cases b with
    | unsigned b =>
      obtain ⟨rfl, rest⟩ := prefixFree_be64.tagged 1 a b x y fits same
      exact ⟨rfl, rest⟩
    | _ => simp [encodeSeriesValue] at same
  | decimal a =>
    cases b with
    | decimal b =>
      obtain ⟨rfl, rest⟩ := prefixFree_text.tagged 2 a b x y fits same
      exact ⟨rfl, rest⟩
    | _ => simp [encodeSeriesValue] at same
  | bool a =>
    cases b with
    | bool b =>
      obtain ⟨rfl, rest⟩ := prefixFree_flag.tagged 3 a b x y fits same
      exact ⟨rfl, rest⟩
    | _ => simp [encodeSeriesValue] at same
  | string a =>
    cases b with
    | string b =>
      obtain ⟨rfl, rest⟩ := prefixFree_text.tagged 4 a b x y fits same
      exact ⟨rfl, rest⟩
    | _ => simp [encodeSeriesValue] at same

theorem prefixFree_encodePoint : PrefixFree encodePoint :=
  ((prefixFree_be64.fixes GeoPoint.longitude).append (prefixFree_be64.fixes GeoPoint.latitude)).prefixFree
    fun a b same => by
      cases a
      cases b
      simpa using same

theorem prefixFree_encodeGeoValue : PrefixFree encodeGeoValue := by
  have box : PrefixFree fun corners : GeoPoint × GeoPoint =>
      encodePoint corners.1 ++ encodePoint corners.2 :=
    ((prefixFree_encodePoint.fixes Prod.fst).append (prefixFree_encodePoint.fixes Prod.snd)).prefixFree
      fun _ _ same => same
  intro a b x y fits same
  cases a with
  | point a =>
    cases b with
    | point b =>
      obtain ⟨rfl, rest⟩ := prefixFree_encodePoint.tagged 0 a b x y fits same
      exact ⟨rfl, rest⟩
    | _ => simp [encodeGeoValue] at same
  | boundingBox southwest northeast =>
    cases b with
    | boundingBox southwest' northeast' =>
      obtain ⟨corners, rest⟩ := box.tagged 1 (southwest, northeast) (southwest', northeast') x y fits same
      simp only [Prod.mk.injEq] at corners
      obtain ⟨rfl, rfl⟩ := corners
      exact ⟨rfl, rest⟩
    | _ => simp [encodeGeoValue] at same

/-! ## Schemas -/

theorem prefixFree_valueType : PrefixFree fun valueType : RuntimeValueType => [valueType.tag] :=
  PrefixFree.of_width (fun _ => rfl) fun a b => by cases a <;> cases b <;> decide

theorem prefixFree_encodePropertySchemas : PrefixFree encodePropertySchemas := by
  apply prefixFree_counted
  · have fields := (prefixFree_text.fixes fun entry : String × RuntimePropertySchema => entry.1)
      |>.append (prefixFree_valueType.fixes fun entry => entry.2.valueType)
      |>.append (prefixFree_flag.fixes fun entry => entry.2.required)
    apply fields.prefixFree
    intro a b same
    obtain ⟨_, _, _⟩ := a
    obtain ⟨_, _, _⟩ := b
    simp_all
  · intro entry
    simp [text_ne_nil]

theorem prefixFree_encodeTypeSet : PrefixFree encodeTypeSet :=
  prefixFree_counted prefixFree_asStr fun kind => text_ne_nil kind.asStr

theorem prefixFree_encodeRecordSchema : PrefixFree encodeRecordSchema := by
  have fields := (prefixFree_asStr.fixes fun entry : RuntimeType × RuntimeRecordSchema => entry.1)
    |>.append (prefixFree_encodePropertySchemas.fixes fun entry => entry.2.properties)
    |>.append (prefixFree_flag.fixes fun entry => entry.2.allowAdditionalProperties)
    |>.append ((prefixFree_counted prefixFree_text text_ne_nil).fixes fun entry => entry.2.uniqueProperties)
  apply fields.prefixFree
  intro a b same
  obtain ⟨_, _, _, _⟩ := a
  obtain ⟨_, _, _, _⟩ := b
  simp_all

theorem prefixFree_encodeRelationSchema : PrefixFree encodeRelationSchema := by
  have fields := (prefixFree_asStr.fixes fun entry : RuntimeType × RuntimeRelationSchema => entry.1)
    |>.append (prefixFree_encodeTypeSet.fixes fun entry => entry.2.from_)
    |>.append (prefixFree_encodeTypeSet.fixes fun entry => entry.2.to_)
    |>.append (prefixFree_encodePropertySchemas.fixes fun entry => entry.2.properties)
    |>.append (prefixFree_flag.fixes fun entry => entry.2.allowAdditionalProperties)
    |>.append (prefixFree_flag.fixes fun entry => entry.2.uniquePair)
    |>.append (prefixFree_encodeOptionalU64.fixes fun entry => entry.2.maxOutgoing)
    |>.append (prefixFree_encodeOptionalU64.fixes fun entry => entry.2.maxIncoming)
  apply fields.prefixFree
  intro a b same
  obtain ⟨_, _, _, _, _, _, _, _⟩ := a
  obtain ⟨_, _, _, _, _, _, _, _⟩ := b
  simp_all

theorem prefixFree_encodeEventSchema : PrefixFree encodeEventSchema := by
  have fields := (prefixFree_asStr.fixes fun entry : RuntimeType × RuntimeEventSchema => entry.1)
    |>.append (prefixFree_flag.fixes fun entry => entry.2.subjectRequired)
    |>.append (prefixFree_encodeTypeSet.fixes fun entry => entry.2.subjectTypes)
    |>.append (prefixFree_encodePropertySchemas.fixes fun entry => entry.2.properties)
    |>.append (prefixFree_flag.fixes fun entry => entry.2.allowAdditionalProperties)
  apply fields.prefixFree
  intro a b same
  obtain ⟨_, _, _, _, _⟩ := a
  obtain ⟨_, _, _, _, _⟩ := b
  simp_all

theorem prefixFree_encodeSchema : PrefixFree encodeSchema := by
  have record (entry : RuntimeType × RuntimeRecordSchema) : encodeRecordSchema entry ≠ [] := by
    simp [encodeRecordSchema, text_ne_nil]
  have relation (entry : RuntimeType × RuntimeRelationSchema) : encodeRelationSchema entry ≠ [] := by
    simp [encodeRelationSchema, text_ne_nil]
  have event (entry : RuntimeType × RuntimeEventSchema) : encodeEventSchema entry ≠ [] := by
    simp [encodeEventSchema, text_ne_nil]
  have fields := (prefixFree_be64.fixes RuntimeSchemaRegistry.revision)
    |>.append (prefixFree_text.fixes RuntimeSchemaRegistry.migration)
    |>.append ((prefixFree_counted prefixFree_encodeRecordSchema record).fixes RuntimeSchemaRegistry.records)
    |>.append ((prefixFree_counted prefixFree_encodeRelationSchema relation).fixes
      RuntimeSchemaRegistry.relations)
    |>.append ((prefixFree_counted prefixFree_encodeEventSchema event).fixes RuntimeSchemaRegistry.events)
  apply fields.prefixFree
  intro a b same
  cases a
  cases b
  simp_all

/-! ## Mutations -/

theorem prefixFree_record : PrefixFree fun record : RuntimeRecord =>
    encodeRef record.reference ++ encodeWindow record.validFrom record.validTo ++
      encodeProperties record.properties := by
  have fields := (prefixFree_encodeRef.fixes RuntimeRecord.reference)
    |>.append (prefixFree_window.fixes fun record => (record.validFrom, record.validTo))
    |>.append (prefixFree_encodeProperties.fixes RuntimeRecord.properties)
  apply fields.prefixFree
  intro a b same
  cases a
  cases b
  simp_all

theorem prefixFree_relation : PrefixFree fun relation : RuntimeRelation =>
    encodeRef relation.reference ++ encodeRef relation.from_ ++ encodeRef relation.to_ ++
      encodeWindow relation.validFrom relation.validTo ++ encodeProperties relation.properties := by
  have fields := (prefixFree_encodeRef.fixes RuntimeRelation.reference)
    |>.append (prefixFree_encodeRef.fixes RuntimeRelation.from_)
    |>.append (prefixFree_encodeRef.fixes RuntimeRelation.to_)
    |>.append (prefixFree_window.fixes fun relation => (relation.validFrom, relation.validTo))
    |>.append (prefixFree_encodeProperties.fixes RuntimeRelation.properties)
  apply fields.prefixFree
  intro a b same
  cases a
  cases b
  simp_all

theorem prefixFree_event : PrefixFree fun event : RuntimeEvent =>
    text event.kind.asStr ++ optional encodeRef event.subject ++ encodeProperties event.properties := by
  have fields := (prefixFree_asStr.fixes RuntimeEvent.kind)
    |>.append ((prefixFree_optional prefixFree_encodeRef).fixes RuntimeEvent.subject)
    |>.append (prefixFree_encodeProperties.fixes RuntimeEvent.properties)
  apply fields.prefixFree
  intro a b same
  cases a
  cases b
  simp_all

theorem prefixFree_vector : PrefixFree fun vector : RuntimeVector =>
    encodeRef vector.reference ++ encodeRef vector.subject ++ text vector.field ++
      encodeWindow vector.validFrom vector.validTo ++ encodeVectorValue vector.value ++
      optional encodeProvenance vector.provenance ++ encodeProperties vector.properties := by
  have fields := (prefixFree_encodeRef.fixes RuntimeVector.reference)
    |>.append (prefixFree_encodeRef.fixes RuntimeVector.subject)
    |>.append (prefixFree_text.fixes RuntimeVector.field)
    |>.append (prefixFree_window.fixes fun vector => (vector.validFrom, vector.validTo))
    |>.append (prefixFree_encodeVectorValue.fixes RuntimeVector.value)
    |>.append ((prefixFree_optional prefixFree_encodeProvenance).fixes RuntimeVector.provenance)
    |>.append (prefixFree_encodeProperties.fixes RuntimeVector.properties)
  apply fields.prefixFree
  intro a b same
  cases a
  cases b
  simp_all

theorem prefixFree_seriesSample : PrefixFree fun sample : RuntimeSeriesSample =>
    encodeRef sample.reference ++ encodeRef sample.series ++ be64 sample.observedAt ++
      encodeSeriesValue sample.value ++ encodeProperties sample.properties := by
  have fields := (prefixFree_encodeRef.fixes RuntimeSeriesSample.reference)
    |>.append (prefixFree_encodeRef.fixes RuntimeSeriesSample.series)
    |>.append (prefixFree_be64.fixes RuntimeSeriesSample.observedAt)
    |>.append (prefixFree_encodeSeriesValue.fixes RuntimeSeriesSample.value)
    |>.append (prefixFree_encodeProperties.fixes RuntimeSeriesSample.properties)
  apply fields.prefixFree
  intro a b same
  cases a
  cases b
  simp_all

theorem prefixFree_geo : PrefixFree fun geo : RuntimeGeo =>
    encodeRef geo.reference ++ encodeRef geo.subject ++ text geo.field ++
      encodeWindow geo.validFrom geo.validTo ++ encodeGeoValue geo.value ++
      encodeProperties geo.properties := by
  have fields := (prefixFree_encodeRef.fixes RuntimeGeo.reference)
    |>.append (prefixFree_encodeRef.fixes RuntimeGeo.subject)
    |>.append (prefixFree_text.fixes RuntimeGeo.field)
    |>.append (prefixFree_window.fixes fun geo => (geo.validFrom, geo.validTo))
    |>.append (prefixFree_encodeGeoValue.fixes RuntimeGeo.value)
    |>.append (prefixFree_encodeProperties.fixes RuntimeGeo.properties)
  apply fields.prefixFree
  intro a b same
  cases a
  cases b
  simp_all

theorem prefixFree_object : PrefixFree fun object : ObjectReference =>
    encodeRef object.reference ++ optional encodeRef object.subject ++ text object.sha256 ++
      be64 object.length ++ text object.mediaType ++ text object.receipt.backend ++
      text object.receipt.key ++ optionalText object.receipt.version ++
      optionalText object.receipt.etag ++ encodeProperties object.properties := by
  have fields := (prefixFree_encodeRef.fixes ObjectReference.reference)
    |>.append ((prefixFree_optional prefixFree_encodeRef).fixes ObjectReference.subject)
    |>.append (prefixFree_text.fixes ObjectReference.sha256)
    |>.append (prefixFree_be64.fixes ObjectReference.length)
    |>.append (prefixFree_text.fixes ObjectReference.mediaType)
    |>.append (prefixFree_text.fixes fun object => object.receipt.backend)
    |>.append (prefixFree_text.fixes fun object => object.receipt.key)
    |>.append (prefixFree_optionalText.fixes fun object => object.receipt.version)
    |>.append (prefixFree_optionalText.fixes fun object => object.receipt.etag)
    |>.append (prefixFree_encodeProperties.fixes ObjectReference.properties)
  apply fields.prefixFree
  intro a b same
  obtain ⟨_, _, _, _, _, ⟨_, _, _, _⟩, _⟩ := a
  obtain ⟨_, _, _, _, _, ⟨_, _, _, _⟩, _⟩ := b
  simp_all

/-- Two mutations encoded at the front of one string have one tag, and then one body. -/
theorem prefixFree_encodeMutation : PrefixFree encodeMutation := by
  intro a b x y fits same
  cases a with
  | claim a =>
    cases b with
    | claim b =>
      obtain ⟨rfl, rest⟩ := Claim.prefixFree_canonicalBytes.prefixed.tagged 0 a b x y fits same
      exact ⟨rfl, rest⟩
    | _ => simp [encodeMutation] at same
  | schema a =>
    cases b with
    | schema b =>
      obtain ⟨rfl, rest⟩ := prefixFree_encodeSchema.tagged 4 a b x y fits same
      exact ⟨rfl, rest⟩
    | _ => simp [encodeMutation] at same
  | record a =>
    cases b with
    | record b =>
      obtain ⟨rfl, rest⟩ := prefixFree_record.tagged 1 a b x y fits same
      exact ⟨rfl, rest⟩
    | _ => simp [encodeMutation] at same
  | relation a =>
    cases b with
    | relation b =>
      obtain ⟨rfl, rest⟩ := prefixFree_relation.tagged 2 a b x y fits same
      exact ⟨rfl, rest⟩
    | _ => simp [encodeMutation] at same
  | event a =>
    cases b with
    | event b =>
      obtain ⟨rfl, rest⟩ := prefixFree_event.tagged 3 a b x y fits same
      exact ⟨rfl, rest⟩
    | _ => simp [encodeMutation] at same
  | vector a =>
    cases b with
    | vector b =>
      obtain ⟨rfl, rest⟩ := prefixFree_vector.tagged 5 a b x y fits same
      exact ⟨rfl, rest⟩
    | _ => simp [encodeMutation] at same
  | seriesSample a =>
    cases b with
    | seriesSample b =>
      obtain ⟨rfl, rest⟩ := prefixFree_seriesSample.tagged 6 a b x y fits same
      exact ⟨rfl, rest⟩
    | _ => simp [encodeMutation] at same
  | geo a =>
    cases b with
    | geo b =>
      obtain ⟨rfl, rest⟩ := prefixFree_geo.tagged 7 a b x y fits same
      exact ⟨rfl, rest⟩
    | _ => simp [encodeMutation] at same
  | object a =>
    cases b with
    | object b =>
      obtain ⟨rfl, rest⟩ := prefixFree_object.tagged 8 a b x y fits same
      exact ⟨rfl, rest⟩
    | _ => simp [encodeMutation] at same

theorem encodeMutation_ne_nil (mutation : RuntimeMutation) : encodeMutation mutation ≠ [] := by
  cases mutation <;> simp [encodeMutation]

/-! ## Commits and changes -/

theorem RuntimeCommit.prefixFree_canonicalBytes : PrefixFree RuntimeCommit.canonicalBytes := by
  have mutations := prefixFree_counted prefixFree_encodeMutation encodeMutation_ne_nil
  have fields := (Fixes.const RuntimeCommit.domain).append (prefixFree_asStr.fixes RuntimeCommit.scope)
    |>.append (prefixFree_be64.fixes RuntimeCommit.at_)
    |>.append (prefixFree_text.fixes RuntimeCommit.actor)
    |>.append (prefixFree_be64.fixes RuntimeCommit.expectedCursor)
    |>.append (mutations.fixes RuntimeCommit.mutations)
  apply fields.prefixFree
  intro a b same
  cases a
  cases b
  simp_all

/-- Changes are split off the front of a string up to their own digest, which they do not encode. -/
theorem RuntimeChange.fixes_canonicalBytes :
    Fixes RuntimeChange.canonicalBytes fun change => { change with digest := "" } := by
  have fields := (Fixes.const RuntimeChange.domain).append (prefixFree_be64.fixes RuntimeChange.cursor)
    |>.append (prefixFree_text.fixes RuntimeChange.commitId)
    |>.append (prefixFree_be64.fixes RuntimeChange.commitOrdinal)
    |>.append (prefixFree_asStr.fixes RuntimeChange.scope)
    |>.append (prefixFree_be64.fixes RuntimeChange.at_)
    |>.append (prefixFree_text.fixes RuntimeChange.actor)
    |>.append (prefixFree_encodeMutation.fixes RuntimeChange.mutation)
    |>.append (prefixFree_optionalText.fixes RuntimeChange.previousDigest)
  intro a b x y fits same
  obtain ⟨parts, rest⟩ := fields a b x y fits same
  refine ⟨?_, rest⟩
  cases a
  cases b
  simp_all

/-- Canonical bytes name one commit, no change's bytes continue another's, and as long as the
hash does not collide on the bytes at hand, equal digests mean equal commits. The bytes are a
vector, whose length fits `u64`. -/
theorem canonical_bytes_injective :
    (∀ a b : RuntimeCommit, a.canonicalBytes.length < 2 ^ 64 →
      a.canonicalBytes = b.canonicalBytes → a = b) ∧
    (∀ a b : RuntimeChange, b.canonicalBytes.length < 2 ^ 64 →
      a.canonicalBytes <+: b.canonicalBytes → a.canonicalBytes = b.canonicalBytes) ∧
    (∀ (inputs : Set Bytes) (a b : RuntimeCommit), Set.InjOn sha256Hex inputs →
      a.canonicalBytes ∈ inputs → b.canonicalBytes ∈ inputs → a.canonicalBytes.length < 2 ^ 64 →
      a.digest = b.digest → a = b) := by
  have commits : ∀ a b : RuntimeCommit, a.canonicalBytes.length < 2 ^ 64 →
      a.canonicalBytes = b.canonicalBytes → a = b := fun a b fits same =>
    RuntimeCommit.prefixFree_canonicalBytes.inj fits same
  refine ⟨commits, ?_, ?_⟩
  · intro a b fits front
    obtain ⟨rest, whole⟩ := front
    have short : (a.canonicalBytes ++ rest).length < 2 ^ 64 := by
      rw [whole]
      exact fits
    have ends : rest = [] := by
      apply (RuntimeChange.fixes_canonicalBytes a b rest [] short ?_).2
      rw [whole, List.append_nil]
    rw [← whole, ends, List.append_nil]
  · intro inputs a b collisionFree ha hb fits same
    exact commits a b fits (collisionFree ha hb same)

end Vyrm.Core
