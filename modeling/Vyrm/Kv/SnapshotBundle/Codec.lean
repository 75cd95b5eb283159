import Vyrm.Kv.Segment.RoundTrip
import Vyrm.Kv.SnapshotBundle
import Vyrm.Kv.Reference

/-!
# The bundle codec

`decode` inverts `encode`, and it accepts a second text for a bundle only if the two
contents have one SHA-256 digest: the digest of a decoded bundle is compared with that of
the content the bundle prints to, so the JSON parts have to stand in their printed form.
-/

namespace Vyrm.Kv.SnapshotBundle
open Lib

section
variable [Platform]

/-- The bytes of one segment in a bundle. -/
def partBytes (part : SnapshotSegment) : Bytes :=
  toBE 4 (Platform.descriptorJson.toVec part.descriptor).length ++ toBE 8 part.bytes.length ++
    Platform.descriptorJson.toVec part.descriptor ++ part.bytes

/-- The header of a bundle and its manifest. -/
def frontBytes (bundle : SnapshotBundle) : Bytes :=
  bundleMagic ++ toBE 2 bundle.formatVersion ++ toBE 2 0 ++
    toBE 4 (Platform.manifestJson.toVec bundle.sourceManifest).length ++
    toBE 4 bundle.segments.length ++ Platform.manifestJson.toVec bundle.sourceManifest

/-- The content of a bundle that is not too large. -/
def content (bundle : SnapshotBundle) : Bytes :=
  bundle.frontBytes ++ bundle.segments.flatMap partBytes

/-- A segment whose lengths fit their fields. -/
structure PartFits (part : SnapshotSegment) : Prop where
  descriptor : (Platform.descriptorJson.toVec part.descriptor).length < 256 ^ 4
  bytes : part.bytes.length < 256 ^ 8

theorem length_partBytes (part : SnapshotSegment) :
    (partBytes part).length =
      12 + (Platform.descriptorJson.toVec part.descriptor).length + part.bytes.length := by
  simp [partBytes]
  omega

theorem appendSegments_ok {parts : List SnapshotSegment} {output result : Bytes}
    (h : appendSegments parts output = .ok result) :
    result = output ++ parts.flatMap partBytes ∧ ∀ part ∈ parts, PartFits part := by
  induction parts generalizing output with
  | nil =>
    cases h
    simp
  | cons part rest ih =>
    simp only [appendSegments, except_bind_ok, u32TryFrom_ok, rejectIf_ok, exists_const, not_lt,
      gt_iff_lt] at h
    obtain ⟨length, ⟨descriptor, rfl⟩, small, h⟩ := h
    obtain ⟨rfl, others⟩ := ih h
    refine ⟨by simp [partBytes], List.forall_mem_cons.mpr ⟨⟨descriptor, ?_⟩, others⟩⟩
    have limit : snapshotBundleMaxBytes < 2 ^ 64 := by decide
    simp only [List.length_append] at small
    omega

/-- What a bundle that prints is. -/
theorem contentBytes_ok {bundle : SnapshotBundle} {bytes : Bytes}
    (h : bundle.contentBytes = .ok bytes) :
    bytes = bundle.content ∧ (Platform.manifestJson.toVec bundle.sourceManifest).length < 2 ^ 32 ∧
      bundle.segments.length < 2 ^ 32 ∧ ∀ part ∈ bundle.segments, PartFits part := by
  simp only [contentBytes, except_bind_ok, u32TryFrom_ok] at h
  obtain ⟨_, ⟨manifest, rfl⟩, _, ⟨count, rfl⟩, h⟩ := h
  obtain ⟨rfl, fits⟩ := appendSegments_ok h
  exact ⟨rfl, manifest, count, fits⟩

omit [Platform] in
theorem checkedEnd_of_le {cursor length bound : Nat} (inside : cursor + length ≤ bound) :
    checkedEnd cursor length bound = .ok (cursor + length) := by
  rw [checkedEnd, rejectIf_of_not (by omega)]
  rfl

/-- The segment loop reads segments back from wherever they stand. -/
theorem decodeSegments_flatMap {parts : List SnapshotSegment} (fits : ∀ part ∈ parts, PartFits part)
    (before after : Bytes) {contentEnd : Nat}
    (inside : before.length + (parts.flatMap partBytes).length ≤ contentEnd) :
    decodeSegments (before ++ (parts.flatMap partBytes ++ after)) contentEnd parts.length before.length =
      .ok (parts, before.length + (parts.flatMap partBytes).length) := by
  induction parts generalizing before with
  | nil => simp [decodeSegments]
  | cons part rest ih =>
    obtain ⟨⟨descriptorFits, bytesFit⟩, others⟩ := List.forall_mem_cons.mp fits
    have later := ih others (before ++ partBytes part) (by
      rw [List.flatMap_cons, List.length_append] at inside
      rw [List.length_append]
      omega)
    rw [List.flatMap_cons, List.length_append, length_partBytes] at inside
    generalize jsonIs : Platform.descriptorJson.toVec part.descriptor = json at *
    generalize tailIs : rest.flatMap partBytes ++ after = tail at *
    have partIs : partBytes part = toBE 4 json.length ++ toBE 8 part.bytes.length ++ json ++ part.bytes := by
      rw [partBytes, jsonIs]
    have whole : before ++ ((part :: rest).flatMap partBytes ++ after) =
        before ++ (toBE 4 json.length ++ (toBE 8 part.bytes.length ++ (json ++ (part.bytes ++ tail)))) := by
      rw [List.flatMap_cons, partIs, ← tailIs]
      simp only [List.append_assoc]
    have here : before ++ partBytes part ++ tail =
        before ++ (toBE 4 json.length ++ (toBE 8 part.bytes.length ++ (json ++ (part.bytes ++ tail)))) := by
      rw [partIs]
      simp only [List.append_assoc]
    rw [here] at later
    rw [whole]
    generalize bytesIs : before ++ (toBE 4 json.length ++ (toBE 8 part.bytes.length ++
      (json ++ (part.bytes ++ tail)))) = bytes at *
    have descriptorField : slice bytes before.length (before.length + 4) = toBE 4 json.length := by
      apply slice_of_eq before (toBE 8 part.bytes.length ++ (json ++ (part.bytes ++ tail))) bytesIs.symm
      · rfl
      · simp
    have lengthField : slice bytes (before.length + 4) (before.length + 4 + 8) =
        toBE 8 part.bytes.length := by
      apply slice_of_eq (before ++ toBE 4 json.length) (json ++ (part.bytes ++ tail))
      · rw [← bytesIs]
        simp only [List.append_assoc]
      · simp
      · simp
    have jsonField : slice bytes (before.length + 4 + 8) (before.length + 4 + 8 + json.length) = json := by
      apply slice_of_eq (before ++ toBE 4 json.length ++ toBE 8 part.bytes.length) (part.bytes ++ tail)
      · rw [← bytesIs]
        simp only [List.append_assoc]
      · simp
      · simp
    have bytesField : slice bytes (before.length + 4 + 8 + json.length)
        (before.length + 4 + 8 + json.length + part.bytes.length) = part.bytes := by
      apply slice_of_eq (before ++ toBE 4 json.length ++ toBE 8 part.bytes.length ++ json) tail
      · rw [← bytesIs]
        simp only [List.append_assoc]
      · simp
        omega
      · simp
        omega
    have next : before.length + 4 + 8 + json.length + part.bytes.length =
        (before ++ partBytes part).length := by
      rw [List.length_append, length_partBytes, jsonIs]
      omega
    rw [next] at bytesField
    have total : (before ++ partBytes part).length + (rest.flatMap partBytes).length =
        before.length + ((part :: rest).flatMap partBytes).length := by
      rw [List.flatMap_cons, List.length_append, List.length_append]
      omega
    have descriptorLen : ofBE (toBE 4 json.length) = json.length := ofBE_toBE_of_lt descriptorFits
    have segmentLen : ofBE (toBE 8 part.bytes.length) = part.bytes.length := ofBE_toBE_of_lt bytesFit
    have first : checkedEnd before.length 4 contentEnd = .ok (before.length + 4) :=
      checkedEnd_of_le (by omega)
    have second : checkedEnd (before.length + 4) 8 contentEnd = .ok (before.length + 4 + 8) :=
      checkedEnd_of_le (by omega)
    have third : checkedEnd (before.length + 4 + 8) json.length contentEnd =
        .ok (before.length + 4 + 8 + json.length) := checkedEnd_of_le (by omega)
    have fourth : checkedEnd (before.length + 4 + 8 + json.length) part.bytes.length contentEnd =
        .ok (before.length + 4 + 8 + json.length + part.bytes.length) := checkedEnd_of_le (by omega)
    have parsed : parseJson Platform.descriptorJson json = .ok part.descriptor := by
      rw [← jsonIs, parseJson_toVec]
    simp only [List.length_cons, decodeSegments, first, second, third, fourth, except_ok_bind,
      descriptorField, lengthField, jsonField, bytesField, descriptorLen,
      segmentLen, parsed, next, later, total, except_pure]

/-! ## Both directions -/

/-- What `validate` says of a bundle's own fields. -/
theorem validate_ok {bundle : SnapshotBundle} (h : bundle.validate = .ok ()) :
    bundle.formatVersion = snapshotBundleFormatVersion ∧ bundle.segments.length ≤ maxSegments ∧
      ∃ bytes, bundle.contentBytes = .ok bytes ∧
        bytes.length + bundleFooterBytes ≤ snapshotBundleMaxBytes ∧ bundle.digest = sha256Hex bytes := by
  simp only [validate, validatedSegments, except_bind_ok, rejectIf_ok, not_not, not_lt, not_or,
    gt_iff_lt] at h
  obtain ⟨_, ⟨_, version, _, -, _, -, _, inventory, _, -, bytes, printed, _, small, _, digest, -⟩, -⟩ := h
  exact ⟨version, inventory.1, bytes, printed, small, digest⟩

theorem length_sha256Hex (bytes : Bytes) : (sha256Hex bytes).length = bundleFooterBytes := by
  rw [sha256Hex, length_hex, Platform.length_sha256]
  rfl

theorem length_frontBytes (bundle : SnapshotBundle) :
    bundle.frontBytes.length =
      bundleHeaderBytes + (Platform.manifestJson.toVec bundle.sourceManifest).length := by
  simp [frontBytes, bundleMagic, bundleHeaderBytes]
  omega

/-- A bundle is read back from the bytes it prints to. -/
theorem decode_encode (printed : ∀ manifest, Platform.manifestJson.toVec manifest ≠ [])
    {bundle : SnapshotBundle} {bytes : Bytes} (h : bundle.encode = .ok bytes) :
    decode bytes = .ok bundle := by
  simp only [encode, except_bind_ok, except_pure, Except.ok.injEq] at h
  obtain ⟨_, valid, content, isContent, rfl⟩ := h
  obtain ⟨version, counted, content', isContent', small, digest⟩ := validate_ok valid
  cases isContent.symm.trans isContent'
  obtain ⟨rfl, manifestFits, countFits, fits⟩ := contentBytes_ok isContent
  generalize jsonIs : Platform.manifestJson.toVec bundle.sourceManifest = json at *
  have nonempty : json.length ≠ 0 := by
    rw [← jsonIs]
    exact List.length_eq_zero_iff.not.mpr (printed _)
  have manifestFits : json.length < 256 ^ 4 := manifestFits
  have countFits : bundle.segments.length < 256 ^ 4 := countFits
  have front : bundle.frontBytes.length = 20 + json.length := by
    rw [length_frontBytes, jsonIs]
    rfl
  have total : bundle.content.length = 20 + json.length + (bundle.segments.flatMap partBytes).length := by
    rw [content, List.length_append, front]
  have foot : bundle.digest.length = 64 := by rw [digest, length_sha256Hex]; rfl
  have header : bundleHeaderBytes = 20 := rfl
  have footer : bundleFooterBytes = 64 := rfl
  let fields : List Bytes := [bundleMagic, toBE 2 bundle.formatVersion, toBE 2 0, toBE 4 json.length,
    toBE 4 bundle.segments.length, json, bundle.segments.flatMap partBytes ++ bundle.digest]
  have isFields : bundle.content ++ bundle.digest = fields.flatten := by
    simp only [content, frontBytes, fields, List.flatten_cons, List.flatten_nil, List.append_nil,
      List.append_assoc, jsonIs]
  have magic : slice (bundle.content ++ bundle.digest) 0 8 = bundleMagic :=
    slice_flatten (i := 0) isFields rfl rfl rfl
  have versionField : slice (bundle.content ++ bundle.digest) 8 10 = toBE 2 bundle.formatVersion :=
    slice_flatten (i := 1) isFields rfl (by simp [fields, bundleMagic]) (by simp)
  have flags : slice (bundle.content ++ bundle.digest) 10 12 = toBE 2 0 :=
    slice_flatten (i := 2) isFields rfl (by simp [fields, bundleMagic]) (by simp)
  have lengthField : slice (bundle.content ++ bundle.digest) 12 16 = toBE 4 json.length :=
    slice_flatten (i := 3) isFields rfl (by simp [fields, bundleMagic]) (by simp)
  have countField : slice (bundle.content ++ bundle.digest) 16 20 = toBE 4 bundle.segments.length :=
    slice_flatten (i := 4) isFields rfl (by simp [fields, bundleMagic]) (by simp)
  have jsonField : slice (bundle.content ++ bundle.digest) bundleHeaderBytes
      (bundleHeaderBytes + json.length) = json :=
    slice_flatten (i := 5) isFields rfl (by simp [fields, bundleMagic, bundleHeaderBytes]) rfl
  have versionRead : ofBE (toBE 2 bundle.formatVersion) = snapshotBundleFormatVersion := by
    rw [version]
    rfl
  have lengthRead : ofBE (toBE 4 json.length) = json.length := ofBE_toBE_of_lt manifestFits
  have countRead : ofBE (toBE 4 bundle.segments.length) = bundle.segments.length :=
    ofBE_toBE_of_lt countFits
  have length : (bundle.content ++ bundle.digest).length = bundle.content.length + 64 := by
    rw [List.length_append, foot]
  have contentEnd : (bundle.content ++ bundle.digest).length - bundleFooterBytes =
      bundle.content.length := by
    rw [length]
    rfl
  have manifestEnd : checkedEnd bundleHeaderBytes json.length bundle.content.length =
      .ok (bundleHeaderBytes + json.length) := checkedEnd_of_le (by omega)
  have parsed : parseJson Platform.manifestJson json = .ok bundle.sourceManifest := by
    rw [← jsonIs, parseJson_toVec]
  have segments : decodeSegments (bundle.content ++ bundle.digest) bundle.content.length
      bundle.segments.length (bundleHeaderBytes + json.length) =
        .ok (bundle.segments, bundle.content.length) := by
    have inside : bundle.frontBytes.length + (bundle.segments.flatMap partBytes).length ≤ bundle.content.length := by
      omega
    have read := decodeSegments_flatMap fits bundle.frontBytes bundle.digest inside
    rwa [← List.append_assoc, ← content, front, ← total] at read
  have inside : ¬ ((bundle.content ++ bundle.digest).length < bundleHeaderBytes + bundleFooterBytes ∨
      (bundle.content ++ bundle.digest).length > snapshotBundleMaxBytes) := by
    rw [length]
    omega
  have declared : ¬ (json.length = 0 ∨ bundle.segments.length > maxSegments) := by omega
  have zero : toBE 2 0 = [0, 0] := rfl
  have rebuilt : (⟨snapshotBundleFormatVersion, bundle.sourceManifest, bundle.segments, bundle.digest⟩ :
      SnapshotBundle) = bundle := by rw [← version]
  simp only [decode, contentEnd, magic, versionField, flags, lengthField, countField, versionRead,
    lengthRead, countRead, List.drop_left, List.take_left, ← digest, zero, rejectIf_of_not inside,
    rejectIf_of_not declared, rejectIf_ne_self, except_ok_bind, manifestEnd, jsonField, parsed, segments,
    rebuilt, valid, except_pure]

/-- SHA-256 tells apart the content a bundle prints to and the content of the text `bytes`. -/
def Separates (bundle : SnapshotBundle) (bytes : Bytes) : Prop :=
  ∀ printed, bundle.contentBytes = .ok printed →
    Platform.sha256 printed = Platform.sha256 (bytes.take (bytes.length - bundleFooterBytes)) →
    printed = bytes.take (bytes.length - bundleFooterBytes)

/-- What `decode` compares before it returns: its text ends in the digest of the rest, and so does
the text that the bundle prints to. -/
theorem decode_ok {bytes : Bytes} {bundle : SnapshotBundle} (h : decode bytes = .ok bundle) :
    bundle.validate = .ok () ∧ bundleFooterBytes ≤ bytes.length ∧
      bundle.digest = bytes.drop (bytes.length - bundleFooterBytes) ∧
      bundle.digest = sha256Hex (bytes.take (bytes.length - bundleFooterBytes)) := by
  simp only [decode, except_bind_ok, rejectIf_ok, not_not, not_or, not_lt, except_pure,
    Except.ok.injEq] at h
  obtain ⟨_, long, _, -, _, -, _, -, _, digest, _, -, _, -, manifest, -, ⟨segments, cursor⟩, -, _, -,
    _, valid, rfl⟩ := h
  exact ⟨valid, by omega, rfl, digest⟩

/-- The bundle that `decode` returns prints to the text it was read from, exactly when SHA-256
separates the two contents. -/
theorem encode_decode {bytes : Bytes} {bundle : SnapshotBundle} (h : decode bytes = .ok bundle) :
    bundle.encode = .ok bytes ↔ bundle.Separates bytes := by
  obtain ⟨valid, long, isDigest, authentic⟩ := decode_ok h
  obtain ⟨-, -, content, isContent, -, digest⟩ := validate_ok valid
  have encoded : bundle.encode = .ok (content ++ bundle.digest) := by
    rw [encode, valid, except_ok_bind, isContent, except_ok_bind]
    rfl
  rw [encoded, Except.ok.injEq]
  constructor
  · intro same printed isPrinted _
    cases isContent.symm.trans isPrinted
    have tail : bundle.digest.length = bundleFooterBytes := by rw [digest, length_sha256Hex]
    rw [← same, List.length_append, tail, Nat.add_sub_cancel, List.take_left]
  · intro separates
    have digests : sha256Hex content = sha256Hex (bytes.take (bytes.length - bundleFooterBytes)) := by
      rw [← digest, authentic]
    rw [separates content isContent (hex_injective digests), isDigest, List.take_append_drop]

end

/-- The manifest of an empty database. -/
def emptyManifest : Manifest :=
  let manifest : Manifest :=
    { formatVersion := manifestFormatVersion, generation := 1, parent := none, createdAt := 0,
      durableSequence := 0, walStartSequence := 1, segments := [], digest := [] }
  { manifest with digest := manifest.expectedDigest }

/-- The bundle of an empty database. -/
def emptyBundle : SnapshotBundle :=
  let bundle : SnapshotBundle := ⟨snapshotBundleFormatVersion, emptyManifest, [], []⟩
  { bundle with digest := sha256Hex bundle.content }

end Vyrm.Kv.SnapshotBundle
