import Vyrm.Embed
import Vyrm.Lib.Tally
import Vyrm.Lib.Words

/-!
# Feature hashing

`FeatureHashBackend` of `crates/vyrm-embed/src/lib.rs`: each token of a text counts up or down in one slot of a
vector. The vector is modelled up to its normalisation, as integers.
-/

namespace Vyrm.Embed
open Lib Vyrm.Core

/-- What a text is read with, as one version of Unicode has it. -/
structure Analysis where
  /-- `str::to_lowercase`. -/
  lower : String → String
  /-- `char::is_alphanumeric`. -/
  alphanumeric : Char → Bool

/-- The tokens of a text (`lib.rs:458-463`). -/
def tokens (analysis : Analysis) (text : String) : List String :=
  ((words (fun c => !analysis.alphanumeric c) (analysis.lower text).toList).map String.ofList).dedup

/-- `FeatureHashBackend` (`lib.rs:404-407`). -/
structure FeatureHashBackend where
  descriptor : EmbeddingBackendDescriptor
  seed : UInt64

namespace FeatureHashBackend

/-- The JSON that identifies a model (`lib.rs:414`). -/
def modelIdentity (dimensions : UInt32) (seed : UInt64) : Bytes :=
  utf8 s!"[\"vyrm-feature-hash-v1\",{dimensions},{seed}]"

/-- `new` (`lib.rs:410-437`). -/
def new (dimensions : UInt32) (seed : UInt64) : Except Error FeatureHashBackend := do
  if ¬ (8 ≤ dimensions ∧ dimensions ≤ 65536) then invalid "feature-hash dimensions must be in 8..=65536"
  return {
    descriptor := {
      id := "vyrm:feature-hash:cpu:v1"
      model := {
        provider := "vyrm"
        model := "feature-hash"
        revision := "v1"
        modelDigest := sha256Hex (modelIdentity dimensions seed)
        modality := .text
        dimensions
        normalization := .unitL2
        maximumInputBytes := 4 * 1024 * 1024 }
      execution := .cpu
      network := .none
      deterministic := true }
    seed }

/-- The hash of a token (`lib.rs:468-471`). -/
def tokenHash (backend : FeatureHashBackend) (token : String) : Bytes :=
  sha256 (utf8 "vyrm-feature-hash-token-v1" ++ [0] ++ toBE 8 backend.seed.toNat ++ utf8 token)

/-- The slot of a token (`lib.rs:472-474`). -/
def index (backend : FeatureHashBackend) (token : String) : Nat :=
  ofBE ((backend.tokenHash token).take 8) % backend.descriptor.model.dimensions.toNat

/-- Whether a token counts up (`lib.rs:475`). -/
def up (backend : FeatureHashBackend) (token : String) : Bool := (backend.tokenHash token).getD 8 0 &&& 1 = 0

/-- One token is counted (`lib.rs:476`). -/
def count (backend : FeatureHashBackend) (values : List Int) (token : String) : List Int :=
  values.modify (backend.index token) (· + signed (backend.up token))

/-- `embed` (`lib.rs:445-487`), up to the counts that are normalised. -/
def embed (analysis : Analysis) (backend : FeatureHashBackend) (request : EmbeddingRequest) :
    Except Error (List Int) := do
  if backend.descriptor.model.maximumInputBytes.toNat < request.bytes.length then
    invalid "embedding input exceeds model byte limit"
  if ¬ request.mediaType.startsWith "text/" ∧ request.mediaType ≠ "application/json" then
    invalid "feature-hash backend accepts text or JSON only"
  let text ← okOr (fromUtf8 request.bytes) (.invalidRuntime "feature-hash input must be UTF-8")
  let values := List.replicate backend.descriptor.model.dimensions.toNat 0
  let tokens := tokens analysis text
  if tokens = [] then invalid "feature-hash input contains no tokens"
  return tokens.foldl backend.count values

/-! ## The counts -/

theorem getElem?_foldl_count (backend : FeatureHashBackend) (tokens : List String) (values : List Int) (i : Nat) :
    (tokens.foldl backend.count values)[i]? = values[i]?.map (· + tally backend.index backend.up tokens i) := by
  induction tokens generalizing values with
  | nil => simp
  | cons token tokens ih =>
    rw [List.foldl_cons, ih, count, List.getElem?_modify, tally_cons]
    by_cases here : backend.index token = i
    · simp [here, Function.comp_def, Int.add_assoc]
    · simp [here]

theorem new_ok {dimensions : UInt32} {seed : UInt64} {backend : FeatureHashBackend}
    (made : new dimensions seed = .ok backend) :
    8 ≤ dimensions ∧ backend.descriptor.model.dimensions = dimensions ∧ backend.seed = seed := by
  simp only [new, invalid, except_error_bind, except_reject_ok, except_pure, not_not, Except.ok.injEq] at made
  obtain ⟨⟨wide, -⟩, rfl⟩ := made
  exact ⟨wide, rfl, rfl⟩

/-- A text is embedded when it is short enough, is text and has a token. -/
theorem embed_ok {analysis : Analysis} {backend : FeatureHashBackend} {request : EmbeddingRequest}
    {counts : List Int} : backend.embed analysis request = .ok counts ↔
      request.bytes.length ≤ backend.descriptor.model.maximumInputBytes.toNat ∧
      (request.mediaType.startsWith "text/" ∨ request.mediaType = "application/json") ∧
      ∃ text, fromUtf8 request.bytes = some text ∧ tokens analysis text ≠ [] ∧
        counts = (tokens analysis text).foldl backend.count
          (List.replicate backend.descriptor.model.dimensions.toNat 0) := by
  simp only [embed, invalid, except_error_bind, except_bind_ok, except_reject_ok, except_pure, okOr_ok, not_lt,
    not_and, not_not, Except.ok.injEq]
  refine and_congr_right fun _ => and_congr ?_ (exists_congr fun text => and_congr_right fun _ =>
    and_congr_right fun _ => eq_comm)
  rw [← or_iff_not_imp_left]

/-- A count is not zero exactly when a tally is not. -/
theorem exists_ne_zero_iff {backend : FeatureHashBackend} (wide : 0 < backend.descriptor.model.dimensions.toNat)
    (tokens : List String) :
    (∃ value ∈ tokens.foldl backend.count (List.replicate backend.descriptor.model.dimensions.toNat 0), value ≠ 0) ↔
      ∃ i, tally backend.index backend.up tokens i ≠ 0 := by
  constructor
  · rintro ⟨value, member, nonzero⟩
    obtain ⟨i, here⟩ := List.mem_iff_getElem?.mp member
    rw [getElem?_foldl_count, List.getElem?_replicate] at here
    split at here
    · obtain rfl := Option.some.inj here
      exact ⟨i, by simpa using nonzero⟩
    · cases here
  · rintro ⟨i, nonzero⟩
    have inside : i < backend.descriptor.model.dimensions.toNat := by
      by_contra outside
      refine nonzero ?_
      -- no token falls into a slot beyond the vector
      have apart : ∀ token ∈ tokens, (if backend.index token = i then signed (backend.up token) else 0) = 0 := by
        intro token _
        refine if_neg fun here => outside ?_
        rw [← here]
        exact Nat.mod_lt _ wide
      rw [tally, List.map_congr_left apart]
      simp
    refine ⟨tally backend.index backend.up tokens i, List.mem_iff_getElem?.mpr ⟨i, ?_⟩, nonzero⟩
    rw [getElem?_foldl_count, List.getElem?_replicate, if_pos inside]
    simp

end FeatureHashBackend

/-- The counts of a text are not all zero exactly when its tokens do not cancel in pairs. -/
theorem feature_hash_counts (analysis : Analysis) (dimensions : UInt32) (seed : UInt64) (backend : FeatureHashBackend)
    (made : FeatureHashBackend.new dimensions seed = .ok backend) (request : EmbeddingRequest) (text : String)
    (decoded : fromUtf8 request.bytes = some text) (counts : List Int)
    (embedded : backend.embed analysis request = .ok counts) :
    (∃ value ∈ counts, value ≠ 0) ↔ ¬ Paired backend.index backend.up (tokens analysis text) := by
  obtain ⟨wide, same, -⟩ := FeatureHashBackend.new_ok made
  have positive : 0 < backend.descriptor.model.dimensions.toNat := by
    have bound : (8 : UInt32).toNat ≤ dimensions.toNat := UInt32.le_iff_toNat_le.mp wide
    rw [same]
    exact Nat.lt_of_lt_of_le (by decide) bound
  obtain ⟨-, -, other, also, -, rfl⟩ := FeatureHashBackend.embed_ok.mp embedded
  obtain rfl := Option.some.inj (decoded.symm.trans also)
  rw [FeatureHashBackend.exists_ne_zero_iff positive, ← tally_eq_zero_iff]
  exact not_forall.symm

/-! ## Two tokens -/

/-- The analysis of ASCII text. -/
def asciiAnalysis : Analysis :=
  { lower := fun text => String.ofList (text.toList.map Char.toLower), alphanumeric := Char.isAlphanum }

def sampleRequest (text : String) : EmbeddingRequest :=
  { jobId := .lit "job" (Eq.refl true), jobDigest := "", sourceDigest := "", mediaType := "text/plain",
    bytes := utf8 text }

/-- Two letters that cancel. -/
theorem feature_hash_counts_fails : ∃ backend, FeatureHashBackend.new 8 0 = .ok backend ∧
    tokens asciiAnalysis "d f" = ["d", "f"] ∧
    backend.embed asciiAnalysis (sampleRequest "d f") = .ok (List.replicate 8 0) :=
  ⟨_, rfl, by decide +kernel, by decide +kernel⟩

/-- One letter alone is not cancelled. -/
theorem feature_hash_counts_sample : ∃ backend counts, FeatureHashBackend.new 8 0 = .ok backend ∧
    backend.embed asciiAnalysis (sampleRequest "d") = .ok counts ∧ ∃ value ∈ counts, value ≠ 0 := by
  have listed : tokens asciiAnalysis "d" = ["d"] := by decide +kernel
  have decoded : fromUtf8 (sampleRequest "d").bytes = some "d" := fromUtf8_utf8 "d"
  obtain ⟨backend, made⟩ : ∃ backend, FeatureHashBackend.new 8 0 = .ok backend := ⟨_, rfl⟩
  obtain ⟨counts, embedded⟩ : ∃ counts, backend.embed asciiAnalysis (sampleRequest "d") = .ok counts := by
    obtain rfl := Except.ok.inj made
    refine ⟨_, FeatureHashBackend.embed_ok.mpr ⟨by decide, .inl (by decide +kernel), "d", decoded, ?_, rfl⟩⟩
    rw [listed]
    exact List.cons_ne_nil _ _
  refine ⟨backend, counts, made, embedded, ?_⟩
  refine (feature_hash_counts asciiAnalysis 8 0 backend made _ "d" decoded counts embedded).mpr fun paired => ?_
  rw [listed] at paired
  exact absurd (length_of_paired paired) (by decide)

end Vyrm.Embed
