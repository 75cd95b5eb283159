import Vyrm.Core.Key

/-!
# The order of claim keys

Byte order on claim keys is the lexicographic order on subject, predicate,
descending valid time and descending transaction time. An as-of read is therefore
one range of keys, and every parser reads back what its encoder wrote.
-/

namespace Vyrm.Core
open Lib

variable {subject subject' : Subject} {predicate predicate' : Predicate}
variable {validFrom validFrom' txTime txTime' : UInt64}

/-! ## Timestamp fields -/

theorem toNat_u64Max : u64Max.toNat = 2 ^ 64 - 1 := by decide

theorem toNat_invert (value : UInt64) : (invert value).toNat = 2 ^ 64 - 1 - value.toNat := by
  have bound := value.toNat_lt
  have le : value ≤ u64Max := by
    rw [UInt64.le_iff_toNat_le, toNat_u64Max]
    omega
  rw [invert, UInt64.toNat_sub_of_le _ _ le, toNat_u64Max]

@[simp] theorem invert_invert (value : UInt64) : invert (invert value) = value := by
  apply UInt64.toNat_inj.mp
  have bound := value.toNat_lt
  rw [toNat_invert, toNat_invert]
  omega

/-- Inversion turns the order of timestamps around. -/
theorem invert_lt_invert_iff {a b : UInt64} : invert a < invert b ↔ b < a := by
  have ha := a.toNat_lt
  have hb := b.toNat_lt
  rw [UInt64.lt_iff_toNat_lt, UInt64.lt_iff_toNat_lt, toNat_invert, toNat_invert]
  omega

theorem field_eq_digits (value : UInt64) : field value = Decimal.digits invWidth value.toNat := by
  have bound := value.toNat_lt
  have room : 2 ^ 64 < 10 ^ invWidth := by decide
  rw [field, Decimal.padded_eq_digits (by decide) (by omega)]

theorem toNat_lt_room (value : UInt64) : value.toNat < 10 ^ invWidth := by
  have bound := value.toNat_lt
  have room : 2 ^ 64 < 10 ^ invWidth := by decide
  omega

@[simp] theorem length_field (value : UInt64) : (field value).length = invWidth := by
  simp [field_eq_digits]

theorem field_lt_field_iff {a b : UInt64} : field a < field b ↔ a < b := by
  rw [field_eq_digits, field_eq_digits, Decimal.digits_lt_digits_iff (toNat_lt_room a) (toNat_lt_room b),
    UInt64.lt_iff_toNat_lt]

theorem field_inj {a b : UInt64} : field a = field b ↔ a = b := by
  constructor
  · intro same
    rw [field_eq_digits, field_eq_digits] at same
    exact UInt64.toNat_inj.mp (Decimal.digits_inj (toNat_lt_room a) (toNat_lt_room b) same)
  · intro same
    rw [same]

theorem isDigit_of_mem_field {value : UInt64} {byte : UInt8} (h : byte ∈ field value) :
    isDigit byte = true := by
  rw [field_eq_digits] at h
  exact Decimal.isDigit_of_mem_digits h

theorem sep_not_mem_field (value : UInt64) : sep ∉ field value := by
  intro h
  have := isDigit_of_mem_field h
  simp [isDigit, sep] at this

/-- A timestamp field is text, and the number it was printed from. -/
theorem field_text (value : UInt64) :
    ∃ text, fromUtf8 (field value) = some text ∧ parseU64 text = some value := by
  have small : ∀ byte ∈ field value, byte.toNat < 128 := by
    intro byte h
    have := isDigit_of_mem_field h
    simp only [isDigit, Bool.and_eq_true, decide_eq_true_eq] at this
    omega
  obtain ⟨text, read, same⟩ := exists_utf8_of_ascii small
  refine ⟨text, read, ?_⟩
  have parsed := Decimal.parse_digits (by decide : 0 < invWidth) (toNat_lt_room value)
  rw [← field_eq_digits, ← same] at parsed
  simp only [parseU64, parsed, if_pos value.toNat_lt, UInt64.ofNat_toNat]

theorem parseInverted_field (value : UInt64) : parseInverted (field (invert value)) = .ok value := by
  obtain ⟨text, read, parsed⟩ := field_text (invert value)
  simp only [parseInverted, read, parsed, okOr_some, except_ok_bind, invert_invert]
  rfl

/-! ## The order -/

/-- Fields followed by a separator, associated to the right. The fields are variables here, so
that no step of the proof looks into a timestamp. -/
theorem append_separated (c : UInt8) (ns subject predicate validFrom txTime : Bytes) :
    ns ++ subject ++ [c] ++ predicate ++ [c] ++ validFrom ++ [c] ++ txTime =
      ns ++ (subject ++ c :: (predicate ++ c :: (validFrom ++ c :: txTime))) := by
  simp

/-- A claim key, field by field. -/
theorem claimKey_eq (subject : Subject) (predicate : Predicate) (validFrom txTime : UInt64) :
    claimKey subject predicate validFrom txTime = claimNs ++ (subject.bytes ++ sep :: (predicate.bytes ++
      sep :: (field (invert validFrom) ++ sep :: field (invert txTime)))) := by
  rw [claimKey, validFromBound, versionPrefix, append_separated]

theorem seekKey_eq (subject : Subject) (predicate : Predicate) (asOf : UInt64) :
    seekKey subject predicate asOf = claimNs ++ (subject.bytes ++ sep :: (predicate.bytes ++
      sep :: (field (invert asOf) ++ sep :: []))) := by
  rw [seekKey, validFromBound, versionPrefix, ← append_separated, List.append_nil]

/-- What is compared after the predicate of two keys: valid times, and then what follows them. -/
theorem timed_lt_timed_iff (a b : UInt64) (x y : Bytes) :
    field (invert a) ++ sep :: x < field (invert b) ++ sep :: y ↔ b < a ∨ a = b ∧ x < y := by
  rw [append_lt_append_iff (by simp), field_lt_field_iff, invert_lt_invert_iff, field_inj]
  have same : invert a = invert b ↔ a = b := by
    constructor
    · intro h
      rw [← invert_invert a, h, invert_invert]
    · intro h
      rw [h]
  rw [same]
  simp

/-- Keys of two pairs compare as the pairs do; keys of one pair as what follows them. -/
theorem paired_lt_paired_iff (x y : Bytes) :
    claimNs ++ (subject.bytes ++ sep :: (predicate.bytes ++ sep :: x)) <
        claimNs ++ (subject'.bytes ++ sep :: (predicate'.bytes ++ sep :: y)) ↔
      subject.bytes < subject'.bytes ∨ subject = subject' ∧
        (predicate.bytes < predicate'.bytes ∨ predicate = predicate' ∧ x < y) := by
  rw [append_lt_append_left_iff,
    separated_lt_separated_iff (fun _ h => Ident.sep_lt h) (fun _ h => Ident.sep_lt h),
    separated_lt_separated_iff (fun _ h => Ident.sep_lt h) (fun _ h => Ident.sep_lt h),
    Ident.bytes_inj, Ident.bytes_inj]

theorem claimKey_lt_claimKey_iff :
    claimKey subject predicate validFrom txTime < claimKey subject' predicate' validFrom' txTime' ↔
      subject.bytes < subject'.bytes ∨ subject = subject' ∧ (predicate.bytes < predicate'.bytes ∨
        predicate = predicate' ∧ (validFrom' < validFrom ∨ validFrom = validFrom' ∧ txTime' < txTime)) := by
  rw [claimKey_eq, claimKey_eq, paired_lt_paired_iff, timed_lt_timed_iff, field_lt_field_iff,
    invert_lt_invert_iff]

theorem claimKey_lt_seekKey_iff {asOf : UInt64} :
    claimKey subject predicate validFrom txTime < seekKey subject' predicate' asOf ↔
      subject.bytes < subject'.bytes ∨ subject = subject' ∧ (predicate.bytes < predicate'.bytes ∨
        predicate = predicate' ∧ asOf < validFrom) := by
  rw [claimKey_eq, seekKey_eq, paired_lt_paired_iff, timed_lt_timed_iff]
  simp

theorem claimKey_inj (same : claimKey subject predicate validFrom txTime =
    claimKey subject' predicate' validFrom' txTime') :
    subject = subject' ∧ predicate = predicate' ∧ validFrom = validFrom' ∧ txTime = txTime' := by
  have notLess : ¬ claimKey subject predicate validFrom txTime <
      claimKey subject' predicate' validFrom' txTime' := by
    rw [same]
    exact lt_irrefl _
  have notGreater : ¬ claimKey subject' predicate' validFrom' txTime' <
      claimKey subject predicate validFrom txTime := by
    rw [same]
    exact lt_irrefl _
  rw [claimKey_lt_claimKey_iff] at notLess notGreater
  have subjects : subject = subject' := by
    apply Ident.bytes_inj.mp
    exact le_antisymm (not_lt.mp fun h => notGreater (Or.inl h)) (not_lt.mp fun h => notLess (Or.inl h))
  subst subjects
  have predicates : predicate = predicate' := by
    apply Ident.bytes_inj.mp
    exact le_antisymm (not_lt.mp fun h => notGreater (Or.inr ⟨rfl, Or.inl h⟩))
      (not_lt.mp fun h => notLess (Or.inr ⟨rfl, Or.inl h⟩))
  subst predicates
  grind

/-! ## Ranges -/

theorem prefixEnd_append_singleton (front : Bytes) (last : UInt8) :
    prefixEnd (front ++ [last]) = if last < 0xFF then some (front ++ [last + 1]) else prefixEnd front := by
  simp [prefixEnd, prefixEndRev]

theorem isPrefix_append_singleton {front key : Bytes} {last : UInt8} (has : front <+: key)
    (below : front ++ [last] ≤ key) (above : key < front ++ [last + 1] ∨ last = 0xFF) :
    front ++ [last] <+: key := by
  obtain ⟨rest, rfl⟩ := has
  rw [← not_lt, append_lt_append_left_iff, not_lt] at below
  rw [append_lt_append_left_iff] at above
  rw [List.prefix_append_right_inj]
  cases rest with
  | nil => exact absurd below (by simp)
  | cons byte rest =>
    have low : last ≤ byte := by
      rw [List.cons_le_cons_iff] at below
      rcases below with h | h
      · exact UInt8.le_of_lt h
      · exact UInt8.le_of_eq h.1
    have high : byte ≤ last := by
      rcases above with h | h
      · rw [List.cons_lt_cons_iff] at h
        simp only [List.not_lt_nil, and_false, or_false] at h
        rw [UInt8.lt_iff_toNat_lt] at h
        rw [UInt8.le_iff_toNat_le]
        rw [UInt8.toNat_add] at h
        have one : (1 : UInt8).toNat = 1 := rfl
        omega
      · rw [h, UInt8.le_iff_toNat_le]
        have := byte.toNat_lt
        show byte.toNat ≤ 255
        omega
    have same : last = byte := UInt8.le_antisymm low high
    simp [same]

/-- The keys from a prefix up to its end are those that start with it. -/
theorem lt_prefixEnd_iff {front stop key : Bytes} (ends : prefixEnd front = some stop)
    (from_ : front ≤ key) : key < stop ↔ front <+: key := by
  induction front using List.reverseRecOn generalizing stop with
  | nil => simp [prefixEnd, prefixEndRev] at ends
  | append_singleton front last ih =>
    rw [prefixEnd_append_singleton] at ends
    have shorter : front ≤ key := le_trans List.le_append_left from_
    by_cases small : last < 0xFF
    · rw [if_pos small] at ends
      obtain rfl := Option.some.inj ends
      constructor
      · intro less
        apply isPrefix_append_singleton ?_ from_ (Or.inl less)
        exact isPrefix_of_between from_ (le_of_lt less) (List.prefix_append _ _) (List.prefix_append _ _)
      · intro has
        obtain ⟨rest, rfl⟩ := has
        rw [List.append_assoc, append_lt_append_left_iff]
        simp only [List.singleton_append, List.cons_lt_cons_iff]
        left
        rw [UInt8.lt_iff_toNat_lt] at small ⊢
        have top : (0xFF : UInt8).toNat = 255 := rfl
        have one : (1 : UInt8).toNat = 1 := rfl
        rw [UInt8.toNat_add]
        omega
    · rw [if_neg small] at ends
      rw [ih ends shorter]
      have top : last = 0xFF := by
        rw [UInt8.lt_iff_toNat_lt] at small
        have := last.toNat_lt
        have top : (0xFF : UInt8).toNat = 255 := rfl
        exact UInt8.toNat_inj.mp (by omega)
      constructor
      · intro has
        exact isPrefix_append_singleton has from_ (Or.inr top)
      · intro has
        exact (List.prefix_append front [last]).trans has

/-- A claim key starts with the prefix of a pair exactly when it is a key of that pair. -/
theorem versionPrefix_isPrefix_iff :
    versionPrefix subject predicate <+: claimKey subject' predicate' validFrom txTime ↔
      subject' = subject ∧ predicate' = predicate := by
  constructor
  · intro has
    obtain ⟨rest, same⟩ := has
    rw [claimKey_eq] at same
    simp only [versionPrefix, List.append_assoc, List.cons_append, List.append_cancel_left_eq] at same
    obtain ⟨subjects, same⟩ := separated_inj subject.separated subject'.separated same
    obtain ⟨predicates, -⟩ := separated_inj predicate.separated predicate'.separated same
    exact ⟨(Ident.bytes_inj.mp subjects).symm, (Ident.bytes_inj.mp predicates).symm⟩
  · intro same
    obtain ⟨rfl, rfl⟩ := same
    simp only [claimKey, validFromBound, List.append_assoc]
    exact List.prefix_append _ _

/-- The end of a pair's keys: its last separator, one up. -/
theorem prefixEnd_versionPrefix (subject : Subject) (predicate : Predicate) :
    prefixEnd (versionPrefix subject predicate) =
      some (claimNs ++ subject.bytes ++ [sep] ++ predicate.bytes ++ [sep + 1]) := by
  rw [versionPrefix, prefixEnd_append_singleton, if_pos (by decide)]

/-- Keys of one pair are neighbours: no key of another pair lies between two of them. -/
theorem claimKey_between {v₁ t₁ v₂ t₂ : UInt64}
    (below : claimKey subject predicate v₁ t₁ ≤ claimKey subject' predicate' validFrom txTime)
    (above : claimKey subject' predicate' validFrom txTime ≤ claimKey subject predicate v₂ t₂) :
    subject' = subject ∧ predicate' = predicate := by
  have has : ∀ v t : UInt64,
      versionPrefix subject predicate <+: claimKey subject predicate v t := fun v t =>
    versionPrefix_isPrefix_iff.mpr ⟨rfl, rfl⟩
  exact versionPrefix_isPrefix_iff.mp (isPrefix_of_between below above (has v₁ t₁) (has v₂ t₂))

/-- The range an as-of read scans holds the pair's versions that had begun by then. -/
theorem seek_range_iff {asOf : UInt64} {stop : Bytes}
    (ends : prefixEnd (versionPrefix subject predicate) = some stop) :
    seekKey subject predicate asOf ≤ claimKey subject' predicate' validFrom txTime ∧
        claimKey subject' predicate' validFrom txTime < stop ↔
      subject' = subject ∧ predicate' = predicate ∧ validFrom ≤ asOf := by
  have start : versionPrefix subject predicate ≤ seekKey subject predicate asOf := by
    simp only [seekKey, validFromBound, List.append_assoc]
    exact List.le_append_left
  constructor
  · intro inside
    obtain ⟨below, above⟩ := inside
    rw [lt_prefixEnd_iff ends (le_trans start below), versionPrefix_isPrefix_iff] at above
    obtain ⟨rfl, rfl⟩ := above
    rw [← not_lt, claimKey_lt_seekKey_iff] at below
    refine ⟨rfl, rfl, ?_⟩
    rw [← UInt64.not_lt]
    exact fun later => below (Or.inr ⟨rfl, Or.inr ⟨rfl, later⟩⟩)
  · intro same
    obtain ⟨rfl, rfl, early⟩ := same
    have below : seekKey subject' predicate' asOf ≤ claimKey subject' predicate' validFrom txTime := by
      rw [← not_lt, claimKey_lt_seekKey_iff]
      rw [← UInt64.not_lt] at early
      simp [early]
    refine ⟨below, ?_⟩
    rw [lt_prefixEnd_iff ends (le_trans start below), versionPrefix_isPrefix_iff]
    exact ⟨rfl, rfl⟩

/-! ## Reading keys back -/

theorem parseClaimKey_claimKey (subject : Subject) (predicate : Predicate) (validFrom txTime : UInt64) :
    parseClaimKey (claimKey subject predicate validFrom txTime) = .ok (subject, predicate) := by
  have stripped : stripFront claimNs (claimKey subject predicate validFrom txTime) =
      some (subject.bytes ++ sep :: (predicate.bytes ++ sep ::
        (field (invert validFrom) ++ sep :: field (invert txTime)))) := by
    rw [claimKey_eq, stripFront, if_pos (List.prefix_append _ _)]
    simp
  simp only [parseClaimKey, stripped, okOr_some, except_ok_bind, splitn_separated subject.separated,
    splitn_separated predicate.separated, Ident.bytes]
  simp

theorem parseAccessKey_accessKey (at_ : UInt64) (reader : Reader) (subject : Subject)
    (predicate : Predicate) :
    parseAccessKey (accessKey at_ reader subject predicate) = .ok (at_, reader, subject, predicate) := by
  have fields : accessKey at_ reader subject predicate = field at_ ++ sep :: (reader.bytes ++ sep ::
      (subject.bytes ++ sep :: predicate.bytes)) := by
    simp [accessKey]
  have parts : splitn sep 4 (accessKey at_ reader subject predicate) =
      [field at_, reader.bytes, subject.bytes, predicate.bytes] := by
    rw [fields, splitn_separated (sep_not_mem_field at_), splitn_separated reader.sep_not_mem,
      splitn_separated subject.sep_not_mem]
    rfl
  obtain ⟨text, read, parsed⟩ := field_text at_
  have ident : ∀ (kind : IdentKind) (ident : Ident kind) (what : String),
      accessField kind (some ident.bytes) what = .ok ident := by
    intro kind ident what
    simp [accessField, Ident.bytes]
  simp [parseAccessKey, parts, read, parsed, ident]

theorem sequenceOf_sequenceKey (sequence : UInt64) : sequenceOf (sequenceKey sequence) = .ok sequence := by
  obtain ⟨text, read, parsed⟩ := field_text sequence
  simp [sequenceOf, sequenceKey, read, parsed]

/-- The timestamps of a key are read from its last two fields, whatever precedes them. -/
theorem timestampsOf_append {front low high : Bytes} (lowWidth : low.length = invWidth)
    (highWidth : high.length = invWidth) :
    timestampsOf (front ++ (low ++ sep :: high)) = (do
      let validFrom ← parseInverted low
      let txTime ← parseInverted high
      return (validFrom, txTime)) := by
  have long : ¬ (front ++ (low ++ sep :: high)).length < invWidth * 2 + 1 := by
    simp [lowWidth, highWidth]
    omega
  have tail : (front ++ (low ++ sep :: high)).drop
      ((front ++ (low ++ sep :: high)).length - (invWidth * 2 + 1)) = low ++ sep :: high := by
    apply List.drop_left'
    simp [lowWidth, highWidth]
    omega
  have middle : (low ++ sep :: high)[invWidth]? = some sep := by
    rw [List.getElem?_append_right (by simp [lowWidth])]
    simp [lowWidth]
  have first : (low ++ sep :: high).take invWidth = low := List.take_left' lowWidth
  have second : (low ++ sep :: high).drop (invWidth + 1) = high := by
    rw [List.append_cons]
    exact List.drop_left' (by simp [lowWidth])
  simp only [timestampsOf, if_neg long, tail, middle, first, second, ne_eq, not_true_eq_false, if_false]

theorem timestampsOf_claimKey (subject : Subject) (predicate : Predicate) (validFrom txTime : UInt64) :
    timestampsOf (claimKey subject predicate validFrom txTime) = .ok (validFrom, txTime) := by
  rw [claimKey, validFromBound, List.append_assoc, List.append_assoc, List.singleton_append,
    timestampsOf_append (length_field _) (length_field _), parseInverted_field, parseInverted_field]
  rfl

/-- Byte order on claim keys answers as-of reads, and the parsers invert the encoders. -/
theorem temporal_key_order :
    (∀ (s s' : Subject) (p p' : Predicate) (v v' t t' : UInt64),
      claimKey s p v t = claimKey s' p' v' t' ↔ s = s' ∧ p = p' ∧ v = v' ∧ t = t') ∧
    (∀ (s s' : Subject) (p p' : Predicate) (v₁ t₁ v t v₂ t₂ : UInt64),
      claimKey s p v₁ t₁ ≤ claimKey s' p' v t ∧ claimKey s' p' v t ≤ claimKey s p v₂ t₂ →
        s' = s ∧ p' = p) ∧
    (∀ (s : Subject) (p : Predicate) (v v' t t' : UInt64),
      claimKey s p v t < claimKey s p v' t' ↔ v' < v ∨ v = v' ∧ t' < t) ∧
    (∀ (s : Subject) (p : Predicate) (asOf : UInt64), ∃ stop,
      prefixEnd (versionPrefix s p) = some stop ∧
      ∀ (s' : Subject) (p' : Predicate) (v t : UInt64),
        seekKey s p asOf ≤ claimKey s' p' v t ∧ claimKey s' p' v t < stop ↔
          s' = s ∧ p' = p ∧ v ≤ asOf) ∧
    (∀ (s : Subject) (p : Predicate) (v t : UInt64), timestampsOf (claimKey s p v t) = .ok (v, t)) ∧
    (∀ (s : Subject) (p : Predicate) (v t : UInt64), parseClaimKey (claimKey s p v t) = .ok (s, p)) ∧
    (∀ (at_ : UInt64) (r : Reader) (s : Subject) (p : Predicate),
      parseAccessKey (accessKey at_ r s p) = .ok (at_, r, s, p)) ∧
    (∀ sequence : UInt64, sequenceOf (sequenceKey sequence) = .ok sequence) := by
  refine ⟨?_, ?_, ?_, ?_, timestampsOf_claimKey, parseClaimKey_claimKey, parseAccessKey_accessKey,
    sequenceOf_sequenceKey⟩
  · intro s s' p p' v v' t t'
    constructor
    · exact claimKey_inj
    · intro same
      obtain ⟨rfl, rfl, rfl, rfl⟩ := same
      rfl
  · intro s s' p p' v₁ t₁ v t v₂ t₂ between
    exact claimKey_between between.1 between.2
  · intro s p v v' t t'
    rw [claimKey_lt_claimKey_iff]
    simp
  · intro s p asOf
    exact ⟨_, prefixEnd_versionPrefix s p, fun s' p' v t => seek_range_iff (prefixEnd_versionPrefix s p)⟩

end Vyrm.Core
