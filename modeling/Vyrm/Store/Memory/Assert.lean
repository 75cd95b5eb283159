import Vyrm.Store.Memory

/-!
# Assertion

What an as-of read of the memory engine returns, and what an assertion does to the
answers: nothing before the instant the asserted claim starts at, nothing to other
pairs, and at that instant the claim is what is in force.
-/

namespace Vyrm.Store
open Lib Vyrm.Core Mvcc

/-! ## Versions -/

namespace MemoryClaims

/-- A stored claim of a subject and predicate. -/
structure Version (claims : MemoryClaims) (subject : Subject) (predicate : Predicate) (claim : Claim) :
    Prop where
  stored : claims.rows[claim.key]? = some claim
  subject : claim.subject = subject
  predicate : claim.predicate = predicate

variable {claims : MemoryClaims} {subject : Subject} {predicate : Predicate}

theorem Version.valid {claim : Claim} (version : claims.Version subject predicate claim) :
    claim.validate = .ok () :=
  (claims.keyed _ _ version.stored).2

/-- Versions of a pair are told apart by their times. -/
theorem Version.eq {a b : Claim} (versionA : claims.Version subject predicate a)
    (versionB : claims.Version subject predicate b) (starts : a.validFrom = b.validFrom)
    (recorded : a.txTime = b.txTime) : a = b := by
  have same : a.key = b.key := by
    rw [Claim.key, Claim.key, versionA.subject, versionA.predicate, versionB.subject, versionB.predicate,
      starts, recorded]
  have stored := versionA.stored
  rw [same, versionB.stored, Option.some.injEq] at stored
  exact stored.symm

theorem mem_scan_iff {from_ : Bytes} {claim : Claim} :
    claim ∈ claims.scan subject predicate from_ ↔ claims.rows[claim.key]? = some claim ∧
      OrdMap.Within from_ (prefixEnd (versionPrefix subject predicate)) claim.key := by
  rw [scan, List.mem_map]
  constructor
  · rintro ⟨⟨key, claim⟩, member, rfl⟩
    obtain ⟨within, found⟩ := OrdMap.mem_range.mp member
    rw [(claims.keyed key claim found).1]
    exact ⟨found, within⟩
  · intro h
    exact ⟨(claim.key, claim), OrdMap.mem_range.mpr ⟨h.2, h.1⟩, rfl⟩

/-- The range of an as-of scan holds the keys of the pair's versions that have started. -/
theorem within_seekKey_iff {asOf : Millis} {claim : Claim} :
    OrdMap.Within (seekKey subject predicate asOf) (prefixEnd (versionPrefix subject predicate))
      claim.key ↔ claim.subject = subject ∧ claim.predicate = predicate ∧ claim.validFrom ≤ asOf := by
  have ends := prefixEnd_versionPrefix subject predicate
  have range : seekKey subject predicate asOf ≤ claim.key ∧ claim.key < _ ↔
      claim.subject = subject ∧ claim.predicate = predicate ∧ claim.validFrom ≤ asOf :=
    seek_range_iff ends
  rw [← range, ends]
  simp [OrdMap.Within]

/-- The as-of scan holds the versions of the pair that have started. -/
theorem mem_versionsAtOrBefore {asOf : Millis} {claim : Claim} :
    claim ∈ claims.versionsAtOrBefore subject predicate asOf ↔
      claims.Version subject predicate claim ∧ claim.validFrom ≤ asOf := by
  rw [versionsAtOrBefore, mem_scan_iff, within_seekKey_iff]
  constructor
  · rintro ⟨stored, sameSubject, samePredicate, started⟩
    exact ⟨⟨stored, sameSubject, samePredicate⟩, started⟩
  · rintro ⟨version, started⟩
    exact ⟨version.stored, version.subject, version.predicate, started⟩

/-- A scan of the versions of a pair comes newest first. -/
theorem newestFirst_scan {from_ : Bytes}
    (only : ∀ claim ∈ claims.scan subject predicate from_, claims.Version subject predicate claim) :
    NewestFirst (claims.scan subject predicate from_) := by
  have sorted := (OrdMap.isGraph_range claims.rows from_ (prefixEnd (versionPrefix subject predicate))).sorted
  rw [NewestFirst, scan, List.pairwise_map]
  apply sorted.imp_of_mem
  rintro ⟨key, a⟩ ⟨key', b⟩ memA memB less
  have versionOf : ∀ {key : Bytes} {claim : Claim}, (key, claim) ∈ claims.rows.range from_
      (prefixEnd (versionPrefix subject predicate)) →
      claim.key = key ∧ claims.Version subject predicate claim := by
    intro key claim member
    refine ⟨(claims.keyed key claim (OrdMap.mem_range.mp member).2).1, ?_⟩
    exact only claim (List.mem_map_of_mem member)
  obtain ⟨rfl, versionA⟩ := versionOf memA
  obtain ⟨rfl, versionB⟩ := versionOf memB
  have order : a.key < b.key := less
  rw [Claim.key, Claim.key, claimKey_lt_claimKey_iff, versionA.subject, versionA.predicate,
    versionB.subject, versionB.predicate] at order
  simpa [Claim.Newer] using order

theorem newestFirst_versionsAtOrBefore (claims : MemoryClaims) (subject : Subject) (predicate : Predicate)
    (asOf : Millis) : NewestFirst (claims.versionsAtOrBefore subject predicate asOf) :=
  newestFirst_scan fun _ member => (mem_versionsAtOrBefore.mp member).1

/-- The range of all versions holds the keys of the pair. -/
theorem within_versionPrefix_iff {claim : Claim} :
    OrdMap.Within (versionPrefix subject predicate) (prefixEnd (versionPrefix subject predicate))
      claim.key ↔ claim.subject = subject ∧ claim.predicate = predicate := by
  have ends := prefixEnd_versionPrefix subject predicate
  rw [OrdMap.Within, ends, ← versionPrefix_isPrefix_iff]
  constructor
  · intro within
    exact (lt_prefixEnd_iff ends within.1).mp (within.2 _ rfl)
  · intro front
    have below : versionPrefix subject predicate ≤ claim.key := by
      obtain ⟨rest, whole⟩ := front
      rw [Claim.key, ← whole]
      exact List.le_append_left
    refine ⟨below, ?_⟩
    intro stop isStop
    cases isStop
    exact (lt_prefixEnd_iff ends below).mpr front

theorem mem_allVersions {claim : Claim} :
    claim ∈ claims.allVersions subject predicate ↔ claims.Version subject predicate claim := by
  rw [allVersions, mem_scan_iff, within_versionPrefix_iff]
  constructor
  · rintro ⟨stored, sameSubject, samePredicate⟩
    exact ⟨stored, sameSubject, samePredicate⟩
  · intro version
    exact ⟨version.stored, version.subject, version.predicate⟩

theorem newestFirst_allVersions (claims : MemoryClaims) (subject : Subject) (predicate : Predicate) :
    NewestFirst (claims.allVersions subject predicate) :=
  newestFirst_scan fun _ member => mem_allVersions.mp member

/-- What an inserted claim does to the versions of a pair. -/
theorem version_insert_iff {claims' : MemoryClaims} {claim version : Claim}
    (inserted : claims.insert claim = .ok claims') :
    claims'.Version subject predicate version ↔
      (version = claim ∧ claim.subject = subject ∧ claim.predicate = predicate) ∨
        claims.Version subject predicate version ∧ version.key ≠ claim.key := by
  have rows : claims'.rows = claims.rows.insert claim.key claim := by
    unfold insert at inserted
    split at inserted
    · cases inserted
    · cases inserted
      rfl
  constructor
  · rintro ⟨stored, rfl, rfl⟩
    rw [rows] at stored
    by_cases same : claim.key = version.key
    · rw [same, OrdMap.getElem?_insert_self, Option.some.injEq] at stored
      subst stored
      exact .inl ⟨rfl, rfl, rfl⟩
    · rw [OrdMap.getElem?_insert_of_ne same] at stored
      exact .inr ⟨⟨stored, rfl, rfl⟩, fun h => same h.symm⟩
  · rintro (⟨rfl, rfl, rfl⟩ | ⟨version, different⟩)
    · exact ⟨by rw [rows, OrdMap.getElem?_insert_self], rfl, rfl⟩
    · refine ⟨?_, version.subject, version.predicate⟩
      rw [rows, OrdMap.getElem?_insert_of_ne (Ne.symm different)]
      exact version.stored

/-- Versions of two claims with one key are of one pair, with the same times. -/
theorem key_inj {a b : Claim} (same : a.key = b.key) :
    a.subject = b.subject ∧ a.predicate = b.predicate ∧ a.validFrom = b.validFrom ∧ a.txTime = b.txTime :=
  claimKey_inj same

/-- An accepted claim is valid. -/
theorem valid_of_insert {claims' : MemoryClaims} {claim : Claim}
    (inserted : claims.insert claim = .ok claims') : claim.validate = .ok () := by
  unfold insert at inserted
  split at inserted
  · cases inserted
  · assumption

end MemoryClaims

/-! ## As-of reads -/

namespace MemoryClaims

variable {claims claims' : MemoryClaims} {subject : Subject} {predicate : Predicate} {at_ : Millis}

theorem asOf_eq_some_iff {claim : Claim} :
    claims.asOf subject predicate at_ = some claim ↔
      InForce (claims.Version subject predicate) at_ claim := by
  rw [asOf, resolveAsOf_eq_some_iff (claims.newestFirst_versionsAtOrBefore subject predicate at_)]
  have same : ∀ version, version.validFrom ≤ at_ →
      (version ∈ claims.versionsAtOrBefore subject predicate at_ ↔
        claims.Version subject predicate version) := by
    intro version started
    rw [mem_versionsAtOrBefore]
    exact and_iff_left started
  constructor
  · exact InForce.congr same
  · exact InForce.congr fun version started => (same version started).symm

/-- The answer depends on the versions that have started. -/
theorem asOf_congr (same : ∀ version, version.validFrom ≤ at_ →
    (claims'.Version subject predicate version ↔ claims.Version subject predicate version)) :
    claims'.asOf subject predicate at_ = claims.asOf subject predicate at_ := by
  apply Option.ext
  intro claim
  simp only [asOf_eq_some_iff]
  constructor
  · exact InForce.congr same
  · exact InForce.congr fun version started => (same version started).symm

/-- Inserting a claim of another pair changes no answer. -/
theorem asOf_insert_of_ne {claim : Claim} (inserted : claims.insert claim = .ok claims')
    (other : claim.subject ≠ subject ∨ claim.predicate ≠ predicate) :
    claims'.asOf subject predicate at_ = claims.asOf subject predicate at_ := by
  apply asOf_congr
  intro version _
  rw [version_insert_iff inserted]
  constructor
  · rintro (⟨-, sameSubject, samePredicate⟩ | ⟨version, -⟩)
    · exact absurd sameSubject (other.resolve_right (absurd samePredicate))
    · exact version
  · intro version
    refine .inr ⟨version, fun same => ?_⟩
    obtain ⟨sameSubject, samePredicate, -⟩ := key_inj same
    rw [version.subject] at sameSubject
    rw [version.predicate] at samePredicate
    exact other.elim (· sameSubject.symm) (· samePredicate.symm)

/-- Inserting a claim changes no answer from before it starts. -/
theorem asOf_insert_of_lt {claim : Claim} (inserted : claims.insert claim = .ok claims')
    (early : at_ < claim.validFrom) :
    claims'.asOf subject predicate at_ = claims.asOf subject predicate at_ := by
  apply asOf_congr
  intro version started
  have apart : version.validFrom ≠ claim.validFrom := by
    intro same
    rw [same] at started
    exact absurd early (UInt64.not_lt.mpr started)
  rw [version_insert_iff inserted]
  constructor
  · rintro (⟨rfl, -⟩ | ⟨version, -⟩)
    · exact absurd rfl apart
    · exact version
  · intro version
    exact .inr ⟨version, fun same => apart (key_inj same).2.2.1⟩

/-- At its start an inserted claim is in force, unless a later recorded one starts there. -/
theorem asOf_insert_self {claim : Claim} (inserted : claims.insert claim = .ok claims')
    (newest : ∀ version, claims.Version claim.subject claim.predicate version →
      version.validFrom = claim.validFrom → version.txTime ≤ claim.txTime) :
    claims'.asOf claim.subject claim.predicate claim.validFrom = some claim := by
  rw [asOf_eq_some_iff]
  refine ⟨lastRecorded_started_iff.mpr ⟨⟨?_, ?_⟩, UInt64.le_refl _⟩, ?_, ?_⟩
  · exact (version_insert_iff inserted).mpr (.inl ⟨rfl, rfl, rfl⟩)
  · intro other version same
    rcases (version_insert_iff inserted).mp version with ⟨rfl, -⟩ | ⟨version, -⟩
    · exact UInt64.le_refl _
    · exact newest other version same
  · exact Claim.validAt_start (valid_of_insert inserted)
  · intro other recorded _
    exact recorded.version.2

/-- A valid last recorded version has an answer that starts no earlier. -/
theorem exists_asOf {claim : Claim} (recorded : LastRecorded (claims.Version subject predicate) claim)
    (valid : claim.validAt at_ = true) :
    ∃ found, InForce (claims.Version subject predicate) at_ found ∧ claim.validFrom ≤ found.validFrom := by
  have started := Claim.started_of_validAt valid
  have recorded' : LastRecorded (· ∈ claims.versionsAtOrBefore subject predicate at_) claim :=
    recorded.mono (mem_versionsAtOrBefore.mpr ⟨recorded.version, started⟩)
      fun version member => (mem_versionsAtOrBefore.mp member).1
  have fresh : none ≠ some claim.validFrom := nofun
  obtain ⟨found, resolved, later⟩ := exists_resolveFrom
    (claims.newestFirst_versionsAtOrBefore subject predicate at_) recorded' valid fresh
  exact ⟨found, asOf_eq_some_iff.mp resolved, later⟩

/-- Closing the version in force at an instant, by a correction recorded after it, changes no
object that was in force before the instant. -/
theorem asOf_retire {previous retirement : Claim} {stop : Millis}
    (current : InForce (claims.Version subject predicate) stop previous)
    (sameSubject : retirement.subject = subject) (samePredicate : retirement.predicate = predicate)
    (sameObject : retirement.object = previous.object) (starts : retirement.validFrom = previous.validFrom)
    (ends : retirement.validTo = some stop) (recorded : previous.txTime < retirement.txTime)
    (inserted : claims.insert retirement = .ok claims') (early : at_ < stop) :
    (claims'.asOf subject predicate at_).map (·.object) =
      (claims.asOf subject predicate at_).map (·.object) := by
  have last := (lastRecorded_started_iff.mp current.recorded).1
  by_cases before : at_ < previous.validFrom
  · rw [asOf_insert_of_lt inserted (by rwa [starts])]
  have started : previous.validFrom ≤ at_ := UInt64.not_lt.mp before
  -- both the version in force at `stop` and its correction hold at the instant
  have valid : previous.validAt at_ = true := by
    have valid := current.valid
    unfold Claim.validAt at valid ⊢
    rw [if_neg before]
    split at valid
    · cases valid
    · cases closed : previous.validTo with
      | none => rfl
      | some validTo =>
        simp only [closed, decide_eq_true_eq] at valid ⊢
        exact UInt64.lt_trans early valid
  have retired : retirement.validAt at_ = true := by
    rw [Claim.validAt, starts, if_neg before, ends]
    simpa using early
  have versions : ∀ version, claims'.Version subject predicate version ↔
      version = retirement ∨ claims.Version subject predicate version := by
    intro version
    rw [version_insert_iff inserted]
    constructor
    · rintro (⟨rfl, -⟩ | ⟨version, -⟩)
      · exact .inl rfl
      · exact .inr version
    · rintro (rfl | version)
      · exact .inl ⟨rfl, sameSubject, samePredicate⟩
      · refine .inr ⟨version, fun same => ?_⟩
        obtain ⟨-, -, sameStart, sameTime⟩ := key_inj same
        have older := last.last _ version (by rw [sameStart, starts])
        rw [sameTime] at older
        exact absurd recorded (UInt64.not_lt.mpr older)
  obtain ⟨found, inForce, later⟩ := exists_asOf last valid
  have foundLast := (lastRecorded_started_iff.mp inForce.recorded).1
  rw [asOf_eq_some_iff.mpr inForce]
  -- groups other than the corrected one keep their last recorded version
  have latest : ∀ other, LastRecorded
      (fun version => claims'.Version subject predicate version ∧ version.validFrom ≤ at_) other →
      other.validAt at_ = true → other.validFrom ≤ found.validFrom := by
    intro other otherRecorded otherValid
    obtain ⟨otherLast, otherStarted⟩ := lastRecorded_started_iff.mp otherRecorded
    rcases (versions other).mp otherLast.version with rfl | version
    · rwa [starts]
    · apply inForce.latest other (lastRecorded_started_iff.mpr ⟨?_, otherStarted⟩) otherValid
      exact otherLast.mono version fun v h => (versions v).mpr (.inr h)
  by_cases same : found.validFrom = previous.validFrom
  · have isPrevious : found = previous := by
      apply foundLast.version.eq last.version same
      apply UInt64.le_antisymm
      · exact last.last _ foundLast.version same
      · exact foundLast.last _ last.version same.symm
    have answer : claims'.asOf subject predicate at_ = some retirement := by
      rw [asOf_eq_some_iff]
      refine ⟨lastRecorded_started_iff.mpr ⟨⟨?_, ?_⟩, ?_⟩, retired, ?_⟩
      · exact (versions retirement).mpr (.inl rfl)
      · intro other version sameStart
        rcases (versions other).mp version with rfl | version
        · exact UInt64.le_refl _
        · have older := last.last other version (by rw [sameStart, starts])
          exact UInt64.le_of_lt (UInt64.lt_of_le_of_lt older recorded)
      · rwa [starts]
      · rw [starts, ← same]
        exact latest
    rw [answer, isPrevious]
    simp [sameObject]
  · have answer : claims'.asOf subject predicate at_ = some found := by
      rw [asOf_eq_some_iff]
      refine ⟨lastRecorded_started_iff.mpr ⟨⟨?_, ?_⟩, ?_⟩, inForce.valid, latest⟩
      · exact (versions found).mpr (.inr foundLast.version)
      · intro other version sameStart
        rcases (versions other).mp version with rfl | version
        · exact absurd (sameStart.symm.trans starts) same
        · exact foundLast.last other version sameStart
      · exact (lastRecorded_started_iff.mp inForce.recorded).2
    rw [answer]

end MemoryClaims

/-! ## Assertion -/

namespace MemoryEngine

variable {engine engine' : MemoryEngine} {claim : Claim}

/-- A batch is rejected before anything changes. -/
theorem appendBatch_error {claims : List Claim} {e : Error}
    (rejected : engine.appendBatch claims = (.error e, engine')) : engine' = engine := by
  unfold appendBatch at rejected
  split at rejected
  · cases rejected
    rfl
  · rename_i valid
    rw [kernel_ok_iff, except_forM_ok] at valid
    obtain ⟨stored, inserted, -⟩ := engine.insertEach_valid valid
    rw [inserted] at rejected
    cases rejected

/-- A batch of valid claims is accepted. -/
theorem appendBatch_valid (engine : MemoryEngine) {claims : List Claim}
    (valid : ∀ claim ∈ claims, claim.validate = .ok ()) :
    ∃ outcome engine', engine.appendBatch claims = (.ok outcome, engine') := by
  obtain ⟨stored, inserted, -⟩ := engine.insertEach_valid valid
  rw [← except_forM_ok] at valid
  rw [appendBatch, kernel_ok_iff.mpr valid]
  dsimp only
  rw [inserted]
  exact ⟨_, _, rfl⟩

theorem appendBatch_one {outcome : AppendOutcome}
    (accepted : engine.appendBatch [claim] = (.ok outcome, engine')) :
    engine.claims.insert claim = .ok engine'.claims := by
  unfold appendBatch at accepted
  split at accepted
  · cases accepted
  · simp only [insertEach] at accepted
    cases inserted : engine.claims.insert claim with
    | error e =>
      rw [inserted] at accepted
      cases accepted
    | ok claims =>
      rw [inserted] at accepted
      cases accepted
      rfl

theorem appendBatch_two {first second : Claim} {outcome : AppendOutcome}
    (accepted : engine.appendBatch [first, second] = (.ok outcome, engine')) :
    ∃ between, engine.claims.insert first = .ok between ∧ between.insert second = .ok engine'.claims := by
  unfold appendBatch at accepted
  split at accepted
  · cases accepted
  · simp only [insertEach] at accepted
    cases inserted : engine.claims.insert first with
    | error e =>
      rw [inserted] at accepted
      cases accepted
    | ok between =>
      rw [inserted] at accepted
      cases then_ : between.insert second with
      | error e =>
        simp only [then_] at accepted
        cases accepted
      | ok claims =>
        simp only [then_] at accepted
        cases accepted
        exact ⟨between, rfl, then_⟩

/-- What a supersession writes. -/
theorem supersede_ok {previous successor : Claim} {pair : Claim × Claim}
    (accepted : supersede previous successor = .ok pair) :
    previous.txTime < successor.txTime ∧
    pair.1 = { previous with validTo := some successor.validFrom, txTime := successor.txTime,
                             supersedes := some previous.digest } ∧
    pair.2 = { successor with supersedes := some previous.digest } := by
  simp only [supersede, except_throw, except_error_bind, except_reject_ok, not_or] at accepted
  obtain ⟨-, ⟨-, later⟩, accepted⟩ := accepted
  obtain ⟨⟨⟩, -, accepted⟩ := except_bind_ok.mp accepted
  obtain ⟨⟨⟩, -, accepted⟩ := except_bind_ok.mp accepted
  cases accepted
  exact ⟨UInt64.not_le.mp later, rfl, rfl⟩

theorem supersede_valid {previous successor : Claim} {pair : Claim × Claim}
    (accepted : supersede previous successor = .ok pair) :
    ∀ claim ∈ [pair.1, pair.2], claim.validate = .ok () := by
  simp only [supersede, except_throw, except_error_bind, except_reject_ok] at accepted
  obtain ⟨-, -, accepted⟩ := accepted
  obtain ⟨⟨⟩, first, accepted⟩ := except_bind_ok.mp accepted
  obtain ⟨⟨⟩, second, accepted⟩ := except_bind_ok.mp accepted
  cases accepted
  simp [first, second]

/-- A later valid claim supersedes an earlier one of its pair. -/
theorem supersede_accepts {previous successor : Claim} (sameSubject : previous.subject = successor.subject)
    (samePredicate : previous.predicate = successor.predicate)
    (starts : previous.validFrom < successor.validFrom) (later : previous.txTime < successor.txTime)
    (valid : successor.validate = .ok ()) :
    supersede previous successor = .ok
      ({ previous with validTo := some successor.validFrom, txTime := successor.txTime,
                       supersedes := some previous.digest },
       { successor with supersedes := some previous.digest }) := by
  have closed : ∀ txTime supersedes, { previous with
      validTo := some successor.validFrom, txTime, supersedes }.validate = .ok () := by
    intro txTime supersedes
    exact if_neg (UInt64.not_le.mpr starts)
  have valid' : ∀ supersedes, { successor with supersedes }.validate = .ok () := fun _ => valid
  have inOrder : ¬ (successor.validFrom ≤ previous.validFrom ∨ successor.txTime ≤ previous.txTime) := by
    rw [not_or]
    exact ⟨UInt64.not_le.mpr starts, UInt64.not_le.mpr later⟩
  rw [supersede, if_neg (by simp [sameSubject, samePredicate]), if_neg inOrder]
  dsimp only
  rw [closed, valid']
  rfl

/-- A claim as an assertion records it: with a link to the version it supersedes, if one that
started earlier was in force. -/
def recorded (engine : MemoryEngine) (claim : Claim) : Claim :=
  match engine.asOf claim.subject claim.predicate claim.validFrom with
  | some previous =>
    if previous.validFrom < claim.validFrom then { claim with supersedes := some previous.digest }
    else claim
  | none => claim

/-- An accepted assertion inserts the claim as it records it, either alone or after the correction
that closes the version in force. -/
theorem assert_ok {outcome : AppendOutcome} (accepted : engine.assert claim = (.ok outcome, engine')) :
    engine.claims.insert (engine.recorded claim) = .ok engine'.claims ∨
    ∃ previous retirement between,
      InForce (engine.claims.Version claim.subject claim.predicate) claim.validFrom previous ∧
      previous.validFrom < claim.validFrom ∧
      retirement = { previous with validTo := some claim.validFrom, txTime := claim.txTime,
                                   supersedes := some previous.digest } ∧
      previous.txTime < claim.txTime ∧
      engine.claims.insert retirement = .ok between ∧
      between.insert (engine.recorded claim) = .ok engine'.claims := by
  unfold assert at accepted
  unfold recorded asOf MemoryClaims.asOf
  dsimp only at accepted
  cases found : resolveAsOf (engine.claims.versionsAtOrBefore claim.subject claim.predicate claim.validFrom)
    claim.validFrom with
  | none =>
    rw [found] at accepted
    exact .inl (appendBatch_one accepted)
  | some previous =>
    rw [found] at accepted
    simp only at accepted ⊢
    split at accepted
    · rename_i earlier
      rw [if_pos earlier]
      cases superseded : supersede previous claim with
      | error e =>
        rw [superseded] at accepted
        cases accepted
      | ok pair =>
        obtain ⟨later, first, second⟩ := supersede_ok superseded
        rw [superseded] at accepted
        obtain ⟨between, inserted, then_⟩ := appendBatch_two accepted
        rw [second] at then_
        exact .inr ⟨previous, pair.1, between, MemoryClaims.asOf_eq_some_iff.mp found, earlier, first,
          later, inserted, then_⟩
    · rename_i notEarlier
      rw [if_neg notEarlier]
      exact .inl (appendBatch_one accepted)

theorem recorded_fields (engine : MemoryEngine) (claim : Claim) :
    (engine.recorded claim).subject = claim.subject ∧ (engine.recorded claim).predicate = claim.predicate ∧
    (engine.recorded claim).validFrom = claim.validFrom ∧ (engine.recorded claim).txTime = claim.txTime := by
  unfold recorded
  split
  · split
    · exact ⟨rfl, rfl, rfl, rfl⟩
    · exact ⟨rfl, rfl, rfl, rfl⟩
  · exact ⟨rfl, rfl, rfl, rfl⟩

/-- An assertion that is rejected changes nothing. -/
theorem assert_error {e : Error} (rejected : engine.assert claim = (.error e, engine')) :
    engine' = engine := by
  unfold assert at rejected
  dsimp only at rejected
  split at rejected
  · split at rejected
    · split at rejected
      · cases rejected
        rfl
      · exact appendBatch_error rejected
    · exact appendBatch_error rejected
  · exact appendBatch_error rejected

/-- An assertion keeps the objects of other pairs, and of its own from before the claim starts. -/
theorem assert_frame {outcome : AppendOutcome} (accepted : engine.assert claim = (.ok outcome, engine'))
    {subject : Subject} {predicate : Predicate} {at_ : Millis}
    (apart : (subject, predicate) ≠ (claim.subject, claim.predicate) ∨ at_ < claim.validFrom) :
    (engine'.asOf subject predicate at_).map (·.object) = (engine.asOf subject predicate at_).map (·.object) := by
  obtain ⟨sameSubject, samePredicate, starts, -⟩ := engine.recorded_fields claim
  have other : (subject, predicate) ≠ (claim.subject, claim.predicate) → ∀ c : Claim,
      c.subject = claim.subject → c.predicate = claim.predicate →
      c.subject ≠ subject ∨ c.predicate ≠ predicate := by
    intro different c hs hp
    by_cases same : c.subject = subject
    · refine .inr fun same' => different ?_
      rw [← same, ← same', hs, hp]
    · exact .inl same
  rcases assert_ok accepted with inserted | ⟨previous, retirement, between, current, earlier, rfl, later,
    first, second⟩
  · rcases apart with different | early
    · rw [asOf, MemoryClaims.asOf_insert_of_ne inserted (other different _ sameSubject samePredicate)]
      rfl
    · rw [asOf, MemoryClaims.asOf_insert_of_lt inserted (by rwa [starts])]
      rfl
  · have version := (lastRecorded_started_iff.mp current.recorded).1.version
    by_cases different : (subject, predicate) ≠ (claim.subject, claim.predicate)
    · rw [asOf, MemoryClaims.asOf_insert_of_ne second (other different _ sameSubject samePredicate),
        MemoryClaims.asOf_insert_of_ne first (other different _ version.subject version.predicate)]
      rfl
    · have early := apart.resolve_left different
      rw [ne_eq, not_not, Prod.mk.injEq] at different
      obtain ⟨rfl, rfl⟩ := different
      rw [asOf, MemoryClaims.asOf_insert_of_lt second (by rwa [starts])]
      refine MemoryClaims.asOf_retire current ?_ ?_ ?_ ?_ ?_ ?_ first early
      · exact version.subject
      · exact version.predicate
      · rfl
      · rfl
      · rfl
      · exact later

/-- At its start the claim is in force as the assertion records it, unless a version with the same
start was recorded later. -/
theorem asOf_assert {outcome : AppendOutcome} (accepted : engine.assert claim = (.ok outcome, engine'))
    (newest : ∀ version, engine.claims.Version claim.subject claim.predicate version →
      version.validFrom = claim.validFrom → version.txTime ≤ claim.txTime) :
    engine'.asOf claim.subject claim.predicate claim.validFrom = some (engine.recorded claim) := by
  obtain ⟨sameSubject, samePredicate, starts, recordedAt⟩ := engine.recorded_fields claim
  rcases assert_ok accepted with inserted | ⟨previous, retirement, between, current, earlier, rfl, later,
    first, second⟩
  · have answer := MemoryClaims.asOf_insert_self inserted
    rw [sameSubject, samePredicate, starts, recordedAt] at answer
    exact answer newest
  · have answer := MemoryClaims.asOf_insert_self second
    rw [sameSubject, samePredicate, starts, recordedAt] at answer
    apply answer
    intro version member same
    rcases (MemoryClaims.version_insert_iff first).mp member with ⟨rfl, -⟩ | ⟨member, -⟩
    · exact absurd same (UInt64.ne_of_lt earlier)
    · exact newest version member same

/-- The law of assertion. A rejected assertion changes nothing. An accepted one keeps the objects of
other pairs and of its own before the claim starts; and there, unless a version with the same start
was recorded later, the claim is in force, as the assertion records it. As-of reads return what is
in force, which is what resolution computes on every newest-first list. -/
theorem assertion_law (engine : MemoryEngine) (claim : Claim) :
    (∀ e engine', engine.assert claim = (.error e, engine') → engine' = engine) ∧
    (∀ outcome engine', engine.assert claim = (.ok outcome, engine') →
      (∀ subject predicate at_,
        (subject, predicate) ≠ (claim.subject, claim.predicate) ∨ at_ < claim.validFrom →
        (engine'.asOf subject predicate at_).map (·.object) =
          (engine.asOf subject predicate at_).map (·.object)) ∧
      ((∀ version, engine.claims.Version claim.subject claim.predicate version →
          version.validFrom = claim.validFrom → version.txTime ≤ claim.txTime) →
        engine'.asOf claim.subject claim.predicate claim.validFrom = some (engine.recorded claim))) ∧
    (∀ subject predicate at_ found, engine.asOf subject predicate at_ = some found ↔
      InForce (engine.claims.Version subject predicate) at_ found) ∧
    ∀ versions, NewestFirst versions → ∀ at_ found,
      resolveAsOf versions at_ = some found ↔ InForce (· ∈ versions) at_ found := by
  refine ⟨fun e engine' => assert_error, ?_, ?_, ?_⟩
  · intro outcome engine' accepted
    constructor
    · intro subject predicate at_ apart
      exact assert_frame accepted apart
    · exact asOf_assert accepted
  · intro subject predicate at_ found
    exact MemoryClaims.asOf_eq_some_iff
  · intro versions sorted at_ found
    exact resolveAsOf_eq_some_iff sorted at_ found

/-- A first claim about a door, and a later one. -/
def openDoor : Claim :=
  { subject := ⟨"door", by decide, by decide⟩, predicate := ⟨"state", by decide, by decide⟩,
    object := "open", validFrom := 1, validTo := none, txTime := 1, producer := ⟨"guard", none, none⟩,
    confidence := none, supersedes := none, signature := none, tier := .localTier,
    promotionState := .unpromoted }

def closedDoor : Claim := { openDoor with object := "closed", validFrom := 2, txTime := 2 }

theorem openDoor_valid : openDoor.validate = .ok () := rfl

/-- The claims after the first one. -/
theorem version_openDoor {claims : MemoryClaims} (inserted : MemoryClaims.new.insert openDoor = .ok claims)
    (version : Claim) : claims.Version openDoor.subject openDoor.predicate version ↔ version = openDoor := by
  rw [MemoryClaims.version_insert_iff inserted]
  constructor
  · rintro (⟨same, -⟩ | ⟨version, -⟩)
    · exact same
    · have stored := version.stored
      simp [MemoryClaims.new] at stored
  · intro same
    exact .inl ⟨same, rfl, rfl⟩

theorem asOf_openDoor {claims : MemoryClaims} (inserted : MemoryClaims.new.insert openDoor = .ok claims) :
    claims.asOf openDoor.subject openDoor.predicate 2 = some openDoor := by
  rw [MemoryClaims.asOf_eq_some_iff]
  have only := version_openDoor inserted
  refine ⟨lastRecorded_started_iff.mpr ⟨⟨(only _).mpr rfl, fun other version _ => ?_⟩, ?_⟩, ?_, ?_⟩
  · rw [(only other).mp version]
    exact UInt64.le_refl _
  · decide
  · decide
  · intro other recorded _
    rw [(only other).mp recorded.version.1]
    exact UInt64.le_refl _

/-- The later claim about the door supersedes the first one. -/
theorem assert_closedDoor : ∃ engine outcome engine', engine.claims.asOf openDoor.subject
    openDoor.predicate 2 = some openDoor ∧
    (∀ version, engine.claims.Version openDoor.subject openDoor.predicate version ↔ version = openDoor) ∧
    assert engine closedDoor = (.ok outcome, engine') := by
  obtain ⟨claims, inserted, -⟩ := MemoryClaims.new.insert_valid openDoor_valid
  let engine : MemoryEngine := { new with claims, order := [openDoor] }
  have found := asOf_openDoor inserted
  have superseded : supersede openDoor closedDoor = .ok _ :=
    supersede_accepts rfl rfl (by decide) (by decide) rfl
  obtain ⟨outcome, engine', appended⟩ := appendBatch_valid engine (supersede_valid superseded)
  refine ⟨engine, outcome, engine', found, version_openDoor inserted, ?_⟩
  have candidates : resolveAsOf (engine.claims.versionsAtOrBefore closedDoor.subject closedDoor.predicate
      closedDoor.validFrom) closedDoor.validFrom = some openDoor := found
  rw [assert, candidates]
  dsimp only
  rw [if_pos (by decide), superseded]
  exact appended

/-- The later claim about the door is recorded with a link to the first one, so what is in force is
not the claim as it was given. -/
theorem assert_links : ∃ engine outcome engine',
    assert engine closedDoor = (.ok outcome, engine') ∧
    (∀ version, engine.claims.Version closedDoor.subject closedDoor.predicate version →
      version.validFrom = closedDoor.validFrom → version.txTime ≤ closedDoor.txTime) ∧
    engine'.asOf closedDoor.subject closedDoor.predicate closedDoor.validFrom ≠ some closedDoor := by
  obtain ⟨engine, outcome, engine', found, only, accepted⟩ := assert_closedDoor
  have newest : ∀ version, engine.claims.Version closedDoor.subject closedDoor.predicate version →
      version.validFrom = closedDoor.validFrom → version.txTime ≤ closedDoor.txTime := by
    intro version member
    rw [(only version).mp member]
    decide
  refine ⟨engine, outcome, engine', accepted, newest, ?_⟩
  have linked : engine.recorded closedDoor = { closedDoor with supersedes := some openDoor.digest } := by
    have found' : engine.asOf closedDoor.subject closedDoor.predicate closedDoor.validFrom =
      some openDoor := found
    rw [recorded, found']
    exact if_pos (by decide)
  rw [asOf_assert accepted newest, linked, ne_eq, Option.some.injEq]
  intro same
  have links := congrArg Claim.supersedes same
  cases links

end MemoryEngine

end Vyrm.Store
