import Mathlib.Data.List.Dedup
import Vyrm.Store.Native.Spaces
import Vyrm.Store.Native.Log

/-!
# Removal candidacy

`crates/vyrm-store/src/gc.rs`, and `removal_report` of `native.rs`: the stored pairs of subject and
predicate are joined with the accesses of an interval. What the engine stores is two logs, of claims and
of accesses; the report is about the logs and the engine reads it off the keys.
-/

namespace Vyrm.Store
open Lib Vyrm.Core

/-! ## The report -/

/-- `Verdict` (`gc.rs:15-21`). -/
inductive Verdict where
  | candidate
  | retained
  deriving DecidableEq, Repr

/-- `PairStatus` (`gc.rs:24-37`). -/
structure PairStatus where
  subject : Subject
  predicate : Predicate
  verdict : Verdict
  claimCount : Nat
  lastAccess : Option Millis
  lastReader : Option Reader
  accessCount : Nat
  deriving DecidableEq

def PairStatus.pair (status : PairStatus) : Subject × Predicate := (status.subject, status.predicate)

/-- `RemovalReport` (`gc.rs:60-69`). -/
structure RemovalReport where
  evaluatedAt : Millis
  since : Millis
  pairs : List PairStatus
  deriving DecidableEq

/-- `candidates` (`gc.rs:72-74`). -/
def RemovalReport.candidates (report : RemovalReport) : List PairStatus :=
  report.pairs.filter fun status => status.verdict = .candidate

/-- `retained` (`gc.rs:76-78`). -/
def RemovalReport.retained (report : RemovalReport) : List PairStatus :=
  report.pairs.filter fun status => status.verdict = .retained

/-- `Tally` (`gc.rs:102-108`). -/
structure Tally where
  claimCount : Nat
  accessCount : Nat
  lastAccess : Option Millis
  lastReader : Option Reader

namespace Tally

/-- `Tally::default`. -/
def zero : Tally := ⟨0, 0, none, none⟩

/-- A claim of the pair (`native.rs:104-108`). -/
def claim (tally : Tally) : Tally := { tally with claimCount := tally.claimCount + 1 }

/-- An access to the pair (`native.rs:119-127`). -/
def access (at_ : Millis) (reader : Reader) (tally : Tally) : Tally :=
  let counted := { tally with accessCount := tally.accessCount + 1 }
  if tally.lastAccess.all fun previous => previous ≤ at_ then
    { counted with lastAccess := some at_, lastReader := some reader }
  else counted

end Tally

/-- The map of tallies, by the texts of a pair. -/
abbrev Tallies := OrdMap (Subject × Predicate) Tally

namespace Tallies

def at_ (tallies : Tallies) (pair : Subject × Predicate) : Tally := tallies[pair]?.getD .zero

/-- `entry(pair).or_default()`, and its change. -/
def update (tallies : Tallies) (pair : Subject × Predicate) (change : Tally → Tally) : Tallies :=
  tallies.insert pair (change (tallies.at_ pair))

theorem at_update (tallies : Tallies) (pair other : Subject × Predicate) (change : Tally → Tally) :
    (tallies.update pair change).at_ other = if pair = other then change (tallies.at_ other) else tallies.at_ other := by
  by_cases same : pair = other
  · subst same
    simp [at_, update]
  · rw [at_, update, OrdMap.getElem?_insert_of_ne same, if_neg same, at_]

end Tallies

/-- What is reported of a pair, unless it has no claims (`gc.rs:121-143`). -/
def pairStatus (entry : (Subject × Predicate) × Tally) : Option PairStatus :=
  let tally := entry.2
  if tally.claimCount = 0 then none
  else some
    { subject := entry.1.1
      predicate := entry.1.2
      verdict := if tally.accessCount = 0 then .candidate else .retained
      claimCount := tally.claimCount
      lastAccess := tally.lastAccess
      lastReader := tally.lastReader
      accessCount := tally.accessCount }

/-- `build_report` (`gc.rs:115-148`). The texts of the pairs are those of identifiers. -/
def buildReport (tallies : Tallies) (since evaluatedAt : Millis) : RemovalReport :=
  { evaluatedAt, since, pairs := tallies.toList.filterMap pairStatus }

/-- The loop over the claims (`native.rs:101-109`). -/
def tallyClaims (tallies : Tallies) : List Bytes → Except Error Tallies
  | [] => .ok tallies
  | stored :: rest => do
    let pair ← kernel (parseClaimKey (← stripSpace .claims stored))
    tallyClaims (tallies.update pair .claim) rest

/-- The loop over the accesses, which ends at the first one after the evaluation (`native.rs:110-128`). -/
def tallyAccesses (evaluatedAt : Millis) (tallies : Tallies) : List Bytes → Except Error Tallies
  | [] => .ok tallies
  | stored :: rest => do
    let (at_, reader, pair) ← kernel (parseAccessKey (← stripSpace .access stored))
    if evaluatedAt < at_ then return tallies
    tallyAccesses evaluatedAt (tallies.update pair (.access at_ reader)) rest

/-- `access_bound` (`key.rs:145-147`). -/
def accessBound (at_ : Millis) : Bytes := field at_

/-- `removal_report` (`native.rs:97-130`). -/
def View.removalReport (view : View) (since evaluatedAt : Millis) : Except Error RemovalReport := do
  let claims ← view.scanSpace .claims []
  let tallies ← tallyClaims ∅ (claims.map Prod.fst)
  let accesses ← view.scanSpaceFrom .access (accessBound since)
  let tallies ← tallyAccesses evaluatedAt tallies (accesses.map Prod.fst)
  return buildReport tallies since evaluatedAt

/-! ## The logs -/

/-- An access: who read a pair, and when. -/
structure Access where
  at_ : Millis
  reader : Reader
  subject : Subject
  predicate : Predicate
  deriving DecidableEq

def Access.key (access : Access) : Bytes := accessKey access.at_ access.reader access.subject access.predicate

def Access.pair (access : Access) : Subject × Predicate := (access.subject, access.predicate)

def claimPair (claim : Claim) : Subject × Predicate := (claim.subject, claim.predicate)

/-- The accesses in an interval, which includes both ends. -/
def within (accesses : List Access) (since evaluatedAt : Millis) (pair : Subject × Predicate) : List Access :=
  accesses.dedup.filter fun access => access.pair = pair ∧ since ≤ access.at_ ∧ access.at_ ≤ evaluatedAt

/-- The versions of a pair that are stored: one for each key. -/
def versionKeys (claims : List Claim) (pair : Subject × Predicate) : List Bytes :=
  ((claims.filter fun claim => claimPair claim = pair).map Claim.key).dedup

/-- The pairs that have claims and were not accessed in an interval. -/
def unreferenced (claims : List Claim) (accesses : List Access) (since evaluatedAt : Millis) :
    List (Subject × Predicate) :=
  (claims.map claimPair).dedup.filter fun pair => within accesses since evaluatedAt pair = []

/-- The pairs that have claims and were accessed in an interval. -/
def referenced (claims : List Claim) (accesses : List Access) (since evaluatedAt : Millis) :
    List (Subject × Predicate) :=
  (claims.map claimPair).dedup.filter fun pair => within accesses since evaluatedAt pair ≠ []

/-- What a report says of a pair, in terms of the logs. -/
structure PairStatus.Of (claims : List Claim) (accesses : List Access) (since evaluatedAt : Millis)
    (status : PairStatus) : Prop where
  claimCount : status.claimCount = (versionKeys claims status.pair).length
  accessCount : status.accessCount = (within accesses since evaluatedAt status.pair).length
  /-- The last access is the greatest one of the interval. -/
  lastAccess : ∀ last, status.lastAccess = some last ↔
    ∃ access ∈ within accesses since evaluatedAt status.pair, access.at_ = last ∧
      ∀ other ∈ within accesses since evaluatedAt status.pair, other.at_ ≤ last

/-- A report tells the pairs with accesses in its interval from those without, each pair once. -/
structure RemovalReport.Exact (claims : List Claim) (accesses : List Access) (since evaluatedAt : Millis)
    (report : RemovalReport) : Prop where
  interval : report.since = since ∧ report.evaluatedAt = evaluatedAt
  candidates : (report.candidates.map PairStatus.pair).Perm (unreferenced claims accesses since evaluatedAt)
  retained : (report.retained.map PairStatus.pair).Perm (referenced claims accesses since evaluatedAt)
  evidence : ∀ status ∈ report.pairs, status.Of claims accesses since evaluatedAt

/-! ## Reading the keys -/

theorem accessKey_eq (access : Access) : access.key = field access.at_ ++ sep :: (access.reader.bytes ++ sep ::
    (access.subject.bytes ++ sep :: access.predicate.bytes)) := by
  simp [Access.key, accessKey]

theorem Access.key_inj {a b : Access} : a.key = b.key ↔ a = b := by
  constructor
  · intro same
    have parsed := congrArg parseAccessKey same
    rw [Access.key, Access.key, parseAccessKey_accessKey, parseAccessKey_accessKey] at parsed
    obtain ⟨at_, reader, subject, predicate⟩ := a
    obtain ⟨at', reader', subject', predicate'⟩ := b
    simpa using parsed
  · intro same
    rw [same]

/-- The keys of accesses are in the order of their times. -/
theorem at_le_of_key_lt {a b : Access} (less : a.key < b.key) : a.at_ ≤ b.at_ := by
  rw [accessKey_eq, accessKey_eq, append_lt_append_iff (by simp), field_lt_field_iff, field_inj] at less
  rcases less with earlier | ⟨same, -⟩
  · exact UInt64.le_of_lt earlier
  · exact UInt64.le_of_eq same

/-- A scan from the bound of a time meets the accesses from that time on. -/
theorem accessBound_le_key {since : Millis} {access : Access} :
    accessBound since ≤ access.key ↔ since ≤ access.at_ := by
  have bound : accessBound since = field since ++ [] := (List.append_nil _).symm
  rw [accessKey_eq, bound, ← not_lt, append_lt_append_iff (by simp), field_lt_field_iff]
  simp

/-- The claims of some keys are counted pair by pair. -/
theorem tallyClaims_ok (claims : List Claim) (tallies : Tallies) :
    ∃ counted, tallyClaims tallies (claims.map fun claim => storageKey .claims claim.key) = .ok counted ∧
      ∀ pair, counted.at_ pair = { tallies.at_ pair with
        claimCount := (tallies.at_ pair).claimCount + claims.countP fun claim => claimPair claim = pair } := by
  induction claims generalizing tallies with
  | nil => exact ⟨tallies, rfl, fun _ => rfl⟩
  | cons claim claims ih =>
    obtain ⟨counted, done, counts⟩ := ih (tallies.update (claimPair claim) .claim)
    refine ⟨counted, ?_, ?_⟩
    · rw [List.map_cons, tallyClaims, stripSpace_storageKey]
      simp only [except_ok_bind, Claim.key, parseClaimKey_claimKey, kernel]
      exact done
    · intro pair
      rw [counts pair, Tallies.at_update, List.countP_cons]
      by_cases here : claimPair claim = pair
      · simp only [Tally.claim, here, decide_true, if_true]
        congr 1
        omega
      · simp [here]

/-- What a tally says of the accesses that it counts. -/
structure Tally.Saw (tally : Tally) (accesses : List Access) : Prop where
  count : tally.accessCount = accesses.length
  none_ : tally.lastAccess = none ↔ accesses = []
  last : ∀ last, tally.lastAccess = some last →
    (∃ access ∈ accesses, access.at_ = last ∧ tally.lastReader = some access.reader) ∧
      ∀ access ∈ accesses, access.at_ ≤ last

theorem Tally.Saw.access {tally : Tally} {accesses : List Access} (saw : tally.Saw accesses) (access : Access) :
    (tally.access access.at_ access.reader).Saw (accesses ++ [access]) := by
  have none_ := saw.none_
  cases before : tally.lastAccess with
  | none =>
    obtain rfl := none_.mp before
    simp only [Tally.access, before, Option.all_none, if_true]
    refine ⟨by simp [saw.count], by simp, ?_⟩
    rintro _ ⟨⟩
    exact ⟨⟨access, by simp, rfl, rfl⟩, by simp⟩
  | some previous =>
    obtain ⟨⟨latest, among, isLast, read⟩, greatest⟩ := saw.last previous before
    simp only [Tally.access, before, Option.all_some, decide_eq_true_eq]
    split
    next later =>
      refine ⟨by simp [saw.count], by simp, ?_⟩
      rintro _ ⟨⟩
      refine ⟨⟨access, by simp, rfl, rfl⟩, ?_⟩
      intro other listed
      rcases List.mem_append.mp listed with earlier | same
      · exact UInt64.le_trans (greatest other earlier) later
      · rw [List.mem_singleton.mp same]
        exact UInt64.le_refl _
    next earlier =>
      refine ⟨by simp [saw.count], by simp, ?_⟩
      intro last isNow
      obtain rfl : previous = last := by simpa [before] using isNow
      refine ⟨⟨latest, List.mem_append_left _ among, isLast, read⟩, ?_⟩
      intro other listed
      rcases List.mem_append.mp listed with older | same
      · exact greatest other older
      · rw [List.mem_singleton.mp same]
        exact UInt64.le_of_lt (UInt64.not_le.mp earlier)

/-- The accesses are tallied up to the evaluation, when they come in the order of their times. -/
theorem tallyAccesses_ok (evaluatedAt : Millis) {accesses : List Access}
    (sorted : accesses.Pairwise fun a b => a.at_ ≤ b.at_) (tallies : Tallies)
    (seen : Subject × Predicate → List Access) (saw : ∀ pair, (tallies.at_ pair).Saw (seen pair)) :
    ∃ tallied, tallyAccesses evaluatedAt tallies (accesses.map fun access => storageKey .access access.key) =
        .ok tallied ∧
      (∀ pair, (tallied.at_ pair).claimCount = (tallies.at_ pair).claimCount) ∧
      ∀ pair, (tallied.at_ pair).Saw
        (seen pair ++ accesses.filter fun access => access.pair = pair ∧ access.at_ ≤ evaluatedAt) := by
  induction accesses generalizing tallies seen with
  | nil => exact ⟨tallies, rfl, fun _ => rfl, by simpa using saw⟩
  | cons access accesses ih =>
    obtain ⟨later, sorted⟩ := List.pairwise_cons.mp sorted
    have read : tallyAccesses evaluatedAt tallies
        ((access :: accesses).map fun access => storageKey .access access.key) =
        if evaluatedAt < access.at_ then .ok tallies
        else tallyAccesses evaluatedAt (tallies.update access.pair (.access access.at_ access.reader))
          (accesses.map fun access => storageKey .access access.key) := by
      rw [List.map_cons, tallyAccesses, stripSpace_storageKey]
      simp only [except_ok_bind, Access.key, parseAccessKey_accessKey, kernel]
      split
      · rfl
      · rfl
    rw [read]
    by_cases after : evaluatedAt < access.at_
    · rw [if_pos after]
      refine ⟨tallies, rfl, fun _ => rfl, ?_⟩
      intro pair
      have nothing : (access :: accesses).filter
          (fun access => access.pair = pair ∧ access.at_ ≤ evaluatedAt) = [] := by
        rw [List.filter_eq_nil_iff]
        intro other listed
        have beyond : evaluatedAt < other.at_ := by
          rcases List.mem_cons.mp listed with rfl | behind
          · exact after
          · exact UInt64.lt_of_lt_of_le after (later other behind)
        simp [UInt64.not_le.mpr beyond]
      rw [nothing, List.append_nil]
      exact saw pair
    · rw [if_neg after]
      have early : access.at_ ≤ evaluatedAt := UInt64.not_lt.mp after
      obtain ⟨tallied, done, claims, counts⟩ := ih sorted
        (tallies.update access.pair (.access access.at_ access.reader))
        (fun pair => if access.pair = pair then seen pair ++ [access] else seen pair) (by
          intro pair
          rw [Tallies.at_update]
          split
          · exact (saw pair).access access
          · exact saw pair)
      refine ⟨tallied, done, ?_, ?_⟩
      · intro pair
        rw [claims pair, Tallies.at_update]
        split
        · unfold Tally.access
          split
          · rfl
          · rfl
        · rfl
      · intro pair
        have counts := counts pair
        by_cases here : access.pair = pair
        · rw [if_pos here, List.append_assoc] at counts
          simpa [here, early] using counts
        · rw [if_neg here] at counts
          simpa [here] using counts

/-! ## What is reported -/

/-- The pairs of a report that have a verdict. -/
theorem filter_verdict (tallies : Tallies) (since evaluatedAt : Millis) (verdict : Verdict) :
    ((buildReport tallies since evaluatedAt).pairs.filter fun status => status.verdict = verdict).map PairStatus.pair =
      (tallies.toList.filter fun entry => entry.2.claimCount ≠ 0 ∧
        (entry.2.accessCount = 0 ↔ verdict = .candidate)).map Prod.fst := by
  rw [buildReport]
  induction tallies.toList with
  | nil => rfl
  | cons entry entries ih =>
    obtain ⟨pair, tally⟩ := entry
    rw [List.filterMap_cons, List.filter_cons, pairStatus]
    by_cases none_ : tally.claimCount = 0
    · simp [none_, ih]
    · by_cases idle : tally.accessCount = 0
      · cases verdict with
        | candidate => simpa [none_, idle, PairStatus.pair] using ih
        | retained => simpa [none_, idle] using ih
      · cases verdict with
        | candidate => simpa [none_, idle] using ih
        | retained => simpa [none_, idle, PairStatus.pair] using ih

/-- The counts of a pair are among the tallies exactly when it was counted. -/
theorem mem_toList_iff (tallies : Tallies) (pair : Subject × Predicate) (wanted : Tally → Prop)
    (empty : ¬ wanted .zero) : (∃ tally, (pair, tally) ∈ tallies.toList ∧ wanted tally) ↔ wanted (tallies.at_ pair) := by
  simp only [Std.ExtTreeMap.mem_toList_iff_getElem?_eq_some]
  rw [Tallies.at_]
  cases tallies[pair]? with
  | none => simp [empty]
  | some tally => simp

/-- A list of items that all come of wanted ones is the image of a list of wanted ones. -/
theorem exists_map_eq {α β : Type} {f : α → β} {wanted : α → Prop} {items : List β}
    (each : ∀ b ∈ items, ∃ a, wanted a ∧ b = f a) : ∃ found : List α, (∀ a ∈ found, wanted a) ∧ items = found.map f := by
  induction items with
  | nil => exact ⟨[], by simp, rfl⟩
  | cons b items ih =>
    obtain ⟨⟨a, isWanted, rfl⟩, behind⟩ := List.forall_mem_cons.mp each
    obtain ⟨found, all, rfl⟩ := ih behind
    exact ⟨a :: found, List.forall_mem_cons.mpr ⟨isWanted, all⟩, rfl⟩

/-! ## What the rows hold -/

/-- The rows of a view are those of a log of claims and a log of accesses. -/
structure View.Logs (view : View) (claims : List Claim) (accesses : List Access) : Prop where
  claims : ∀ key, (∃ value, view.read .claims key = .ok (some value)) ↔ ∃ claim ∈ claims, claim.key = key
  accesses : ∀ key, (∃ value, view.read .access key = .ok (some value)) ↔ ∃ access ∈ accesses, access.key = key

variable {view : View} {claims : List Claim} {accesses : List Access}

theorem pair_of_key {claim other : Claim} (same : claim.key = other.key) : claimPair claim = claimPair other := by
  have parsed := congrArg parseClaimKey same
  rw [Claim.key, Claim.key, parseClaimKey_claimKey, parseClaimKey_claimKey] at parsed
  exact Except.ok.inj parsed

/-- The scan of the claims meets each stored version once. -/
theorem View.Logs.scan_claims (ordered : view.Ordered) (logs : view.Logs claims accesses) :
    ∃ (pairs : List (Bytes × Bytes)) (stored : List Claim), view.scanSpace .claims [] = .ok pairs ∧
      pairs.map Prod.fst = stored.map (fun claim => storageKey .claims claim.key) ∧ (stored.map Claim.key).Nodup ∧
      ∀ key, key ∈ stored.map Claim.key ↔ key ∈ claims.map Claim.key := by
  obtain ⟨pairs, scanned, sorted, mem⟩ := ordered.scanSpace .claims []
  have stored : ∀ key, storageKey .claims key ∈ pairs.map Prod.fst ↔ key ∈ claims.map Claim.key := by
    intro key
    rw [List.mem_map, List.mem_map, ← logs.claims]
    constructor
    · rintro ⟨⟨_, value⟩, listed, rfl⟩
      obtain ⟨key', same, -, there⟩ := (mem _ _).mp listed
      obtain ⟨-, rfl⟩ := storageKey_inj.mp same
      exact ⟨value, there⟩
    · rintro ⟨value, there⟩
      exact ⟨(_, value), (mem _ _).mpr ⟨key, rfl, List.nil_prefix, there⟩, rfl⟩
  have each : ∀ row ∈ pairs.map Prod.fst, ∃ claim, claim ∈ claims ∧ row = storageKey .claims claim.key := by
    intro row listed
    obtain ⟨⟨_, value⟩, member, rfl⟩ := List.mem_map.mp listed
    obtain ⟨key, rfl, -⟩ := (mem _ _).mp member
    obtain ⟨claim, logged, rfl⟩ := List.mem_map.mp ((stored key).mp listed)
    exact ⟨claim, logged, rfl⟩
  obtain ⟨found, -, same⟩ := exists_map_eq each
  refine ⟨pairs, found, scanned, same, ?_, ?_⟩
  · have distinct : (pairs.map Prod.fst).Nodup := List.pairwise_map.mpr (sorted.imp fun less => ne_of_lt less)
    rw [same, ← Function.comp_def, ← List.map_map] at distinct
    exact distinct.of_map
  · intro key
    rw [← stored, same, List.mem_map, List.mem_map]
    simp [storageKey_inj]

/-- The scan of the accesses meets those from a time on, each once and in the order of their times. -/
theorem View.Logs.scan_accesses (ordered : view.Ordered) (logs : view.Logs claims accesses) (since : Millis) :
    ∃ (pairs : List (Bytes × Bytes)) (stored : List Access), view.scanSpaceFrom .access (accessBound since) = .ok pairs ∧
      pairs.map Prod.fst = stored.map (fun access => storageKey .access access.key) ∧ stored.Nodup ∧
      stored.Pairwise (fun a b => a.at_ ≤ b.at_) ∧ ∀ access, access ∈ stored ↔ access ∈ accesses ∧ since ≤ access.at_ := by
  obtain ⟨pairs, scanned, sorted, mem⟩ := ordered.scanSpaceFrom .access (accessBound since)
  have stored : ∀ access : Access, storageKey .access access.key ∈ pairs.map Prod.fst ↔
      access ∈ accesses ∧ since ≤ access.at_ := by
    intro access
    have logged := logs.accesses access.key
    simp only [Access.key_inj, exists_eq_right] at logged
    rw [List.mem_map, ← logged]
    constructor
    · rintro ⟨⟨_, value⟩, listed, rfl⟩
      obtain ⟨key', same, later, there⟩ := (mem _ _).mp listed
      obtain ⟨-, rfl⟩ := storageKey_inj.mp same
      exact ⟨⟨value, there⟩, accessBound_le_key.mp later⟩
    · rintro ⟨⟨value, there⟩, later⟩
      exact ⟨(_, value), (mem _ _).mpr ⟨_, rfl, accessBound_le_key.mpr later, there⟩, rfl⟩
  have each : ∀ row ∈ pairs.map Prod.fst, ∃ access, access ∈ accesses ∧ row = storageKey .access access.key := by
    intro row listed
    obtain ⟨⟨_, value⟩, member, rfl⟩ := List.mem_map.mp listed
    obtain ⟨key, rfl, -, there⟩ := (mem _ _).mp member
    obtain ⟨access, logged, rfl⟩ := (logs.accesses key).mp ⟨value, there⟩
    exact ⟨access, logged, rfl⟩
  obtain ⟨found, -, same⟩ := exists_map_eq each
  have ascending : (pairs.map Prod.fst).Pairwise (· < ·) := List.pairwise_map.mpr sorted
  rw [same, List.pairwise_map] at ascending
  have keys : ∀ {a b : Access}, storageKey .access a.key < storageKey .access b.key → a.key < b.key := by
    intro a b less
    rwa [storageKey, storageKey, append_lt_append_left_iff] at less
  refine ⟨pairs, found, scanned, same, ?_, ?_, ?_⟩
  · refine ascending.imp fun less equal => ?_
    rw [equal] at less
    exact lt_irrefl _ less
  · exact ascending.imp fun less => at_le_of_key_lt (keys less)
  · intro access
    rw [← stored, same, List.mem_map]
    simp [storageKey_inj, Access.key_inj]

/-- Of the accesses that are scanned, those that count for a pair are those of the interval. -/
theorem within_perm {stored : List Access} {since evaluatedAt : Millis} (distinct : stored.Nodup)
    (mem : ∀ access, access ∈ stored ↔ access ∈ accesses ∧ since ≤ access.at_) (pair : Subject × Predicate) :
    (stored.filter fun access => access.pair = pair ∧ access.at_ ≤ evaluatedAt).Perm
      (within accesses since evaluatedAt pair) := by
  rw [within, List.perm_ext_iff_of_nodup (distinct.filter _) (accesses.nodup_dedup.filter _)]
  intro access
  simp only [List.mem_filter, mem, List.mem_dedup, decide_eq_true_eq]
  tauto

/-- As many versions of a pair are scanned as are stored. -/
theorem countP_versions {stored : List Claim} (distinct : (stored.map Claim.key).Nodup)
    (mem : ∀ key, key ∈ stored.map Claim.key ↔ key ∈ claims.map Claim.key) (pair : Subject × Predicate) :
    stored.countP (fun claim => claimPair claim = pair) = (versionKeys claims pair).length := by
  have once : ((stored.filter fun claim => claimPair claim = pair).map Claim.key).Nodup :=
    distinct.sublist (List.filter_sublist.map _)
  have same : ((stored.filter fun claim => claimPair claim = pair).map Claim.key).Perm (versionKeys claims pair) := by
    rw [versionKeys, List.perm_ext_iff_of_nodup once (List.nodup_dedup _)]
    intro key
    have mem := mem key
    simp only [List.mem_map, List.mem_dedup, List.mem_filter, decide_eq_true_eq] at mem ⊢
    constructor
    · rintro ⟨claim, ⟨listed, rfl⟩, rfl⟩
      obtain ⟨other, logged, same⟩ := mem.mp ⟨claim, listed, rfl⟩
      exact ⟨other, ⟨logged, pair_of_key same⟩, same⟩
    · rintro ⟨claim, ⟨logged, rfl⟩, rfl⟩
      obtain ⟨other, listed, same⟩ := mem.mpr ⟨claim, logged, rfl⟩
      exact ⟨other, ⟨listed, pair_of_key same⟩, same⟩
  rw [List.countP_eq_length_filter, ← same.length_eq, List.length_map]

theorem Tally.Saw.perm {tally : Tally} {seen wanted : List Access} (saw : tally.Saw seen) (same : seen.Perm wanted) :
    tally.Saw wanted := by
  refine ⟨by rw [saw.count, same.length_eq], ?_, ?_⟩
  · rw [saw.none_]
    constructor
    · rintro rfl
      exact same.nil_eq.symm
    · rintro rfl
      exact same.eq_nil
  · intro last isLast
    obtain ⟨⟨access, listed, latest⟩, greatest⟩ := saw.last last isLast
    exact ⟨⟨access, same.mem_iff.mp listed, latest⟩, fun other among => greatest other (same.mem_iff.mpr among)⟩

theorem Tally.Saw.lastAccess_iff {tally : Tally} {seen : List Access} (saw : tally.Saw seen) (last : Millis) :
    tally.lastAccess = some last ↔ ∃ access ∈ seen, access.at_ = last ∧ ∀ other ∈ seen, other.at_ ≤ last := by
  constructor
  · intro isLast
    obtain ⟨⟨access, listed, latest, -⟩, greatest⟩ := saw.last last isLast
    exact ⟨access, listed, latest, greatest⟩
  · rintro ⟨access, listed, rfl, greatest⟩
    cases found : tally.lastAccess with
    | none =>
      rw [saw.none_.mp found] at listed
      cases listed
    | some previous =>
      obtain ⟨⟨other, among, rfl, -⟩, upper⟩ := saw.last previous found
      rw [UInt64.le_antisymm (greatest other among) (upper access listed)]

/-- Tallies that count the versions and the accesses of each pair give an exact report. -/
theorem buildReport_exact {tallies : Tallies} {since evaluatedAt : Millis}
    (versions : ∀ pair, (tallies.at_ pair).claimCount = (versionKeys claims pair).length)
    (saw : ∀ pair, (tallies.at_ pair).Saw (within accesses since evaluatedAt pair)) :
    (buildReport tallies since evaluatedAt).Exact claims accesses since evaluatedAt := by
  have stored : ∀ pair, (tallies.at_ pair).claimCount ≠ 0 ↔ pair ∈ (claims.map claimPair).dedup := by
    intro pair
    rw [versions, ne_eq, List.length_eq_zero_iff, versionKeys, List.dedup_eq_nil, List.map_eq_nil_iff,
      List.filter_eq_nil_iff]
    simp
  have idle : ∀ pair, (tallies.at_ pair).accessCount = 0 ↔ within accesses since evaluatedAt pair = [] := by
    intro pair
    rw [(saw pair).count, List.length_eq_zero_iff]
  have listed : ∀ verdict, (((buildReport tallies since evaluatedAt).pairs.filter
      fun status => status.verdict = verdict).map PairStatus.pair).Perm ((claims.map claimPair).dedup.filter
        fun pair => (within accesses since evaluatedAt pair = [] ↔ verdict = .candidate)) := by
    intro verdict
    have distinct : (tallies.toList.map Prod.fst).Nodup := by
      refine List.pairwise_map.mpr (Std.ExtTreeMap.distinct_keys_toList.imp fun different same => ?_)
      exact different (Std.LawfulEqOrd.compare_eq_iff_eq.mpr same)
    rw [filter_verdict, List.perm_ext_iff_of_nodup (distinct.sublist (List.filter_sublist.map _))
      ((List.nodup_dedup _).filter _)]
    intro pair
    have counted := mem_toList_iff tallies pair
      (fun tally => tally.claimCount ≠ 0 ∧ (tally.accessCount = 0 ↔ verdict = .candidate)) fun absent => absent.1 rfl
    rw [stored, idle] at counted
    rw [List.mem_filter, decide_eq_true_eq, ← counted, List.mem_map]
    constructor
    · rintro ⟨⟨_, tally⟩, among, rfl⟩
      obtain ⟨entry, wanted⟩ := List.mem_filter.mp among
      exact ⟨tally, entry, of_decide_eq_true wanted⟩
    · rintro ⟨tally, entry, wanted⟩
      exact ⟨(pair, tally), List.mem_filter.mpr ⟨entry, decide_eq_true wanted⟩, rfl⟩
  refine ⟨⟨rfl, rfl⟩, ?_, ?_, ?_⟩
  · simpa [RemovalReport.candidates, unreferenced] using listed .candidate
  · simpa [RemovalReport.retained, referenced] using listed .retained
  · intro status reported
    obtain ⟨⟨pair, tally⟩, entry, isStatus⟩ := List.mem_filterMap.mp reported
    have here : tallies.at_ pair = tally := by
      rw [Tallies.at_, Std.ExtTreeMap.mem_toList_iff_getElem?_eq_some.mp entry]
      rfl
    have versions := versions pair
    have saw := saw pair
    rw [here] at versions saw
    have counted : tally.claimCount ≠ 0 := by
      intro none_
      simp [pairStatus, none_] at isStatus
    rw [pairStatus, if_neg counted] at isStatus
    cases isStatus
    exact ⟨versions, saw.count, saw.lastAccess_iff⟩

/-- The report of an engine whose rows are those of two logs is exact. -/
theorem View.Logs.removalReport (ordered : view.Ordered) (logs : view.Logs claims accesses) (since evaluatedAt : Millis) :
    ∃ report, view.removalReport since evaluatedAt = .ok report ∧ report.Exact claims accesses since evaluatedAt := by
  obtain ⟨rows, stored, scanned, keys, once, versions⟩ := logs.scan_claims ordered
  obtain ⟨rows', seen, scanned', keys', distinct, sorted, mem⟩ := logs.scan_accesses ordered since
  obtain ⟨counted, counting, counts⟩ := tallyClaims_ok stored ∅
  have zero : ∀ pair, (∅ : Tallies).at_ pair = .zero := fun _ => rfl
  obtain ⟨tallied, tallying, kept, saw⟩ := tallyAccesses_ok evaluatedAt sorted counted (fun _ => [])
    (by
      intro pair
      rw [counts pair, zero]
      exact ⟨rfl, by simp [Tally.zero], nofun⟩)
  refine ⟨buildReport tallied since evaluatedAt, ?_, buildReport_exact ?_ ?_⟩
  · rw [View.removalReport, scanned, except_ok_bind, keys, counting, except_ok_bind, scanned', except_ok_bind, keys',
      tallying]
    rfl
  · intro pair
    rw [kept, counts, zero, ← countP_versions once versions]
    exact Nat.zero_add _
  · exact fun pair => (saw pair).perm (within_perm distinct mem pair)

/-! ## Histories -/

/-- A mutation that the engine writes: a version of a claim, an access, or a row of another keyspace. -/
inductive Entry where
  | version (claim : Claim) (value : Bytes)
  | seen (access : Access)
  | other (operation : Kv.Mutation) (apart : ∀ key, operation.key ≠ storageKey .claims key ∧
      operation.key ≠ storageKey .access key)

namespace Entry

/-- The mutation of an entry (`native.rs:288-309`, `native.rs:392-411`). -/
def operation : Entry → Kv.Mutation
  | .version claim value => put .claims claim.key value
  | .seen access => put .access access.key []
  | .other operation _ => operation

def claim? : Entry → Option Claim
  | .version claim _ => some claim
  | _ => none

def access? : Entry → Option Access
  | .seen access => some access
  | _ => none

end Entry

theorem isSome_put (rows : Rows) (space other : Keyspace) (k value key : Bytes) :
    (rows.apply (put space k value))[storageKey other key]?.isSome ↔
      space = other ∧ k = key ∨ rows[storageKey other key]?.isSome := by
  rw [Rows.getElem?_put]
  split
  next same => exact iff_of_true rfl (.inl same)
  next differs => exact (or_iff_right differs).symm

/-- A history has left the rows of its claims and of its accesses. -/
theorem logs_ofHistory (history : List Entry) : (Rows.ofHistory (history.map Entry.operation)).view.Logs
    (history.filterMap Entry.claim?) (history.filterMap Entry.access?) := by
  have read : ∀ (rows : Rows) (space : Keyspace) (key : Bytes),
      (∃ value, rows.view.read space key = .ok (some value)) ↔ rows[storageKey space key]?.isSome := by
    intro rows space key
    simp only [View.read_ok_iff, Rows.view, Except.ok.injEq, Option.isSome_iff_exists]
  induction history using List.reverseRecOn with
  | nil => exact ⟨by simp [read, Rows.ofHistory], by simp [read, Rows.ofHistory]⟩
  | append_singleton history entry ih =>
    obtain ⟨claims, accesses⟩ := ih
    simp only [read] at claims accesses
    have after : Rows.ofHistory ((history ++ [entry]).map Entry.operation) =
        (Rows.ofHistory (history.map Entry.operation)).apply entry.operation := by
      rw [List.map_append, Rows.ofHistory_append]
      rfl
    rw [after, List.filterMap_append, List.filterMap_append]
    refine ⟨fun key => ?_, fun key => ?_⟩
    · rw [read]
      cases entry with
      | version claim value =>
        rw [Entry.operation, isSome_put, claims]
        change _ ↔ ∃ other ∈ _ ++ [claim], other.key = key
        simp only [List.mem_append, List.mem_singleton, or_and_right, exists_or, exists_eq_left, true_and]
        exact or_comm
      | seen access =>
        rw [Entry.operation, isSome_put, claims]
        change _ ↔ ∃ other ∈ _ ++ ([] : List Claim), other.key = key
        simp only [List.append_nil, reduceCtorEq, false_and, false_or]
      | other operation apart =>
        rw [Entry.operation, Rows.getElem?_apply, if_neg (apart key).1, claims]
        change _ ↔ ∃ other ∈ _ ++ ([] : List Claim), other.key = key
        rw [List.append_nil]
    · rw [read]
      cases entry with
      | version claim value =>
        rw [Entry.operation, isSome_put, accesses]
        change _ ↔ ∃ other ∈ _ ++ ([] : List Access), other.key = key
        simp only [List.append_nil, reduceCtorEq, false_and, false_or]
      | seen access =>
        rw [Entry.operation, isSome_put, accesses]
        change _ ↔ ∃ other ∈ _ ++ [access], other.key = key
        simp only [List.mem_append, List.mem_singleton, or_and_right, exists_or, exists_eq_left, true_and]
        exact or_comm
      | other operation apart =>
        rw [Entry.operation, Rows.getElem?_apply, if_neg (apart key).2, accesses]
        change _ ↔ ∃ other ∈ _ ++ ([] : List Access), other.key = key
        rw [List.append_nil]

section

variable [Kv.Platform] {trace : List Kv.Event} {state : Kv.State} {history : List Entry}

/-- `removal_report` of an engine (`native.rs:97-130`). -/
def NativeEngine.removalReport (engine : NativeEngine) (since evaluatedAt : Millis) : Except Error RemovalReport :=
  engine.view.removalReport since evaluatedAt

/-- The engine reads the rows that its history has left. -/
theorem view_of_run (run : Kv.Run Kv.Plain trace state) : (⟨state.db⟩ : NativeEngine).view =
    (Rows.ofHistory (Kv.accepted trace)).view := by
  obtain ⟨stored, pending, records⟩ := run.records
  have get := Rows.view_get records
  have scan := Rows.view_scan records
  rw [NativeEngine.view, Rows.view]
  congr 1
  · exact funext get
  · exact funext fun start => funext fun stop => scan start stop

/-- In every state of every run with a history of claims, accesses and rows of other keyspaces, the report of an
interval is exact. -/
theorem removal_report_exact (run : Kv.Run Kv.Plain trace state)
    (written : Kv.accepted trace = history.map Entry.operation) (since evaluatedAt : Millis) :
    ∃ report, (⟨state.db⟩ : NativeEngine).removalReport since evaluatedAt = .ok report ∧
      report.Exact (history.filterMap Entry.claim?) (history.filterMap Entry.access?) since evaluatedAt := by
  rw [NativeEngine.removalReport, view_of_run run, written]
  exact (logs_ofHistory history).removalReport (Rows.ordered_view _) since evaluatedAt

end

/-! A claim, and an access to it at 5 -/

def heldClaim : Claim :=
  { subject := .lit "s" (Eq.refl true), predicate := .lit "p" (Eq.refl true), object := "o", validFrom := 1,
    validTo := none, txTime := 1, producer := ⟨"a", none, none⟩, confidence := none, supersedes := none,
    signature := none, tier := .localTier, promotionState := .unpromoted }

def earlyAccess : Access := ⟨5, (.lit "r" (Eq.refl true)), heldClaim.subject, heldClaim.predicate⟩

private def observing : List Kv.Step :=
  [.quiet (.writeOwned ⟨[(Entry.version heldClaim []).operation]⟩ .authoritative),
    .quiet (.writeOwned ⟨[(Entry.seen earlyAccess).operation]⟩ .buffered)]

private theorem plain_observing : ∀ w db op result, .run w.oracle op ∈ observing →
    Kv.succeeds w db op result = true → Kv.Plain w db op result := by
  intro w db op result member isOk
  refine ⟨eq_of_beq isOk, .inl ?_⟩
  simp only [observing, Kv.Step.quiet, List.mem_cons, Kv.Step.run.injEq, List.not_mem_nil, or_false] at member
  rcases member with ⟨-, rfl⟩ | ⟨-, rfl⟩
  · rfl
  · rfl

set_option maxRecDepth 100000 in
private theorem exists_early : ∃ trace state, Kv.Run Kv.Plain trace state ∧
    Kv.accepted trace = [Entry.version heldClaim [], .seen earlyAccess].map Entry.operation := by
  obtain ⟨trace, state, run, isHistory⟩ := Kv.exists_run
    (fun trace _ => Kv.accepted trace == [Entry.version heldClaim [], .seen earlyAccess].map Entry.operation)
    plain_observing (by decide +kernel)
  exact ⟨trace, state, run, eq_of_beq isHistory⟩

theorem removal_report_exact_early : ∃ trace state, Kv.Run Kv.Plain trace state ∧
    ∃ report, (⟨state.db⟩ : NativeEngine).removalReport 5 20 = .ok report ∧ report.Exact [heldClaim] [earlyAccess] 5 20 := by
  obtain ⟨trace, state, run, written⟩ := exists_early
  exact ⟨trace, state, run, removal_report_exact run written 5 20⟩

/-- An access before the interval is at or before the evaluation, and it is not the last access of the report. -/
theorem last_access_of_interval : ¬ ∀ (trace : List Kv.Event) (state : Kv.State) (history : List Entry)
    (since evaluatedAt : Millis) (report : RemovalReport), Kv.Run Kv.Plain trace state →
      Kv.accepted trace = history.map Entry.operation →
      (⟨state.db⟩ : NativeEngine).removalReport since evaluatedAt = .ok report → ∀ status ∈ report.pairs,
      ∀ access ∈ history.filterMap Entry.access?, access.pair = status.pair → access.at_ ≤ evaluatedAt →
        status.lastAccess ≠ none := by
  intro reported
  obtain ⟨trace, state, run, written⟩ := exists_early
  obtain ⟨report, isReport, exact_⟩ :=
    (logs_ofHistory [Entry.version heldClaim [], .seen earlyAccess]).removalReport (Rows.ordered_view _) 10 20
  rw [← written, ← view_of_run run] at isReport
  have idle : (report.candidates.map PairStatus.pair).Perm [claimPair heldClaim] := exact_.candidates
  obtain ⟨status, isCandidate, pair⟩ := List.mem_map.mp (idle.mem_iff.mpr (List.mem_singleton_self _))
  have listed : status ∈ report.pairs := (List.mem_filter.mp isCandidate).1
  have last := (exact_.evidence status listed).lastAccess
  have before : status.lastAccess = none := by
    cases found : status.lastAccess with
    | none => rfl
    | some last' =>
      obtain ⟨access, among, -⟩ := (last last').mp found
      rw [pair] at among
      exact absurd among List.not_mem_nil
  exact reported trace state _ 10 20 report run written isReport status listed earlyAccess (List.mem_singleton_self _)
    pair.symm (by decide) before

end Vyrm.Store
