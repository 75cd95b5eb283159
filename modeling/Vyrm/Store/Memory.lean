import Vyrm.Core.Runtime.Preview
import Vyrm.Core.Temporal
import Vyrm.Core.Key.Order
import Vyrm.Store.Commit

/-!
# The memory engine

`MemoryClaims` (`crates/vyrm-core/src/reference.rs`) and `MemoryEngine`
(`crates/vyrm-store/src/engine.rs`). An operation that fails keeps whatever it has
changed before it failed, so operations return the state together with the result.
Projections, snapshot leases and the count of observed reads are left out: nothing
here reads or writes them.
-/

namespace Vyrm.Store
open Lib Vyrm.Core

/-- `MemoryClaims` (`reference.rs:24-26`): valid claims, each under its key. -/
structure MemoryClaims where
  rows : OrdMap Bytes Claim
  keyed : ∀ (key : Bytes) (claim : Claim), rows[key]? = some claim →
    claim.key = key ∧ claim.validate = .ok ()

namespace MemoryClaims

def new : MemoryClaims := ⟨∅, by simp⟩

theorem keyed_insert (claims : MemoryClaims) {claim : Claim} (valid : claim.validate = .ok ())
    (key : Bytes) (other : Claim) (found : (claims.rows.insert claim.key claim)[key]? = some other) :
    other.key = key ∧ other.validate = .ok () := by
  by_cases same : claim.key = key
  · subst same
    rw [OrdMap.getElem?_insert_self, Option.some.injEq] at found
    subst found
    exact ⟨rfl, valid⟩
  · rw [OrdMap.getElem?_insert_of_ne same] at found
    exact claims.keyed key other found

/-- `insert` (`reference.rs:33-38`). -/
def insert (claims : MemoryClaims) (claim : Claim) : Except Core.Error MemoryClaims :=
  match valid : claim.validate with
  | .error e => .error e
  | .ok () => .ok ⟨claims.rows.insert claim.key claim, claims.keyed_insert valid⟩

theorem insert_valid (claims : MemoryClaims) {claim : Claim} (valid : claim.validate = .ok ()) :
    ∃ claims', claims.insert claim = .ok claims' ∧ claims'.rows = claims.rows.insert claim.key claim := by
  unfold insert
  split
  · rename_i e rejected
    rw [valid] at rejected
    cases rejected
  · exact ⟨_, rfl, rfl⟩

/-- `scan` (`reference.rs:53-59`). -/
def scan (claims : MemoryClaims) (subject : Subject) (predicate : Predicate) (from_ : Bytes) :
    List Claim :=
  (claims.rows.range from_ (prefixEnd (versionPrefix subject predicate))).map Prod.snd

/-- `versions_at_or_before` (`reference.rs:65-72`). -/
def versionsAtOrBefore (claims : MemoryClaims) (subject : Subject) (predicate : Predicate)
    (asOf : Millis) : List Claim :=
  claims.scan subject predicate (seekKey subject predicate asOf)

/-- `all_versions` (`reference.rs:74-80`). -/
def allVersions (claims : MemoryClaims) (subject : Subject) (predicate : Predicate) : List Claim :=
  claims.scan subject predicate (versionPrefix subject predicate)

/-- `as_of` (`temporal.rs:76-84`). -/
def asOf (claims : MemoryClaims) (subject : Subject) (predicate : Predicate) (at_ : Millis) :
    Option Claim :=
  resolveAsOf (claims.versionsAtOrBefore subject predicate at_) at_

end MemoryClaims

/-- `MemoryEngineInner` (`engine.rs:414-433`). -/
structure MemoryEngine where
  claims : MemoryClaims
  order : List Claim
  runtimeChanges : List RuntimeChange
  runtimeRecords : OrdMap (ScopeId × RuntimeRef) RuntimeRecord
  runtimeRelations : OrdMap (ScopeId × RuntimeRef) RuntimeRelation
  runtimeVectors : OrdMap (ScopeId × RuntimeRef) RuntimeVector
  runtimeSeries : OrdMap (ScopeId × RuntimeRef) RuntimeSeriesSample
  runtimeGeo : OrdMap (ScopeId × RuntimeRef) RuntimeGeo
  runtimeObjects : OrdMap (ScopeId × RuntimeRef) ObjectReference
  runtimeOutbox : OrdMap UInt64 ProjectionWork
  runtimeAudit : OrdMap String AuditEnvelope
  runtimeLastAuditDigest : Option String
  runtimeCommits : OrdMap String RuntimeCommitOutcome
  runtimeSchemas : OrdMap ScopeId RuntimeSchemaRegistry

namespace MemoryEngine

/-- `MemoryEngine::new` (`engine.rs:436-438`). -/
def new : MemoryEngine :=
  { claims := MemoryClaims.new, order := [], runtimeChanges := [], runtimeRecords := ∅,
    runtimeRelations := ∅, runtimeVectors := ∅, runtimeSeries := ∅, runtimeGeo := ∅,
    runtimeObjects := ∅, runtimeOutbox := ∅, runtimeAudit := ∅, runtimeLastAuditDigest := none,
    runtimeCommits := ∅, runtimeSchemas := ∅ }

/-! ## Claims -/

/-- The loop that inserts claims (`engine.rs:490-493`, `778-781`). -/
def insertEach (engine : MemoryEngine) : List Claim → Except Error Unit × MemoryEngine
  | [] => (.ok (), engine)
  | claim :: rest =>
    match engine.claims.insert claim with
    | .error e => (.error (.kernel e), engine)
    | .ok claims => insertEach { engine with claims, order := engine.order ++ [claim] } rest

/-- Valid claims are all inserted. -/
theorem insertEach_valid (engine : MemoryEngine) {claims : List Claim}
    (valid : ∀ claim ∈ claims, claim.validate = .ok ()) :
    ∃ stored, engine.insertEach claims =
        (.ok (), { engine with claims := stored, order := engine.order ++ claims }) ∧
      stored.rows = OrdMap.insertAll Claim.key engine.claims.rows claims := by
  induction claims generalizing engine with
  | nil => exact ⟨engine.claims, by simp [insertEach], rfl⟩
  | cons claim rest ih =>
    obtain ⟨next, inserted, rows⟩ := engine.claims.insert_valid (valid claim (by simp))
    obtain ⟨stored, done, all⟩ := ih { engine with claims := next, order := engine.order ++ [claim] }
      fun other h => valid other (by simp [h])
    refine ⟨stored, ?_, ?_⟩
    · rw [insertEach, inserted]
      simpa using done
    · rw [all, rows]
      rfl

/-- `append_batch` (`engine.rs:482-499`). -/
def appendBatch (engine : MemoryEngine) (claims : List Claim) : Except Error AppendOutcome × MemoryEngine :=
  match kernel (claims.forM Claim.validate) with
  | .error e => (.error e, engine)
  | .ok () =>
    let start := UInt64.ofNat engine.order.length
    match engine.insertEach claims with
    | (.error e, engine) => (.error e, engine)
    | (.ok (), engine) =>
      (.ok { firstSequence := start + 1, lastSequence := start + UInt64.ofNat claims.length,
             count := claims.length }, engine)

/-- `sequence` (`engine.rs:501-503`). -/
def sequence (engine : MemoryEngine) : UInt64 := UInt64.ofNat engine.order.length

/-- `claims_in_range` (`engine.rs:505-512`). -/
def claimsInRange (engine : MemoryEngine) (from_ to_ : UInt64) : List Claim :=
  let stop := min to_.toNat engine.order.length
  if stop ≤ from_.toNat then [] else (engine.order.take stop).drop from_.toNat

/-- `as_of` of the engine. -/
def asOf (engine : MemoryEngine) (subject : Subject) (predicate : Predicate) (at_ : Millis) : Option Claim :=
  engine.claims.asOf subject predicate at_

/-- `Engine::assert` (`engine.rs:178-189`). -/
def assert (engine : MemoryEngine) (claim : Claim) : Except Error AppendOutcome × MemoryEngine :=
  let candidates := engine.claims.versionsAtOrBefore claim.subject claim.predicate claim.validFrom
  match resolveAsOf candidates claim.validFrom with
  | some previous =>
    if previous.validFrom < claim.validFrom then
      match supersede previous claim with
      | .error e => (.error (.kernel e), engine)
      | .ok (retirement, successor) => engine.appendBatch [retirement, successor]
    else engine.appendBatch [claim]
  | none => engine.appendBatch [claim]

/-! ## Commits -/

/-- What of a scope is stored. -/
def ofScope {α : Type} (scope : ScopeId) (stored : OrdMap (ScopeId × RuntimeRef) α) : List α :=
  (stored.toList.filter fun entry => entry.1.1 = scope).map Prod.snd

/-- The checks of `commit_runtime`, which come before its first change (`engine.rs:676-778`). -/
def checkCommit (engine : MemoryEngine) (commit : RuntimeCommit) : Except Error Unit := do
  kernel commit.validate
  let start := UInt64.ofNat engine.runtimeChanges.length
  if start ≠ commit.expectedCursor then throw (.runtimeConflict commit.expectedCursor start)
  let effective ← effectiveSchema engine.runtimeSchemas[commit.scope]? commit
  kernel (effective.validateObjects commit.mutations (ofScope commit.scope engine.runtimeRecords)
    (ofScope commit.scope engine.runtimeRelations))
  checkReferences (fun reference => .ok (engine.runtimeRecords.contains (commit.scope, reference))) commit
  kernel ((commitClaims commit).forM Claim.validate)

/-- What a mutation stores beside the log (`engine.rs:818-862`). -/
def store (scope : ScopeId) (engine : MemoryEngine) (mutation : RuntimeMutation) : MemoryEngine :=
  match mutation with
  | .schema registry =>
    { engine with runtimeSchemas := engine.runtimeSchemas.insert scope registry }
  | .record record =>
    { engine with runtimeRecords := engine.runtimeRecords.insert (scope, record.reference) record }
  | .relation relation =>
    { engine with runtimeRelations :=
        engine.runtimeRelations.insert (scope, relation.reference) relation }
  | .vector vector =>
    { engine with runtimeVectors := engine.runtimeVectors.insert (scope, vector.reference) vector }
  | .seriesSample sample =>
    { engine with runtimeSeries := engine.runtimeSeries.insert (scope, sample.reference) sample }
  | .geo geo => { engine with runtimeGeo := engine.runtimeGeo.insert (scope, geo.reference) geo }
  | .object object =>
    { engine with runtimeObjects := engine.runtimeObjects.insert (scope, object.reference) object }
  | .claim _ => engine
  | .event _ => engine

/-- The outcome of an accepted commit (`engine.rs:871-879`). -/
def outcome (commit : RuntimeCommit) (start claimStart : UInt64) (work : List ProjectionWork) :
    RuntimeCommitOutcome :=
  let claimCount := (commitClaims commit).length
  { commitId := commit.digest
    firstCursor := start + 1
    lastCursor := start + UInt64.ofNat commit.mutations.length
    count := commit.mutations.length
    firstClaimSequence := if 0 < claimCount then some (claimStart + 1) else none
    lastClaimSequence := if 0 < claimCount then some (claimStart + UInt64.ofNat claimCount) else none
    outboxCount := work.length }

/-- What `commit_runtime` does once every fallible step is done (`engine.rs:818-883`). -/
def publish (engine : MemoryEngine) (commit : RuntimeCommit) (changes : List RuntimeChange)
    (work : List ProjectionWork) (audit : AuditEnvelope) (outcome : RuntimeCommitOutcome) : MemoryEngine :=
  let engine := commit.mutations.foldl (store commit.scope) engine
  { engine with
    runtimeChanges := engine.runtimeChanges ++ changes
    runtimeOutbox := OrdMap.insertAll ProjectionWork.sourceCursor engine.runtimeOutbox work
    runtimeLastAuditDigest := some audit.digest
    runtimeAudit := engine.runtimeAudit.insert outcome.commitId audit
    runtimeCommits := engine.runtimeCommits.insert outcome.commitId outcome }

/-- `commit_runtime` from its first change on (`engine.rs:777-884`). -/
def applyCommit (engine : MemoryEngine) (commit : RuntimeCommit) :
    Except Error RuntimeCommitOutcome × MemoryEngine :=
  let commitId := commit.digest
  let start := UInt64.ofNat engine.runtimeChanges.length
  let claimStart := UInt64.ofNat engine.order.length
  match engine.insertEach (commitClaims commit) with
  | (.error e, engine) => (.error e, engine)
  | (.ok (), engine) =>
    let previousDigest := engine.runtimeChanges.getLast?.map (·.digest)
    match commitWork commit commitId start commit.mutations 0 with
    | .error e => (.error (.kernel e), engine)
    | .ok work =>
      let changes := commit.changesAfter commitId start previousDigest
      let lastCursor := start + UInt64.ofNat commit.mutations.length
      match AuditEnvelope.acceptedCommit commit commitId lastCursor engine.runtimeLastAuditDigest with
      | .error e => (.error (.kernel e), engine)
      | .ok audit =>
        let outcome := outcome commit start claimStart work
        (.ok outcome, engine.publish commit changes work audit outcome)

/-- `commit_runtime` (`engine.rs:675-884`). -/
def commitRuntime (engine : MemoryEngine) (commit : RuntimeCommit) :
    Except Error RuntimeCommitOutcome × MemoryEngine :=
  match engine.checkCommit commit with
  | .error e => (.error e, engine)
  | .ok () => engine.applyCommit commit

/-! ## Reading the log -/

/-- `memory_change_page` (`engine.rs:990-1022`). -/
def changePage (changes : List RuntimeChange) (head after : UInt64) (limit : Nat)
    (scope : Option ScopeId) : RuntimeChangePage :=
  if after = u64Max ∨ head ≤ after then
    { requestedAfter := after, throughCursor := after, headCursor := head, changes := [] }
  else
    let stop := min (min (after.toNat + limit) head.toNat) changes.length
    let selected := ((changes.take stop).drop after.toNat).filter fun change =>
      scope.all fun scope => scope = change.scope
    { requestedAfter := after, throughCursor := UInt64.ofNat stop, headCursor := head,
      changes := selected }

/-- `runtime_changes_since` (`engine.rs:886-905`). -/
def runtimeChangesSince (engine : MemoryEngine) (after : UInt64) (limit : Nat) (scope : Option ScopeId) :
    Except Error RuntimeChangePage :=
  if limit = 0 then .error (.substrate "runtime change page limit must be greater than zero")
  else .ok (changePage engine.runtimeChanges (UInt64.ofNat engine.runtimeChanges.length) after limit scope)

/-- `memory_read_stamp` (`engine.rs:943-958`). -/
def runtimeReadStamp (engine : MemoryEngine) (scope : ScopeId) : Except Error ReadStamp :=
  kernel (ReadStamp.new scope (engine.runtimeSchemas[scope]?.map (·.revision)) 0
    (UInt64.ofNat engine.runtimeChanges.length) (engine.runtimeChanges.getLast?.map (·.digest)))

/-- The last schema revision of a scope in a log (`engine.rs:974-983`). -/
def schemaRevision (changes : List RuntimeChange) (scope : ScopeId) : Option UInt64 :=
  ((changes.filter fun change => change.scope = scope).filterMap fun change =>
    match change.mutation with
    | .schema registry => some registry.revision
    | _ => none).getLast?

/-- `memory_validate_read_stamp` (`engine.rs:960-990`). -/
def validateReadStamp (engine : MemoryEngine) (read : ReadStamp) : Except Error Unit := do
  kernel read.validate
  if UInt64.ofNat engine.runtimeChanges.length < read.commitCursor then
    throw (.readStampUnavailable read.manifestId)
  let headDigest :=
    if read.commitCursor = 0 then none
    else engine.runtimeChanges[read.commitCursor.toNat - 1]?.map (·.digest)
  let schemaRevision := schemaRevision (engine.runtimeChanges.take read.commitCursor.toNat) read.scope
  if read.catalogRevision ≠ 0 ∨ read.headDigest ≠ headDigest ∨ read.schemaRevision ≠ schemaRevision then
    throw (.readStampMismatch read.manifestId)

/-- `runtime_read_changes` (`engine.rs:653-673`). -/
def runtimeReadChanges (engine : MemoryEngine) (read : ReadStamp) (after : UInt64) (limit : Nat) :
    Except Error RuntimeChangePage := do
  if limit = 0 then throw (.substrate "runtime change page limit must be greater than zero")
  engine.validateReadStamp read
  return changePage engine.runtimeChanges read.commitCursor after limit (some read.scope)

/-- `runtime_outbox_since` (`engine.rs:907-920`). -/
def runtimeOutboxSince (engine : MemoryEngine) (after : UInt64) (limit : Nat) :
    Except Error (List ProjectionWork) :=
  if limit = 0 then .error (.substrate "runtime outbox page limit must be greater than zero")
  else .ok (((engine.runtimeOutbox.range (saturatingSucc after) none).take limit).map Prod.snd)

end MemoryEngine

end Vyrm.Store
