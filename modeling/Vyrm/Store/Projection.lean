import Vyrm.Core.Data
import Vyrm.Store.Native.View

/-!
# The current-state projection

`crates/vyrm-store/src/projection.rs`, and the operations on the projection that every
engine inherits (`crates/vyrm-store/src/engine.rs`). An operation is a program of single
storage reads and writes, so that it can be run alone over an engine or step by step
among others.
-/

namespace Vyrm.Store
open Lib Vyrm.Core Serde

/-! ## The projection -/

/-- `ProjectionStatus` (`projection.rs:39-45`). -/
inductive ProjectionStatus where
  | active
  | quarantined (at_ : Millis) (differences : List String)
  deriving DecidableEq

/-- `GroundedStamp` (`projection.rs:50-54`). -/
structure GroundedStamp where
  at_ : Millis
  sequence : UInt64
  digest : UInt64
  deriving DecidableEq

/-- `RebuildOutcome` (`projection.rs:58-62`). -/
structure RebuildOutcome where
  from_ : UInt64
  to_ : UInt64
  applied : Nat
  deriving DecidableEq

/-- `GroundingReport` (`projection.rs:66-70`). -/
inductive GroundingReport where
  | grounded (stamp : GroundedStamp)
  | divergence (differences : List String)
  deriving DecidableEq

/-- `StoredProjection` (`projection.rs:76-81`). -/
structure StoredProjection where
  watermark : UInt64
  status : ProjectionStatus
  lastGrounded : Option GroundedStamp
  entries : List Claim
  deriving DecidableEq

/-- `CurrentProjection` (`projection.rs:86-91`). -/
structure CurrentProjection where
  watermark : UInt64
  status : ProjectionStatus
  lastGrounded : Option GroundedStamp
  entries : OrdMap (Subject × Predicate) Claim

/-- `==` of `f32`: no value equals a NaN, and the two zeros are equal. -/
def f32Eq (a b : F32) : Bool :=
  let isNan (value : F32) : Bool := 0x7f800000 < (value &&& 0x7fffffff)
  !isNan a && !isNan b && (a = b || (a &&& 0x7fffffff = 0 && b &&& 0x7fffffff = 0))

/-- The derived `==` of claims. -/
def claimEq (a b : Claim) : Bool :=
  { a with confidence := none } = { b with confidence := none } &&
    match a.confidence, b.confidence with
    | none, none => true
    | some a, some b => f32Eq a b
    | _, _ => false

namespace CurrentProjection

/-- `empty` (`projection.rs:94-101`). -/
def empty : CurrentProjection :=
  { watermark := 0, status := .active, lastGrounded := none, entries := ∅ }

/-- `(claim.valid_from, claim.tx_time) < (existing.valid_from, existing.tx_time)`. -/
def older (claim existing : Claim) : Bool :=
  claim.validFrom < existing.validFrom ||
    (claim.validFrom = existing.validFrom && claim.txTime < existing.txTime)

/-- One turn of `apply` (`projection.rs:129-143`). -/
def applyOne (entries : OrdMap (Subject × Predicate) Claim) (claim : Claim) :
    OrdMap (Subject × Predicate) Claim :=
  match entries[(claim.subject, claim.predicate)]? with
  | some existing =>
    if older claim existing then entries else entries.insert (claim.subject, claim.predicate) claim
  | none => entries.insert (claim.subject, claim.predicate) claim

/-- `apply` (`projection.rs:128-144`). -/
def apply (projection : CurrentProjection) (claims : List Claim) : CurrentProjection :=
  { projection with entries := claims.foldl applyOne projection.entries }

/-- `to_stored` (`projection.rs:159-166`). -/
def toStored (projection : CurrentProjection) : StoredProjection :=
  { watermark := projection.watermark, status := projection.status,
    lastGrounded := projection.lastGrounded, entries := projection.entries.values }

/-- `from_stored` (`projection.rs:168-177`). -/
def fromStored (stored : StoredProjection) : CurrentProjection :=
  CurrentProjection.apply
    { watermark := stored.watermark, status := stored.status, lastGrounded := stored.lastGrounded,
      entries := ∅ }
    stored.entries

/-- One turn of the digest (`projection.rs:185-188`). -/
def hashByte (hash : UInt64) (byte : UInt8) : UInt64 :=
  (hash ^^^ byte.toUInt64) * 0x00000100000001b3

section

variable [Serde Claim] [Serde StoredProjection]

/-- `to_stored_bytes` (`projection.rs:146-148`). -/
def toStoredBytes (projection : CurrentProjection) : Bytes := toVec projection.toStored

/-- `from_stored_bytes` (`projection.rs:150-152`). -/
def fromStoredBytes (bytes : Bytes) : Except Error CurrentProjection := do
  return fromStored (← json (fromSlice bytes))

/-- `serde_json::to_vec` of a list: `[`, the elements between commas, `]`. -/
def entriesBytes (entries : List Claim) : Bytes :=
  0x5b :: ((entries.map toVec).intersperse [0x2c]).flatten ++ [0x5d]

/-- `digest` (`projection.rs:182-190`). -/
def digest (projection : CurrentProjection) : UInt64 :=
  (entriesBytes projection.toStored.entries).foldl hashByte 0xcbf29ce484222325

end

/-- `difference` (`projection.rs:195-217`). -/
def difference (recomputed incremental : OrdMap (Subject × Predicate) Claim) : List String :=
  (recomputed.toList.filterMap fun ((subject, predicate), claim) =>
    let shownSubject := subject.asStr
    let shownPredicate := predicate.asStr
    match incremental[(subject, predicate)]? with
    | none => some s!"{shownSubject}/{shownPredicate}: missing from projection"
    | some held =>
      if claimEq held claim then none
      else
        let heldObject := debugText held.object
        let heldFrom := held.validFrom
        let heldTx := held.txTime
        let claimObject := debugText claim.object
        let claimFrom := claim.validFrom
        let claimTx := claim.txTime
        some (s!"{shownSubject}/{shownPredicate}: projection holds {heldObject} at ({heldFrom}, {heldTx}), " ++
          s!"recomputation holds {claimObject} at ({claimFrom}, {claimTx})")) ++
  ((incremental.toList.map Prod.fst).filter fun key => ! recomputed.contains key).map
    fun (subject, predicate) =>
      let shownSubject := subject.asStr
      let shownPredicate := predicate.asStr
      s!"{shownSubject}/{shownPredicate}: absent from recomputation"

end CurrentProjection

/-! ## Operations -/

/-- An operation on the projection: what it reads and writes, one access at a time. An access that
fails ends the operation with its error. -/
inductive Program (α : Type) where
  | done (result : Except Error α)
  | getProjection (next : Option Bytes → Program α)
  | sequence (next : UInt64 → Program α)
  | claimsInRange (from_ to_ : UInt64) (next : List Claim → Program α)
  | putProjection (bytes : Bytes) (durability : Kv.Durability) (next : Program α)

namespace Engine

variable [Serde Claim] [Serde StoredProjection] {α : Type}

/-- `current_projection` (`engine.rs:198-203`). -/
def currentProjection (next : CurrentProjection → Program α) : Program α :=
  .getProjection fun
    | some bytes =>
      match CurrentProjection.fromStoredBytes bytes with
      | .ok projection => next projection
      | .error e => .done (.error e)
    | none => next .empty

/-- The refusal of a quarantined projection (`engine.rs:213-217`, `247-251`). -/
def refused (at_ : Millis) : Error :=
  .quarantined s!"projection `current` quarantined at {at_}; reset to recover"

/-- `rebuild_current` (`engine.rs:211-231`). -/
def rebuildCurrent : Program RebuildOutcome :=
  currentProjection fun projection =>
    match projection.status with
    | .quarantined at_ _ => .done (.error (refused at_))
    | .active =>
      let from_ := projection.watermark
      .sequence fun to_ =>
      .claimsInRange from_ to_ fun interval =>
      let projection := { projection.apply interval with watermark := to_ }
      .putProjection projection.toStoredBytes .buffered
        (.done (.ok { from_, to_, applied := interval.length }))

/-- `ground_current` (`engine.rs:239-283`). -/
def groundCurrent (at_ : Millis) : Program GroundingReport :=
  currentProjection fun projection =>
    match projection.status with
    | .quarantined at_ _ => .done (.error (refused at_))
    | .active =>
      .claimsInRange 0 projection.watermark fun claims =>
      let recomputed := CurrentProjection.empty.apply claims
      let differences := CurrentProjection.difference recomputed.entries projection.entries
      if differences = [] then
        let stamp : GroundedStamp :=
          { at_, sequence := projection.watermark, digest := projection.digest }
        .putProjection { projection with lastGrounded := some stamp }.toStoredBytes .buffered
          (.done (.ok (.grounded stamp)))
      else
        .putProjection { projection with status := .quarantined at_ differences }.toStoredBytes
          .authoritative (.done (.ok (.divergence differences)))

/-- `reset_current` (`engine.rs:290-307`). -/
def resetCurrent : Program RebuildOutcome :=
  .sequence fun to_ =>
  .claimsInRange 0 to_ fun interval =>
  let projection := { CurrentProjection.empty.apply interval with watermark := to_ }
  .putProjection projection.toStoredBytes .buffered
    (.done (.ok { from_ := 0, to_, applied := interval.length }))

end Engine

/-- `get` (`projection.rs:104-113`). -/
def CurrentProjection.get (projection : CurrentProjection) (subject : Subject) (predicate : Predicate) :
    Except Error (Option Claim) :=
  match projection.status with
  | .quarantined at_ _ => .error (Engine.refused at_)
  | .active => .ok projection.entries[(subject, predicate)]?

end Vyrm.Store
