import Mathlib.Data.Finset.Card
import Mathlib.Data.List.Dedup
import Vyrm.Lib.Fallible
import Vyrm.Lib.OrdMap
import Vyrm.Lib.Text

/-!
# Placement

`crates/vyrm-cluster/src/contract.rs`: the identifiers of a cluster, and where the replicas of a
shard are.
-/

namespace Vyrm.Cluster
open Lib

/-- `CLUSTER_CONTRACT_VERSION` (`contract.rs:7`). -/
def clusterContractVersion : Nat := 1

/-- `ClusterError` (`contract.rs:10-16`). -/
inductive ClusterError where
  | invalid (message : String)
  | denied (message : String)
  | unavailable (message : String)
  | notFound (message : String)
  deriving DecidableEq, Repr

/-- The types `string_id!` (`contract.rs:33-76`) is applied to. -/
inductive NameKind where
  | cluster
  | node
  | zone
  deriving DecidableEq, Repr

/-- The label a name type is declared with. -/
def NameKind.label : NameKind → String
  | cluster => "cluster id"
  | node => "node id"
  | zone => "zone id"

/-- `string_id!`: what `new` lets through. -/
structure Name (kind : NameKind) where
  asStr : String
  nonempty : asStr ≠ ""
  bounded : (utf8 asStr).length ≤ 128
  free : (0 : UInt8) ∉ utf8 asStr

abbrev ClusterId := Name .cluster
abbrev NodeId := Name .node
abbrev ZoneId := Name .zone

namespace Name

variable {kind : NameKind}

theorem asStr_inj {a b : Name kind} : a.asStr = b.asStr ↔ a = b := by
  obtain ⟨a, _, _, _⟩ := a
  obtain ⟨b, _, _, _⟩ := b
  simp

instance : DecidableEq (Name kind) := fun _ _ => decidable_of_iff _ asStr_inj

/-- A name that is written as a literal. -/
def lit (value : String) (valid : decide (value ≠ "" ∧ (utf8 value).length ≤ 128 ∧ (0 : UInt8) ∉ utf8 value) = true) :
    Name kind :=
  ⟨value, (of_decide_eq_true valid).1, (of_decide_eq_true valid).2.1, (of_decide_eq_true valid).2.2⟩

/-- `new` (`contract.rs:40-49`). -/
def new (kind : NameKind) (value : String) : Except ClusterError (Name kind) :=
  if valid : value ≠ "" ∧ (utf8 value).length ≤ 128 ∧ (0 : UInt8) ∉ utf8 value then
    .ok ⟨value, valid.1, valid.2.1, valid.2.2⟩
  else .error (.invalid s!"{kind.label} must contain 1..=128 non-NUL bytes")

def bytes (name : Name kind) : Bytes := utf8 name.asStr

theorem bytes_inj {a b : Name kind} : a.bytes = b.bytes ↔ a = b := by
  obtain ⟨a, _, _, _⟩ := a
  obtain ⟨b, _, _, _⟩ := b
  simp [bytes, utf8_inj]

instance : Keyed (Name kind) where
  parts name := [name.bytes]
  count := 1
  length_parts _ := rfl
  parts_inj _ _ same := bytes_inj.mp (List.cons.inj same).1

instance : Std.TransOrd (Name kind) := instTransOrdKeyed

end Name

/-- `ShardId` (`contract.rs:83`). -/
structure ShardId where
  value : UInt64
  deriving DecidableEq, Repr

/-- `ReplicaRole` (`contract.rs:87-90`). -/
inductive ReplicaRole where
  | voter
  | learner
  deriving DecidableEq, Repr

/-- `ReplicaPlacement` (`contract.rs:102-106`). -/
structure ReplicaPlacement where
  node : NodeId
  zone : ZoneId
  role : ReplicaRole
  deriving DecidableEq

/-- `PlacementPolicy` (`contract.rs:109-113`). -/
structure PlacementPolicy where
  voterCount : UInt8
  minimumVoterZones : UInt8
  maximumVotersPerZone : UInt8
  deriving DecidableEq, Repr

namespace PlacementPolicy

/-- `PlacementPolicy::validate` (`contract.rs:116-133`). -/
def validate (policy : PlacementPolicy) : Except ClusterError Unit :=
  if policy.voterCount < 3 ∨ policy.voterCount % 2 = 0 then
    .error (.invalid "voter_count must be an odd number of at least three")
  else if policy.minimumVoterZones < 2 ∨ policy.minimumVoterZones > policy.voterCount then
    .error (.invalid "minimum_voter_zones must be in 2..=voter_count")
  else if policy.maximumVotersPerZone = 0 then
    .error (.invalid "maximum_voters_per_zone must be non-zero")
  else .ok ()

/-- `quorum` (`contract.rs:135-137`). -/
def quorum (policy : PlacementPolicy) : Nat := (policy.voterCount / 2 + 1).toNat

/-- `tolerated_failures` (`contract.rs:139-141`). -/
def toleratedFailures (policy : PlacementPolicy) : Nat := ((policy.voterCount - 1) / 2).toNat

/-- A quorum outnumbers the failures that are tolerated, and one voter is none. -/
theorem toleratedFailures_lt_quorum {policy : PlacementPolicy} (valid : policy.validate = .ok ()) :
    policy.toleratedFailures < policy.quorum ∧ 1 < policy.quorum := by
  unfold validate at valid
  split at valid
  · cases valid
  · rename_i counted
    have three : ¬ policy.voterCount.toNat < 3 := fun few => counted (.inl (UInt8.lt_iff_toNat_lt.mpr few))
    have bound := policy.voterCount.toNat_lt
    rw [toleratedFailures, quorum, UInt8.toNat_div, UInt8.toNat_add, UInt8.toNat_div, UInt8.toNat_sub_of_le]
    · simp only [UInt8.reduceToNat]
      omega
    · rw [UInt8.le_iff_toNat_le]
      simp only [UInt8.reduceToNat]
      omega

end PlacementPolicy

/-- `ShardPlacement` (`contract.rs:145-152`). -/
structure ShardPlacement where
  contractVersion : Nat
  cluster : ClusterId
  shard : ShardId
  epoch : UInt64
  policy : PlacementPolicy
  replicas : List ReplicaPlacement
  deriving DecidableEq

namespace ShardPlacement

/-- `voters` (`contract.rs:204-208`). -/
def voters (placement : ShardPlacement) : List ReplicaPlacement :=
  placement.replicas.filter (·.role = .voter)

/-- `ShardPlacement::validate` (`contract.rs:155-202`). -/
def validate (placement : ShardPlacement) : Except ClusterError Unit :=
  let zones := placement.voters.map (·.zone)
  if placement.contractVersion ≠ clusterContractVersion ∨ placement.epoch = 0 then
    .error (.invalid "unsupported contract version or zero placement epoch")
  else do
    placement.policy.validate
    if ∃ pair ∈ placement.replicas.zip placement.replicas.tail, pair.2.node.bytes ≤ pair.1.node.bytes then
      .error (.invalid "replicas must be strictly ordered by unique node id")
    else if placement.voters.length ≠ placement.policy.voterCount.toNat then
      .error (.invalid s!"placement has {placement.voters.length} voters but policy requires {placement.policy.voterCount}")
    else if zones.dedup.length < placement.policy.minimumVoterZones.toNat then
      .error (.invalid "placement does not satisfy voter zone diversity")
    else if ∃ zone ∈ zones, placement.policy.maximumVotersPerZone.toNat < zones.count zone then
      .error (.invalid "placement exceeds maximum voters per zone")
    else .ok ()

theorem policy_of_validate {placement : ShardPlacement} (valid : placement.validate = .ok ()) :
    placement.policy.validate = .ok () := by
  simp only [validate, except_reject_ok, except_bind_ok] at valid
  obtain ⟨_, _, policy, _⟩ := valid
  exact policy

end ShardPlacement

end Vyrm.Cluster
