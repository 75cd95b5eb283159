import Vyrm.Core.Runtime.Graph

/-!
# Snapshot leases

`SnapshotHandle` of `crates/vyrm-core/src/runtime.rs`: a lease over a read stamp, under
the digest of what it leases.
-/

namespace Vyrm.Core
open Lib

/-- `SnapshotHandle` (`runtime.rs:466-473`). -/
structure SnapshotHandle where
  contractVersion : UInt16
  id : SnapshotId
  read : ReadStamp
  owner : String
  createdAt : Millis
  expiresAt : Millis
  deriving DecidableEq

namespace SnapshotHandle

/-- `vyrm-snapshot-handle-v1\0`. -/
def domain : Bytes :=
  [0x76, 0x79, 0x72, 0x6d, 0x2d, 0x73, 0x6e, 0x61, 0x70, 0x73, 0x68, 0x6f, 0x74, 0x2d, 0x68, 0x61, 0x6e,
   0x64, 0x6c, 0x65, 0x2d, 0x76, 0x31, 0x00]

/-- `identity` (`runtime.rs:535-542`). -/
def identity (read : ReadStamp) (owner : String) (createdAt expiresAt : Millis) : String :=
  sha256Hex (domain ++ read.canonicalBytes ++ text owner ++ be64 createdAt ++ be64 expiresAt)

/-- `validate` (`runtime.rs:506-529`). -/
def validate (handle : SnapshotHandle) : Except Error Unit := do
  let version := handle.contractVersion
  if version ≠ dataRuntimeContractVersion then
    invalid s!"unsupported snapshot contract version {version}"
  handle.read.validate
  validateText "snapshot owner" handle.owner
  if handle.expiresAt ≤ handle.createdAt then invalid "snapshot lease must expire after creation"
  if handle.id.asStr ≠ identity handle.read handle.owner handle.createdAt handle.expiresAt then
    invalid "snapshot identity does not match its lease and read stamp"

/-- A valid lease goes by the digest of what it leases. -/
theorem id_of_validate {handle : SnapshotHandle} (valid : handle.validate = .ok ()) :
    handle.id.asStr = identity handle.read handle.owner handle.createdAt handle.expiresAt := by
  by_contra other
  unfold validate at valid
  by_cases version : handle.contractVersion ≠ dataRuntimeContractVersion
  · rw [if_pos version] at valid
    cases valid
  rw [if_neg version] at valid
  obtain ⟨⟨⟩, -, valid⟩ := except_bind_ok.mp valid
  obtain ⟨⟨⟩, -, valid⟩ := except_bind_ok.mp valid
  by_cases expired : handle.expiresAt ≤ handle.createdAt
  · rw [if_pos expired] at valid
    cases valid
  rw [if_neg expired, if_pos other] at valid
  cases valid

end SnapshotHandle

end Vyrm.Core
