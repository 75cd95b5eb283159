import Vyrm.Store.Commit

/-!
# Verified objects

`crates/vyrm-store/src/object.rs`: an object is named by the digest of its bytes, and is verified
by reading the file at its canonical key.
-/

namespace Vyrm.Store
open Lib Vyrm.Core

/-- The errors (`error.rs:7-50`) of operations on objects. Of an I/O error the kind is left out. -/
inductive ObjectError where
  | other (error : Store.Error)
  | io
  | objectMissing (sha256 : String)
  | objectCorrupt (expected actual : String)
  | objectLengthMismatch (expected actual : UInt64)
  | object (message : String)
  deriving DecidableEq

/-- `VerifiedObject` (`object.rs:28-32`). -/
structure VerifiedObject where
  sha256 : String
  length : UInt64
  receipt : ObjectReceipt
  deriving DecidableEq

/-- `canonical_key`, with its error converted. -/
def objectKey (sha256 : String) : Except ObjectError String :=
  match ObjectReference.canonicalKey sha256 with
  | .error e => .error (.other (.kernel e))
  | .ok key => .ok key

/-- What reading the file at a key gives: its bytes, that there is none, or an error. -/
abbrev Files := String → Except ObjectError (Option Bytes)

/-- The bytes of a file that can be read. -/
def Files.held (files : Files) (key : String) : Bytes :=
  match files key with
  | .ok (some bytes) => bytes
  | _ => []

/-- `digest_reader` (`object.rs:345-360`). -/
def digestReader (bytes : Bytes) : Except ObjectError (String × UInt64) :=
  if 2 ^ 64 ≤ bytes.length then .error (.object "object length overflowed u64")
  else .ok (sha256Hex bytes, UInt64.ofNat bytes.length)

/-- `verify` (`object.rs:189-216`). -/
def verify (files : Files) (sha256 : String) : Except ObjectError VerifiedObject := do
  let key ← objectKey sha256
  match files key with
  | .error e => .error e
  | .ok none => .error (.objectMissing sha256)
  | .ok (some bytes) =>
    let (actual, length) ← digestReader bytes
    if actual ≠ sha256 then throw (.objectCorrupt sha256 actual)
    return { sha256, length,
             receipt := { backend := "local", key, version := none, etag := some sha256 } }

/-- A verified object names the bytes at its key. -/
structure VerifiedObject.Names (object : VerifiedObject) (bytes : Bytes) : Prop where
  sha256 : sha256Hex bytes = object.sha256
  length : bytes.length = object.length.toNat

theorem verify_ok {files : Files} {sha256 : String} {object : VerifiedObject}
    (verified : verify files sha256 = .ok object) :
    object.sha256 = sha256 ∧ objectKey sha256 = .ok object.receipt.key ∧
      files object.receipt.key = .ok (some (files.held object.receipt.key)) ∧
      object.Names (files.held object.receipt.key) := by
  obtain ⟨key, canonical, rest⟩ := except_bind_ok.mp verified
  split at rest
  · cases rest
  · cases rest
  · rename_i bytes read
    obtain ⟨⟨actual, length⟩, digested, rest⟩ := except_bind_ok.mp rest
    simp only [except_throw, except_error_bind, except_reject_ok, except_pure, Except.ok.injEq] at rest
    obtain ⟨same, rfl⟩ := rest
    rw [not_not] at same
    rw [digestReader] at digested
    split at digested
    · cases digested
    · rename_i short
      rw [Except.ok.injEq, Prod.mk.injEq] at digested
      obtain ⟨digest, rfl⟩ := digested
      have held : files.held key = bytes := by rw [Files.held, read]
      refine ⟨rfl, canonical, ?_, ?_, ?_⟩
      · rw [held]
        exact read
      · rw [held, digest, same]
      · rw [held, UInt64.toNat_ofNat']
        omega

end Vyrm.Store
