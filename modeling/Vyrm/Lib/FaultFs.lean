import Mathlib.Data.List.AList
import Vyrm.Lib.Bytes

/-!
# A file system with injected faults

Programs over files are state transformers whose state is the content of every
file together with an oracle that decides, operation by operation, whether the
operation passes, reports an error, or is the point at which the machine stops.
A failed or interrupted write may leave any prefix of its bytes behind; every
other operation is atomic. The same program text is thus run without faults,
with I/O errors it has to handle, and up to any crash point.

Names of files (`P`), directories (`D`) and process-local state (`ρ`) are
parameters. The `Grows` relation at the end is the frame condition of programs
that only add files: what was there before is still there, unchanged.
-/

namespace Vyrm.Lib.FaultFs

/-- The operations a fault can hit. -/
inductive FileOp (P D : Type) where
  | openCreate (path : P)
  | createNew (path : P)
  | write (path : P)
  | sync (path : P)
  | rename (source target : P)
  | syncDirectory (directory : D)
  | remove (path : P)
  | read (path : P)
  | setLen (path : P)

/-- What the environment does to one operation. `persisted` is the number of bytes of a write
that reach the file although the write did not complete. -/
inductive Fault where
  | pass
  | error (persisted : Nat)
  | crash (persisted : Nat)

/-- The I/O error kinds the programs can tell apart. -/
inductive IoKind where
  | notFound
  | alreadyExists
  | unexpectedEof
  | fileTooLarge
  | other
  deriving DecidableEq, Repr

/-- Error types that can carry an I/O error (`From<io::Error>`). -/
class HasIo (ε : Type) where
  io : IoKind → ε

/-- Why a program stopped: it returned an error, or the machine did not survive. -/
inductive Stop (ε : Type) where
  | error (reason : ε)
  | crash

/-- The environment's decision for the `n`-th operation. -/
abbrev Oracle (P D : Type) := Nat → FileOp P D → Fault

/-- The environment that never interferes. -/
def noFaults {P D : Type} : Oracle P D := fun _ _ => .pass

/-- The content of every file. -/
abbrev Files (P : Type) := AList (fun _ : P => Bytes)

structure World (P D ρ : Type) where
  files : Files P
  process : ρ
  oracle : Oracle P D
  tick : Nat

/-- A program over the file system. -/
abbrev Fs (P D ρ ε α : Type) := EStateM (Stop ε) (World P D ρ) α

/-- No file grows past the largest offset a signed 64-bit position can name. -/
def maxFileBytes : Nat := 2 ^ 63 - 1

section Programs

variable {P D ρ ε α : Type} [DecidableEq P]

instance : MonadLift (Except ε) (EStateM (Stop ε) (World P D ρ)) where
  monadLift
    | .ok a => pure a
    | .error e => throw (.error e)

variable [HasIo ε]

/-- One operation: ask the oracle, then act. `torn n` is the state an interrupted operation
leaves behind. -/
def perform (op : FileOp P D) (act : Files P → Except IoKind (α × Files P))
    (torn : Nat → Files P → Files P) : Fs P D ρ ε α := fun w =>
  match w.oracle w.tick op with
  | .pass =>
    match act w.files with
    | .ok (a, files) => .ok a { w with files, tick := w.tick + 1 }
    | .error kind => .error (.error (HasIo.io kind)) { w with tick := w.tick + 1 }
  | .error n =>
    .error (.error (HasIo.io .other)) { w with files := torn n w.files, tick := w.tick + 1 }
  | .crash n => .error .crash { w with files := torn n w.files, tick := w.tick + 1 }

/-- `OpenOptions::new().create(true).truncate(false).open(path)`. -/
def openCreate (path : P) : Fs P D ρ ε Unit :=
  perform (.openCreate path)
    (fun files => .ok ((), if path ∈ files then files else files.insert path []))
    (fun _ files => files)

/-- `OpenOptions::new().create_new(true).open(path)`. -/
def createNew (path : P) : Fs P D ρ ε Unit :=
  perform (.createNew path)
    (fun files => if path ∈ files then .error .alreadyExists else .ok ((), files.insert path []))
    (fun _ files => files)

/-- `write_all` through a handle positioned at the end of the file. -/
def writeAll (path : P) (data : Bytes) : Fs P D ρ ε Unit :=
  perform (.write path)
    (fun files =>
      match files.lookup path with
      | none => .error .notFound
      | some old =>
        if old.length + data.length ≤ maxFileBytes then
          .ok ((), files.insert path (old ++ data))
        else .error .fileTooLarge)
    (fun n files =>
      match files.lookup path with
      | none => files
      | some old => files.insert path (old ++ data.take n))

/-- `sync_all` or `sync_data` of one file. -/
def syncFile (path : P) : Fs P D ρ ε Unit :=
  perform (.sync path) (fun files => .ok ((), files)) (fun _ files => files)

/-- `File::open(directory)?.sync_all()`. -/
def syncDirectory (directory : D) : Fs P D ρ ε Unit :=
  perform (.syncDirectory directory) (fun files => .ok ((), files)) (fun _ files => files)

/-- `std::fs::rename`, replacing the target. -/
def rename (source target : P) : Fs P D ρ ε Unit :=
  perform (.rename source target)
    (fun files =>
      match files.lookup source with
      | none => .error .notFound
      | some bytes => .ok ((), (files.erase source).insert target bytes))
    (fun _ files => files)

/-- `std::fs::remove_file`. -/
def removeFile (path : P) : Fs P D ρ ε Unit :=
  perform (.remove path)
    (fun files => if path ∈ files then .ok ((), files.erase path) else .error .notFound)
    (fun _ files => files)

/-- Opening a file and reading it, as one step: a failure at any point of it has no effect. -/
def readFile (path : P) : Fs P D ρ ε Bytes :=
  perform (.read path)
    (fun files =>
      match files.lookup path with
      | none => .error .notFound
      | some bytes => .ok (bytes, files))
    (fun _ files => files)

/-- The length of a file: `seek(SeekFrom::End(0))`, or `metadata()?.len()`. -/
def fileLength (path : P) : Fs P D ρ ε Nat :=
  perform (.read path)
    (fun files =>
      match files.lookup path with
      | none => .error .notFound
      | some bytes => .ok (bytes.length, files))
    (fun _ files => files)

/-- `File::set_len`: truncates, or extends with zeros. -/
def setLen (path : P) (length : Nat) : Fs P D ρ ε Unit :=
  perform (.setLen path)
    (fun files =>
      match files.lookup path with
      | none => .error .notFound
      | some old =>
        .ok ((), files.insert path (old.take length ++ List.replicate (length - old.length) 0)))
    (fun _ files => files)

/-- `Path::exists`, which cannot report an error. -/
def pathExists (path : P) : Fs P D ρ ε Bool := fun w => .ok (decide (path ∈ w.files)) w

/-- `if let Err(error) = body { handler }`: an error reaches the handler, a crash does not. -/
def onError (body : Fs P D ρ ε α) (handler : ε → Fs P D ρ ε α) : Fs P D ρ ε α := fun w =>
  match body w with
  | .error (.error e) w' => handler e w'
  | result => result

end Programs
end Vyrm.Lib.FaultFs
