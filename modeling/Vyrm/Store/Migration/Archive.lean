import Vyrm.Core.Digest
import Vyrm.Store.Native.View

/-!
# The migration archive

The archive of `crates/vyrm-store/src/migration.rs`: the rows of every keyspace in one
file, under a digest. `readArchive` hands the rows on while it reads them, and only
the footer tells it whether they are all there and the ones that were written; the
central result is that an archive that the writer finished is read back to its rows.
-/

namespace Vyrm.Store.Migration
open Lib Vyrm.Core

/-- `ARCHIVE_MAGIC` (`migration.rs:18`): `VYRMIG01`. -/
def archiveMagic : Bytes := [0x56, 0x59, 0x52, 0x4d, 0x49, 0x47, 0x30, 0x31]

def archiveVersion : Nat := 1
def recordTag : UInt8 := 1
def footerTag : UInt8 := 0xff
def maxKeyBytes : Nat := 1024 * 1024
def maxValueBytes : Nat := 8 * 1024 * 1024

/-- `MigrationInventory` (`migration.rs:28-34`). -/
structure MigrationInventory where
  formatVersion : Nat
  archiveSha256 : String
  entries : Nat
  payloadBytes : Nat
  keyspaceCounts : List Nat
  deriving DecidableEq

/-- A row of a keyspace, which goes by its place in `Keyspace.all`. -/
structure Row where
  space : Nat
  key : Bytes
  value : Bytes
  deriving DecidableEq

/-- What the format can carry. -/
def Row.Fits (row : Row) : Prop :=
  row.key ≠ [] ∧ row.key.length ≤ maxKeyBytes ∧ row.value.length ≤ maxValueBytes

/-- A row as the archive has it (`migration.rs:700-705`). -/
def Row.bytes (row : Row) : Bytes :=
  [recordTag] ++ toBE 2 row.space ++ toBE 4 row.key.length ++ toBE 8 row.value.length ++ row.key ++
    row.value

/-- The counters that writer and reader keep. -/
structure Totals where
  entries : Nat
  payloadBytes : Nat
  counts : List Nat
  deriving DecidableEq

def Totals.zero : Totals := ⟨0, 0, List.replicate Keyspace.all.length 0⟩

/-- `checked_add`, with the message of the `ok_or_else` behind it. -/
def checkedAdd (a b : Nat) (overflow : String) : Except Error Nat :=
  if Kv.u64Max < a + b then .error (.migration overflow) else .ok (a + b)

/-- One more row (`migration.rs:706-714`, `835-841`). -/
def Totals.add (totals : Totals) (row : Row) (entryOverflow byteOverflow : String) :
    Except Error Totals := do
  let entries ← checkedAdd totals.entries 1 entryOverflow
  let payloadBytes ← checkedAdd totals.payloadBytes (row.key.length + row.value.length) byteOverflow
  return { entries, payloadBytes, counts := totals.counts.modify row.space (· + 1) }

def Totals.inventory (totals : Totals) (digest : Bytes) : MigrationInventory :=
  { formatVersion := archiveVersion, archiveSha256 := hex digest, entries := totals.entries,
    payloadBytes := totals.payloadBytes, keyspaceCounts := totals.counts }

/-- The counters with one more row. -/
def Totals.plus (totals : Totals) (row : Row) : Totals :=
  { entries := totals.entries + 1, payloadBytes := totals.payloadBytes + (row.key.length + row.value.length),
    counts := totals.counts.modify row.space (· + 1) }

def Totals.plusAll (totals : Totals) (rows : List Row) : Totals := rows.foldl Totals.plus totals

/-- The counters are `u64`. -/
structure Totals.Bounded (totals : Totals) : Prop where
  entries : totals.entries ≤ Kv.u64Max
  payloadBytes : totals.payloadBytes ≤ Kv.u64Max

theorem Totals.add_ok_iff {totals next : Totals} {row : Row} {entryOverflow byteOverflow : String} :
    totals.add row entryOverflow byteOverflow = .ok next ↔
      (totals.plus row).Bounded ∧ next = totals.plus row := by
  rw [add, checkedAdd, checkedAdd]
  by_cases many : Kv.u64Max < totals.entries + 1
  · simp only [if_pos many, except_error_bind, reduceCtorEq, false_iff, not_and]
    intro bounded
    exact absurd bounded.entries (not_le.mpr many)
  by_cases large : Kv.u64Max < totals.payloadBytes + (row.key.length + row.value.length)
  · simp only [if_neg many, if_pos large, except_ok_bind, except_error_bind, reduceCtorEq, false_iff, not_and]
    intro bounded
    exact absurd bounded.payloadBytes (not_le.mpr large)
  · simp only [if_neg many, if_neg large, except_ok_bind, except_pure, Except.ok.injEq]
    constructor
    · intro same
      exact ⟨⟨not_lt.mp many, not_lt.mp large⟩, same.symm⟩
    · intro h
      exact h.2.symm

theorem Totals.le_plusAll (totals : Totals) (rows : List Row) :
    totals.entries ≤ (totals.plusAll rows).entries ∧
      totals.payloadBytes ≤ (totals.plusAll rows).payloadBytes := by
  induction rows generalizing totals with
  | nil => exact ⟨le_refl _, le_refl _⟩
  | cons row rest ih =>
    obtain ⟨entries, payloadBytes⟩ := ih (totals.plus row)
    exact ⟨(Nat.le_succ _).trans entries, (Nat.le_add_right _ _).trans payloadBytes⟩

/-- Counters that have not overflowed at the end have never overflowed. -/
theorem Totals.Bounded.before {totals : Totals} {rows : List Row}
    (bounded : (totals.plusAll rows).Bounded) : totals.Bounded :=
  ⟨(totals.le_plusAll rows).1.trans bounded.entries, (totals.le_plusAll rows).2.trans bounded.payloadBytes⟩

theorem Totals.Bounded.first {totals : Totals} {row : Row} {rest : List Row}
    (bounded : (totals.plusAll (row :: rest)).Bounded) : (totals.plus row).Bounded := Bounded.before bounded

/-- No keyspace has more rows than there are. -/
def Totals.Counted (totals : Totals) : Prop :=
  totals.counts.length = Keyspace.all.length ∧ ∀ count ∈ totals.counts, count ≤ totals.entries

theorem Totals.Counted.plusAll {totals : Totals} (counted : totals.Counted) (rows : List Row) :
    (totals.plusAll rows).Counted := by
  induction rows generalizing totals with
  | nil => exact counted
  | cons row rest ih =>
    apply ih
    refine ⟨by rw [plus, List.length_modify]; exact counted.1, ?_⟩
    intro count member
    obtain ⟨i, inside, rfl⟩ := List.mem_iff_getElem.mp member
    rw [plus, List.length_modify] at inside
    have before := counted.2 totals.counts[i] (List.getElem_mem inside)
    simp only [plus, List.getElem_modify]
    split
    · omega
    · omega

/-! ## Writing -/

/-- The names of the keyspaces as the header has them. -/
def namesBytes (spaces : List Keyspace) : Bytes :=
  spaces.flatMap fun space => toBE 2 space.name.length ++ space.name

/-- What `ArchiveWriter::create` writes (`migration.rs:683-690`). -/
def header : Bytes :=
  archiveMagic ++ toBE 2 archiveVersion ++ toBE 2 0 ++ toBE 2 Keyspace.all.length ++
    namesBytes Keyspace.all

/-- `ArchiveWriter` (`migration.rs:646-654`): all that it has written it has also digested. -/
structure ArchiveWriter where
  written : Bytes
  totals : Totals

namespace ArchiveWriter

/-- `ArchiveWriter::create` (`migration.rs:657-692`), its file apart. -/
def create : ArchiveWriter := ⟨header, Totals.zero⟩

/-- `ArchiveWriter::record` (`migration.rs:694-716`). -/
def record (writer : ArchiveWriter) (row : Row) : Except Error ArchiveWriter := do
  if row.key = [] ∨ row.key.length > maxKeyBytes ∨ row.value.length > maxValueBytes then
    throw (.migration "source key/value exceeds native limits")
  let written := writer.written ++ row.bytes
  let totals ← writer.totals.add row "archive entry counter overflow" "archive byte counter overflow"
  return { written, totals }

def recordAll : ArchiveWriter → List Row → Except Error ArchiveWriter
  | writer, [] => .ok writer
  | writer, row :: rest => do
    let writer ← writer.record row
    writer.recordAll rest

/-- `ArchiveWriter::finish` (`migration.rs:718-746`): the file, and its inventory. -/
def finish (writer : ArchiveWriter) : Bytes × MigrationInventory :=
  let digest := sha256 writer.written
  (writer.written ++ [footerTag] ++ toBE 8 writer.totals.entries ++ toBE 8 writer.totals.payloadBytes ++
    writer.totals.counts.flatMap (toBE 8) ++ digest, writer.totals.inventory digest)

theorem record_ok_iff {writer next : ArchiveWriter} {row : Row} :
    writer.record row = .ok next ↔ row.Fits ∧ (writer.totals.plus row).Bounded ∧
      next = ⟨writer.written ++ row.bytes, writer.totals.plus row⟩ := by
  have fits : ¬ (row.key = [] ∨ row.key.length > maxKeyBytes ∨ row.value.length > maxValueBytes) ↔ row.Fits := by
    rw [not_or, not_or, not_lt, not_lt, Row.Fits]
  rw [record]
  by_cases unfit : row.key = [] ∨ row.key.length > maxKeyBytes ∨ row.value.length > maxValueBytes
  · rw [if_pos unfit]
    simp [← fits, unfit]
  · simp only [if_neg unfit, except_bind_ok, Totals.add_ok_iff, except_pure, Except.ok.injEq]
    constructor
    · intro ⟨totals, ⟨bounded, sum⟩, same⟩
      exact ⟨fits.mp unfit, bounded, by rw [← same, sum]⟩
    · intro ⟨_, bounded, same⟩
      exact ⟨_, ⟨bounded, rfl⟩, same.symm⟩

/-- The writer takes rows that fit, as long as its counters do not overflow. -/
theorem recordAll_ok_iff {writer last : ArchiveWriter} {rows : List Row} (bounded : writer.totals.Bounded) :
    writer.recordAll rows = .ok last ↔
      (∀ row ∈ rows, row.Fits) ∧ (writer.totals.plusAll rows).Bounded ∧
        last = ⟨writer.written ++ rows.flatMap Row.bytes, writer.totals.plusAll rows⟩ := by
  induction rows generalizing writer with
  | nil => simp [recordAll, Totals.plusAll, bounded, eq_comm]
  | cons row rest ih =>
    rw [recordAll, except_bind_ok, List.forall_mem_cons, List.flatMap_cons, ← List.append_assoc]
    constructor
    · intro ⟨next, recorded, later⟩
      obtain ⟨fits, bounded, rfl⟩ := record_ok_iff.mp recorded
      obtain ⟨others, total, rfl⟩ := (ih bounded).mp later
      exact ⟨⟨fits, others⟩, total, rfl⟩
    · intro ⟨⟨fits, others⟩, total, same⟩
      have bounded := total.first
      exact ⟨_, record_ok_iff.mpr ⟨fits, bounded, rfl⟩, (ih bounded).mpr ⟨others, total, same⟩⟩

end ArchiveWriter

/-! ## Reading -/

/-- The open archive: what is still to be read, and what has been digested. -/
structure ArchiveReader where
  rest : Bytes
  digested : Bytes

namespace ArchiveReader

/-- `file.read_exact`. -/
def readExact (reader : ArchiveReader) (count : Nat) : Except Error (Bytes × ArchiveReader) :=
  if reader.rest.length < count then .error (.migration "archive is truncated")
  else .ok (reader.rest.take count, { reader with rest := reader.rest.drop count })

/-- `read_hashed` (`migration.rs:876-880`). -/
def readHashed (reader : ArchiveReader) (count : Nat) : Except Error (Bytes × ArchiveReader) := do
  let (bytes, reader) ← reader.readExact count
  return (bytes, { reader with digested := reader.digested ++ bytes })

/-- `read_u16_hashed`, `read_u32_hashed` and `read_u64_hashed` (`migration.rs:882-898`). -/
def readNumber (reader : ArchiveReader) (width : Nat) : Except Error (Nat × ArchiveReader) := do
  let (bytes, reader) ← reader.readHashed width
  return (ofBE bytes, reader)

/-- `read_u64_raw` (`migration.rs:900-904`). -/
def readRaw (reader : ArchiveReader) : Except Error (Nat × ArchiveReader) := do
  let (bytes, reader) ← reader.readExact 8
  return (ofBE bytes, reader)

/-- The loop over the names of the keyspaces (`migration.rs:781-790`). -/
def readNames (reader : ArchiveReader) : List Keyspace → Except Error ArchiveReader
  | [] => .ok reader
  | expected :: rest => do
    let (length, reader) ← reader.readNumber 2
    let (name, reader) ← reader.readHashed length
    if name ≠ expected.name then throw (.migration "archive keyspace order/name differs")
    reader.readNames rest

/-- The header (`migration.rs:760-790`). -/
def readHeader (reader : ArchiveReader) : Except Error ArchiveReader := do
  let (magic, reader) ← reader.readHashed 8
  if magic ≠ archiveMagic then throw (.migration "archive magic does not match")
  let (version, reader) ← reader.readNumber 2
  if version ≠ archiveVersion then throw (.migration s!"unsupported archive version {version}")
  let (flags, reader) ← reader.readNumber 2
  if flags ≠ 0 then throw (.migration "archive has unknown flags")
  let (spaces, reader) ← reader.readNumber 2
  if spaces ≠ Keyspace.all.length then throw (.migration "archive keyspace count is not canonical")
  reader.readNames Keyspace.all

/-- What the loop over the records carries along (`migration.rs:792-796`). -/
structure Progress where
  totals : Totals
  lastSpace : Nat
  lastKeys : List (Option Bytes)

def Progress.start : Progress := ⟨Totals.zero, 0, List.replicate Keyspace.all.length none⟩

/-- A record behind its tag (`migration.rs:810-831`). -/
def readRow (reader : ArchiveReader) (progress : Progress) (tag : UInt8) :
    Except Error (Row × ArchiveReader) := do
  if tag ≠ recordTag then throw (.migration s!"unknown archive record tag {tag.toNat}")
  let reader := { reader with digested := reader.digested ++ [tag] }
  let (space, reader) ← reader.readNumber 2
  let (keyLen, reader) ← reader.readNumber 4
  let (valueLen, reader) ← reader.readNumber 8
  if Keyspace.all.length ≤ space ∨ (progress.totals.entries ≠ 0 ∧ space < progress.lastSpace) then
    throw (.migration "archive keyspace ordinal is invalid")
  if keyLen = 0 ∨ keyLen > maxKeyBytes ∨ valueLen > maxValueBytes then
    throw (.migration "archive key/value length exceeds limits")
  let (key, reader) ← reader.readHashed keyLen
  let (value, reader) ← reader.readHashed valueLen
  if ∃ last ∈ progress.lastKeys[space]?.join, key ≤ last then
    throw (.migration "archive keys are not strictly ordered")
  return (⟨space, key, value⟩, reader)

/-- The progress after a row that the caller has taken (`migration.rs:833-841`). -/
def Progress.next (progress : Progress) (row : Row) : Except Error Progress := do
  let totals ← progress.totals.add row "entry overflow" "payload overflow"
  return { totals, lastSpace := row.space, lastKeys := progress.lastKeys.set row.space (some row.key) }

/-- The loop over the records (`migration.rs:797-842`): the rows that are handed on, and how the loop
ends. A pass takes at least one byte, so the length of the file bounds their number. -/
def readRows : Nat → Progress → ArchiveReader → List Row × Except Error (Totals × ArchiveReader)
  | 0, _, _ => ([], .error (.migration "archive is truncated"))
  | passes + 1, progress, reader =>
    match reader.readExact 1 with
    | .error e => ([], .error e)
    | .ok (tag, reader) =>
      if tag = [footerTag] then ([], .ok (progress.totals, reader))
      else
        match reader.readRow progress (tag.headD 0) with
        | .error e => ([], .error e)
        | .ok (row, reader) =>
          match progress.next row with
          | .error e => ([row], .error e)
          | .ok progress =>
            let (rows, result) := readRows passes progress reader
            (row :: rows, result)

def readCounts (reader : ArchiveReader) : Nat → Except Error (List Nat × ArchiveReader)
  | 0 => .ok ([], reader)
  | spaces + 1 => do
    let (count, reader) ← reader.readRaw
    let (counts, reader) ← reader.readCounts spaces
    return (count :: counts, reader)

/-- The footer (`migration.rs:844-873`). -/
def readFooter (reader : ArchiveReader) (totals : Totals) : Except Error MigrationInventory := do
  let digest := sha256 reader.digested
  let (entries, reader) ← reader.readRaw
  let (payloadBytes, reader) ← reader.readRaw
  let (counts, reader) ← reader.readCounts Keyspace.all.length
  let (declared, reader) ← reader.readExact 32
  if reader.rest ≠ [] then throw (.migration "archive carries trailing bytes")
  if entries ≠ totals.entries ∨ payloadBytes ≠ totals.payloadBytes ∨ counts ≠ totals.counts ∨
      declared ≠ digest then
    throw (.migration "archive footer or SHA-256 does not match")
  return totals.inventory digest

end ArchiveReader

/-- `read_archive` (`migration.rs:755-874`): the rows that it hands to its caller one after the other,
and what it returns when the caller has taken them all. -/
def readArchive (archive : Bytes) : List Row × Except Error MigrationInventory :=
  match (ArchiveReader.mk archive []).readHeader with
  | .error e => ([], .error e)
  | .ok reader =>
    let (rows, result) := ArchiveReader.readRows reader.rest.length .start reader
    (rows, do
      let (totals, reader) ← result
      reader.readFooter totals)

/-! ## What is written is read -/

section RoundTrip

namespace ArchiveReader

theorem readExact_append {bytes tail digested : Bytes} {count : Nat} (length : bytes.length = count) :
    (mk (bytes ++ tail) digested).readExact count = .ok (bytes, ⟨tail, digested⟩) := by
  subst length
  simp [readExact]

theorem readHashed_append {bytes tail digested : Bytes} {count : Nat} (length : bytes.length = count) :
    (mk (bytes ++ tail) digested).readHashed count = .ok (bytes, ⟨tail, digested ++ bytes⟩) := by
  rw [readHashed, readExact_append length]
  rfl

theorem readNumber_append {width n : Nat} {tail digested : Bytes} (small : n < 256 ^ width) :
    (mk (toBE width n ++ tail) digested).readNumber width =
      .ok (n, ⟨tail, digested ++ toBE width n⟩) := by
  rw [readNumber, readHashed_append (length_toBE width n), except_ok_bind]
  dsimp only
  rw [ofBE_toBE_of_lt small, except_pure]

theorem readRaw_append {n : Nat} {tail digested : Bytes} (small : n ≤ Kv.u64Max) :
    (mk (toBE 8 n ++ tail) digested).readRaw = .ok (n, ⟨tail, digested⟩) := by
  have small : n < 256 ^ 8 := by
    rw [Kv.u64Max] at small
    omega
  rw [readRaw, readExact_append (length_toBE 8 n), except_ok_bind]
  dsimp only
  rw [ofBE_toBE_of_lt small, except_pure]

theorem readNames_append {spaces : List Keyspace} {tail digested : Bytes} :
    (mk (namesBytes spaces ++ tail) digested).readNames spaces =
      .ok ⟨tail, digested ++ namesBytes spaces⟩ := by
  induction spaces generalizing digested with
  | nil => simp [readNames, namesBytes]
  | cons space rest ih =>
    have short : space.name.length < 256 ^ 2 := by cases space <;> decide
    have split : namesBytes (space :: rest) = toBE 2 space.name.length ++ (space.name ++ namesBytes rest) := by
      simp [namesBytes]
    rw [split, List.append_assoc, List.append_assoc, readNames, readNumber_append short, except_ok_bind]
    dsimp only
    rw [readHashed_append rfl, except_ok_bind]
    simp only [ne_eq, not_true_eq_false, if_false]
    rw [ih, List.append_assoc, List.append_assoc]

/-- The header is read from what begins with it. -/
theorem readHeader_append {tail : Bytes} :
    (mk (header ++ tail) []).readHeader = .ok ⟨tail, header⟩ := by
  have magic : archiveMagic.length = 8 := rfl
  have version : archiveVersion < 256 ^ 2 := by decide
  have flags : 0 < 256 ^ 2 := by decide
  have spaces : Keyspace.all.length < 256 ^ 2 := by decide
  simp only [header, List.append_assoc]
  rw [readHeader, readHashed_append magic, except_ok_bind]
  simp only [ne_eq, not_true_eq_false, if_false, readNumber_append version, readNumber_append flags,
    readNumber_append spaces, except_ok_bind, readNames_append, List.nil_append, List.append_assoc]

/-- The rows go on from where the reader is. -/
structure Progress.Precedes (progress : Progress) (rows : List Row) : Prop where
  known : progress.lastKeys.length = Keyspace.all.length
  spaces : progress.totals.entries ≠ 0 → ∀ row ∈ rows, progress.lastSpace ≤ row.space
  above : ∀ row ∈ rows, ∀ last ∈ progress.lastKeys[row.space]?.join, last < row.key

theorem readRow_append {progress : Progress} {row : Row} {rest : List Row} {tail digested : Bytes}
    (fits : row.Fits) (canonical : row.space < Keyspace.all.length)
    (precedes : progress.Precedes (row :: rest)) :
    (mk (toBE 2 row.space ++ (toBE 4 row.key.length ++ (toBE 8 row.value.length ++
      (row.key ++ (row.value ++ tail))))) digested).readRow progress recordTag =
      .ok (row, ⟨tail, digested ++ row.bytes⟩) := by
  obtain ⟨some, short, small⟩ := fits
  have count : Keyspace.all.length = 18 := rfl
  have space : row.space < 256 ^ 2 := by omega
  have keyLen : row.key.length < 256 ^ 4 := by
    rw [maxKeyBytes] at short
    omega
  have valueLen : row.value.length < 256 ^ 8 := by
    rw [maxValueBytes] at small
    omega
  have known : ¬ (Keyspace.all.length ≤ row.space ∨
      (progress.totals.entries ≠ 0 ∧ row.space < progress.lastSpace)) := by
    rintro (beyond | ⟨later, before⟩)
    · omega
    · have := precedes.spaces later row List.mem_cons_self
      omega
  have within : ¬ (row.key.length = 0 ∨ row.key.length > maxKeyBytes ∨ row.value.length > maxValueBytes) := by
    rw [List.length_eq_zero_iff]
    rintro (empty | long | large)
    · exact some empty
    · omega
    · omega
  have ordered : ¬ ∃ last ∈ progress.lastKeys[row.space]?.join, row.key ≤ last := by
    rintro ⟨last, member, order⟩
    exact absurd (precedes.above row List.mem_cons_self last member) (not_lt.mpr order)
  rw [readRow]
  simp only [ne_eq, not_true_eq_false, if_false, readNumber_append space, readNumber_append keyLen,
    readNumber_append valueLen, except_ok_bind]
  rw [if_neg known, if_neg within, readHashed_append rfl, except_ok_bind]
  dsimp only
  rw [readHashed_append rfl, except_ok_bind, if_neg ordered]
  simp [Row.bytes, List.append_assoc]

/-- The order of the rows in an archive: by keyspace, and by key in each one. -/
def Before (a b : Row) : Prop := a.space < b.space ∨ (a.space = b.space ∧ a.key < b.key)

theorem Progress.Precedes.next {progress next : Progress} {row : Row} {rest : List Row}
    (precedes : progress.Precedes (row :: rest)) (order : ∀ later ∈ rest, Before row later)
    (canonical : row.space < Keyspace.all.length) (taken : progress.next row = .ok next) :
    next.Precedes rest := by
  rw [Progress.next, except_bind_ok] at taken
  obtain ⟨totals, -, taken⟩ := taken
  rw [except_pure, Except.ok.injEq] at taken
  subst taken
  refine ⟨by rw [List.length_set]; exact precedes.known, ?_, ?_⟩
  · intro _ later member
    rcases order later member with below | ⟨same, -⟩
    · exact below.le
    · exact same.le
  · intro later member last found
    dsimp only at found
    by_cases same : row.space = later.space
    · rw [same, List.getElem?_set_self (by rw [precedes.known, ← same]; exact canonical)] at found
      cases found
      rcases order later member with below | ⟨-, below⟩
      · omega
      · exact below
    · rw [List.getElem?_set_ne same] at found
      exact precedes.above later (List.mem_cons_of_mem _ member) last found

/-- The loop hands on the rows that stand before the footer's tag. -/
theorem readRows_append {rows : List Row} {progress : Progress} {tail digested : Bytes} {passes : Nat}
    (enough : rows.length < passes) (fits : ∀ row ∈ rows, row.Fits)
    (canonical : ∀ row ∈ rows, row.space < Keyspace.all.length) (order : rows.Pairwise Before)
    (precedes : progress.Precedes rows) (bounded : (progress.totals.plusAll rows).Bounded) :
    readRows passes progress ⟨rows.flatMap Row.bytes ++ (footerTag :: tail), digested⟩ =
      (rows, .ok (progress.totals.plusAll rows, ⟨tail, digested ++ rows.flatMap Row.bytes⟩)) := by
  induction rows generalizing progress digested passes with
  | nil =>
    cases passes with
    | zero => simp at enough
    | succ passes =>
      have tag : (mk (footerTag :: tail) digested).readExact 1 = .ok ([footerTag], ⟨tail, digested⟩) :=
        @readExact_append [footerTag] tail digested 1 rfl
      simp [readRows, tag, Totals.plusAll]
  | cons row rest ih =>
    cases passes with
    | zero => simp at enough
    | succ passes =>
      have here := canonical row List.mem_cons_self
      have bytes : (row :: rest).flatMap Row.bytes ++ footerTag :: tail = [recordTag] ++
          (toBE 2 row.space ++ (toBE 4 row.key.length ++ (toBE 8 row.value.length ++
            (row.key ++ (row.value ++ (rest.flatMap Row.bytes ++ footerTag :: tail)))))) := by
        simp [Row.bytes]
      have first := @readRow_append progress row rest (rest.flatMap Row.bytes ++ footerTag :: tail) digested
        (fits row List.mem_cons_self) here precedes
      have taken : progress.next row = .ok ⟨progress.totals.plus row, row.space,
          progress.lastKeys.set row.space (some row.key)⟩ := by
        rw [Progress.next, Totals.add_ok_iff.mpr ⟨bounded.first, rfl⟩]
        rfl
      have others := precedes.next (List.pairwise_cons.mp order).1 here taken
      have tag : ([recordTag] : Bytes).length = 1 := rfl
      have other : ¬ [recordTag] = [footerTag] := by decide
      rw [bytes, readRows, readExact_append tag]
      simp only [if_neg other, List.headD_cons, first, taken]
      rw [ih (by simpa using enough) (fun r m => fits r (List.mem_cons_of_mem _ m))
        (fun r m => canonical r (List.mem_cons_of_mem _ m)) (List.pairwise_cons.mp order).2 others bounded]
      simp [Totals.plusAll]

theorem readCounts_append {counts : List Nat} {tail digested : Bytes}
    (small : ∀ count ∈ counts, count ≤ Kv.u64Max) :
    (mk (counts.flatMap (toBE 8) ++ tail) digested).readCounts counts.length = .ok (counts, ⟨tail, digested⟩) := by
  induction counts with
  | nil => rfl
  | cons count rest ih =>
    obtain ⟨first, others⟩ := List.forall_mem_cons.mp small
    rw [List.flatMap_cons, List.append_assoc, List.length_cons, readCounts, readRaw_append first, except_ok_bind]
    dsimp only
    rw [ih others, except_ok_bind, except_pure]

/-- A footer that declares what was read is accepted. -/
theorem readFooter_append {totals : Totals} {digested : Bytes} (bounded : totals.Bounded)
    (counted : totals.Counted) :
    (mk (toBE 8 totals.entries ++ (toBE 8 totals.payloadBytes ++ (totals.counts.flatMap (toBE 8) ++
      sha256 digested))) digested).readFooter totals = .ok (totals.inventory (sha256 digested)) := by
  have small : ∀ count ∈ totals.counts, count ≤ Kv.u64Max := fun count member =>
    (counted.2 count member).trans bounded.entries
  have digest : (mk (sha256 digested ++ []) digested).readExact 32 = .ok (sha256 digested, ⟨[], digested⟩) :=
    readExact_append (length_sha256 digested)
  have counts := @readCounts_append _ (sha256 digested) digested small
  rw [List.append_nil] at digest
  rw [counted.1] at counts
  rw [readFooter, readRaw_append bounded.entries, except_ok_bind]
  dsimp only
  rw [readRaw_append bounded.payloadBytes, except_ok_bind]
  dsimp only
  rw [counts, except_ok_bind]
  dsimp only
  rw [digest, except_ok_bind]
  simp

end ArchiveReader

open ArchiveReader

theorem Totals.counted_zero : Totals.zero.Counted := by
  refine ⟨List.length_replicate, ?_⟩
  intro count member
  rw [zero, List.mem_replicate] at member
  exact member.2.le

theorem Totals.bounded_zero : Totals.zero.Bounded := ⟨Nat.zero_le _, Nat.zero_le _⟩

/-- An archive that the writer has finished is read back to its rows and its inventory. -/
theorem readArchive_finish {rows : List Row} {writer : ArchiveWriter}
    (recorded : ArchiveWriter.create.recordAll rows = .ok writer)
    (canonical : ∀ row ∈ rows, row.space < Keyspace.all.length) (order : rows.Pairwise Before) :
    readArchive writer.finish.1 = (rows, .ok writer.finish.2) := by
  obtain ⟨fits, bounded, rfl⟩ := (ArchiveWriter.recordAll_ok_iff Totals.bounded_zero).mp recorded
  have precedes : Progress.start.Precedes rows := by
    refine ⟨List.length_replicate, fun absent => absurd rfl absent, ?_⟩
    intro row member last found
    rw [Progress.start, List.getElem?_replicate_of_lt (canonical row member)] at found
    cases found
  have counted := Totals.counted_zero.plusAll rows
  -- a row takes more than one byte
  have enough : rows.length ≤ (rows.flatMap Row.bytes).length := by
    clear recorded canonical order fits bounded precedes counted
    induction rows with
    | nil => exact le_refl _
    | cons row rest ih =>
      rw [List.flatMap_cons, List.length_append, List.length_cons]
      have : 0 < row.bytes.length := by simp [Row.bytes]
      omega
  have file : (ArchiveWriter.mk (ArchiveWriter.create.written ++ rows.flatMap Row.bytes)
      (ArchiveWriter.create.totals.plusAll rows)).finish.1 = header ++ (rows.flatMap Row.bytes ++ (footerTag ::
        (toBE 8 (Totals.zero.plusAll rows).entries ++ (toBE 8 (Totals.zero.plusAll rows).payloadBytes ++
          ((Totals.zero.plusAll rows).counts.flatMap (toBE 8) ++ sha256 (header ++ rows.flatMap Row.bytes)))))) := by
    simp [ArchiveWriter.finish, ArchiveWriter.create]
  have passes : ∀ tail : Bytes, rows.length < (rows.flatMap Row.bytes ++ footerTag :: tail).length := by
    intro tail
    rw [List.length_append, List.length_cons]
    omega
  rw [file, readArchive, readHeader_append]
  dsimp only
  rw [readRows_append (passes _) fits canonical order precedes bounded]
  dsimp only
  rw [except_ok_bind]
  have footer := @readFooter_append _ (header ++ rows.flatMap Row.bytes) bounded counted
  exact congrArg (Prod.mk rows) footer

end RoundTrip

end Vyrm.Store.Migration
