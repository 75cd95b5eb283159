import Vyrm.Store.Migration.Archive

/-!
# What is read was written

The converse of the round trip of the migration archive: a file that `readArchive`
accepts, with the rows it hands on, is what the writer makes of these rows. So the
reader lets no second spelling of an inventory pass, and the rows of an accepted
archive come by keyspace and in strict key order.
-/

namespace Vyrm.Store.Migration
open Lib Vyrm.Core ArchiveReader

/-- A step of the reader that digests the bytes it takes. -/
structure ArchiveReader.Digests (reader next : ArchiveReader) (bytes : Bytes) : Prop where
  rest : reader.rest = bytes ++ next.rest
  digested : next.digested = reader.digested ++ bytes

/-- A step that takes bytes of the footer. -/
structure ArchiveReader.Takes (reader next : ArchiveReader) (bytes : Bytes) : Prop where
  rest : reader.rest = bytes ++ next.rest
  digested : next.digested = reader.digested

namespace ArchiveReader

variable {reader next : ArchiveReader} {bytes : Bytes} {count width n : Nat}

theorem Digests.refl (reader : ArchiveReader) : reader.Digests reader [] :=
  ⟨rfl, (List.append_nil _).symm⟩

theorem Digests.trans {last : ArchiveReader} {more : Bytes} (first : reader.Digests next bytes)
    (second : next.Digests last more) : reader.Digests last (bytes ++ more) :=
  ⟨by rw [first.rest, second.rest, List.append_assoc],
    by rw [second.digested, first.digested, List.append_assoc]⟩

theorem Takes.trans {last : ArchiveReader} {more : Bytes} (first : reader.Takes next bytes)
    (second : next.Takes last more) : reader.Takes last (bytes ++ more) :=
  ⟨by rw [first.rest, second.rest, List.append_assoc], second.digested.trans first.digested⟩

theorem readExact_ok (ran : reader.readExact count = .ok (bytes, next)) :
    bytes.length = count ∧ reader.Takes next bytes := by
  rw [readExact] at ran
  split at ran
  · cases ran
  · rename_i enough
    cases ran
    exact ⟨List.length_take_of_le (not_lt.mp enough), (List.take_append_drop count _).symm, rfl⟩

theorem readHashed_ok (ran : reader.readHashed count = .ok (bytes, next)) :
    bytes.length = count ∧ reader.Digests next bytes := by
  rw [readHashed, except_bind_ok] at ran
  obtain ⟨⟨taken, after⟩, exact_, last⟩ := ran
  cases last
  obtain ⟨length, rest, digested⟩ := readExact_ok exact_
  exact ⟨length, rest, by rw [← digested]⟩

theorem readNumber_ok (ran : reader.readNumber width = .ok (n, next)) :
    n < 256 ^ width ∧ reader.Digests next (toBE width n) := by
  rw [readNumber, except_bind_ok] at ran
  obtain ⟨⟨bytes, after⟩, hashed, last⟩ := ran
  cases last
  obtain ⟨rfl, digests⟩ := readHashed_ok hashed
  exact ⟨ofBE_lt bytes, by rwa [toBE_ofBE]⟩

theorem readRaw_ok (ran : reader.readRaw = .ok (n, next)) : reader.Takes next (toBE 8 n) := by
  rw [readRaw, except_bind_ok] at ran
  obtain ⟨⟨bytes, after⟩, exact_, last⟩ := ran
  cases last
  obtain ⟨length, takes⟩ := readExact_ok exact_
  rwa [← length, toBE_ofBE]

theorem readNames_ok {spaces : List Keyspace} (ran : reader.readNames spaces = .ok next) :
    reader.Digests next (namesBytes spaces) := by
  induction spaces generalizing reader with
  | nil =>
    cases ran
    exact .refl _
  | cons space rest ih =>
    rw [readNames, except_bind_ok] at ran
    obtain ⟨⟨length, reader₁⟩, number, ran⟩ := ran
    rw [except_bind_ok] at ran
    obtain ⟨⟨name, reader₂⟩, hashed, ran⟩ := ran
    dsimp only at ran
    split at ran
    · cases ran
    · rename_i same
      obtain ⟨-, first⟩ := readNumber_ok number
      obtain ⟨rfl, second⟩ := readHashed_ok hashed
      rw [not_not.mp same] at first second
      exact (first.trans second).trans (ih ran)

theorem readHeader_ok (ran : reader.readHeader = .ok next) : reader.Digests next header := by
  rw [readHeader, except_bind_ok] at ran
  obtain ⟨⟨magic, reader₁⟩, hashed, ran⟩ := ran
  dsimp only at ran
  split at ran
  · cases ran
  rename_i isMagic
  rw [except_bind_ok] at ran
  obtain ⟨⟨version, reader₂⟩, versioned, ran⟩ := ran
  dsimp only at ran
  split at ran
  · cases ran
  rename_i isVersion
  rw [except_bind_ok] at ran
  obtain ⟨⟨flags, reader₃⟩, flagged, ran⟩ := ran
  dsimp only at ran
  split at ran
  · cases ran
  rename_i noFlags
  rw [except_bind_ok] at ran
  obtain ⟨⟨spaces, reader₄⟩, counted, ran⟩ := ran
  dsimp only at ran
  split at ran
  · cases ran
  rename_i allSpaces
  have digests := ((((readHashed_ok hashed).2.trans (readNumber_ok versioned).2).trans
    (readNumber_ok flagged).2).trans (readNumber_ok counted).2).trans (readNames_ok ran)
  rwa [not_not.mp isMagic, not_not.mp isVersion, not_not.mp noFlags, not_not.mp allSpaces] at digests

/-- A row can be read where the reader is. -/
structure Progress.Admits (progress : Progress) (row : Row) : Prop where
  fits : row.Fits
  canonical : row.space < Keyspace.all.length
  space : progress.totals.entries ≠ 0 → progress.lastSpace ≤ row.space
  above : ∀ last ∈ progress.lastKeys[row.space]?.join, last < row.key

theorem readRow_ok {progress : Progress} {tag : UInt8} {row : Row}
    (ran : reader.readRow progress tag = .ok (row, next)) :
    tag = recordTag ∧ progress.Admits row ∧
      (ArchiveReader.mk (tag :: reader.rest) reader.digested).Digests next row.bytes := by
  rw [readRow] at ran
  split at ran
  · cases ran
  rename_i isRecord
  rw [except_bind_ok] at ran
  obtain ⟨⟨space, reader₁⟩, spaced, ran⟩ := ran
  rw [except_bind_ok] at ran
  obtain ⟨⟨keyLen, reader₂⟩, keyed, ran⟩ := ran
  rw [except_bind_ok] at ran
  obtain ⟨⟨valueLen, reader₃⟩, valued, ran⟩ := ran
  dsimp only at ran
  split at ran
  · cases ran
  rename_i isSpace
  split at ran
  · cases ran
  rename_i within
  rw [except_bind_ok] at ran
  obtain ⟨⟨key, reader₄⟩, keyRead, ran⟩ := ran
  rw [except_bind_ok] at ran
  obtain ⟨⟨value, reader₅⟩, valueRead, ran⟩ := ran
  dsimp only at ran
  split at ran
  · cases ran
  rename_i ordered
  cases ran
  obtain rfl := not_not.mp isRecord
  obtain ⟨rfl, fourth⟩ := readHashed_ok keyRead
  obtain ⟨rfl, fifth⟩ := readHashed_ok valueRead
  have first : (ArchiveReader.mk (recordTag :: reader.rest) reader.digested).Digests
      { reader with digested := reader.digested ++ [recordTag] } [recordTag] := ⟨rfl, rfl⟩
  have digests := ((((first.trans (readNumber_ok spaced).2).trans (readNumber_ok keyed).2).trans
    (readNumber_ok valued).2).trans fourth).trans fifth
  rw [not_or, not_le, not_and, not_lt] at isSpace
  rw [not_or, not_or, not_lt, not_lt, List.length_eq_zero_iff] at within
  refine ⟨rfl, ⟨within, isSpace.1, isSpace.2, ?_⟩, digests⟩
  intro last member
  exact not_le.mp fun order => ordered ⟨last, member, order⟩

/-- The rows behind an admitted one come after it. -/
theorem Progress.Precedes.cons {progress later : Progress} {row : Row} {rest : List Row}
    (known : progress.lastKeys.length = Keyspace.all.length) (admits : progress.Admits row)
    (taken : progress.next row = .ok later) (precedes : later.Precedes rest) :
    progress.Precedes (row :: rest) ∧ ∀ other ∈ rest, Before row other := by
  rw [Progress.next, except_bind_ok] at taken
  obtain ⟨totals, added, same⟩ := taken
  obtain ⟨-, rfl⟩ := Totals.add_ok_iff.mp added
  cases same
  have spaces : ∀ other ∈ rest, row.space ≤ other.space :=
    precedes.spaces (Nat.succ_ne_zero _)
  have here : ∀ other ∈ rest, row.space = other.space → row.key < other.key := by
    intro other member same
    apply precedes.above other member
    rw [← same, List.getElem?_set_self (by rw [known]; exact admits.canonical)]
    rfl
  refine ⟨⟨known, ?_, ?_⟩, ?_⟩
  · intro some_ other member
    rcases List.mem_cons.mp member with rfl | member
    · exact admits.space some_
    · exact (admits.space some_).trans (spaces other member)
  · intro other member last found
    rcases List.mem_cons.mp member with rfl | member
    · exact admits.above last found
    · by_cases same : row.space = other.space
      · rw [← same] at found
        exact (admits.above last found).trans (here other member same)
      · apply precedes.above other member
        rwa [List.getElem?_set_ne same]
  · intro other member
    rcases (spaces other member).lt_or_eq with below | same
    · exact .inl below
    · exact .inr ⟨same, here other member same⟩

/-- What the loop over the records has read when it comes to the footer. -/
structure ReadThrough (progress : Progress) (reader next : ArchiveReader) (rows : List Row)
    (totals : Totals) : Prop where
  fits : ∀ row ∈ rows, row.Fits
  canonical : ∀ row ∈ rows, row.space < Keyspace.all.length
  order : rows.Pairwise Before
  precedes : progress.Precedes rows
  bounded : (progress.totals.plusAll rows).Bounded
  totals : totals = progress.totals.plusAll rows
  rest : reader.rest = rows.flatMap Row.bytes ++ footerTag :: next.rest
  digested : next.digested = reader.digested ++ rows.flatMap Row.bytes

theorem readRows_ok {passes : Nat} {progress : Progress} {rows : List Row} {totals : Totals}
    (known : progress.lastKeys.length = Keyspace.all.length) (bounded : progress.totals.Bounded)
    (ran : readRows passes progress reader = (rows, .ok (totals, next))) :
    ReadThrough progress reader next rows totals := by
  induction passes generalizing progress reader rows with
  | zero => cases ran
  | succ passes ih =>
    rw [readRows] at ran
    split at ran
    · cases ran
    rename_i tag reader₁ tagged
    obtain ⟨length, takes⟩ := readExact_ok tagged
    obtain ⟨byte, rfl⟩ := List.length_eq_one_iff.mp length
    split at ran
    · rename_i isFooter
      cases ran
      rw [isFooter] at takes
      exact ⟨by simp, by simp, .nil, ⟨known, by simp, by simp⟩, bounded, rfl, takes.rest,
        takes.digested.trans (List.append_nil _).symm⟩
    · split at ran
      · cases ran
      rename_i row reader₂ rowRead
      split at ran
      · cases ran
      rename_i later taken
      rcases others : readRows passes later reader₂ with ⟨rest, result⟩
      rw [others] at ran
      cases ran
      obtain ⟨rfl, admits, digests⟩ := readRow_ok rowRead
      have taken' := taken
      rw [Progress.next, except_bind_ok] at taken'
      obtain ⟨sums, added, same⟩ := taken'
      obtain ⟨fitting, rfl⟩ := Totals.add_ok_iff.mp added
      cases same
      have through := ih (by rw [List.length_set]; exact known) fitting others
      obtain ⟨precedes, before⟩ := Progress.Precedes.cons known admits taken through.precedes
      refine ⟨List.forall_mem_cons.mpr ⟨admits.fits, through.fits⟩,
        List.forall_mem_cons.mpr ⟨admits.canonical, through.canonical⟩,
        List.pairwise_cons.mpr ⟨before, through.order⟩, precedes, through.bounded, through.totals,
        ?_, ?_⟩
      · rw [takes.rest, List.flatMap_cons, List.append_assoc, ← through.rest]
        exact digests.rest
      · rw [through.digested, digests.digested, takes.digested, List.flatMap_cons,
          List.append_assoc]

theorem readCounts_ok {spaces : Nat} {counts : List Nat}
    (ran : reader.readCounts spaces = .ok (counts, next)) :
    reader.Takes next (counts.flatMap (toBE 8)) := by
  induction spaces generalizing reader counts with
  | zero =>
    cases ran
    exact ⟨rfl, rfl⟩
  | succ spaces ih =>
    rw [readCounts, except_bind_ok] at ran
    obtain ⟨⟨count, reader₁⟩, raw, ran⟩ := ran
    rw [except_bind_ok] at ran
    obtain ⟨⟨others, reader₂⟩, later, last⟩ := ran
    cases last
    exact (readRaw_ok raw).trans (ih later)

/-- A footer that is accepted declares what was read, and nothing stands behind it. -/
theorem readFooter_ok {totals : Totals} {inventory : MigrationInventory}
    (ran : reader.readFooter totals = .ok inventory) :
    reader.rest = toBE 8 totals.entries ++ toBE 8 totals.payloadBytes ++
        totals.counts.flatMap (toBE 8) ++ sha256 reader.digested ∧
      inventory = totals.inventory (sha256 reader.digested) := by
  rw [readFooter] at ran
  dsimp only at ran
  rw [except_bind_ok] at ran
  obtain ⟨⟨entries, reader₁⟩, first, ran⟩ := ran
  rw [except_bind_ok] at ran
  obtain ⟨⟨payloadBytes, reader₂⟩, second, ran⟩ := ran
  rw [except_bind_ok] at ran
  obtain ⟨⟨counts, reader₃⟩, third, ran⟩ := ran
  rw [except_bind_ok] at ran
  obtain ⟨⟨declared, reader₄⟩, fourth, ran⟩ := ran
  dsimp only at ran
  split at ran
  · cases ran
  rename_i nothing
  split at ran
  · cases ran
  rename_i same
  cases ran
  simp only [not_or, not_not] at same nothing
  obtain ⟨rfl, rfl, rfl, rfl⟩ := same
  have takes := (((readRaw_ok first).trans (readRaw_ok second)).trans (readCounts_ok third)).trans
    (readExact_ok fourth).2
  refine ⟨?_, rfl⟩
  rw [takes.rest, nothing, List.append_nil]

end ArchiveReader

/-- The reader accepts a file, handing on some rows, exactly when these are in the order of the
archive and the writer makes this file of them. -/
theorem readArchive_iff {archive : Bytes} {rows : List Row} {inventory : MigrationInventory} :
    readArchive archive = (rows, .ok inventory) ↔
      (∀ row ∈ rows, row.space < Keyspace.all.length) ∧ rows.Pairwise Before ∧
      ∃ writer, ArchiveWriter.create.recordAll rows = .ok writer ∧
        writer.finish = (archive, inventory) := by
  constructor
  · intro ran
    rw [readArchive] at ran
    split at ran
    · cases ran
    rename_i reader headed
    have head := readHeader_ok headed
    rcases looped : readRows reader.rest.length .start reader with ⟨read, result⟩
    rw [looped] at ran
    obtain ⟨rfl, ended⟩ := Prod.mk.inj ran
    rw [except_bind_ok] at ended
    obtain ⟨⟨totals, last⟩, rfl, footer⟩ := ended
    have through := readRows_ok List.length_replicate Totals.bounded_zero looped
    obtain ⟨rest, rfl⟩ := readFooter_ok footer
    obtain rfl := through.totals
    refine ⟨through.canonical, through.order, _,
      (ArchiveWriter.recordAll_ok_iff Totals.bounded_zero).mpr
        ⟨through.fits, through.bounded, rfl⟩, ?_⟩
    have digested : last.digested = header ++ read.flatMap Row.bytes := by
      rw [through.digested, head.digested]
      rfl
    have file := head.rest
    rw [through.rest, rest, digested] at file
    rw [ArchiveWriter.finish, digested]
    refine Prod.ext ?_ rfl
    change _ = archive
    rw [show archive = _ from file]
    simp [ArchiveWriter.create, Progress.start]
  · rintro ⟨canonical, order, writer, recorded, finished⟩
    have read := readArchive_finish recorded canonical order
    rwa [finished] at read

end Vyrm.Store.Migration
