import Vyrm.Kv.Database.Scenario
import Vyrm.Kv.Reference

/-!
# The representation invariant

What a calm run keeps true of the log, the memtable, the manifest and the
segments taken together, and what it means for writes: a batch that is in the
log is always taken by the memtable, and a batch that is rejected leaves no
trace in either of them.
-/

namespace Vyrm.Kv
open Lib Lib.FaultFs Mvcc

variable [Platform]

/-- The alignment of the sequence numbers of a database. Sequences are below the end of the
`u64` range, so the source's additions do not wrap. -/
structure Database.Aligned (db : Database) : Prop where
  next : db.wal.nextSequence = db.memtable.maximumSequence + 1
  u64 : db.wal.nextSequence ≤ u64Max
  newer : ∀ key, ∀ v ∈ db.memtable.versionsAt key, db.manifest.durableSequence < v.sequence
  durable : ∀ segment ∈ db.segments,
    segment.descriptor.maximumSequence ≤ db.manifest.durableSequence ∧
      ∀ entry ∈ segment.entries, entry.2.sequence ≤ segment.descriptor.maximumSequence
  increasing : ∀ key, (db.memtable.versionsAt key).Pairwise fun u v => u.sequence < v.sequence
  segmentIncreasing : ∀ segment ∈ db.segments, ∀ key,
    (versionsOf key segment.entries).Pairwise fun u v => u.sequence < v.sequence

omit [Platform] in
/-- Of entries in canonical order, those of one key are in sequence order. -/
theorem increasing_of_sorted {entries : List Entry} (sorted : entries.Pairwise Entry.Before)
    (key : Bytes) : (versionsOf key entries).Pairwise fun u v => u.sequence < v.sequence := by
  unfold versionsOf
  rw [List.pairwise_map]
  apply (sorted.filter _).imp_of_mem
  intro a b memA memB before
  have keyA := of_decide_eq_true (List.mem_filter.mp memA).2
  have keyB := of_decide_eq_true (List.mem_filter.mp memB).2
  rcases before with less | ⟨-, less⟩
  · rw [keyA, keyB] at less
    exact absurd less (lt_irrefl _)
  · exact less

theorem Live.aligned {files : Files Path} {db : Database} {stored : List Segment}
    {pending : List WriteBatch} (live : Live files db stored pending) : db.Aligned := by
  have sound := live.sound
  have room := live.disk.log.room
  have maximum := live.maximumSequence
  refine ⟨?_, ?_, sound.memtable.newer, ?_, sound.memtable.increasing, ?_⟩
  · rw [live.wal, maximum]
  · rw [live.wal]
    exact room
  · intro segment member
    obtain ⟨entries, holds⟩ := sound.layers.holds segment member
    rw [holds.entries_eq]
    exact ⟨sound.layers.bounded segment member, holds.range.high⟩
  · intro segment member key
    obtain ⟨entries, holds⟩ := sound.layers.holds segment member
    rw [holds.entries_eq]
    exact increasing_of_sorted holds.sorted key

/-- In every state of a calm run the sequence numbers are aligned; so a batch that the log has
taken is one that the memtable takes, and a write that is rejected without an I/O error changes
neither the files nor the database. -/
theorem representation_invariant {trace : List Event} {state : State}
    (run : Run Calm trace state) :
    state.db.Aligned ∧
    ∀ (batch : WriteBatch) (durability : Durability) (oracle : Oracle Path Directory) (tick : Nat)
      (w : World Path Directory Process),
      (∀ payload receipt wal, batch.encode = .ok payload →
        state.db.wal.appendEncodedWriteBatch batch payload durability
          ⟨state.files, state.process, oracle, tick⟩ = .ok (.ok receipt, wal) w →
        (∃ table, state.db.memtable.applyWriteBatch batch receipt.firstSequence
          receipt.lastSequence = .ok table) ∧
        ∃ table, state.db.memtable.applyOwnedWriteBatch batch receipt.firstSequence
          receipt.lastSequence = .ok table) ∧
      (∀ e db', e.isIo = false →
        (state.db.write batch durability ⟨state.files, state.process, oracle, tick⟩ =
            .ok (.error e, db') w ∨
          state.db.writeOwned batch durability ⟨state.files, state.process, oracle, tick⟩ =
            .ok (.error e, db') w) →
        db' = state.db ∧ w.files = state.files) := by
  obtain ⟨stored, pending, live⟩ := run.live
  refine ⟨live.aligned, fun batch durability oracle tick w => ⟨?_, ?_⟩⟩
  · intro payload receipt wal encoded appended
    obtain ⟨-, rfl, -⟩ := WriteBatch.encode_ok encoded
    obtain ⟨-, -, -, -, -, applied, -⟩ := (appendEncoded_wp live encoded).run_ok appended
    exact ⟨⟨_, applied⟩, ⟨_, applied⟩⟩
  · intro e db' notIo rejected
    rw [writeOwned_eq, or_self] at rejected
    rcases ((write_wp live).run_ok rejected).2 with ⟨rfl, same, -⟩ | ⟨io, -⟩
    · exact ⟨rfl, same⟩
    · rw [notIo] at io
      cases io

end Vyrm.Kv

namespace Vyrm.Kv

set_option maxRecDepth 100000 in
theorem representation_invariant_written : ∃ trace state, Run Calm trace state ∧
    state.db.wal.nextSequence = 3 ∧ state.db.Aligned := by
  obtain ⟨trace, state, run, next⟩ := exists_run
    (fun _ state => state.db.wal.nextSequence == 3)
    (calm_of_quiet [.write ⟨[.put [97] [1], .delete [98]]⟩ .authoritative, .sync])
    (by decide +kernel)
  exact ⟨trace, state, run, eq_of_beq next, (representation_invariant run).1⟩

end Vyrm.Kv
