import Vyrm.Cluster.Raft.LogStore
import Vyrm.Core.Key.Order

/-!
# The log store as a log

What the log store is for: a list of entries, cut at its front and at its end, beside the last purged id,
the vote and the committed id. The rows of the node-local database are those of such a log in every run
of calls that append to its end, and what the store reads is what the log says.
-/

namespace Vyrm.Cluster
open Lib Lib.FaultFs Mvcc Vyrm.Core Vyrm.Store Serde

/-! ## The log -/

/-- The log of a replica. -/
structure LogReference where
  purged : Option LogId
  entries : List VyrmRaftEntry
  vote : Option Vote
  committed : Option LogId

namespace LogReference

def empty : LogReference := ⟨none, [], none, none⟩

/-- The id of the last entry that is there or was purged. -/
def last (log : LogReference) : Option LogId := (log.entries.getLast?.map (·.logId)).or log.purged

/-- The entries with an index in a range. -/
def entriesIn (log : LogReference) (range : IndexRange) : List VyrmRaftEntry :=
  log.entries.filter fun entry => range.contains entry.logId.index

/-- The log after a call. -/
def after (log : LogReference) : LogCall → LogReference
  | .saveVote vote => { log with vote := some vote }
  | .saveCommitted committed => { log with committed := committed }
  | .append entries => { log with entries := log.entries ++ entries }
  | .truncate logId => { log with entries := log.entries.filter fun entry => entry.logId.index < logId.index }
  | .purge logId =>
    { log with
      entries := log.entries.filter fun entry => logId.index < entry.logId.index
      purged := some logId }

end LogReference

/-- The entries have consecutive indices that go on from an id. -/
def Consecutive : Option LogId → List VyrmRaftEntry → Prop
  | _, [] => True
  | last, entry :: rest =>
    (∀ logId ∈ last, entry.logId.index.toNat = logId.index.toNat + 1) ∧ Consecutive (some entry.logId) rest

/-- OpenRaft appends behind the last index. It also cuts above the purged index only, and purges up to
the last index or that of a snapshot, but the store does not depend on that. -/
def LogReference.Allows (log : LogReference) : LogCall → Prop
  | .append entries => Consecutive log.last entries
  | _ => True

theorem lt_of_consecutive {logId : LogId} {entries : List VyrmRaftEntry} (consecutive : Consecutive (some logId) entries) :
    ∀ entry ∈ entries, logId.index < entry.logId.index := by
  induction entries generalizing logId with
  | nil => nofun
  | cons first rest ih =>
    obtain ⟨next, later⟩ := consecutive
    have less : logId.index < first.logId.index := by
      rw [UInt64.lt_iff_toNat_lt, next _ rfl]
      omega
    intro entry member
    rcases List.mem_cons.mp member with rfl | member
    · exact less
    · exact UInt64.lt_trans less (ih later entry member)

theorem pairwise_of_consecutive {last : Option LogId} {entries : List VyrmRaftEntry}
    (consecutive : Consecutive last entries) :
    entries.Pairwise fun a b => a.logId.index < b.logId.index := by
  induction entries generalizing last with
  | nil => exact .nil
  | cons first rest ih => exact .cons (lt_of_consecutive consecutive.2) (ih consecutive.2)

/-- What follows the last id of a log comes behind all of its entries. -/
theorem lt_of_last {log : LogReference} {entries : List VyrmRaftEntry}
    (increasing : log.entries.Pairwise fun a b => a.logId.index < b.logId.index)
    (consecutive : Consecutive log.last entries) :
    ∀ old ∈ log.entries, ∀ entry ∈ entries, old.logId.index < entry.logId.index := by
  intro old isOld entry isNew
  cases ends : log.entries.getLast? with
  | none =>
    rw [List.getLast?_eq_none_iff.mp ends] at isOld
    cases isOld
  | some final =>
    have last : log.last = some final.logId := by rw [LogReference.last, ends, Option.map_some, Option.some_or]
    rw [last] at consecutive
    have less := lt_of_consecutive consecutive entry isNew
    obtain ⟨front, whole⟩ := List.getLast?_eq_some_iff.mp ends
    rw [whole] at isOld increasing
    rcases List.mem_append.mp isOld with earlier | here
    · exact UInt64.lt_trans ((List.pairwise_append.mp increasing).2.2 old earlier final (by simp)) less
    · rw [List.mem_singleton.mp here]
      exact less

/-! ## Keys of the log -/

theorem isPrefix_logKey (index : UInt64) : logPrefix <+: logKey index := List.prefix_append _ _

theorem logKey_lt_logKey_iff {a b : UInt64} : logKey a < logKey b ↔ a < b := by
  rw [logKey, logKey, append_lt_append_left_iff, be64, be64, toBE_lt_toBE_iff a.toNat_lt b.toNat_lt,
    UInt64.lt_iff_toNat_lt]

theorem logKey_inj {a b : UInt64} : logKey a = logKey b ↔ a = b := by
  constructor
  · intro same
    exact UInt64.toNat_inj.mp (toBE_inj a.toNat_lt b.toNat_lt (List.append_cancel_left same))
  · intro same
    rw [same]

theorem decodeLogKey_logKey (index : UInt64) : decodeLogKey (logKey index) = .ok index := by
  have suffix : stripFront logPrefix (logKey index) = some (be64 index) := by
    rw [stripFront, if_pos (isPrefix_logKey index), logKey, List.drop_left]
  have value : ofBE (be64 index) = index.toNat := ofBE_toBE_of_lt index.toNat_lt
  rw [decodeLogKey, suffix]
  dsimp only
  rw [if_neg (by simp [be64]), value, UInt64.ofNat_toNat]

/-- The keys beside the log are different ones, and none of them is a key of the log. -/
theorem keys_apart : [keyLocalConfig, keyVote, keyCommitted, keyPurged].Nodup ∧
    ∀ key ∈ [keyLocalConfig, keyVote, keyCommitted, keyPurged], ¬ logPrefix <+: key := by decide +kernel

/-- The end of the scans of the log. -/
theorem within_logPrefix (key : Bytes) : OrdMap.Within logPrefix (prefixEnd logPrefix) key ↔ logPrefix <+: key := by
  have ends : prefixEnd logPrefix = some (utf8 "vyrm/raft/v4/local/log0") := by decide +kernel
  rw [OrdMap.Within, ends]
  constructor
  · intro within
    exact (lt_prefixEnd_iff ends within.1).mp (within.2 _ rfl)
  · intro has
    refine ⟨le_of_isPrefix has, ?_⟩
    rintro last ⟨⟩
    exact (lt_prefixEnd_iff ends (le_of_isPrefix has)).mpr has

/-! ## Rows of a log -/

section

variable [RaftCodec] {rows : Rows} {log : LogReference}

/-- The row of an entry. -/
def logRow (entry : VyrmRaftEntry) : Bytes × Bytes := (logKey entry.logId.index, toVec entry)

/-- What the rows hold under the keys of the log. -/
def logOf (rows : Rows) (key : Bytes) : Option Bytes := if logPrefix <+: key then rows[key]? else none

/-- A scan of the log lists its rows. -/
theorem scanLog_of_graph {entries : List VyrmRaftEntry} (graph : IsGraph (entries.map logRow) (logOf rows)) :
    scanLog rows.view = .ok (entries.map logRow) := by
  classical
  have scanned := OrdMap.isGraph_range rows logPrefix (prefixEnd logPrefix)
  have answers : (fun key => if OrdMap.Within logPrefix (prefixEnd logPrefix) key then rows[key]? else none) =
      logOf rows := by
    funext key
    simp only [within_logPrefix, logOf]
  rw [answers] at scanned
  exact congrArg Except.ok (scanned.unique graph)

/-- The loop of a read returns the entries of its range if each of them is read back, and else not. -/
theorem entriesOfRows_iff (range : IndexRange) (entries : List VyrmRaftEntry) :
    entriesOfRows range (entries.map logRow) = .ok (entries.filter fun entry => range.contains entry.logId.index) ↔
      ∀ entry ∈ entries, range.contains entry.logId.index → fromSlice (toVec entry) = .ok entry := by
  induction entries with
  | nil => simp [entriesOfRows]
  | cons entry rest ih =>
    rw [List.map_cons, logRow, entriesOfRows, decodeLogKey_logKey, except_ok_bind, List.forall_mem_cons]
    by_cases inside : range.contains entry.logId.index
    · simp only [if_pos inside, List.filter_cons, decodeJson]
      cases read : (fromSlice (toVec entry) : Except String VyrmRaftEntry) with
      | error message => simp [inside, Bind.bind, Except.bind]
      | ok first =>
        rw [except_ok_bind]
        constructor
        · intro done
          obtain ⟨later, loop, done⟩ := except_bind_ok.mp done
          obtain ⟨same, rfl⟩ := List.cons.inj (Except.ok.inj done)
          exact ⟨fun _ => congrArg Except.ok same, ih.mp loop⟩
        · rintro ⟨same, later⟩
          rw [ih.mpr later, except_ok_bind, Except.ok.inj (same inside)]
          rfl
    · simp only [if_neg inside, List.filter_cons, ih]
      simp [inside]

theorem deletesOfRows_logRow (range : IndexRange) (entries : List VyrmRaftEntry) :
    deletesOfRows range (entries.map logRow) =
      .ok ((entries.filter fun entry => range.contains entry.logId.index).map
        fun entry => Kv.Mutation.delete (logKey entry.logId.index)) := by
  induction entries with
  | nil => rfl
  | cons entry rest ih =>
    rw [List.map_cons, logRow, deletesOfRows, decodeLogKey_logKey, except_ok_bind, ih, except_ok_bind]
    by_cases inside : range.contains entry.logId.index
    · simp only [if_pos inside, List.filter_cons]
      rfl
    · simp only [if_neg inside, List.filter_cons]
      rfl

/-! ## What a call leaves -/

omit [RaftCodec] in
/-- The log of other rows that are the same under its keys. -/
theorem logOf_congr {rows' : Rows} (same : ∀ key, logPrefix <+: key → rows'[key]? = rows[key]?) :
    logOf rows' = logOf rows := by
  funext key
  by_cases has : logPrefix <+: key
  · rw [logOf, logOf, if_pos has, if_pos has, same key has]
  · rw [logOf, logOf, if_neg has, if_neg has]

omit [RaftCodec] in
/-- A value that is put beside the log leaves the log alone. -/
theorem graph_put {α : Type} [Serde α] {pairs : List (Bytes × Bytes)} {key : Bytes} (beside : ¬ logPrefix <+: key)
    (value : α) (graph : IsGraph pairs (logOf rows)) : IsGraph pairs (logOf (rows.apply (putJson key value))) := by
  rw [logOf_congr]
  · exact graph
  · intro other has
    rw [putJson, Rows.getElem?_apply, Kv.Mutation.key, if_neg]
    rintro rfl
    exact beside has

/-- The entries of a log have increasing indices. -/
theorem pairwise_of_graph {entries : List VyrmRaftEntry} (graph : IsGraph (entries.map logRow) (logOf rows)) :
    entries.Pairwise fun a b => a.logId.index < b.logId.index :=
  (List.pairwise_map.mp graph.sorted).imp fun less => logKey_lt_logKey_iff.mp less

/-- Appending puts the rows of the new entries behind those of the log. -/
theorem graph_appended {entries : List VyrmRaftEntry} (graph : IsGraph (log.entries.map logRow) (logOf rows))
    (consecutive : Consecutive log.last entries) :
    IsGraph ((log.entries ++ entries).map logRow)
      (logOf ((entries.map fun entry => putJson (logKey entry.logId.index) entry).foldl Rows.apply rows)) := by
  have increasing := pairwise_of_consecutive consecutive
  have distinct : (entries.map fun entry => logKey entry.logId.index).Nodup := by
    rw [List.nodup_iff_pairwise_ne, List.pairwise_map]
    apply increasing.imp
    intro a b less same
    rw [logKey_inj.mp same] at less
    exact UInt64.lt_irrefl _ less
  have above := lt_of_last (pairwise_of_graph graph) consecutive
  rw [List.map_append]
  refine graph.append ?_ ?_ ?_
  · rw [List.pairwise_map]
    exact increasing.imp fun less => logKey_lt_logKey_iff.mpr less
  · intro x oldRow y newRow
    obtain ⟨old, isOld, rfl⟩ := List.mem_map.mp oldRow
    obtain ⟨entry, isNew, rfl⟩ := List.mem_map.mp newRow
    exact logKey_lt_logKey_iff.mpr (above old isOld entry isNew)
  · intro key value
    have puts := @Rows.getElem?_foldl_puts _ _ toVec rows _ distinct key value
    have listed : (key, value) ∈ entries.map logRow ↔
        ∃ entry ∈ entries, logKey entry.logId.index = key ∧ toVec entry = value := by simp [logRow]
    rw [listed]
    by_cases has : logPrefix <+: key
    · rw [logOf, if_pos has]
      refine puts.trans ⟨?_, ?_⟩
      · rintro (new | ⟨-, found⟩)
        · exact .inr new
        · exact .inl ((if_pos has).trans found)
      · rintro (old | new)
        · obtain ⟨entry, isOld, row⟩ := List.mem_map.mp ((graph.mem key value).mpr old)
          refine .inr ⟨fun other isNew same => ?_, (if_pos has).symm.trans old⟩
          have less := above entry isOld other isNew
          rw [logKey_inj.mp (same.trans (congrArg Prod.fst row).symm)] at less
          exact UInt64.lt_irrefl _ less
        · exact .inl new
    · rw [logOf, logOf, if_neg has, if_neg has]
      constructor
      · nofun
      · rintro (none_ | ⟨entry, -, rfl, -⟩)
        · cases none_
        · exact absurd (isPrefix_logKey _) has

/-- Deleting the entries of a range leaves the rows of the others. -/
theorem graph_deleted {entries : List VyrmRaftEntry} (graph : IsGraph (entries.map logRow) (logOf rows))
    (range : IndexRange) :
    IsGraph ((entries.filter fun entry => ¬ range.contains entry.logId.index).map logRow)
      (logOf (((entries.filter fun entry => range.contains entry.logId.index).map
        fun entry => Kv.Mutation.delete (logKey entry.logId.index)).foldl Rows.apply rows)) := by
  let keys := (entries.filter fun entry => range.contains entry.logId.index).map fun entry => logKey entry.logId.index
  have kept : ((entries.map logRow).filter fun row => decide (row.1 ∉ keys)) =
      (entries.filter fun entry => ¬ range.contains entry.logId.index).map logRow := by
    rw [List.filter_map]
    congr 1
    apply List.filter_congr
    intro entry member
    rw [Function.comp_apply, decide_eq_decide, not_iff_not]
    constructor
    · intro named
      obtain ⟨other, inside, same⟩ := List.mem_map.mp named
      rw [← logKey_inj.mp same]
      exact (List.mem_filter.mp inside).2
    · intro inside
      exact List.mem_map.mpr ⟨entry, List.mem_filter.mpr ⟨member, inside⟩, rfl⟩
  have left : logOf ((keys.map Kv.Mutation.delete).foldl Rows.apply rows) =
      fun key => if decide (key ∉ keys) then logOf rows key else none := by
    funext key
    by_cases deleted : key ∈ keys <;> simp [logOf, Rows.getElem?_foldl_deletes, deleted]
  have graph := graph.filter fun key => decide (key ∉ keys)
  rw [kept, ← left, List.map_map] at graph
  exact graph

end

/-! ## What a call leaves -/

section

variable [RaftCodec] [LogCodec] {shard : ShardId} {rows : Rows} {log : LogReference}

/-- The rows are those of a log. -/
structure LogRows (shard : ShardId) (rows : Rows) (log : LogReference) : Prop where
  config : rows[keyLocalConfig]? = some (toVec (localConfig shard))
  vote : rows[keyVote]? = log.vote.map toVec
  committed : ∃ saved : Option (Option LogId), rows[keyCommitted]? = saved.map toVec ∧ saved.join = log.committed
  purged : rows[keyPurged]? = log.purged.map toVec
  entries : IsGraph (log.entries.map logRow) (logOf rows)


/-- What OpenRaft passes is read back as it was written. -/
structure ReadsBackIds (shard : ShardId) : Prop where
  vote : ∀ vote : Vote, fromSlice (toVec vote) = .ok vote
  logId : ∀ logId : LogId, fromSlice (toVec logId) = .ok logId
  committed : ∀ committed : Option LogId, fromSlice (toVec committed) = .ok committed
  config : fromSlice (toVec (localConfig shard)) = .ok (localConfig shard)

namespace LogRows

omit [RaftCodec] [LogCodec] in
theorem readJson_eq {α : Type} [Serde α] {key : Bytes} {value : Option α} (found : rows[key]? = value.map toVec)
    (back : ∀ a : α, fromSlice (toVec a) = .ok a) : readJson rows.view key = .ok value := by
  unfold readJson
  rw [show rows.view.get key = .ok rows[key]? from rfl, found]
  cases value with
  | none => rfl
  | some a => simp [passed, decodeJson, back, Bind.bind, Except.bind, Pure.pure, Except.pure]

theorem readVote (keeps : LogRows shard rows log) (back : ReadsBackIds shard) :
    Cluster.readVote rows.view = .ok log.vote := readJson_eq keeps.vote back.vote

theorem readCommitted (keeps : LogRows shard rows log) (back : ReadsBackIds shard) :
    Cluster.readCommitted rows.view = .ok log.committed := by
  obtain ⟨saved, found, joined⟩ := keeps.committed
  rw [Cluster.readCommitted, readJson_eq found back.committed, except_ok_bind, ← joined]
  rfl

/-- A read of the log returns the entries of its range just when each of them is read back. -/
theorem tryGetLogEntries_iff (keeps : LogRows shard rows log) (range : IndexRange) :
    tryGetLogEntries rows.view range = .ok (log.entriesIn range) ↔
      ∀ entry ∈ log.entries, range.contains entry.logId.index → fromSlice (toVec entry) = .ok entry := by
  rw [tryGetLogEntries, scanLog_of_graph keeps.entries, except_ok_bind]
  exact entriesOfRows_iff range log.entries

theorem getLogState (keeps : LogRows shard rows log) (back : ReadsBackIds shard)
    (entries : ∀ entry ∈ log.entries, fromSlice (toVec entry) = .ok entry) :
    Cluster.getLogState rows.view = .ok { lastPurgedLogId := log.purged, lastLogId := log.last } := by
  have all : log.entriesIn .full = log.entries := List.filter_eq_self.mpr fun _ _ => rfl
  rw [Cluster.getLogState, readJson_eq keeps.purged back.logId, except_ok_bind,
    (keeps.tryGetLogEntries_iff .full).mpr fun entry member _ => entries entry member, all, except_ok_bind]
  rfl

/-- Writing under keys of the log alone. -/
theorem logged (keeps : LogRows shard rows log) {operations : List Kv.Mutation} {entries : List VyrmRaftEntry}
    (inLog : ∀ operation ∈ operations, logPrefix <+: operation.key)
    (graph : IsGraph (entries.map logRow) (logOf (operations.foldl Rows.apply rows))) :
    LogRows shard (operations.foldl Rows.apply rows) { log with entries } := by
  have beside : ∀ key ∈ [keyLocalConfig, keyVote, keyCommitted, keyPurged],
      (operations.foldl Rows.apply rows)[key]? = rows[key]? := by
    intro key member
    apply Rows.getElem?_foldl_of_notMem
    intro operation written same
    exact keys_apart.2 key member (same ▸ inLog operation written)
  obtain ⟨saved, found, joined⟩ := keeps.committed
  refine ⟨?_, ?_, ⟨saved, ?_, joined⟩, ?_, graph⟩
  · rw [beside _ (by simp), keeps.config]
  · rw [beside _ (by simp), keeps.vote]
  · rw [beside _ (by simp), found]
  · rw [beside _ (by simp), keeps.purged]

omit [LogCodec] in
/-- What the adapter deletes in a range of the log. -/
theorem deletes {operations : List Kv.Mutation} {range : IndexRange} {entries : List VyrmRaftEntry}
    (graph : IsGraph (entries.map logRow) (logOf rows))
    (planned : logDeleteOperations rows.view range = .ok operations) :
    (∀ operation ∈ operations, logPrefix <+: operation.key) ∧
      IsGraph ((entries.filter fun entry => ¬ range.contains entry.logId.index).map logRow)
        (logOf (operations.foldl Rows.apply rows)) := by
  rw [logDeleteOperations, scanLog_of_graph graph, except_ok_bind, deletesOfRows_logRow] at planned
  cases planned
  refine ⟨fun operation member => ?_, graph_deleted graph range⟩
  obtain ⟨entry, -, rfl⟩ := List.mem_map.mp member
  exact isPrefix_logKey _

omit [RaftCodec] [LogCodec] in
theorem getElem?_putJson {α : Type} [Serde α] (rows : Rows) (key : Bytes) (value : α) (other : Bytes) :
    (rows.apply (putJson key value))[other]? = if key = other then some (toVec value) else rows[other]? :=
  Rows.getElem?_apply rows _ other

/-- A call whose batch is written takes the rows of the log to those of the log after it. -/
theorem after {logCall : LogCall} {operations : List Kv.Mutation} (keeps : LogRows shard rows log)
    (allows : log.Allows logCall) (planned : logCall.operations rows.view = .ok operations) :
    LogRows shard (operations.foldl Rows.apply rows) (log.after logCall) := by
  have ⟨distinct, beside⟩ := keys_apart
  simp only [List.nodup_cons, List.mem_cons, List.not_mem_nil, or_false, not_or, not_false_eq_true,
    List.nodup_nil, and_true] at distinct
  obtain ⟨⟨configVote, configCommitted, configPurged⟩, ⟨voteCommitted, votePurged⟩, committedPurged⟩ := distinct
  cases logCall with
  | saveVote vote =>
    obtain ⟨current, -, planned⟩ := except_bind_ok.mp planned
    obtain ⟨-, planned⟩ := except_reject_ok.mp planned
    cases planned
    obtain ⟨saved, found, joined⟩ := keeps.committed
    refine ⟨?_, ?_, ⟨saved, ?_, joined⟩, ?_, ?_⟩
    · simp [getElem?_putJson, Ne.symm configVote, keeps.config]
    · simp [getElem?_putJson, LogReference.after]
    · simp [getElem?_putJson, voteCommitted, found]
    · simp [getElem?_putJson, votePurged, keeps.purged, LogReference.after]
    · exact graph_put (beside keyVote (by simp)) vote keeps.entries
  | saveCommitted committed =>
    cases planned
    refine ⟨?_, ?_, ⟨some committed, ?_, rfl⟩, ?_, ?_⟩
    · simp [getElem?_putJson, Ne.symm configCommitted, keeps.config]
    · simp [getElem?_putJson, Ne.symm voteCommitted, keeps.vote, LogReference.after]
    · simp [getElem?_putJson]
    · simp [getElem?_putJson, committedPurged, keeps.purged, LogReference.after]
    · exact graph_put (beside keyCommitted (by simp)) committed keeps.entries
  | append entries =>
    obtain ⟨-, planned⟩ := except_reject_ok.mp planned
    cases planned
    refine keeps.logged (fun operation member => ?_) (graph_appended keeps.entries allows)
    obtain ⟨entry, -, rfl⟩ := List.mem_map.mp member
    exact isPrefix_logKey _
  | truncate logId =>
    obtain ⟨inLog, graph⟩ := deletes keeps.entries planned
    simp [IndexRange.contains] at graph
    exact keeps.logged inLog graph
  | purge logId =>
    obtain ⟨operations', isDeletes, planned⟩ := except_bind_ok.mp planned
    cases planned
    obtain ⟨inLog, graph⟩ := deletes keeps.entries isDeletes
    simp [IndexRange.contains] at graph
    have cut := keeps.logged inLog graph
    rw [List.foldl_append]
    obtain ⟨saved, found, joined⟩ := cut.committed
    refine ⟨?_, ?_, ⟨saved, ?_, joined⟩, ?_, ?_⟩
    · simp [getElem?_putJson, Ne.symm configPurged, cut.config]
    · simp [getElem?_putJson, Ne.symm votePurged, cut.vote, LogReference.after]
    · simp [getElem?_putJson, Ne.symm committedPurged, found]
    · simp [getElem?_putJson, LogReference.after]
    · exact graph_put (beside keyPurged (by simp)) logId cut.entries

end LogRows

end

end Vyrm.Cluster
