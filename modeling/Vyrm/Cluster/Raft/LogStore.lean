import Vyrm.Cluster.Raft.Apply

/-!
# The log store

`VyrmRaftLogStore` (`crates/vyrm-cluster/src/openraft_adapter.rs`): the entries of the Raft log, the vote,
and the ids of the committed and the purged entries, each as JSON under its key of the node-local
database. Every call that writes hands the database one batch.
-/

namespace Vyrm.Cluster
open Lib Lib.FaultFs Vyrm.Core Vyrm.Store Serde

/-! ## What OpenRaft passes -/

/-- `Vote`: a leader id, and whether a quorum has granted the vote. -/
structure Vote where
  term : UInt64
  nodeId : UInt64
  committed : Bool
  deriving DecidableEq, Repr

/-- `Vote::partial_cmp`: by the leader id, which is ordered by term and node, and then by `committed`. -/
def Vote.partialCmp (vote other : Vote) : Option Ordering :=
  some (((compare vote.term other.term).then (compare vote.nodeId other.nodeId)).then
    (compare vote.committed other.committed))

/-- A vote that `save_vote` does not put in the place of the current one (`openraft_adapter.rs:684-687`). -/
def Vote.regresses (vote current : Vote) : Bool := (vote.partialCmp current).all Ordering.isLT

/-- `std::ops::Bound`. -/
inductive Bound where
  | included (index : UInt64)
  | excluded (index : UInt64)
  | unbounded
  deriving DecidableEq

/-- `RangeBounds`. -/
structure IndexRange where
  start : Bound
  stop : Bound
  deriving DecidableEq

/-- `range_contains` (`openraft_adapter.rs:1610-1622`). -/
def IndexRange.contains (range : IndexRange) (value : UInt64) : Bool :=
  let afterStart := match range.start with
    | .included start => decide (start ≤ value)
    | .excluded start => decide (start < value)
    | .unbounded => true
  let beforeEnd := match range.stop with
    | .included stop => decide (value ≤ stop)
    | .excluded stop => decide (value < stop)
    | .unbounded => true
  afterStart && beforeEnd

/-- `..`. -/
def IndexRange.full : IndexRange := ⟨.unbounded, .unbounded⟩

/-- `LogState`. -/
structure LogState where
  lastPurgedLogId : Option LogId
  lastLogId : Option LogId
  deriving DecidableEq

/-- How what OpenRaft passes is written and read. -/
class LogCodec where
  [vote : Serde Vote]
  [logId : Serde LogId]
  [committed : Serde (Option LogId)]

attribute [reducible, instance] LogCodec.vote LogCodec.logId LogCodec.committed

/-! ## Keys -/

/-- `KEY_VOTE` (`openraft_adapter.rs:46`). -/
def keyVote : Bytes := utf8 "vyrm/raft/v4/local/vote"

/-- `KEY_COMMITTED` (`openraft_adapter.rs:47`). -/
def keyCommitted : Bytes := utf8 "vyrm/raft/v4/local/committed"

/-- `KEY_PURGED` (`openraft_adapter.rs:48`). -/
def keyPurged : Bytes := utf8 "vyrm/raft/v4/local/purged"

/-- `LOG_PREFIX` (`openraft_adapter.rs:51`). -/
def logPrefix : Bytes := utf8 "vyrm/raft/v4/local/log/"

/-- `log_key` (`openraft_adapter.rs:1573-1578`). -/
def logKey (index : UInt64) : Bytes := logPrefix ++ be64 index

/-- `decode_log_key` (`openraft_adapter.rs:1580-1596`). -/
def decodeLogKey (key : Bytes) : Except RaftError UInt64 :=
  match stripFront logPrefix key with
  | none => .error (.adapter "raft log key has an invalid prefix")
  | some suffix =>
    if suffix.length ≠ 8 then .error (.adapter "raft log key has an invalid length")
    else .ok (UInt64.ofNat (ofBE suffix))

/-- The configuration of a node-local database (`openraft_adapter.rs:502-506`). -/
def localConfig (shard : ShardId) : AdapterConfig := ⟨adapterFormatVersion, shard, .localRaft⟩

/-! ## Reading -/

/-- An error of the database under the name the adapter passes it on by. -/
def passed {α : Type} : Except Kv.Error α → Except RaftError α
  | .ok a => .ok a
  | .error e => .error (.batch e)

/-- `decode_json` (`openraft_adapter.rs:1557-1563`). -/
def decodeJson {α : Type} [Serde α] (bytes : Bytes) : Except RaftError α :=
  match fromSlice bytes with
  | .ok a => .ok a
  | .error message => .error (.codec message)

/-- `read_json` (`openraft_adapter.rs:1493-1504`). -/
def readJson {α : Type} [Serde α] (view : View) (key : Bytes) : Except RaftError (Option α) := do
  match ← passed (view.get key) with
  | none => return none
  | some bytes => return some (← decodeJson bytes)

/-- The rows of the log (`openraft_adapter.rs:633-637`, `1469-1473`). -/
def scanLog (view : View) : Except RaftError (List (Bytes × Bytes)) :=
  passed (view.scan logPrefix (prefixEnd logPrefix))

/-- The loop of `try_get_log_entries` (`openraft_adapter.rs:638-648`). -/
def entriesOfRows [RaftCodec] (range : IndexRange) : List (Bytes × Bytes) → Except RaftError (List VyrmRaftEntry)
  | [] => .ok []
  | (key, value) :: rest => do
    let index ← decodeLogKey key
    if range.contains index then
      let entry ← decodeJson value
      return entry :: (← entriesOfRows range rest)
    else entriesOfRows range rest

/-- `try_get_log_entries` (`openraft_adapter.rs:628-650`). -/
def tryGetLogEntries [RaftCodec] (view : View) (range : IndexRange) : Except RaftError (List VyrmRaftEntry) := do
  entriesOfRows range (← scanLog view)

/-- `get_log_state` (`openraft_adapter.rs:656-671`). -/
def getLogState [RaftCodec] [LogCodec] (view : View) : Except RaftError LogState := do
  let lastPurgedLogId ← readJson view keyPurged
  let lastPresent := (← tryGetLogEntries view .full).getLast?.map (·.logId)
  return { lastLogId := lastPresent.or lastPurgedLogId, lastPurgedLogId }

/-- `read_vote` (`openraft_adapter.rs:707-709`). -/
def readVote [LogCodec] (view : View) : Except RaftError (Option Vote) := readJson view keyVote

/-- `read_committed` (`openraft_adapter.rs:723-732`). -/
def readCommitted [LogCodec] (view : View) : Except RaftError (Option LogId) := do
  return (← readJson (α := Option LogId) view keyCommitted).join

/-! ## What a call writes -/

/-- `put_json_storage` (`openraft_adapter.rs:1538-1547`). -/
def putJson {α : Type} [Serde α] (key : Bytes) (value : α) : Kv.Mutation := .put key (toVec value)

/-- Two neighbours of an append batch are not consecutive (`openraft_adapter.rs:1431-1439`). -/
def hasHole : List VyrmRaftEntry → Bool
  | first :: second :: rest => second.logId.index ≠ first.logId.index + 1 || hasHole (second :: rest)
  | _ => false

/-- What `persist_entries` writes (`openraft_adapter.rs:1424-1451`). -/
def persistEntries [RaftCodec] (entries : List VyrmRaftEntry) : Except RaftError (List Kv.Mutation) :=
  if hasHole entries then .error (.adapter "append batch contains a log index hole")
  else .ok (entries.map fun entry => putJson (logKey entry.logId.index) entry)

/-- `log_delete_operations` (`openraft_adapter.rs:1464-1481`), over the rows of the log. -/
def deletesOfRows (range : IndexRange) : List (Bytes × Bytes) → Except RaftError (List Kv.Mutation)
  | [] => .ok []
  | (key, _) :: rest => do
    let index ← decodeLogKey key
    let later ← deletesOfRows range rest
    return if range.contains index then .delete key :: later else later

/-- `log_delete_operations` (`openraft_adapter.rs:1464-1481`). -/
def logDeleteOperations (view : View) (range : IndexRange) : Except RaftError (List Kv.Mutation) := do
  deletesOfRows range (← scanLog view)

/-- The calls of `RaftLogStorage` that write. -/
inductive LogCall where
  | saveVote (vote : Vote)
  | saveCommitted (committed : Option LogId)
  | append (entries : List VyrmRaftEntry)
  | truncate (logId : LogId)
  | purge (logId : LogId)

section

variable [RaftCodec] [LogCodec]

/-- What `save_vote` writes (`openraft_adapter.rs:677-695`). -/
def saveVote (view : View) (vote : Vote) : Except RaftError (List Kv.Mutation) := do
  let current ← readVote view
  if current.any vote.regresses then
    throw (.adapter "refusing to persist a regressing or incomparable vote")
  return [putJson keyVote vote]

/-- What `purge` writes (`openraft_adapter.rs:761-765`). -/
def purge (view : View) (logId : LogId) : Except RaftError (List Kv.Mutation) := do
  let operations ← logDeleteOperations view ⟨.unbounded, .included logId.index⟩
  return operations ++ [putJson keyPurged logId]

/-- What a call writes; one that has nothing to write leaves the database alone. -/
def LogCall.operations (view : View) : LogCall → Except RaftError (List Kv.Mutation)
  | .saveVote vote => Cluster.saveVote view vote
  | .saveCommitted committed => .ok [putJson keyCommitted committed]
  | .append entries => persistEntries entries
  | .truncate logId => logDeleteOperations view ⟨.included logId.index, .unbounded⟩
  | .purge logId => Cluster.purge view logId

end

/-! ## The store -/

/-- `VyrmRaftLogStore` (`openraft_adapter.rs:464-467`). -/
structure VyrmRaftLogStore where
  localDatabase : Kv.Database

namespace VyrmRaftLogStore

variable [Kv.Platform] [RaftCodec] [LogCodec]

/-- What the current snapshot of the database answers. -/
def view (store : VyrmRaftLogStore) : View where
  get key := store.localDatabase.get key store.localDatabase.snapshot
  scan start stop := store.localDatabase.scan start stop store.localDatabase.snapshot

/-- `write_operations` (`openraft_adapter.rs:1506-1517`). -/
def writeOperations (store : VyrmRaftLogStore) (operations : List Kv.Mutation) :
    Kv.Io (Except RaftError Unit × VyrmRaftLogStore) := do
  match Kv.WriteBatch.new operations with
  | .error e => return (.error (.batch e), store)
  | .ok batch =>
    let (result, localDatabase) ← store.localDatabase.writeOwned batch .authoritative
    return (passed (result.map fun _ => ()), ⟨localDatabase⟩)

/-- A call: what it has planned is written, unless it has failed or there is nothing to write. -/
def call (store : VyrmRaftLogStore) (logCall : LogCall) : Kv.Io (Except RaftError Unit × VyrmRaftLogStore) := do
  match logCall.operations store.view with
  | .error e => return (.error e, store)
  | .ok [] => return (.ok (), store)
  | .ok operations => store.writeOperations operations

/-- `open_adapter_database` (`openraft_adapter.rs:531-547`); `create` refuses a directory that has content. -/
def openAdapterDatabase : Kv.Io Kv.Database := do
  if ← pathExists .current then Kv.Database.open else Kv.Database.create

omit [LogCodec] in
/-- `ensure_adapter_database` of the node-local database (`openraft_adapter.rs:580-625`). -/
def ensureAdapterDatabase (store : VyrmRaftLogStore) (shard : ShardId) :
    Kv.Io (Except RaftError Unit × VyrmRaftLogStore) := do
  match store.view.get keyLocalConfig with
  | .error e => return (.error (.batch e), store)
  | .ok (some bytes) =>
    match fromSlice bytes with
    | .error message => return (.error (.cluster (.denied message)), store)
    | .ok (actual : AdapterConfig) =>
      if actual ≠ localConfig shard then
        return (.error (.cluster (.denied
          "raft adapter format, shard binding, or storage domain does not match")), store)
      else return (.ok (), store)
  | .ok none =>
    if store.localDatabase.snapshot.sequence ≠ 0 then
      return (.error (.cluster (.denied "existing database is not a Vyrm OpenRaft v4 storage domain")), store)
    else store.writeOperations [putJson keyLocalConfig (localConfig shard)]

omit [LogCodec] in
/-- `VyrmRaftStore::open` (`openraft_adapter.rs:481-528`), as far as the log store goes. -/
def «open» (shard : ShardId) : Kv.Io (Except RaftError Unit × VyrmRaftLogStore) := do
  let localDatabase ← openAdapterDatabase
  ensureAdapterDatabase ⟨localDatabase⟩ shard

end VyrmRaftLogStore

end Vyrm.Cluster
