import Vyrm.Core.Runtime.Graph

/-!
# Previews and commits

A transaction previewed over the graph at a cursor shows the graph that the log
has once the transaction is committed at the cursors after it. The preview starts
from what was visible, the replay from everything that was ever written; the two
graphs agree on what is visible at the instant, and writing keeps them agreeing.
-/

namespace Vyrm.Core
open Lib

/-- The changes of a commit from one of its mutations on (`vyrm-store/src/engine.rs:783-810`). -/
def commitChanges (commit : RuntimeCommit) (commitId : String) (start : UInt64) :
    List RuntimeMutation → Nat → Option String → List RuntimeChange
  | [], _, _ => []
  | mutation :: rest, ordinal, previousDigest =>
    let change := RuntimeChange.committed (start + UInt64.ofNat ordinal + 1) commit commitId
      (UInt64.ofNat ordinal) mutation previousDigest
    change :: commitChanges commit commitId start rest (ordinal + 1) (some change.digest)

/-- The changes of a commit after those up to a cursor. -/
def RuntimeCommit.changesAfter (commit : RuntimeCommit) (commitId : String) (start : UInt64)
    (previousDigest : Option String) : List RuntimeChange :=
  commitChanges commit commitId start commit.mutations 0 previousDigest

/-! ## Graphs that agree at an instant -/

namespace Graph

def recordVisible (validAt : Millis) (record : RuntimeRecord) : Bool :=
  validAtWindow record.validFrom record.validTo validAt

def relationVisible (validAt : Millis) (relation : RuntimeRelation) : Bool :=
  validAtWindow relation.validFrom relation.validTo validAt

/-- Two graphs that show the same at an instant. -/
structure Agree (validAt : Millis) (a b : Graph) : Prop where
  records : ∀ key : RuntimeRef,
    a.records[key]?.filter (recordVisible validAt) = b.records[key]?.filter (recordVisible validAt)
  relations : ∀ key : RuntimeRef,
    a.relations[key]?.filter (relationVisible validAt) = b.relations[key]?.filter (relationVisible validAt)

namespace Agree

variable {validAt : Millis} {a b : Graph}

theorem addRecord (agree : Agree validAt a b) (record : RuntimeRecord) :
    Agree validAt (a.addRecord record) (b.addRecord record) := by
  constructor
  · intro key
    show (a.records.insert record.reference record)[key]?.filter _ =
      (b.records.insert record.reference record)[key]?.filter _
    by_cases same : record.reference = key
    · rw [same, OrdMap.getElem?_insert_self, OrdMap.getElem?_insert_self]
    · rw [OrdMap.getElem?_insert_of_ne same, OrdMap.getElem?_insert_of_ne same]
      exact agree.records key
  · exact agree.relations

theorem addRelation (agree : Agree validAt a b) (relation : RuntimeRelation) :
    Agree validAt (a.addRelation relation) (b.addRelation relation) := by
  constructor
  · exact agree.records
  · intro key
    show (a.relations.insert relation.reference relation)[key]?.filter _ =
      (b.relations.insert relation.reference relation)[key]?.filter _
    by_cases same : relation.reference = key
    · rw [same, OrdMap.getElem?_insert_self, OrdMap.getElem?_insert_self]
    · rw [OrdMap.getElem?_insert_of_ne same, OrdMap.getElem?_insert_of_ne same]
      exact agree.relations key

theorem addEvent (agree : Agree validAt a b) (cursor : UInt64) (at_ : Millis) (event : RuntimeEvent) :
    Agree validAt (a.addEvent cursor at_ event) (b.addEvent cursor at_ event) := by
  unfold Graph.addEvent
  cases event.subject with
  | none => exact agree.addRecord _
  | some subject => exact (agree.addRecord _).addRelation _

theorem recordsAt (agree : Agree validAt a b) : a.recordsAt validAt = b.recordsAt validAt :=
  OrdMap.filter_values_congr agree.records

theorem relationsAt (agree : Agree validAt a b) : a.relationsAt validAt = b.relationsAt validAt :=
  OrdMap.filter_values_congr agree.relations

end Agree

/-- Every object stands under its own identity. -/
structure Indexed (graph : Graph) : Prop where
  records : OrdMap.Indexed RuntimeRecord.reference graph.records
  relations : OrdMap.Indexed RuntimeRelation.reference graph.relations

theorem indexed_empty : Indexed ⟨∅, ∅⟩ := ⟨OrdMap.indexed_empty _, OrdMap.indexed_empty _⟩

namespace Indexed

variable {graph : Graph}

theorem addRecord (indexed : Indexed graph) (record : RuntimeRecord) : Indexed (graph.addRecord record) :=
  ⟨indexed.records.insert record, indexed.relations⟩

theorem addRelation (indexed : Indexed graph) (relation : RuntimeRelation) :
    Indexed (graph.addRelation relation) :=
  ⟨indexed.records, indexed.relations.insert relation⟩

theorem addEvent (indexed : Indexed graph) (cursor : UInt64) (at_ : Millis) (event : RuntimeEvent) :
    Indexed (graph.addEvent cursor at_ event) := by
  unfold Graph.addEvent
  cases event.subject with
  | none => exact indexed.addRecord _
  | some subject => exact (indexed.addRecord _).addRelation _

end Indexed

/-- What is visible of a graph, collected again. -/
def recollect (validAt : Millis) (graph : Graph) : Graph :=
  ⟨OrdMap.insertAll RuntimeRecord.reference ∅ (graph.recordsAt validAt),
   OrdMap.insertAll RuntimeRelation.reference ∅ (graph.relationsAt validAt)⟩

theorem Indexed.recollect {graph : Graph} (indexed : Indexed graph) (validAt : Millis) :
    Agree validAt (graph.recollect validAt) graph := by
  constructor
  · intro key
    have again := OrdMap.insertAll_filter_values indexed.records (recordVisible validAt)
    show (OrdMap.insertAll _ ∅ (graph.records.values.filter (recordVisible validAt)))[key]?.filter _ = _
    rw [again, OrdMap.getElem?_filter_value, Option.filter_filter]
    simp
  · intro key
    have again := OrdMap.insertAll_filter_values indexed.relations (relationVisible validAt)
    show (OrdMap.insertAll _ ∅ (graph.relations.values.filter (relationVisible validAt)))[key]?.filter _ = _
    rw [again, OrdMap.getElem?_filter_value, Option.filter_filter]
    simp

end Graph

/-! ## One change -/

namespace RuntimeGraphSnapshot

variable {validAt : Millis}

theorem replay_agree {a b : Graph} (agree : a.Agree validAt b) (change : RuntimeChange) :
    (replay validAt a change).Agree validAt (replay validAt b change) := by
  unfold replay
  cases change.mutation with
  | record record =>
    by_cases started : record.validFrom ≤ validAt
    · simpa [started] using agree.addRecord record
    · simpa [started] using agree
  | relation relation =>
    by_cases started : relation.validFrom ≤ validAt
    · simpa [started] using agree.addRelation relation
    · simpa [started] using agree
  | event event => exact agree.addEvent _ _ event
  | _ => exact agree

theorem replay_indexed {graph : Graph} (indexed : graph.Indexed) (change : RuntimeChange) :
    (replay validAt graph change).Indexed := by
  unfold replay
  cases change.mutation with
  | record record =>
    by_cases started : record.validFrom ≤ validAt
    · simpa [started] using indexed.addRecord record
    · simpa [started] using indexed
  | relation relation =>
    by_cases started : relation.validFrom ≤ validAt
    · simpa [started] using indexed.addRelation relation
    · simpa [started] using indexed
  | event event => exact indexed.addEvent _ _ event
  | _ => exact indexed

/-- The graph of the changes a snapshot replays. -/
def graphOf (validAt : Millis) (changes : List RuntimeChange) : Graph :=
  changes.foldl (replay validAt) ⟨∅, ∅⟩

theorem graphOf_append (changes more : List RuntimeChange) :
    graphOf validAt (changes ++ more) = more.foldl (replay validAt) (graphOf validAt changes) :=
  List.foldl_append

theorem graphOf_indexed (changes : List RuntimeChange) : (graphOf validAt changes).Indexed := by
  induction changes using List.reverseRecOn with
  | nil => exact Graph.indexed_empty
  | append_singleton changes change ih =>
    rw [graphOf_append]
    exact replay_indexed ih change

theorem foldl_replay_agree (changes : List RuntimeChange) {a b : Graph} (agree : a.Agree validAt b) :
    (changes.foldl (replay validAt) a).Agree validAt (changes.foldl (replay validAt) b) := by
  induction changes generalizing a b with
  | nil => exact agree
  | cons change changes ih => exact ih (replay_agree agree change)

end RuntimeGraphSnapshot

/-! ## A whole transaction -/

namespace DataTransaction
open RuntimeGraphSnapshot

variable {transaction : DataTransaction} {validAt : Millis}

/-- Staging a mutation is replaying the change it is committed as. -/
theorem stage_eq_replay (commitId : String) (previousDigest : Option String) (graph : Graph)
    (mutation : RuntimeMutation) (ordinal : Nat) :
    transaction.stage validAt graph (mutation, ordinal) =
      replay validAt graph (RuntimeChange.committed
        (transaction.read.commitCursor + UInt64.ofNat ordinal + 1) transaction.commit commitId
        (UInt64.ofNat ordinal) mutation previousDigest) := by
  cases mutation <;> rfl

/-- Staging mutations is replaying their changes. -/
theorem foldl_stage (commitId : String) (mutations : List RuntimeMutation) (ordinal : Nat)
    (previousDigest : Option String) (graph : Graph) :
    (mutations.zipIdx ordinal).foldl (transaction.stage validAt) graph =
      (commitChanges transaction.commit commitId transaction.read.commitCursor mutations ordinal
        previousDigest).foldl (replay validAt) graph := by
  induction mutations generalizing ordinal previousDigest graph with
  | nil => rfl
  | cons mutation mutations ih =>
    rw [List.zipIdx_cons, List.foldl_cons, commitChanges, List.foldl_cons,
      stage_eq_replay commitId previousDigest]
    exact ih _ _ _

end DataTransaction

/-- The `n`th change of a commit has the `n`th cursor after its start. -/
theorem cursor_commitChanges {commit : RuntimeCommit} {commitId : String} {start : UInt64}
    {mutations : List RuntimeMutation} {ordinal : Nat} {previousDigest : Option String}
    (fits : start.toNat + ordinal + mutations.length < 2 ^ 64) :
    (commitChanges commit commitId start mutations ordinal previousDigest).map (·.cursor.toNat) =
      List.range' (start.toNat + ordinal + 1) mutations.length := by
  induction mutations generalizing ordinal previousDigest with
  | nil => rfl
  | cons mutation mutations ih =>
    rw [List.length_cons] at fits
    have here : (start + UInt64.ofNat ordinal + 1).toNat = start.toNat + ordinal + 1 := by
      rw [UInt64.toNat_add, UInt64.toNat_add, UInt64.toNat_ofNat']
      have one : (1 : UInt64).toNat = 1 := rfl
      omega
    rw [commitChanges, List.map_cons, ih (by omega), List.length_cons, List.range'_succ]
    simp [RuntimeChange.committed, here, Nat.add_assoc]

theorem scope_commitChanges {commit : RuntimeCommit} {commitId : String} {start : UInt64}
    {mutations : List RuntimeMutation} {ordinal : Nat} {previousDigest : Option String} :
    ∀ change ∈ commitChanges commit commitId start mutations ordinal previousDigest,
      change.scope = commit.scope := by
  induction mutations generalizing ordinal previousDigest with
  | nil => simp [commitChanges]
  | cons mutation mutations ih =>
    intro change member
    rw [commitChanges, List.mem_cons] at member
    rcases member with rfl | later
    · rfl
    · exact ih change later

/-- A snapshot of the commit's scope, at a cursor that covers the commit, replays all its changes. -/
theorem filter_changesAfter {commit : RuntimeCommit} {commitId : String} {start head : UInt64}
    {previousDigest : Option String} (covers : start.toNat + commit.mutations.length ≤ head.toNat) :
    (commit.changesAfter commitId start previousDigest).filter
        (RuntimeGraphSnapshot.selects commit.scope head) =
      commit.changesAfter commitId start previousDigest := by
  rw [List.filter_eq_self]
  intro change member
  have bound := UInt64.toNat_lt head
  have cursors : (commit.changesAfter commitId start previousDigest).map (·.cursor.toNat) =
      List.range' (start.toNat + 0 + 1) commit.mutations.length := cursor_commitChanges (by omega)
  have listed : change.cursor.toNat ∈ List.range' (start.toNat + 0 + 1) commit.mutations.length := by
    rw [← cursors]
    exact List.mem_map_of_mem member
  rw [List.mem_range'_1] at listed
  have within : change.cursor ≤ head := by
    rw [UInt64.le_iff_toNat_le]
    omega
  simp [RuntimeGraphSnapshot.selects, within, scope_commitChanges change member]

namespace DataTransaction
open RuntimeGraphSnapshot

theorem validate_scope {transaction : DataTransaction} (valid : transaction.validate = .ok ()) :
    transaction.read.scope = transaction.commit.scope := by
  simp only [validate, invalid, except_error_bind, except_reject_ok, not_not] at valid
  obtain ⟨-, valid⟩ := valid
  obtain ⟨⟨⟩, -, valid⟩ := except_bind_ok.mp valid
  obtain ⟨⟨⟩, -, valid⟩ := except_bind_ok.mp valid
  rw [except_reject_ok, not_not] at valid
  exact valid.1

/-- What an accepted preview is. -/
theorem preview_ok {transaction : DataTransaction} {base : RuntimeGraphSnapshot}
    {view : DataTransactionView} (accepted : transaction.preview base = .ok view) :
    transaction.read.scope = transaction.commit.scope ∧ base.scope = transaction.read.scope ∧
    base.knownAtCursor = transaction.read.commitCursor ∧
    base.knownAtCursor.toNat + transaction.commit.mutations.length < 2 ^ 64 ∧
    view.prospectiveCursor.toNat = base.knownAtCursor.toNat + transaction.commit.mutations.length ∧
    let graph := transaction.commit.mutations.zipIdx.foldl (transaction.stage base.validAt)
      ⟨OrdMap.insertAll RuntimeRecord.reference ∅ base.records,
       OrdMap.insertAll RuntimeRelation.reference ∅ base.relations⟩
    view.records = graph.recordsAt base.validAt ∧ view.relations = graph.relationsAt base.validAt := by
  obtain ⟨⟨⟩, valid, accepted⟩ := except_bind_ok.mp accepted
  simp only [invalid, except_error_bind, except_reject_ok, not_not] at accepted
  obtain ⟨inScope, covered, accepted⟩ := accepted
  obtain ⟨prospective, fits, accepted⟩ := except_bind_ok.mp accepted
  rw [okOr_ok, ← covered] at fits
  obtain ⟨⟨⟩, -, accepted⟩ := except_bind_ok.mp accepted
  rw [except_pure, Except.ok.injEq] at accepted
  subst accepted
  simp only [checkedAdd] at fits
  split at fits
  · rename_i fit
    rw [Option.some.injEq] at fits
    have last : prospective.toNat = base.knownAtCursor.toNat + transaction.commit.mutations.length := by
      rw [← fits, UInt64.toNat_add, UInt64.toNat_ofNat']
      omega
    exact ⟨validate_scope valid, inScope, covered, fit, last, rfl, rfl⟩
  · cases fits

/-- A valid transaction over the snapshot it was read from is accepted, unless the cursor overflows. -/
theorem preview_accepts {transaction : DataTransaction} {base : RuntimeGraphSnapshot} {last : UInt64}
    (valid : transaction.validate = .ok ()) (inScope : base.scope = transaction.read.scope)
    (covered : base.knownAtCursor = transaction.read.commitCursor)
    (fits : checkedAdd transaction.read.commitCursor transaction.commit.mutations.length = some last) :
    ∃ view, transaction.preview base = .ok view ∧ view.prospectiveCursor = last := by
  have read : transaction.read.validate = .ok () := by
    simp only [validate, invalid, except_error_bind, except_reject_ok, not_not] at valid
    obtain ⟨⟨⟩, read, -⟩ := except_bind_ok.mp valid.2
    exact read
  simp only [preview, valid, inScope, covered, fits, okOr_some, except_ok_bind, ne_eq, not_true_eq_false,
    if_false, DataTransactionView.validate, read, digest, validateDigest_sha256Hex, except_pure,
    Except.ok.injEq, exists_eq_left']

/-- A view shows the graph of a snapshot. -/
def Shows (view : DataTransactionView) (snapshot : RuntimeGraphSnapshot) : Prop :=
  view.records = snapshot.records ∧ view.relations = snapshot.relations

/-- The graph an accepted preview shows is that of the log up to the transaction's read cursor
extended by the changes the transaction commits, at every cursor that covers them. -/
theorem preview_eq_commit (log : List RuntimeChange) (scope : ScopeId) (validAt : Millis)
    (cursor : UInt64) (transaction : DataTransaction) (view : DataTransactionView)
    (accepted : transaction.preview (fromChanges log scope validAt cursor) = .ok view)
    (commitId : String) (previousDigest : Option String) :
    let committed := transaction.commit.changesAfter commitId cursor previousDigest
    committed.map (·.cursor.toNat) =
      List.range' (cursor.toNat + 1) transaction.commit.mutations.length ∧
    ∀ head, view.prospectiveCursor ≤ head →
      Shows view (fromChanges (log.filter (·.cursor ≤ cursor) ++ committed) scope validAt head) ∧
      ((∀ change ∈ log, change.cursor ≤ cursor) →
        Shows view (fromChanges (log ++ committed) scope validAt head)) := by
  obtain ⟨same, inScope, covered, fits, last, records, relations⟩ := preview_ok accepted
  change cursor.toNat + transaction.commit.mutations.length < 2 ^ 64 at fits
  change view.prospectiveCursor.toNat = cursor.toNat + transaction.commit.mutations.length at last
  change cursor = transaction.read.commitCursor at covered
  have whole : scope = transaction.commit.scope := inScope.trans same
  intro committed
  constructor
  · exact cursor_commitChanges fits
  intro head covers
  rw [UInt64.le_iff_toNat_le, last] at covers
  have kept : (log.filter (·.cursor ≤ cursor)).filter (selects scope head) =
      log.filter (selects scope cursor) := by
    rw [List.filter_filter]
    congr 1
    funext change
    have widen : change.cursor ≤ cursor → change.cursor ≤ head := by
      rw [UInt64.le_iff_toNat_le, UInt64.le_iff_toNat_le]
      omega
    by_cases early : change.cursor ≤ cursor
    · simp [selects, early, widen early]
    · simp [selects, early]
  have appended : committed.filter (selects scope head) = committed := by
    rw [whole]
    exact filter_changesAfter covers
  have agree : (transaction.commit.mutations.zipIdx.foldl (transaction.stage validAt)
      ((graphOf validAt (log.filter (selects scope cursor))).recollect validAt)).Agree validAt
      (graphOf validAt ((log.filter (·.cursor ≤ cursor) ++ committed).filter (selects scope head))) := by
    rw [List.filter_append, kept, appended, graphOf_append, foldl_stage commitId _ 0 previousDigest,
      ← covered]
    exact foldl_replay_agree _ ((graphOf_indexed _).recollect validAt)
  have shown : Shows view (fromChanges (log.filter (·.cursor ≤ cursor) ++ committed) scope validAt head) :=
    ⟨records.trans agree.recordsAt, relations.trans agree.relationsAt⟩
  constructor
  · exact shown
  · intro early
    rwa [List.filter_eq_self.mpr (by simpa using early)] at shown

/-- A record with two versions, the second from a transaction that also reports an event about it. -/
def sampleScope : ScopeId := ⟨"shop", by decide, by decide⟩

def sampleRef : RuntimeRef := ⟨⟨"order", by decide, by decide⟩, ⟨"7", by decide, by decide⟩⟩

def sampleLog : List RuntimeChange :=
  RuntimeCommit.changesAfter
    { scope := sampleScope, at_ := 3, actor := "clerk", expectedCursor := 0,
      mutations := [.record ⟨sampleRef, 3, none, [("state", .string "open")]⟩] }
    "first" 0 none

/-- A transaction read at cursor 1. -/
def sampleTransaction : DataTransaction :=
  let read : ReadStamp :=
    { contractVersion := dataRuntimeContractVersion, scope := sampleScope, schemaRevision := some 1,
      catalogRevision := 0, commitCursor := 1, headDigest := some (sha256Hex []), manifestId := "" }
  { contractVersion := dataRuntimeContractVersion
    read := { read with manifestId := sha256Hex read.manifestBytes }
    commit :=
      { scope := sampleScope, at_ := 4, actor := "clerk", expectedCursor := 1,
        mutations :=
          [.record ⟨sampleRef, 4, none, [("state", .string "paid")]⟩,
           .event ⟨⟨"payment", by decide, by decide⟩, some sampleRef, []⟩] } }

theorem sampleTransaction_valid : sampleTransaction.validate = .ok () := by
  have read : sampleTransaction.read.validate = .ok () := by
    apply ReadStamp.validate_sealed
    rw [ReadStamp.validateComponents]
    simp [dataRuntimeContractVersion]
  have commit : sampleTransaction.commit.validate = .ok () := by decide +kernel
  rw [validate, read, commit]
  simp [sampleTransaction]

theorem preview_eq_commit_sample :
    ∃ view, sampleTransaction.preview (fromChanges sampleLog sampleScope 5 1) = .ok view ∧
      Shows view (fromChanges (sampleLog ++ sampleTransaction.commit.changesAfter "second" 1 none)
        sampleScope 5 3) := by
  have fits : checkedAdd sampleTransaction.read.commitCursor
      sampleTransaction.commit.mutations.length = some 3 := rfl
  have inScope : (fromChanges sampleLog sampleScope 5 1).scope = sampleTransaction.read.scope := rfl
  obtain ⟨view, accepted, last⟩ := preview_accepts sampleTransaction_valid inScope rfl fits
  have shown := (preview_eq_commit sampleLog sampleScope 5 1 sampleTransaction view accepted "second" none).2
    3 (by rw [last]; decide)
  refine ⟨view, accepted, shown.2 ?_⟩
  intro change member
  obtain rfl := List.mem_singleton.mp member
  decide +kernel

end DataTransaction

end Vyrm.Core
