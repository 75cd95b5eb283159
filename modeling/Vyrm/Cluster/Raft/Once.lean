import Vyrm.Cluster.Raft.Run
import Vyrm.Core.Runtime.Injective

/-!
# Exactly once

Two things keep an entry from being applied again. The outcome of a runtime commit is stored under the
digest of the commit, for good; and the requests of the last entries are kept with their responses.
-/

namespace Vyrm.Cluster
open Lib Vyrm.Core Vyrm.Store Serde
open StateMachineData (oldestRetained requestRetentionLogs)

/-! ## What a commit writes -/

/-- Nothing is deleted. -/
def OnlyPuts (operations : List Kv.Mutation) : Prop := ∀ operation ∈ operations, ∃ key value, operation = .put key value

theorem onlyPuts_put (space : Keyspace) (key value : Bytes) : OnlyPuts [Store.put space key value] := by
  intro operation listed
  exact ⟨_, _, List.mem_singleton.mp listed⟩

theorem OnlyPuts.append {operations more : List Kv.Mutation} (puts : OnlyPuts operations) (others : OnlyPuts more) :
    OnlyPuts (operations ++ more) := by
  intro operation listed
  rcases List.mem_append.mp listed with first | second
  · exact puts operation first
  · exact others operation second

theorem onlyPuts_nil : OnlyPuts [] := nofun

theorem OnlyPuts.cons {operations : List Kv.Mutation} (puts : OnlyPuts operations) (space : Keyspace)
    (key value : Bytes) : OnlyPuts (Store.put space key value :: operations) :=
  (onlyPuts_put space key value).append puts

section

variable [Store.Codec] {view : View} {commit : RuntimeCommit} {commitId : String} {outcome : RuntimeCommitOutcome}
  {operations : List Kv.Mutation}

theorem onlyPuts_lowerMutation {ordinal : Nat} {at_ next : View.Lowering} {mutation : RuntimeMutation}
    (lowered : View.lowerMutation commit commitId ordinal at_ mutation = .ok (next, operations)) :
    OnlyPuts operations := by
  obtain ⟨⟨sequence, claims⟩, isClaim, lowered⟩ := except_bind_ok.mp lowered
  obtain ⟨cursor, -, lowered⟩ := except_bind_ok.mp lowered
  obtain ⟨works, isWork, lowered⟩ := except_bind_ok.mp lowered
  cases lowered
  have claimPuts : OnlyPuts claims := by
    cases mutation with
    | claim claim =>
      obtain ⟨-, -, isClaim⟩ := except_bind_ok.mp isClaim
      obtain ⟨_, -, isClaim⟩ := except_bind_ok.mp isClaim
      cases isClaim
      exact (onlyPuts_put _ _ _).cons _ _ _
    | _ =>
      cases isClaim
      exact onlyPuts_nil
  have workPuts : OnlyPuts works := by
    unfold View.lowerWork at isWork
    split at isWork
    · cases isWork
      exact onlyPuts_nil
    · obtain ⟨_, -, isWork⟩ := except_bind_ok.mp isWork
      cases isWork
      exact onlyPuts_put _ _ _
  have statePuts : OnlyPuts (View.lowerState commit.scope mutation) := by
    cases mutation with
    | claim claim => exact onlyPuts_nil
    | event event => exact onlyPuts_nil
    | _ => exact onlyPuts_put _ _ _
  exact claimPuts.append ((workPuts.append statePuts).cons _ _ _)

theorem onlyPuts_lower {mutations : List RuntimeMutation} {ordinal : Nat} {at_ last : View.Lowering}
    (lowered : View.lower commit commitId mutations ordinal at_ = .ok (last, operations)) : OnlyPuts operations := by
  induction mutations generalizing ordinal at_ operations with
  | nil =>
    cases lowered
    exact onlyPuts_nil
  | cons mutation rest ih =>
    obtain ⟨⟨next, first⟩, one, lowered⟩ := except_bind_ok.mp lowered
    obtain ⟨⟨last', later⟩, others, lowered⟩ := except_bind_ok.mp lowered
    cases lowered
    exact (onlyPuts_lowerMutation one).append (ih others)

/-- The key of the outcome of a commit. -/
def commitKey (commitId : String) : Bytes := storageKey .runtimeCommits (utf8 commitId)

/-- A commit puts rows only, the one of its outcome among them. -/
theorem prepareCommit_puts (prepared : view.prepareCommit commit = .ok (outcome, operations)) :
    OnlyPuts operations ∧ .put (commitKey commit.digest) (toVec outcome) ∈ operations := by
  obtain ⟨-, -, prepared⟩ := except_bind_ok.mp prepared
  obtain ⟨start, -, prepared⟩ := except_bind_ok.mp prepared
  obtain ⟨claimStart, -, prepared⟩ := except_bind_ok.mp prepared
  obtain ⟨previous, -, prepared⟩ := except_bind_ok.mp prepared
  obtain ⟨previousAudit, -, prepared⟩ := except_bind_ok.mp prepared
  obtain ⟨⟨last, lowered⟩, isLowered, prepared⟩ := except_bind_ok.mp prepared
  obtain ⟨audit, -, prepared⟩ := except_bind_ok.mp prepared
  obtain ⟨rfl, rfl⟩ := Prod.mk.inj (Except.ok.inj prepared)
  constructor
  · refine ((onlyPuts_lower isLowered).append ?_).append ?_
    · split
      · exact onlyPuts_put _ _ _
      · exact onlyPuts_nil
    · refine OnlyPuts.cons ?_ _ _ _
      refine OnlyPuts.cons ?_ _ _ _
      refine OnlyPuts.cons ?_ _ _ _
      refine OnlyPuts.cons ?_ _ _ _
      exact onlyPuts_put _ _ _
  · exact List.mem_append_right _ (.tail _ (.tail _ (.tail _ (.tail _ (.head _)))))

/-- An outcome is unknown only where there is no row. -/
theorem none_of_commitOutcome {rows : Rows} (unknown : rows.view.commitOutcome commitId = .ok none) :
    rows[commitKey commitId]? = none := by
  obtain ⟨found, read, unknown⟩ := except_bind_ok.mp unknown
  obtain ⟨-, unknown⟩ := except_reject_ok.mp unknown
  cases unknown
  obtain ⟨row, isRow, read⟩ := except_bind_ok.mp read
  cases row with
  | none => exact Except.ok.inj isRow
  | some bytes =>
    obtain ⟨_, -, read⟩ := except_bind_ok.mp read
    cases read

end

/-! ## Rows -/

namespace Rows

open Vyrm.Store.Rows

/-- Puts leave no row out. -/
theorem isSome_foldl_puts {rows : Rows} {operations : List Kv.Mutation} (puts : OnlyPuts operations) {key : Bytes}
    (there : rows[key]?.isSome) : (operations.foldl Rows.apply rows)[key]?.isSome := by
  induction operations generalizing rows with
  | nil => exact there
  | cons operation rest ih =>
    refine ih (fun other listed => puts other (List.mem_cons_of_mem _ listed)) ?_
    obtain ⟨key', value, rfl⟩ := puts operation List.mem_cons_self
    rw [getElem?_apply]
    split
    · rfl
    · exact there

theorem isSome_of_put {rows : Rows} {operations : List Kv.Mutation} (puts : OnlyPuts operations) {key value : Bytes}
    (put : .put key value ∈ operations) : (operations.foldl Rows.apply rows)[key]?.isSome := by
  induction operations generalizing rows with
  | nil => cases put
  | cons operation rest ih =>
    have later : OnlyPuts rest := fun other listed => puts other (List.mem_cons_of_mem _ listed)
    rcases List.mem_cons.mp put with rfl | listed
    · refine isSome_foldl_puts later ?_
      rw [getElem?_apply, Kv.Mutation.key, if_pos rfl]
      rfl
    · exact ih later listed

/-- Rows that agree beside one key still do after the same mutations. -/
theorem foldl_congr {rows rows' : Rows} {operations : List Kv.Mutation} {key : Bytes}
    (same : rows[key]? = rows'[key]?) :
    (operations.foldl Rows.apply rows)[key]? = (operations.foldl Rows.apply rows')[key]? := by
  induction operations generalizing rows rows' with
  | nil => exact same
  | cons operation rest ih =>
    refine ih ?_
    rw [getElem?_apply, getElem?_apply, same]

end Rows

theorem commitKey_ne_keyState (commitId : String) : commitKey commitId ≠ keyState := by
  intro same
  have heads := congrArg List.head? same
  have head : keyState.head? = some 0x76 := by decide
  rw [head] at heads
  cases heads

/-! ## What an entry contributes -/

/-- The digest of the runtime commit that is replicated. -/
def Applied.commitDigest (event : Applied) : Option String :=
  match event.entry.payload with
  | .normal ⟨_, _, _, _, .runtimeCommit commit⟩ => some commit.digest
  | _ => none

section

variable [RaftCodec]

/-- The request that a first application leaves behind. -/
def Applied.kept (event : Applied) : Option (String × AppliedRequest) :=
  match event.entry.payload with
  | .normal command =>
    if event.first then
      some (command.requestId, ⟨event.entry.logId.index, command.identityDigest, event.response⟩)
    else none
  | .blank => none
  | .membership _ => none

variable [Store.Codec] {view : View} {shard : ShardId} {state next : StateMachineData} {event : Applied}
  {log : List Applied} {db after : Canonical}

/-- Only a runtime commit whose outcome is unknown has operations. -/
theorem operations_of_effect (effect : Effect view shard state event.entry.logId event.entry.payload next
    event.response event.operations) :
    event.operations = [] ∨ ∃ commit outcome, event.commitDigest = some (RuntimeCommit.digest commit) ∧
      view.commitOutcome commit.digest = .ok none ∧ view.prepareCommit commit = .ok (outcome, event.operations) := by
  obtain ⟨⟨logId, payload⟩, response, operations, first⟩ := event
  change Effect view shard state logId payload next response operations at effect
  cases effect with
  | @executed command verdict valid own fresh judged =>
    cases judged with
    | @committed commit outcome operations admitted operation unknown prepared counts =>
      refine .inr ⟨commit, outcome, ?_, unknown, prepared⟩
      obtain ⟨requestId, shard', epoch, expected, op⟩ := command
      cases operation
      rfl
    | _ => exact .inl rfl
  | _ => exact .inl rfl

theorem requests_of_judged {command : VyrmRaftCommand} {verdict : Verdict}
    (judged : Judged view state command verdict) : verdict.state.requests = state.requests := by
  cases judged <;> rfl

omit [RaftCodec] [Store.Codec] in
theorem requests_of_applyMembership {logId : LogId} {membership : Membership}
    (changed : state.applyMembership logId membership = .ok next) : next.requests = state.requests := by
  simp only [StateMachineData.applyMembership] at changed
  split at changed
  · cases changed
    rfl
  · obtain ⟨-, changed⟩ := except_reject_ok.mp changed
    cases changed
    rfl

/-- A first application adds one request; nothing else touches the requests. -/
theorem requests_of_effect (effect : Effect view shard state event.entry.logId event.entry.payload next
    event.response event.operations) (isFirst : event.first = state.isFirst event.entry.payload) :
    (event.kept = none ∧ next.requests = state.requests) ∨
      ∃ id applied, event.kept = some (id, applied) ∧ applied.firstAppliedIndex = event.entry.logId.index ∧
        state.requests[id]? = none ∧ next.requests = state.requests.insert id applied := by
  obtain ⟨⟨logId, payload⟩, response, operations, first⟩ := event
  change Effect view shard state logId payload next response operations at effect
  change first = state.isFirst payload at isFirst
  subst isFirst
  cases effect with
  | blank => exact .inl ⟨rfl, rfl⟩
  | membership changed => exact .inl ⟨rfl, requests_of_applyMembership changed⟩
  | reused valid own kept other =>
    refine .inl ⟨?_, rfl⟩
    simp [Applied.kept, StateMachineData.isFirst, kept]
  | repeated valid own kept same =>
    refine .inl ⟨?_, rfl⟩
    simp [Applied.kept, StateMachineData.isFirst, kept]
  | @executed command verdict valid own fresh judged =>
    refine .inr ⟨command.requestId,
      ⟨logId.index, command.identityDigest, (StateMachineData.record verdict logId command).2⟩, ?_, rfl, fresh, ?_⟩
    · simp only [Applied.kept, StateMachineData.isFirst, fresh, Option.isNone_none, if_true]
    · rw [← requests_of_judged judged]
      rfl

/-! ## What a log and the state after it have to do with each other -/

/-- The rows after a log are those of its contributions, no commit contributes twice, and the requests
that are kept are those of the first applications in the window. -/
structure Once (shard : ShardId) (log : List Applied) (state : StateMachineData) (db : Canonical) : Prop where
  rows : ∀ key, key ≠ keyState →
    db.rows[key]? = ((log.flatMap (·.operations)).foldl Rows.apply (Canonical.create shard).rows)[key]?
  stored : ∀ event ∈ log, event.operations ≠ [] →
    ∃ digest, event.commitDigest = some digest ∧ db.rows[commitKey digest]?.isSome
  once : log.Pairwise fun event later =>
    event.operations ≠ [] → later.operations ≠ [] → event.commitDigest ≠ later.commitDigest
  indices : ∀ event ∈ log, event.entry.logId.index ≤ state.currentIndex
  requests : ∀ id applied, state.requests[id]? = some applied ↔
    ∃ event ∈ log, event.kept = some (id, applied) ∧ oldestRetained state.currentIndex ≤ applied.firstAppliedIndex

omit [Store.Codec] in
/-- The rows beside the state. -/
theorem Once.rows_step {operations : List Kv.Mutation} {value : Bytes} (once : Once shard log state db)
    (isOperations : event.operations = operations)
    (written : db.write (operations ++ [.put keyState value]) = .ok after) (key : Bytes) (beside : key ≠ keyState) :
    after.rows[key]? =
      (((log ++ [event]).flatMap (·.operations)).foldl Rows.apply (Canonical.create shard).rows)[key]? := by
  rw [(write_ok written).1, List.foldl_append, List.foldl_cons, List.foldl_nil, Rows.getElem?_apply,
    Kv.Mutation.key, if_neg (Ne.symm beside), List.flatMap_append, List.foldl_append]
  simp only [List.flatMap_cons, List.flatMap_nil, List.append_nil, isOperations]
  exact Rows.foldl_congr (once.rows key beside)

omit [RaftCodec] [Store.Codec] in
theorem toNat_oldestRetained (through : UInt64) : (oldestRetained through).toNat = through.toNat - 4095 := by
  have window : (requestRetentionLogs - 1).toNat = 4095 := by decide
  unfold oldestRetained
  split
  · rename_i few
    rw [UInt64.lt_iff_toNat_lt, window] at few
    show 0 = _
    omega
  · rename_i many
    rw [UInt64.lt_iff_toNat_lt, window] at many
    rw [UInt64.toNat_sub_of_le _ _ (UInt64.le_iff_toNat_le.mpr (by rw [window]; omega)), window]

omit [RaftCodec] [Store.Codec] in
theorem oldestRetained_mono {a b : UInt64} (le : a ≤ b) : oldestRetained a ≤ oldestRetained b := by
  rw [UInt64.le_iff_toNat_le] at le ⊢
  rw [toNat_oldestRetained, toNat_oldestRetained]
  omega

omit [RaftCodec] [Store.Codec] in
theorem oldestRetained_le (through : UInt64) : oldestRetained through ≤ through := by
  rw [UInt64.le_iff_toNat_le, toNat_oldestRetained]
  omega

omit [Store.Codec] in
theorem Once.initial (shard : ShardId) : Once shard [] .initial (.create shard) := by
  refine ⟨fun _ _ => rfl, fun _ listed => absurd listed List.not_mem_nil, .nil,
    fun _ listed => absurd listed List.not_mem_nil, fun id applied => ?_⟩
  constructor
  · intro found
    cases found
  · rintro ⟨event, listed, -⟩
    cases listed

/-- What is kept after an entry. -/
theorem Once.requests_step (once : Once shard log state db)
    (increasing : ∀ last ∈ state.lastApplied, last.index < event.entry.logId.index)
    (effect : Effect view shard state event.entry.logId event.entry.payload next event.response event.operations)
    (isFirst : event.first = state.isFirst event.entry.payload) (id : String) (applied : AppliedRequest) :
    (next.settled event.entry.logId).requests[id]? = some applied ↔
      ∃ other ∈ log ++ [event], other.kept = some (id, applied) ∧
        oldestRetained event.entry.logId.index ≤ applied.firstAppliedIndex := by
  have window : oldestRetained state.currentIndex ≤ oldestRetained event.entry.logId.index := by
    apply oldestRetained_mono
    unfold StateMachineData.currentIndex
    cases last : state.lastApplied with
    | none => exact UInt64.zero_le
    | some last' => exact UInt64.le_of_lt (increasing last' last)
  have pruned : (next.settled event.entry.logId).requests[id]? =
      next.requests[id]?.filter fun request =>
        decide (oldestRetained event.entry.logId.index ≤ request.firstAppliedIndex) :=
    OrdMap.getElem?_filter_value id
  rw [pruned, Option.filter_eq_some_iff, decide_eq_true_eq]
  rcases requests_of_effect effect isFirst with ⟨notKept, same⟩ | ⟨id', applied', isKept, index, fresh, added⟩
  · rw [same, once.requests]
    constructor
    · intro ⟨⟨other, listed, isKept, _⟩, recent⟩
      exact ⟨other, List.mem_append_left _ listed, isKept, recent⟩
    · intro ⟨other, listed, isKept, recent⟩
      rcases List.mem_append.mp listed with earlier | last
      · exact ⟨⟨other, earlier, isKept, UInt64.le_trans window recent⟩, recent⟩
      · rw [List.mem_singleton.mp last, notKept] at isKept
        cases isKept
  · by_cases here : id' = id
    · subst here
      rw [added, OrdMap.getElem?_insert_self]
      constructor
      · intro ⟨same, recent⟩
        cases same
        exact ⟨event, by simp, isKept, recent⟩
      · intro ⟨other, listed, isKept', recent⟩
        rcases List.mem_append.mp listed with earlier | last
        -- An earlier first application in the window would still be kept.
        · have there := (once.requests _ _).mpr ⟨other, earlier, isKept', UInt64.le_trans window recent⟩
          cases fresh.symm.trans there
        · rw [List.mem_singleton.mp last, isKept] at isKept'
          cases isKept'
          exact ⟨rfl, recent⟩
    · rw [added, OrdMap.getElem?_insert_of_ne here, once.requests]
      constructor
      · intro ⟨⟨other, listed, isKept, _⟩, recent⟩
        exact ⟨other, List.mem_append_left _ listed, isKept, recent⟩
      · intro ⟨other, listed, isKept', recent⟩
        rcases List.mem_append.mp listed with earlier | last
        · exact ⟨⟨other, earlier, isKept', UInt64.le_trans window recent⟩, recent⟩
        · rw [List.mem_singleton.mp last, isKept] at isKept'
          cases isKept'
          exact absurd rfl here

theorem Once.step (once : Once shard log state db)
    (increasing : ∀ last ∈ state.lastApplied, last.index < event.entry.logId.index)
    (effect : Effect db.rows.view shard state event.entry.logId event.entry.payload next event.response
      event.operations)
    (isFirst : event.first = state.isFirst event.entry.payload)
    (written : db.write (event.operations ++ [.put keyState (toVec (next.settled event.entry.logId))]) = .ok after) :
    Once shard (log ++ [event]) (next.settled event.entry.logId) after := by
  have rows := (write_ok written).1
  have below : state.currentIndex ≤ event.entry.logId.index := by
    unfold StateMachineData.currentIndex
    cases last : state.lastApplied with
    | none => exact UInt64.zero_le
    | some last' => exact UInt64.le_of_lt (increasing last' last)
  have puts : OnlyPuts (event.operations ++ [.put keyState (toVec (next.settled event.entry.logId))]) := by
    refine OnlyPuts.append ?_ fun operation listed => ⟨_, _, List.mem_singleton.mp listed⟩
    rcases operations_of_effect effect with none_ | ⟨commit, outcome, -, -, prepared⟩
    · rw [none_]
      exact onlyPuts_nil
    · exact (prepareCommit_puts prepared).1
  refine ⟨once.rows_step rfl written, ?_, ?_, ?_, once.requests_step increasing effect isFirst⟩
  · intro other listed contributes
    rcases List.mem_append.mp listed with earlier | last
    · obtain ⟨digest, isDigest, there⟩ := once.stored other earlier contributes
      refine ⟨digest, isDigest, ?_⟩
      rw [rows]
      exact Rows.isSome_foldl_puts puts there
    · cases List.mem_singleton.mp last
      rcases operations_of_effect effect with none_ | ⟨commit, outcome, isDigest, -, prepared⟩
      · exact absurd none_ contributes
      · refine ⟨_, isDigest, ?_⟩
        rw [rows]
        exact Rows.isSome_of_put puts (List.mem_append_left _ (prepareCommit_puts prepared).2)
  · refine List.pairwise_append.mpr ⟨once.once, List.pairwise_singleton _ _, ?_⟩
    intro earlier listed last isLast contributes contributes' same
    cases List.mem_singleton.mp isLast
    obtain ⟨digest, isDigest, there⟩ := once.stored earlier listed contributes
    rcases operations_of_effect effect with none_ | ⟨commit, outcome, isDigest', unknown, -⟩
    · exact contributes' none_
    · have one := Option.some.inj (isDigest.symm.trans (same.trans isDigest'))
      rw [one, none_of_commitOutcome unknown] at there
      cases there
  · intro other listed
    rcases List.mem_append.mp listed with earlier | last
    · exact UInt64.le_trans (once.indices other earlier) below
    · rw [List.mem_singleton.mp last]
      exact UInt64.le_refl _

/-- Every run keeps it. -/
theorem Once.run (run : Replicated shard log state db) : Once shard log state db := by
  induction run with
  | opened => exact .initial shard
  | @applied log state next db after entry response operations before increasing payload written ih =>
    exact ih.step increasing (by exact effect_of_applyPayload payload) rfl written

end

/-! ## What tells commands apart -/

section

variable [RaftCodec]

/-- What the digest of the content of an operation is the digest of. -/
def VyrmRaftOperation.contentBytes : VyrmRaftOperation → Bytes
  | .placementTransition placement => toVec placement
  | .probe _ payload => payload
  | .runtimeCommit commit => commit.canonicalBytes

/-- What is hashed to tell a command apart. -/
def VyrmRaftCommand.hashed (command : VyrmRaftCommand) : List Bytes :=
  let operation := command.operation
  [command.identityBytes, tagged "vyrm.raft.operation.v2" (operation.content.1 :: utf8 operation.content.2),
    operation.contentBytes]

theorem content_of_validate {operation : VyrmRaftOperation} (valid : operation.validate = .ok ()) :
    operation.content.2 = sha256Hex operation.contentBytes := by
  cases operation with
  | placementTransition placement =>
    have digest : placement.digest = .ok (sha256Hex (toVec placement)) := by
      unfold ShardPlacement.digest
      rw [show placement.validate = .ok () from valid]
      rfl
    simp [VyrmRaftOperation.content, VyrmRaftOperation.contentBytes, digest]
  | probe payloadDigest payload =>
    by_cases ok : payload ≠ [] ∧ payloadDigest = sha256Hex payload
    · exact ok.2
    · rw [VyrmRaftOperation.validate, if_neg ok] at valid
      cases valid
  | runtimeCommit commit => rfl

/-- Operations with one content are the same, where encodings tell placements apart. -/
theorem operation_of_content {a b : VyrmRaftOperation} (lossless : ∀ p q : ShardPlacement, toVec p = toVec q → p = q)
    (fits : ∀ commit, a = .runtimeCommit commit → commit.canonicalBytes.length < 2 ^ 64)
    (valid : a.validate = .ok ()) (valid' : b.validate = .ok ()) (kinds : a.content.1 = b.content.1)
    (contents : a.contentBytes = b.contentBytes) : a = b := by
  have digests : a.content.2 = b.content.2 := by
    rw [content_of_validate valid, content_of_validate valid', contents]
  cases a with
  | placementTransition placement =>
    cases b with
    | placementTransition placement' => rw [lossless _ _ contents]
    | probe _ _ => cases kinds
    | runtimeCommit _ => cases kinds
  | probe payloadDigest payload =>
    cases b with
    | placementTransition _ => cases kinds
    | probe payloadDigest' payload' =>
      rw [show payload = payload' from contents, show payloadDigest = payloadDigest' from digests]
    | runtimeCommit _ => cases kinds
  | runtimeCommit commit =>
    cases b with
    | placementTransition _ => cases kinds
    | probe _ _ => cases kinds
    | runtimeCommit commit' => rw [RuntimeCommit.prefixFree_canonicalBytes.inj (fits commit rfl) contents]

omit [RaftCodec] in
theorem be64_append_inj {a b : UInt64} {x y : Bytes} (same : be64 a ++ x = be64 b ++ y) : a = b ∧ x = y := by
  obtain ⟨heads, rest⟩ := List.append_inj same (by rw [be64, be64, length_toBE, length_toBE])
  exact ⟨prefixFree_be64.inj (by rw [be64, length_toBE]; decide) heads, rest⟩

omit [RaftCodec] in
theorem encodeOptionalU64_append_inj {a b : Option UInt64} {x y : Bytes}
    (same : encodeOptionalU64 a ++ x = encodeOptionalU64 b ++ y) : a = b ∧ x = y := by
  cases a with
  | none =>
    cases b with
    | none => exact ⟨rfl, (List.cons.inj same).2⟩
    | some b => exact absurd (List.cons.inj same).1 (by decide)
  | some a =>
    cases b with
    | none => exact absurd (List.cons.inj same).1 (by decide)
    | some b =>
      obtain ⟨rfl, rest⟩ := be64_append_inj (List.cons.inj same).2
      exact ⟨rfl, rest⟩

theorem identityBytes_inj {a b : VyrmRaftCommand} (same : a.identityBytes = b.identityBytes) :
    a.shard = b.shard ∧ a.placementEpoch = b.placementEpoch ∧ a.expectedCommitIndex = b.expectedCommitIndex ∧
      a.operation.digest = b.operation.digest := by
  have fields := List.append_cancel_left same
  rw [List.append_assoc, List.append_assoc, List.append_assoc, List.append_assoc] at fields
  obtain ⟨shards, fields⟩ := be64_append_inj fields
  obtain ⟨epochs, fields⟩ := be64_append_inj fields
  obtain ⟨expected, digests⟩ := encodeOptionalU64_append_inj fields
  have shard_inj : ∀ s t : ShardId, s.value = t.value → s = t := fun ⟨_⟩ ⟨_⟩ same => congrArg ShardId.mk same
  exact ⟨shard_inj _ _ shards, epochs, expected, utf8_inj.mp digests⟩

theorem operation_of_command {command : VyrmRaftCommand} (valid : command.validate = .ok ()) :
    command.operation.validate = .ok () := by
  obtain ⟨-, valid⟩ := except_reject_ok.mp valid
  obtain ⟨_, isValid, -⟩ := except_bind_ok.mp valid
  exact isValid

/-- Valid commands with one identity digest are the same but for their ids, unless the hash collides. -/
theorem command_of_identityDigest {inputs : Set Bytes} (free : Set.InjOn sha256Hex inputs) {a b : VyrmRaftCommand}
    (hashed : ∀ bytes ∈ a.hashed ++ b.hashed, bytes ∈ inputs)
    (lossless : ∀ p q : ShardPlacement, toVec p = toVec q → p = q)
    (fits : ∀ commit, a.operation = .runtimeCommit commit → commit.canonicalBytes.length < 2 ^ 64)
    (valid : a.operation.validate = .ok ()) (valid' : b.operation.validate = .ok ())
    (same : a.identityDigest = b.identityDigest) :
    a.shard = b.shard ∧ a.placementEpoch = b.placementEpoch ∧ a.expectedCommitIndex = b.expectedCommitIndex ∧
      a.operation = b.operation := by
  obtain ⟨shards, epochs, expected, digests⟩ := identityBytes_inj
    (free (hashed _ (by simp [VyrmRaftCommand.hashed])) (hashed _ (by simp [VyrmRaftCommand.hashed])) same)
  have contents := free (hashed _ (by simp [VyrmRaftCommand.hashed])) (hashed _ (by simp [VyrmRaftCommand.hashed]))
    digests
  obtain ⟨kinds, digests⟩ := List.cons.inj (List.append_cancel_left contents)
  refine ⟨shards, epochs, expected, operation_of_content lossless fits valid valid' kinds ?_⟩
  refine free (hashed _ (by simp [VyrmRaftCommand.hashed])) (hashed _ (by simp [VyrmRaftCommand.hashed])) ?_
  rw [← content_of_validate valid, ← content_of_validate valid', utf8_inj.mp digests]

end

/-! ## Exactly once -/

section

variable [RaftCodec] [Store.Codec] {shard : ShardId} {state : StateMachineData} {log : List Applied} {db : Canonical}
  {command : VyrmRaftCommand} {logId : LogId}

omit [RaftCodec] [Store.Codec] in
/-- Where no two items are kept, at most one is. -/
theorem length_filter_le_one {α : Type} {keep : α → Bool} {items : List α}
    (apart : items.Pairwise fun a b => ¬ (keep a = true ∧ keep b = true)) : (items.filter keep).length ≤ 1 := by
  induction items with
  | nil => exact Nat.zero_le 1
  | cons item rest ih =>
    obtain ⟨others, apart⟩ := List.pairwise_cons.mp apart
    by_cases kept : keep item = true
    · have none_ : rest.filter keep = [] := by
        rw [List.filter_eq_nil_iff]
        exact fun other listed both => others other listed ⟨kept, both⟩
      rw [List.filter_cons_of_pos kept, none_]
      exact Nat.le_refl 1
    · rw [List.filter_cons_of_neg kept]
      exact ih apart

/-- An entry is answered, and all it changes is the last log id and what is pruned by it. -/
def answered (db : Canonical) (state : StateMachineData) (logId : LogId) (response : VyrmRaftResponse) :
    Except RaftError (VyrmRaftResponse × StateMachineData × Canonical) :=
  match db.write [.put keyState (toVec (state.settled logId))] with
  | .error e => .error (.batch e)
  | .ok db => .ok (response, state.settled logId, db)

theorem valid_of_run (run : Replicated shard log state db) :
    ∀ event ∈ log, ∀ command, event.entry.payload = .normal command →
      command.validate = .ok () ∧ command.shard = shard := by
  induction run with
  | opened => exact fun _ listed => absurd listed List.not_mem_nil
  | @applied log state next db after entry response operations before increasing payload written ih =>
    intro event listed command isCommand
    rcases List.mem_append.mp listed with earlier | last
    · exact ih event earlier command isCommand
    · cases List.mem_singleton.mp last
      have effect := effect_of_applyPayload payload
      rw [show entry.payload = .normal command from isCommand] at effect
      cases effect with
      | reused valid own kept other => exact ⟨valid, own⟩
      | repeated valid own kept same => exact ⟨valid, own⟩
      | executed valid own fresh judged => exact ⟨valid, own⟩

theorem applyEntry_of_payload {response : VyrmRaftResponse}
    (payload : state.applyCommand db.rows.view shard logId command = .ok (state, response, [])) :
    applyEntry shard db state ⟨logId, .normal command⟩ = answered db state logId response := by
  have payload : state.applyPayload db.rows.view shard ⟨logId, .normal command⟩ = .ok (state, response, []) := payload
  unfold applyEntry
  rw [payload]
  rfl

theorem applyEntry_repeated {previous : AppliedRequest} (valid : command.validate = .ok ())
    (own : command.shard = shard) (kept : state.requests[command.requestId]? = some previous)
    (same : command.identityDigest = previous.commandDigest) :
    applyEntry shard db state ⟨logId, .normal command⟩ =
      answered db state logId { previous.response with duplicate := true, term := logId.term, index := logId.index } := by
  apply applyEntry_of_payload
  unfold StateMachineData.applyCommand
  simp only [valid, if_neg (not_not.mpr own), kept, if_neg (not_not.mpr same.symm)]

theorem applyEntry_reused {previous : AppliedRequest} (valid : command.validate = .ok ())
    (own : command.shard = shard) (kept : state.requests[command.requestId]? = some previous)
    (other : command.identityDigest ≠ previous.commandDigest) :
    applyEntry shard db state ⟨logId, .normal command⟩ =
      answered db state logId
        { accepted := false
          duplicate := false
          term := logId.term
          index := logId.index
          stateDigest := state.stateDigest
          reason := "request id was reused with a different command identity"
          runtimeOutcome := none } := by
  apply applyEntry_of_payload
  unfold StateMachineData.applyCommand
  simp only [valid, if_neg (not_not.mpr own), kept, if_pos other.symm]

theorem applyEntry_foreign (valid : command.validate = .ok ()) (foreign : command.shard ≠ shard) :
    applyEntry shard db state ⟨logId, .normal command⟩ =
      .error (.adapter "replicated command targets a different shard") := by
  have payload : state.applyPayload db.rows.view shard ⟨logId, .normal command⟩ =
      .error (.adapter "replicated command targets a different shard") := by
    show state.applyCommand db.rows.view shard logId command = _
    unfold StateMachineData.applyCommand
    simp only [valid, if_pos foreign]
  unfold applyEntry
  rw [payload]
  rfl

end

end Vyrm.Cluster
