import Mathlib.Logic.Relation
import Vyrm.Core.Key.Order
import Vyrm.Core.Runtime.Chain
import Vyrm.Core.Runtime.Injective
import Vyrm.Store.Native
import Vyrm.Store.Native.Rows

/-!
# The log of a native engine

Where the rows of a native engine hold a log, a commit adds rows for its changes and
rewrites none: afterwards the rows hold the log with the changes of the commit behind it.
-/

namespace Vyrm.Store
open Lib Vyrm.Core Serde

/-! ## Rows of other keyspaces -/

/-- The keyspaces that the log is read from. -/
def Keyspace.OfLog (space : Keyspace) : Prop := space = .runtimeChanges ∨ space = .metadata

/-- Writes to other keyspaces. -/
def Aside (operations : List Kv.Mutation) : Prop :=
  ∀ operation ∈ operations, ∃ space key value, ¬ space.OfLog ∧ operation = put space key value

namespace Aside

theorem nil : Aside [] := nofun

theorem single {space : Keyspace} (other : ¬ space.OfLog) (key value : Bytes) : Aside [put space key value] := by
  intro operation listed
  exact ⟨space, key, value, other, List.mem_singleton.mp listed⟩

theorem append {operations more : List Kv.Mutation} (aside : Aside operations) (rest : Aside more) :
    Aside (operations ++ more) := by
  intro operation listed
  rcases List.mem_append.mp listed with first | second
  · exact aside operation first
  · exact rest operation second

theorem cons {space : Keyspace} {operations : List Kv.Mutation} (other : ¬ space.OfLog) (key value : Bytes)
    (aside : Aside operations) : Aside (put space key value :: operations) :=
  (single other key value).append aside

end Aside

namespace Rows

theorem getElem?_put (rows : Rows) (space : Keyspace) (key value : Bytes) (other : Keyspace) (k : Bytes) :
    (rows.apply (put space key value))[storageKey other k]? =
      if space = other ∧ key = k then some value else rows[storageKey other k]? := by
  simp only [put, getElem?_apply, Kv.Mutation.key, Kv.Mutation.value, storageKey_inj]

/-- Writes aside leave the rows of the log alone. -/
theorem getElem?_aside {operations : List Kv.Mutation} (aside : Aside operations) (rows : Rows)
    {space : Keyspace} (ofLog : space.OfLog) (key : Bytes) :
    (operations.foldl apply rows)[storageKey space key]? = rows[storageKey space key]? := by
  induction operations generalizing rows with
  | nil => rfl
  | cons operation operations ih =>
    obtain ⟨other, k, value, notOfLog, rfl⟩ := aside operation (by simp)
    have apart : ¬ (other = space ∧ k = key) := fun same => notOfLog (same.1 ▸ ofLog)
    rw [List.foldl_cons, ih fun operation listed => aside operation (by simp [listed]), getElem?_put, if_neg apart]

end Rows

/-! ## The changes -/

/-- The changes that a commit adds to a log. -/
def Rows.appended (changes : List RuntimeChange) (commit : RuntimeCommit) : List RuntimeChange :=
  commit.changesAfter commit.digest (UInt64.ofNat changes.length) (changes.getLast?.map (·.digest))

section

variable [Codec] {rows : Rows} {changes : List RuntimeChange}

/-- Every change of a log is stored under its position. -/
def Rows.Log (rows : Rows) (changes : List RuntimeChange) : Prop :=
  ∀ n change, changes[n]? = some change → ∀ cursor : UInt64, cursor.toNat = n + 1 →
    rows[storageKey .runtimeChanges (be64 cursor)]? = some (toVec change)

omit [Codec] in
theorem be64_inj {a b : UInt64} (same : be64 a = be64 b) : a = b :=
  prefixFree_be64.inj (by simp [be64]) same

namespace Rows

theorem Log.aside (log : rows.Log changes) {operations : List Kv.Mutation} (aside : Aside operations) :
    Log (operations.foldl apply rows) changes := by
  intro n change found cursor position
  rw [getElem?_aside aside rows (.inl rfl)]
  exact log n change found cursor position

theorem Log.push (log : rows.Log changes) {cursor : UInt64} (next : cursor.toNat = changes.length + 1)
    (change : RuntimeChange) :
    Log (rows.apply (put .runtimeChanges (be64 cursor) (toVec change))) (changes ++ [change]) := by
  intro n other found k position
  rw [getElem?_put]
  by_cases last : n = changes.length
  · subst last
    have same : cursor = k := UInt64.toNat_inj.mp (next.trans position.symm)
    rw [List.getElem?_concat_length, Option.some.injEq] at found
    rw [same, found, if_pos ⟨rfl, rfl⟩]
  · have short : n < changes.length := by
      have bound := (List.getElem?_eq_some_iff.mp found).1
      rw [List.length_append, List.length_singleton] at bound
      omega
    rw [List.getElem?_append_left short] at found
    rw [if_neg, log n other found k position]
    intro same
    rw [be64_inj same.2, position] at next
    omega

end Rows

/-! ## Lowering -/

section

variable {commit : RuntimeCommit} {commitId : String} {operations : List Kv.Mutation}

/-- What one mutation is lowered to: its change, among writes aside. -/
theorem lowerMutation_ok {ordinal : Nat} {at_ next : View.Lowering} {mutation : RuntimeMutation}
    (lowered : View.lowerMutation commit commitId ordinal at_ mutation = .ok (next, operations)) :
    ∃ before after change, operations = before ++ put .runtimeChanges (be64 next.cursor) (toVec change) :: after ∧
      Aside before ∧ Aside after ∧ next.cursor.toNat = at_.cursor.toNat + 1 ∧ next.cursor = at_.cursor + 1 ∧
      change = RuntimeChange.committed next.cursor commit commitId (UInt64.ofNat ordinal) mutation
        at_.previousDigest ∧ next.previousDigest = some change.digest := by
  obtain ⟨⟨sequence, claims⟩, isClaim, lowered⟩ := except_bind_ok.mp lowered
  obtain ⟨cursor, isNext, lowered⟩ := except_bind_ok.mp lowered
  obtain ⟨works, isWork, lowered⟩ := except_bind_ok.mp lowered
  obtain ⟨rfl, rfl⟩ := Prod.mk.inj (Except.ok.inj lowered)
  have claimsAside : Aside claims := by
    cases mutation with
    | claim claim =>
      obtain ⟨-, -, isClaim⟩ := except_bind_ok.mp isClaim
      obtain ⟨_, -, isClaim⟩ := except_bind_ok.mp isClaim
      cases isClaim
      exact .cons (by simp [Keyspace.OfLog]) _ _ (.single (by simp [Keyspace.OfLog]) _ _)
    | _ =>
      cases isClaim
      exact .nil
  have worksAside : Aside works := by
    unfold View.lowerWork at isWork
    split at isWork
    · cases isWork
      exact .nil
    · obtain ⟨_, -, isWork⟩ := except_bind_ok.mp isWork
      cases isWork
      exact .single (by simp [Keyspace.OfLog]) _ _
  have stateAside : Aside (View.lowerState commit.scope mutation) := by
    cases mutation with
    | claim claim => exact .nil
    | event event => exact .nil
    | _ => exact .single (by simp [Keyspace.OfLog]) _ _
  unfold checkedSucc at isNext
  split at isNext
  · cases isNext
  · next small =>
    cases isNext
    refine ⟨claims, _, _, rfl, claimsAside, worksAside.append stateAside, ?_, rfl, rfl, rfl⟩
    have bound := at_.cursor.toNat_lt
    have below : at_.cursor.toNat ≠ 2 ^ 64 - 1 := by
      intro last
      exact small (UInt64.toNat_inj.mp (last.trans toNat_u64Max.symm))
    have one : (1 : UInt64).toNat = 1 := rfl
    rw [UInt64.toNat_add]
    omega

/-- Lowered mutations add their changes to the log, and keep the metadata. -/
theorem lower_ok {mutations : List RuntimeMutation} {ordinal : Nat} {at_ last : View.Lowering} {start : UInt64}
    (log : rows.Log changes) (length : at_.cursor.toNat = changes.length)
    (position : at_.cursor = start + UInt64.ofNat ordinal)
    (lowered : View.lower commit commitId mutations ordinal at_ = .ok (last, operations)) :
    Rows.Log (operations.foldl Rows.apply rows)
        (changes ++ commitChanges commit commitId start mutations ordinal at_.previousDigest) ∧
      last.cursor.toNat = changes.length + mutations.length ∧
      last.previousDigest = tip (·.digest) at_.previousDigest
        (commitChanges commit commitId start mutations ordinal at_.previousDigest) ∧
      ∀ key, (operations.foldl Rows.apply rows)[storageKey .metadata key]? = rows[storageKey .metadata key]? := by
  induction mutations generalizing ordinal at_ operations rows changes with
  | nil =>
    cases lowered
    simp [commitChanges, log, length]
  | cons mutation mutations ih =>
    obtain ⟨⟨next, first⟩, one, lowered⟩ := except_bind_ok.mp lowered
    obtain ⟨⟨last', later⟩, others, lowered⟩ := except_bind_ok.mp lowered
    obtain ⟨rfl, rfl⟩ := Prod.mk.inj (Except.ok.inj lowered)
    obtain ⟨before, after, change, rfl, asideBefore, asideAfter, grows, cursor, isChange, digest⟩ :=
      lowerMutation_ok one
    have pushed : Rows.Log ((before ++ put .runtimeChanges (be64 next.cursor) (toVec change) :: after).foldl
        Rows.apply rows) (changes ++ [change]) := by
      rw [List.foldl_append, List.foldl_cons]
      exact ((log.aside asideBefore).push (by omega) change).aside asideAfter
    have kept : ∀ key, ((before ++ put .runtimeChanges (be64 next.cursor) (toVec change) :: after).foldl
        Rows.apply rows)[storageKey .metadata key]? = rows[storageKey .metadata key]? := by
      intro key
      rw [List.foldl_append, List.foldl_cons, Rows.getElem?_aside asideAfter _ (.inr rfl), Rows.getElem?_put,
        if_neg (by simp), Rows.getElem?_aside asideBefore _ (.inr rfl)]
    have nextPosition : next.cursor = start + UInt64.ofNat (ordinal + 1) := by
      rw [cursor, position, UInt64.ofNat_add, UInt64.add_assoc]
      rfl
    obtain ⟨log, reaches, isTip, metadata⟩ := ih pushed (by simp [grows, length]) nextPosition others
    have isFirst : RuntimeChange.committed (start + UInt64.ofNat ordinal + 1) commit commitId
        (UInt64.ofNat ordinal) mutation at_.previousDigest = change := by
      rw [isChange, cursor, position]
    have all : commitChanges commit commitId start (mutation :: mutations) ordinal at_.previousDigest =
        change :: commitChanges commit commitId start mutations (ordinal + 1) (some change.digest) := by
      rw [commitChanges, isFirst]
    rw [digest] at log isTip
    rw [all, List.foldl_append]
    refine ⟨?_, ?_, ?_, ?_⟩
    · simpa using log
    · rw [reaches]
      simp only [List.length_append, List.length_cons, List.length_nil]
      omega
    · rw [isTip, tip_cons]
    · intro key
      rw [metadata, kept]

end

/-! ## Commits -/

/-- A commit over rows: what it plans is written, unless it fails (`native.rs:597-603`). -/
def Rows.commitRuntime (rows : Rows) (commit : RuntimeCommit) : Except Error RuntimeCommitOutcome × Rows :=
  match rows.view.prepareCommit commit with
  | .error e => (.error e, rows)
  | .ok (outcome, operations) => (.ok outcome, operations.foldl Rows.apply rows)

/-- The rows of an engine that holds a log. -/
structure Rows.Holds (rows : Rows) (changes : List RuntimeChange) : Prop where
  chained : Chained changes
  short : changes.length < 2 ^ 64
  log : rows.Log changes
  cursor : rows.view.readSequence .runtimeCursor = .ok (UInt64.ofNat changes.length)
  digest : rows.view.readDigest .runtimeLastDigest = .ok (changes.getLast?.map (·.digest))

namespace Rows

theorem holds_empty : Holds ∅ [] := by
  refine ⟨chained_nil, by simp, by simp [Log], ?_, ?_⟩
  · simp [View.readSequence, View.read, storage, view]
  · simp [View.readDigest, View.read, storage, view]

omit [Codec] in
theorem readSequence_of_row {key : MetaKey} {sequence : UInt64}
    (row : rows[storageKey .metadata key.bytes]? = some (Format.nat.print sequence.toNat)) :
    rows.view.readSequence key = .ok sequence := by
  simp [View.readSequence, View.read, storage, view, row, View.decodeSequence_print]

omit [Codec] in
theorem readDigest_of_row {key : MetaKey} {digest : Option String} (some_ : digest ≠ some "")
    (row : rows[storageKey .metadata key.bytes]? = some (utf8 (digest.getD ""))) :
    rows.view.readDigest key = .ok digest := by
  simp only [View.readDigest, View.read, storage, view, row, except_ok_bind, fromUtf8_utf8]
  cases digest with
  | none => rfl
  | some text =>
    have nonempty : text ≠ "" := fun empty => some_ (congrArg some empty)
    simp [nonempty]

omit [Codec] in
theorem digest_ne_empty (chained : Chained changes) : changes.getLast?.map (·.digest) ≠ some "" := by
  intro empty
  obtain ⟨change, last, isEmpty⟩ := Option.map_eq_some_iff.mp empty
  have verified := chained.verified change (List.mem_of_getLast? last)
  rw [RuntimeChange.verifyDigest, decide_eq_true_eq, isEmpty] at verified
  have isDigest := isDigest_sha256Hex change.canonicalBytes
  rw [verified] at isDigest
  exact isDigest.identifier.1 rfl

omit [Codec] in
/-- What a commit writes behind its mutations, as reads of the log see it. -/
theorem getElem?_last {cursor audited : Bytes} {digest audit outcome auditKey commitKey : Bytes}
    {watermark : List Kv.Mutation} (isWatermark : ∀ operation ∈ watermark, ∃ sequence,
      operation = putSequence .sequenceWatermark sequence) {rows rows' : Rows}
    (isLast : (watermark ++ [put .metadata MetaKey.runtimeCursor.bytes cursor,
      put .metadata MetaKey.runtimeLastDigest.bytes digest, put .runtimeAudit auditKey audit,
      put .metadata MetaKey.runtimeLastAuditDigest.bytes audited,
      put .runtimeCommits commitKey outcome]).foldl apply rows = rows') :
    (∀ key, rows'[storageKey .runtimeChanges key]? = rows[storageKey .runtimeChanges key]?) ∧
      rows'[storageKey .metadata MetaKey.runtimeCursor.bytes]? = some cursor ∧
      rows'[storageKey .metadata MetaKey.runtimeLastDigest.bytes]? = some digest := by
  have watermarked : ∀ key, (watermark.foldl apply rows)[storageKey .runtimeChanges key]? =
      rows[storageKey .runtimeChanges key]? := by
    intro key
    clear isLast
    induction watermark generalizing rows with
    | nil => rfl
    | cons operation rest ih =>
      obtain ⟨sequence, rfl⟩ := isWatermark operation (by simp)
      rw [List.foldl_cons, ih fun other listed => isWatermark other (by simp [listed]), putSequence, getElem?_put,
        if_neg (by simp)]
  subst isLast
  simp only [List.foldl_append, List.foldl_cons, List.foldl_nil, getElem?_put]
  refine ⟨?_, ?_, ?_⟩
  · intro key
    simp [watermarked]
  · simp [MetaKey.bytes]
  · simp [MetaKey.bytes]

/-- An accepted commit adds its changes to the log that the rows hold. -/
theorem Holds.commit {commit : RuntimeCommit} {outcome : RuntimeCommitOutcome} {rows' : Rows}
    (holds : rows.Holds changes) (accepted : rows.commitRuntime commit = (.ok outcome, rows')) :
    rows'.Holds (changes ++ appended changes commit) := by
  unfold commitRuntime at accepted
  split at accepted
  · cases accepted
  · next outcome' operations prepared =>
    obtain ⟨-, isLast⟩ := Prod.mk.inj accepted
    obtain ⟨-, -, prepared⟩ := except_bind_ok.mp prepared
    obtain ⟨start, isStart, prepared⟩ := except_bind_ok.mp prepared
    obtain ⟨claimStart, -, prepared⟩ := except_bind_ok.mp prepared
    obtain ⟨previous, isPrevious, prepared⟩ := except_bind_ok.mp prepared
    obtain ⟨previousAudit, -, prepared⟩ := except_bind_ok.mp prepared
    obtain ⟨⟨last, lowered⟩, isLowered, prepared⟩ := except_bind_ok.mp prepared
    obtain ⟨audit, -, prepared⟩ := except_bind_ok.mp prepared
    obtain ⟨rfl, rfl⟩ := Prod.mk.inj (Except.ok.inj prepared)
    rw [holds.cursor] at isStart
    rw [holds.digest] at isPrevious
    cases isStart
    cases isPrevious
    have start : (UInt64.ofNat changes.length).toNat = changes.length := by
      rw [UInt64.toNat_ofNat']
      exact Nat.mod_eq_of_lt holds.short
    have position : UInt64.ofNat changes.length = UInt64.ofNat changes.length + UInt64.ofNat 0 := by simp
    obtain ⟨log, reaches, isTip, -⟩ := lower_ok holds.log start position isLowered
    have fits : changes.length + commit.mutations.length < 2 ^ 64 := reaches ▸ last.cursor.toNat_lt
    have chained' := holds.chained.append_commit commit commit.digest fits
    have length : (changes ++ appended changes commit).length = changes.length + commit.mutations.length := by
      rw [List.length_append, appended, RuntimeCommit.changesAfter, length_commitChanges]
    have isWatermark : ∀ operation ∈ (if 0 < (commitClaims commit).length then
        [putSequence .sequenceWatermark last.claimSequence] else []), ∃ sequence,
        operation = putSequence .sequenceWatermark sequence := by
      intro operation listed
      split at listed
      · exact ⟨_, List.mem_singleton.mp listed⟩
      · cases listed
    rw [List.append_assoc, List.foldl_append] at isLast
    obtain ⟨kept, cursor, digest⟩ := getElem?_last isWatermark isLast
    refine ⟨chained', by rwa [length], ?_, ?_, ?_⟩
    · intro n change found cursor position
      rw [kept]
      exact log n change found cursor position
    · rw [length]
      have isLength : last.cursor = UInt64.ofNat (changes.length + commit.mutations.length) := by
        rw [← reaches, UInt64.ofNat_toNat]
      rw [← isLength]
      exact readSequence_of_row cursor
    · have isDigest : last.previousDigest = (changes ++ appended changes commit).getLast?.map (·.digest) := by
        rw [isTip, tip, List.getLast?_append, Option.map_or]
        rfl
      rw [isDigest] at digest
      exact readDigest_of_row (digest_ne_empty chained') digest

/-- What rows become by accepted commits. A commit that is refused, or that the database does not
write, changes nothing. -/
def Later : Rows → Rows → Prop :=
  Relation.ReflTransGen fun rows rows' => ∃ commit outcome, rows.commitRuntime commit = (.ok outcome, rows')

theorem Holds.later {rows' : Rows} (holds : rows.Holds changes) (later : rows.Later rows') :
    ∃ more, rows'.Holds (changes ++ more) := by
  induction later with
  | refl => exact ⟨[], by simpa using holds⟩
  | tail _ last ih =>
    obtain ⟨more, holds⟩ := ih
    obtain ⟨commit, outcome, accepted⟩ := last
    have after := holds.commit accepted
    rw [List.append_assoc] at after
    exact ⟨_, after⟩

end Rows

end

end Vyrm.Store
