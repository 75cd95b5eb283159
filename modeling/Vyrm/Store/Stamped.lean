import Vyrm.Store.ChangePages

/-!
# Reads at a stamp

A read stamp names a prefix of the log by its length, its last digest and the schema revision of
its scope. Whatever is committed later, a stamp that an engine accepts it accepts again, and the
pages it reads at it stay as they are.
-/

namespace Vyrm.Store
open Lib Vyrm.Core Serde

section

variable [Codec] {rows : Rows} {changes : List RuntimeChange} {read : ReadStamp} {after : UInt64} {limit : Nat}
  {scope : Option ScopeId}

/-! ## The native engine -/

/-- What is stored at a cursor of the log stays there. -/
theorem readJson_later {rows' : Rows} (holds : rows.Holds changes) (later : rows.Later rows') {cursor : UInt64}
    (positive : cursor ≠ 0) (stored : cursor.toNat ≤ changes.length) :
    (rows'.view.readJson .runtimeChanges (be64 cursor) : Except Error (Option RuntimeChange)) =
      rows.view.readJson .runtimeChanges (be64 cursor) := by
  obtain ⟨more, holds'⟩ := holds.later later
  have nonzero : cursor.toNat ≠ 0 := fun zero => positive (UInt64.toNat_inj.mp zero)
  have position : cursor.toNat = cursor.toNat - 1 + 1 := by omega
  have found : changes[cursor.toNat - 1]? = some changes[cursor.toNat - 1] := List.getElem?_eq_getElem _
  have found' : (changes ++ more)[cursor.toNat - 1]? = some changes[cursor.toNat - 1] := by
    rw [List.getElem?_append_left (by omega), found]
  have row := holds.log _ _ found cursor position
  have row' := holds'.log _ _ found' cursor position
  simp only [View.readJson, View.read, Rows.view, row, row']

/-- The cursor of a stamp that is accepted is one of the log. -/
theorem validateReadStamp_stored (holds : rows.Holds changes) (valid : rows.view.validateReadStamp read = .ok ()) :
    read.commitCursor.toNat ≤ changes.length := by
  simp only [View.validateReadStamp, holds.cursor, except_bind_ok, Except.ok.injEq, except_throw,
    except_error_bind, except_reject_ok] at valid
  obtain ⟨-, -, _, rfl, below, -⟩ := valid
  rw [UInt64.not_lt, UInt64.le_iff_toNat_le, UInt64.toNat_ofNat', Nat.mod_eq_of_lt holds.short] at below
  exact below

theorem validateReadStamp_later {rows' : Rows} (holds : rows.Holds changes) (later : rows.Later rows')
    (valid : rows.view.validateReadStamp read = .ok ()) : rows'.view.validateReadStamp read = .ok () := by
  obtain ⟨more, holds'⟩ := holds.later later
  have stored := validateReadStamp_stored holds valid
  have below : ∀ {stored : List RuntimeChange}, stored.length < 2 ^ 64 → read.commitCursor.toNat ≤ stored.length →
      ¬ UInt64.ofNat stored.length < read.commitCursor := by
    intro stored short within
    rw [UInt64.not_lt, UInt64.le_iff_toNat_le, UInt64.toNat_ofNat', Nat.mod_eq_of_lt short]
    exact within
  have stored' : read.commitCursor.toNat ≤ (changes ++ more).length := by
    rw [List.length_append]
    omega
  rw [View.validateReadStamp, holds.cursor] at valid
  rw [View.validateReadStamp, holds'.cursor]
  simp only [except_ok_bind, if_neg (below holds.short stored)] at valid
  simp only [except_ok_bind, if_neg (below holds'.short stored'), changePage_later holds stored later]
  by_cases zero : read.commitCursor = 0
  · simpa only [if_pos zero] using valid
  · simpa only [if_neg zero, readJson_later holds later zero stored] using valid

/-- A page that was read at a stamp stays as it is. -/
theorem runtimeReadChanges_later {rows' : Rows} (holds : rows.Holds changes) (later : rows.Later rows')
    {page : RuntimeChangePage} (found : rows.view.runtimeReadChanges read after limit = .ok page) :
    rows'.view.runtimeReadChanges read after limit = .ok page := by
  obtain ⟨⟨⟩, valid, found⟩ := except_bind_ok.mp found
  have stored := validateReadStamp_stored holds valid
  rw [View.runtimeReadChanges, validateReadStamp_later holds later valid, except_ok_bind,
    changePage_later holds stored later, found]

/-- What the native loop reads is what JSON makes of the changes that are stored. -/
theorem collectChanges_reads (holds : rows.Holds changes) {left : Nat} {through reached : UInt64}
    {previousDigest : Option String} {found : List RuntimeChange} (fits : through.toNat + left ≤ changes.length)
    (collected : rows.view.collectChanges after limit scope left through previousDigest = .ok (reached, found)) :
    through.toNat ≤ reached.toNat ∧ ∃ read, List.Forall₂ (fun stored read => fromSlice (toVec stored) = .ok read)
      ((changes.take reached.toNat).drop through.toNat) read ∧ found = read.filter (inScope scope) := by
  induction left generalizing through previousDigest found with
  | zero =>
    cases collected
    exact ⟨Nat.le_refl _, [], by simp, rfl⟩
  | succ left ih =>
    rw [View.collectChanges] at collected
    split at collected
    · cases collected
      exact ⟨Nat.le_refl _, [], by simp, rfl⟩
    · have short := holds.short
      have next : (through + 1).toNat = through.toNat + 1 := by
        have one : (1 : UInt64).toNat = 1 := rfl
        rw [UInt64.toNat_add]
        omega
      have stored : changes[through.toNat]? = some changes[through.toNat] := List.getElem?_eq_getElem _
      generalize changes[through.toNat] = change at stored
      simp only [changeAt_eq holds stored next, except_bind_ok, except_throw, except_error_bind, except_reject_ok,
        except_pure] at collected
      obtain ⟨first, isFirst, -, ⟨reached', rest⟩, collected, same⟩ := collected
      obtain ⟨rfl, rfl⟩ := Prod.mk.inj (Except.ok.inj same)
      obtain ⟨beyond, read, each, rfl⟩ := ih (by omega) collected
      have isRead : fromSlice (toVec change) = .ok first := by
        cases written : (fromSlice (toVec change) : Except String RuntimeChange) with
        | error message =>
          rw [written] at isFirst
          cases isFirst
        | ok _ =>
          rw [written] at isFirst
          cases isFirst
          rfl
      refine ⟨by omega, first :: read, ?_, ?_⟩
      · rw [drop_take_cons stored (by omega), ← next]
        exact .cons isRead each
      · rw [List.filter_cons]
        rfl

/-- A loop that got far enough stops at any limit before. -/
theorem collectChanges_less {view : View} {less : Nat} (smaller : less ≤ limit) {left : Nat}
    {through reached : UInt64} {previousDigest : Option String} {found : List RuntimeChange} (from_ : after ≤ through)
    (fits : through.toNat + left < 2 ^ 64)
    (collected : view.collectChanges after limit scope left through previousDigest = .ok (reached, found)) :
    through.toNat ≤ reached.toNat ∧
      ∃ stop found', view.collectChanges after less scope left through previousDigest = .ok (stop, found') ∧
        stop.toNat = max through.toNat (min (after.toNat + less) reached.toNat) := by
  induction left generalizing through previousDigest found with
  | zero =>
    cases collected
    exact ⟨Nat.le_refl _, reached, [], rfl, by omega⟩
  | succ left ih =>
    have gap : (through - after).toNat = through.toNat - after.toNat := UInt64.toNat_sub_of_le _ _ from_
    rw [UInt64.le_iff_toNat_le] at from_
    have next : (through + 1).toNat = through.toNat + 1 := by
      have one : (1 : UInt64).toNat = 1 := rfl
      rw [UInt64.toNat_add]
      omega
    rw [View.collectChanges, gap] at collected ⊢
    split at collected
    · next full =>
      cases collected
      rw [if_pos (by omega)]
      exact ⟨Nat.le_refl _, reached, [], rfl, by omega⟩
    · next more =>
      simp only [except_bind_ok, except_throw, except_error_bind, except_reject_ok, except_pure] at collected
      obtain ⟨change, isChange, good, ⟨reached', rest⟩, collected, same⟩ := collected
      obtain ⟨rfl, rfl⟩ := Prod.mk.inj (Except.ok.inj same)
      have step : after ≤ through + 1 := by
        rw [UInt64.le_iff_toNat_le, next]
        omega
      obtain ⟨beyond, stop, found', again, isStop⟩ := ih step (by omega) collected
      dsimp only at beyond isStop ⊢
      refine ⟨by omega, ?_⟩
      by_cases here : less ≤ through.toNat - after.toNat
      · rw [if_pos here]
        exact ⟨through, [], rfl, by omega⟩
      · rw [if_neg here]
        simp only [isChange, except_ok_bind, if_neg good, again]
        exact ⟨stop, _, rfl, by omega⟩

/-- A native page up to the head of a stamp, cut short. -/
theorem runtimeReadChanges_less {view : View} {known : UInt64} {page : RuntimeChangePage}
    (found : view.runtimeReadChanges read 0 read.commitCursor.toNat = .ok page)
    (whole : page.throughCursor = read.commitCursor) (nonzero : known ≠ 0) (before : known ≤ read.commitCursor) :
    ∃ page', view.runtimeReadChanges read 0 known.toNat = .ok page' ∧ page'.throughCursor = known := by
  obtain ⟨⟨⟩, valid, found⟩ := except_bind_ok.mp found
  have none : (0 : UInt64).toNat = 0 := rfl
  have some_ : known.toNat ≠ 0 := fun zero => nonzero (UInt64.toNat_inj.mp zero)
  rw [UInt64.le_iff_toNat_le] at before
  have below : ¬ ((0 : UInt64) = u64Max ∨ read.commitCursor ≤ 0) := by
    rw [not_or, UInt64.le_iff_toNat_le]
    exact ⟨by decide, by omega⟩
  unfold View.changePage at found
  rw [if_neg (by omega)] at found
  simp only [if_neg below, if_pos, except_pure, except_ok_bind, except_bind_ok, Except.ok.injEq] at found
  obtain ⟨⟨through, changes⟩, collected, rfl⟩ := found
  dsimp only at whole
  subst whole
  obtain ⟨-, stop, changes', again, isStop⟩ := collectChanges_less before (UInt64.le_refl _)
    (by rw [UInt64.sub_zero, none, Nat.zero_add]; exact UInt64.toNat_lt _) collected
  have isKnown : stop = known := by
    rw [← UInt64.toNat_inj]
    omega
  refine ⟨{ requestedAfter := 0, throughCursor := stop, headCursor := read.commitCursor, changes := changes' }, ?_, isKnown⟩
  rw [View.runtimeReadChanges, valid, except_ok_bind, View.changePage, if_neg some_]
  simp only [if_neg below, if_pos, except_pure, except_ok_bind, again]

end

/-! ## The memory engine -/

section

variable {engine next : MemoryEngine} {read : ReadStamp} {after : UInt64} {limit : Nat}

theorem memory_validateReadStamp_stored (short : engine.runtimeChanges.length < 2 ^ 63)
    (valid : engine.validateReadStamp read = .ok ()) : read.commitCursor.toNat ≤ engine.runtimeChanges.length := by
  simp only [MemoryEngine.validateReadStamp, except_bind_ok, except_throw, except_error_bind,
    except_reject_ok] at valid
  obtain ⟨-, -, below, -⟩ := valid
  rw [UInt64.not_lt, UInt64.le_iff_toNat_le, UInt64.toNat_ofNat'] at below
  omega

theorem memory_validateReadStamp_append (short : next.runtimeChanges.length < 2 ^ 63)
    (extends_ : engine.runtimeChanges <+: next.runtimeChanges) (valid : engine.validateReadStamp read = .ok ()) :
    next.validateReadStamp read = .ok () := by
  have grows := extends_.length_le
  have stored := memory_validateReadStamp_stored (by omega) valid
  obtain ⟨more, whole⟩ := extends_
  have below : ¬ UInt64.ofNat next.runtimeChanges.length < read.commitCursor := by
    rw [UInt64.not_lt, UInt64.le_iff_toNat_le, UInt64.toNat_ofNat']
    omega
  have kept : next.runtimeChanges.take read.commitCursor.toNat =
      engine.runtimeChanges.take read.commitCursor.toNat := by
    rw [← whole, List.take_append_of_le_length stored]
  have last : (if read.commitCursor = 0 then none
      else next.runtimeChanges[read.commitCursor.toNat - 1]?.map (·.digest)) =
        if read.commitCursor = 0 then none
        else engine.runtimeChanges[read.commitCursor.toNat - 1]?.map (·.digest) := by
    by_cases zero : read.commitCursor = 0
    · rw [if_pos zero, if_pos zero]
    · have nonzero : read.commitCursor.toNat ≠ 0 := fun none => zero (UInt64.toNat_inj.mp none)
      rw [if_neg zero, if_neg zero, ← whole, List.getElem?_append_left (by omega)]
  simp only [MemoryEngine.validateReadStamp, except_bind_ok, except_throw, except_error_bind,
    except_reject_ok] at valid ⊢
  obtain ⟨⟨⟩, isValid, -, agrees⟩ := valid
  exact ⟨(), isValid, below, by rw [last, kept]; exact agrees⟩

theorem memory_runtimeReadChanges_append (short : next.runtimeChanges.length < 2 ^ 63)
    (extends_ : engine.runtimeChanges <+: next.runtimeChanges) {page : RuntimeChangePage}
    (found : engine.runtimeReadChanges read after limit = .ok page) :
    next.runtimeReadChanges read after limit = .ok page := by
  have grows := extends_.length_le
  unfold MemoryEngine.runtimeReadChanges at found ⊢
  split at found
  · cases found
  next some_ =>
  obtain ⟨⟨⟩, valid, found⟩ := except_bind_ok.mp found
  have stored := memory_validateReadStamp_stored (by omega) valid
  have again := memory_validateReadStamp_append short extends_ valid
  obtain ⟨more, whole⟩ := extends_
  rw [if_neg some_, again, except_ok_bind, ← whole, memory_changePage_append stored]
  exact found

/-- A page of the memory engine up to the head of a stamp, cut short. -/
theorem memory_runtimeReadChanges_less (short : engine.runtimeChanges.length < 2 ^ 63) {known : UInt64}
    {page : RuntimeChangePage} (found : engine.runtimeReadChanges read 0 read.commitCursor.toNat = .ok page)
    (nonzero : known ≠ 0) (before : known ≤ read.commitCursor) :
    ∃ page', engine.runtimeReadChanges read 0 known.toNat = .ok page' ∧ page'.throughCursor = known := by
  have some_ : known.toNat ≠ 0 := fun zero => nonzero (UInt64.toNat_inj.mp zero)
  unfold MemoryEngine.runtimeReadChanges at found ⊢
  split at found
  · cases found
  obtain ⟨⟨⟩, valid, -⟩ := except_bind_ok.mp found
  have stored := memory_validateReadStamp_stored short valid
  have start : (0 : UInt64) ≤ read.commitCursor := by
    rw [UInt64.le_iff_toNat_le]
    exact Nat.zero_le _
  obtain ⟨through, -⟩ := @memory_changePage_slice engine.runtimeChanges read.commitCursor 0 known.toNat
    (some read.scope) stored start
  rw [UInt64.le_iff_toNat_le] at before
  refine ⟨_, by rw [if_neg some_, valid, except_ok_bind]; rfl, ?_⟩
  rw [← UInt64.toNat_inj, through]
  have none : (0 : UInt64).toNat = 0 := rfl
  omega

end

/-! ## Engines -/

/-- An engine with a runtime log: the memory engine, or the native engine by what its database
holds. -/
inductive Engine where
  | memory (engine : MemoryEngine)
  | native (rows : Rows)

namespace Engine

variable [Codec]

/-- `Engine::runtime_read_changes` (`engine.rs:113-118`). -/
def runtimeReadChanges : Engine → ReadStamp → UInt64 → Nat → Except Error RuntimeChangePage
  | memory engine => engine.runtimeReadChanges
  | native rows => rows.view.runtimeReadChanges

/-- `Engine::runtime_read_stamp` (`engine.rs:81`). -/
def runtimeReadStamp : Engine → ScopeId → Except Error ReadStamp
  | memory engine => engine.runtimeReadStamp
  | native rows => rows.view.runtimeReadStamp

/-- The engine after `Engine::commit_runtime`, whether it accepts the commit or not. -/
def commitRuntime : Engine → RuntimeCommit → Engine
  | memory engine, commit => memory (engine.commitRuntime commit).2
  | native rows, commit => native (rows.commitRuntime commit).2

omit [Codec] in
/-- A vector has at most `isize::MAX` elements: a push that does not fit does not return. -/
def Fits : Engine → Prop
  | memory engine => engine.runtimeChanges.length < 2 ^ 63
  | native _ => True

/-- What an engine becomes by commits. -/
def Later : Engine → Engine → Prop :=
  Relation.ReflTransGen fun engine next => ∃ commit, next = engine.commitRuntime commit ∧ next.Fits

/-- An engine that was new once. -/
def History (engine : Engine) : Prop := Later (memory .new) engine ∨ Later (native ∅) engine

/-- The log of an engine. -/
def Logs : Engine → List RuntimeChange → Prop
  | memory engine, changes => engine.runtimeChanges = changes ∧ changes.length < 2 ^ 63
  | native rows, changes => rows.Holds changes

/-- What an engine reads of changes: the memory engine the changes, the native engine what JSON
makes of them. -/
def Reads : Engine → List RuntimeChange → List RuntimeChange → Prop
  | memory _, stored, read => read = stored
  | native _, stored, read => List.Forall₂ (fun stored read => fromSlice (toVec stored) = .ok read) stored read

variable {engine next : Engine} {changes : List RuntimeChange}

/-- A commit to the native engine is accepted, or changes nothing. -/
theorem later_native {rows : Rows} (commit : RuntimeCommit) : rows.Later (rows.commitRuntime commit).2 := by
  unfold Rows.commitRuntime
  split
  · exact .refl
  · next outcome operations prepared =>
    apply Relation.ReflTransGen.single
    exact ⟨commit, outcome, by rw [Rows.commitRuntime, prepared]⟩

/-- A log only grows. -/
theorem Logs.later (logs : engine.Logs changes) (later : engine.Later next) :
    ∃ more, next.Logs (changes ++ more) := by
  induction later with
  | refl => exact ⟨[], by simpa using logs⟩
  | @tail middle next _ last ih =>
    obtain ⟨more, logs⟩ := ih
    obtain ⟨commit, rfl, fits⟩ := last
    cases middle with
    | memory middle =>
      obtain ⟨again, whole⟩ := commitRuntime_extends middle commit
      obtain ⟨same, -⟩ := logs
      rw [same, List.append_assoc] at whole
      exact ⟨_, whole.symm, whole ▸ fits⟩
    | native rows =>
      obtain ⟨again, holds⟩ := Rows.Holds.later logs (later_native commit)
      rw [List.append_assoc] at holds
      exact ⟨_, holds⟩

theorem History.logs (history : engine.History) : ∃ changes, engine.Logs changes := by
  rcases history with later | later
  · have new : Logs (memory .new) [] := ⟨rfl, by simp⟩
    obtain ⟨more, logs⟩ := new.later later
    exact ⟨_, logs⟩
  · have new : Logs (native ∅) [] := Rows.holds_empty
    obtain ⟨more, logs⟩ := new.later later
    exact ⟨_, logs⟩

/-- A page that was read at a stamp is read again, whatever is committed meanwhile. -/
theorem runtimeReadChanges_later (logs : engine.Logs changes) (later : engine.Later next) {read : ReadStamp}
    {after : UInt64} {limit : Nat} {page : RuntimeChangePage}
    (found : engine.runtimeReadChanges read after limit = .ok page) :
    next.runtimeReadChanges read after limit = .ok page := by
  induction later with
  | refl => exact found
  | @tail middle next before last ih =>
    obtain ⟨more, logs⟩ := logs.later before
    obtain ⟨commit, rfl, fits⟩ := last
    cases middle with
    | memory middle => exact memory_runtimeReadChanges_append fits (commitRuntime_extends middle commit) ih
    | native rows => exact Store.runtimeReadChanges_later logs (later_native commit) ih

/-- An engine that reads up to the head of a stamp reads up to every cursor before. -/
theorem runtimeReadChanges_less (logs : engine.Logs changes) {read : ReadStamp} {known : UInt64}
    {page : RuntimeChangePage} (found : engine.runtimeReadChanges read 0 read.commitCursor.toNat = .ok page)
    (whole : page.throughCursor = read.commitCursor) (nonzero : known ≠ 0) (before : known ≤ read.commitCursor) :
    ∃ page', engine.runtimeReadChanges read 0 known.toNat = .ok page' ∧ page'.throughCursor = known := by
  cases engine with
  | memory engine =>
    obtain ⟨rfl, short⟩ := logs
    exact memory_runtimeReadChanges_less short found nonzero before
  | native rows => exact Store.runtimeReadChanges_less found whole nonzero before

end Engine

end Vyrm.Store
