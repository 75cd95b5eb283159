import Mathlib.Algebra.BigOperators.Group.List.Basic
import Vyrm.Lib.Paging
import Vyrm.Store.Memory.Log
import Vyrm.Store.Native.Log
import Vyrm.Store.Projection.Fold

/-!
# Pages of the runtime log

The memory engine cuts a page out of its list of changes; the native engine reads one change
after another, and checks each against the hash chain. On one log they return the same pages
exactly when every change is read back from its JSON as it was written. Page after page, a
reader then gets every change of its scope up to the head, once and in order, whatever is
committed meanwhile.
-/

namespace Vyrm.Store
open Lib Vyrm.Core Serde

/-- The changes that a page of a scope returns. -/
def inScope (scope : Option ScopeId) (change : RuntimeChange) : Bool :=
  scope.all fun scope => scope = change.scope

section

variable [Codec] {rows : Rows} {changes : List RuntimeChange} {head after : UInt64} {limit : Nat}
  {scope : Option ScopeId}

/-! ## Reading one change -/

/-- What is stored at a cursor of the log is what JSON makes of the change there. -/
theorem changeAt_eq (holds : rows.Holds changes) {n : Nat} {change : RuntimeChange}
    (found : changes[n]? = some change) {cursor : UInt64} (position : cursor.toNat = n + 1) :
    rows.view.changeAt cursor = json (fromSlice (toVec change)) := by
  have row := holds.log n change found cursor position
  simp only [View.changeAt, View.readJson, View.read, storage, Rows.view, row, except_ok_bind]
  cases (fromSlice (toVec change) : Except String RuntimeChange) with
  | error message => rfl
  | ok change => rfl

/-- Every change of a log is read back from its JSON as it was written. -/
def Readable (changes : List RuntimeChange) : Prop := ∀ change ∈ changes, fromSlice (toVec change) = .ok change

theorem changeAt_readable (holds : rows.Holds changes) (readable : Readable changes) {n : Nat}
    {change : RuntimeChange} (found : changes[n]? = some change) {cursor : UInt64}
    (position : cursor.toNat = n + 1) : rows.view.changeAt cursor = .ok change := by
  rw [changeAt_eq holds found position, readable change (List.mem_of_getElem? found)]
  rfl

/-! ## The native loop -/

/-- The loop reads the changes from where it is up to the limit, or to the last one that is left. -/
theorem collectChanges_eq (holds : rows.Holds changes) (readable : Readable changes) {left : Nat}
    {through : UInt64} {previousDigest : Option String} (fits : through.toNat + left ≤ changes.length)
    (from_ : after ≤ through) (within : through.toNat ≤ after.toNat + limit)
    (isTip : previousDigest = (changes.take through.toNat).getLast?.map (·.digest)) :
    ∃ reached, rows.view.collectChanges after limit scope left through previousDigest =
        .ok (reached, ((changes.take reached.toNat).drop through.toNat).filter (inScope scope)) ∧
      reached.toNat = min (after.toNat + limit) (through.toNat + left) := by
  induction left generalizing through previousDigest with
  | zero => exact ⟨through, by simp [View.collectChanges], by omega⟩
  | succ left ih =>
    have gap : (through - after).toNat = through.toNat - after.toNat := UInt64.toNat_sub_of_le _ _ from_
    rw [UInt64.le_iff_toNat_le] at from_
    rw [View.collectChanges, gap]
    split
    · exact ⟨through, by simp, by omega⟩
    · next more =>
      have short := holds.short
      have next : (through + 1).toNat = through.toNat + 1 := by
        have one : (1 : UInt64).toNat = 1 := rfl
        rw [UInt64.toNat_add]
        omega
      have found : changes[through.toNat]? = some changes[through.toNat] := List.getElem?_eq_getElem _
      generalize changes[through.toNat] = change at found
      have read := changeAt_readable holds readable found next
      have cursor : change.cursor = through + 1 := UInt64.toNat_inj.mp ((holds.chained.cursor_getElem found).trans next.symm)
      have previous := holds.chained.previousDigest_getElem found
      have verified := holds.chained.verified change (List.mem_of_getElem? found)
      have step : after ≤ through + 1 := by
        rw [UInt64.le_iff_toNat_le, next]
        omega
      have isNext : (changes.take (through + 1).toNat).getLast? = some change := by
        rw [next, List.take_add_one, found]
        simp
      have isTip' : some change.digest = (changes.take (through + 1).toNat).getLast?.map (·.digest) := by
        rw [isNext]
        rfl
      obtain ⟨reached, rest, stops⟩ := ih (by omega) step (by omega) isTip'
      have good : ¬ (change.cursor ≠ through + 1 ∨ change.previousDigest ≠ previousDigest ∨ ¬ change.verifyDigest) := by
        simp [cursor, previous, isTip, verified]
      simp only [read, except_ok_bind, if_neg good, rest]
      refine ⟨reached, ?_, by omega⟩
      rw [drop_take_cons found (by omega), List.filter_cons, ← next]
      rfl

/-! ## The native page -/

/-- The native page of a readable log is the slice that the memory engine cuts out. -/
theorem changePage_eq (holds : rows.Holds changes) (readable : Readable changes)
    (stored : head.toNat ≤ changes.length) (some_ : 0 < limit) :
    rows.view.changePage head after limit scope = .ok (MemoryEngine.changePage changes head after limit scope) := by
  unfold View.changePage MemoryEngine.changePage
  rw [if_neg (by omega)]
  by_cases past : after = u64Max ∨ head ≤ after
  · simp only [if_pos past]
    rfl
  · simp only [if_neg past]
    rw [not_or, UInt64.not_le, UInt64.lt_iff_toNat_lt] at past
    obtain ⟨-, below⟩ := past
    have gap : after.toNat + (head - after).toNat = head.toNat := by
      rw [UInt64.toNat_sub_of_le _ _ (UInt64.le_iff_toNat_le.mpr (Nat.le_of_lt below))]
      omega
    obtain ⟨reached, collected, stops⟩ := @collectChanges_eq _ _ _ after limit scope holds readable
      (head - after).toNat after _ (by omega) (UInt64.le_refl _) (by omega) rfl
    have stop : reached.toNat = min (min (after.toNat + limit) head.toNat) changes.length := by omega
    rw [← stop, UInt64.ofNat_toNat]
    by_cases first : after = 0
    · subst first
      rw [if_pos rfl]
      simp only [except_pure, except_ok_bind]
      have none : (changes.take (0 : UInt64).toNat).getLast?.map (·.digest) = none := by simp
      rw [none] at collected
      rw [collected]
      rfl
    · have position : after.toNat = after.toNat - 1 + 1 := by
        have : after.toNat ≠ 0 := fun zero => first (UInt64.toNat_inj.mp zero)
        omega
      have found : changes[after.toNat - 1]? = some changes[after.toNat - 1] := List.getElem?_eq_getElem _
      generalize changes[after.toNat - 1] = prior at found
      have verified := holds.chained.verified prior (List.mem_of_getElem? found)
      have isLast : (changes.take after.toNat).getLast?.map (·.digest) = some prior.digest := by
        rw [position, List.take_add_one, found]
        simp
      rw [isLast] at collected
      rw [if_neg first, changeAt_readable holds readable found position]
      simp only [except_pure, except_ok_bind, verified, not_true, if_false, collected]
      rfl

/-! ## What pages say of the log -/

/-- A loop that returns every change to come has read each of them back as it was written. -/
theorem readable_of_collectChanges (holds : rows.Holds changes) {left : Nat} {through reached : UInt64}
    {previousDigest : Option String} (all : through.toNat + left = changes.length)
    (from_ : after ≤ through) (limited : changes.length < after.toNat + limit)
    (collected : rows.view.collectChanges after limit none left through previousDigest =
      .ok (reached, changes.drop through.toNat)) : Readable (changes.drop through.toNat) := by
  induction left generalizing through previousDigest with
  | zero =>
    rw [List.drop_of_length_le (by omega)]
    exact fun change member => nomatch member
  | succ left ih =>
    have gap : (through - after).toNat = through.toNat - after.toNat := UInt64.toNat_sub_of_le _ _ from_
    rw [UInt64.le_iff_toNat_le] at from_
    have short := holds.short
    have next : (through + 1).toNat = through.toNat + 1 := by
      have one : (1 : UInt64).toNat = 1 := rfl
      rw [UInt64.toNat_add]
      omega
    have found : changes[through.toNat]? = some changes[through.toNat] := List.getElem?_eq_getElem _
    have whole : changes.drop through.toNat = changes[through.toNat] :: changes.drop (through + 1).toNat := by
      rw [next, ← List.drop_eq_getElem_cons]
    generalize changes[through.toNat] = change at found whole
    rw [View.collectChanges, gap, if_neg (by omega)] at collected
    simp only [changeAt_eq holds found next, except_bind_ok, except_throw, except_error_bind, except_reject_ok,
      except_pure] at collected
    obtain ⟨read, isRead, -, ⟨reached', rest⟩, collected, same⟩ := collected
    rw [whole] at same ⊢
    simp only [Option.all_none, if_true, Except.ok.injEq, Prod.mk.injEq, List.cons.injEq] at same
    obtain ⟨rfl, rfl, rfl⟩ := same
    unfold Readable
    rw [List.forall_mem_cons]
    constructor
    · cases written : (fromSlice (toVec read) : Except String RuntimeChange) with
      | error message =>
        rw [written] at isRead
        cases isRead
      | ok _ =>
        rw [written] at isRead
        cases isRead
        rfl
    · apply ih (by omega) _ collected
      rw [UInt64.le_iff_toNat_le, next]
      omega

/-- The native engine returns the pages of the memory engine only for a log that is read back. -/
theorem readable_of_pages {memory : MemoryEngine} (holds : rows.Holds memory.runtimeChanges)
    (same : ∀ after limit scope, rows.view.runtimeChangesSince after limit scope =
      memory.runtimeChangesSince after limit scope) : Readable memory.runtimeChanges := by
  have page := same 0 (memory.runtimeChanges.length + 1) none
  simp only [View.runtimeChangesSince, holds.cursor, except_ok_bind, MemoryEngine.runtimeChangesSince,
    View.changePage, MemoryEngine.changePage] at page
  have length : (UInt64.ofNat memory.runtimeChanges.length).toNat = memory.runtimeChanges.length := by
    rw [UInt64.toNat_ofNat']
    exact Nat.mod_eq_of_lt holds.short
  by_cases empty : memory.runtimeChanges = []
  · rw [empty]
    exact fun change member => nomatch member
  · have below : ¬ ((0 : UInt64) = u64Max ∨ UInt64.ofNat memory.runtimeChanges.length ≤ 0) := by
      have some_ := List.length_pos_iff.mpr empty
      rw [not_or, UInt64.le_iff_toNat_le, length]
      exact ⟨by decide, Nat.not_le.mpr some_⟩
    have zero : (0 : UInt64).toNat = 0 := rfl
    rw [if_neg (Nat.succ_ne_zero _), if_neg (Nat.succ_ne_zero _), if_neg below, if_neg below] at page
    simp only [if_true, except_pure, except_ok_bind, except_bind_ok, Except.ok.injEq,
      RuntimeChangePage.mk.injEq] at page
    obtain ⟨⟨reached, found⟩, collected, -, -, -, isFound⟩ := page
    have whole : found = memory.runtimeChanges.drop (0 : UInt64).toNat := by
      dsimp only at isFound
      rw [isFound, length]
      simp
    rw [whole, UInt64.sub_zero] at collected
    have all := readable_of_collectChanges holds (by omega) (UInt64.le_refl _) (by omega) collected
    simpa using all

/-! ## Later commits -/

/-- The page up to a head depends on what is read at the cursors up to it. -/
theorem collectChanges_congr {view view' : View} {stop : Nat} (agree : ∀ cursor : UInt64, 0 < cursor.toNat →
      cursor.toNat ≤ stop → view.changeAt cursor = view'.changeAt cursor) (small : stop < 2 ^ 64)
    {left : Nat} {through : UInt64} {previousDigest : Option String} (within : through.toNat + left ≤ stop) :
    view.collectChanges after limit scope left through previousDigest =
      view'.collectChanges after limit scope left through previousDigest := by
  induction left generalizing through previousDigest with
  | zero => rfl
  | succ left ih =>
    have next : (through + 1).toNat = through.toNat + 1 := by
      have one : (1 : UInt64).toNat = 1 := rfl
      rw [UInt64.toNat_add]
      omega
    rw [View.collectChanges, View.collectChanges]
    dsimp only
    rw [agree (through + 1) (by omega) (by omega)]
    simp only [@ih (through + 1) _ (by omega)]

theorem changePage_congr {view view' : View} (agree : ∀ cursor : UInt64, 0 < cursor.toNat →
      cursor.toNat ≤ head.toNat → view.changeAt cursor = view'.changeAt cursor) :
    view.changePage head after limit scope = view'.changePage head after limit scope := by
  unfold View.changePage
  by_cases past : after = u64Max ∨ head ≤ after
  · simp only [if_pos past]
  · simp only [if_neg past]
    rw [not_or, UInt64.not_le, UInt64.lt_iff_toNat_lt] at past
    have gap : after.toNat + (head - after).toNat = head.toNat := by
      rw [UInt64.toNat_sub_of_le _ _ (UInt64.le_iff_toNat_le.mpr (Nat.le_of_lt past.2))]
      omega
    have collect : ∀ previousDigest, view.collectChanges after limit scope (head - after).toNat after previousDigest =
        view'.collectChanges after limit scope (head - after).toNat after previousDigest :=
      fun previousDigest => collectChanges_congr agree head.toNat_lt (by omega)
    by_cases first : after = 0
    · simp only [if_pos first, collect]
    · have position : 0 < after.toNat := by
        have : after.toNat ≠ 0 := fun zero => first (UInt64.toNat_inj.mp zero)
        omega
      simp only [if_neg first, collect, agree after position (by omega)]

/-- A page up to a head that is stored stays as it is. -/
theorem changePage_later {rows' : Rows} (holds : rows.Holds changes) (stored : head.toNat ≤ changes.length)
    (later : rows.Later rows') :
    rows'.view.changePage head after limit scope = rows.view.changePage head after limit scope := by
  obtain ⟨more, holds'⟩ := holds.later later
  apply changePage_congr
  intro cursor positive within
  have position : cursor.toNat = cursor.toNat - 1 + 1 := by omega
  have found : changes[cursor.toNat - 1]? = some changes[cursor.toNat - 1] := List.getElem?_eq_getElem _
  have found' : (changes ++ more)[cursor.toNat - 1]? = some changes[cursor.toNat - 1] := by
    rw [List.getElem?_append_left (by omega), found]
  rw [changeAt_eq holds found position, changeAt_eq holds' found' position]

omit [Codec] in
/-- The memory engine cuts a page out of the changes up to its head. -/
theorem memory_changePage_append (stored : head.toNat ≤ changes.length) (more : List RuntimeChange) :
    MemoryEngine.changePage (changes ++ more) head after limit scope =
      MemoryEngine.changePage changes head after limit scope := by
  have stop : min (min (after.toNat + limit) head.toNat) (changes ++ more).length =
      min (min (after.toNat + limit) head.toNat) changes.length := by
    rw [List.length_append]
    omega
  unfold MemoryEngine.changePage
  rw [stop]
  dsimp only
  rw [List.take_append_of_le_length (by omega)]

omit [Codec] in
/-- The memory engine's log only grows. -/
theorem commitRuntime_extends (memory : MemoryEngine) (commit : RuntimeCommit) :
    memory.runtimeChanges <+: (memory.commitRuntime commit).2.runtimeChanges := by
  have keeps : ∀ (claims : List Claim) (engine : MemoryEngine),
      (engine.insertEach claims).2.runtimeChanges = engine.runtimeChanges := by
    intro claims
    induction claims with
    | nil => exact fun _ => rfl
    | cons claim claims ih =>
      intro engine
      unfold MemoryEngine.insertEach
      split
      · rfl
      · rw [ih]
  have kept := keeps (commitClaims commit) memory
  unfold MemoryEngine.commitRuntime MemoryEngine.applyCommit
  split
  · exact List.prefix_refl _
  · dsimp only
    split
    · next inserted =>
      rw [inserted] at kept
      exact kept.symm ▸ List.prefix_refl _
    · next stored inserted =>
      rw [inserted] at kept
      rw [← kept]
      split
      · exact List.prefix_refl _
      · split
        · exact List.prefix_refl _
        · rw [MemoryEngine.publish]
          simp only [(MemoryEngine.foldl_store commit.scope commit.mutations stored).2.1]
          exact List.prefix_append _ _

/-- Commits, one after another. -/
def MemoryEngine.commits (memory : MemoryEngine) (commits : List RuntimeCommit) : MemoryEngine :=
  commits.foldl (fun engine commit => (engine.commitRuntime commit).2) memory

omit [Codec] in
theorem commits_extend (memory : MemoryEngine) (commits : List RuntimeCommit) :
    memory.runtimeChanges <+: (memory.commits commits).runtimeChanges := by
  induction commits generalizing memory with
  | nil => exact List.prefix_refl _
  | cons commit commits ih => exact (commitRuntime_extends memory commit).trans (ih _)

/-! ## Page after page -/

/-- What a reader gets that asks for the page after each page's cursor: the changes of its scope up to
where its limits allow, or up to the head, each once and in order. -/
structure Enumerates (changes : List RuntimeChange) (head after : UInt64) (scope : Option ScopeId)
    (limits : List Nat) (pages : List RuntimeChangePage) : Prop where
  reaches : (reached (·.throughCursor) after pages).toNat = min head.toNat (after.toNat + limits.sum)
  found : pages.flatMap (·.changes) =
    ((changes.take (min head.toNat (after.toNat + limits.sum))).drop after.toNat).filter (inScope scope)
  /-- As many pages as there are changes are enough. -/
  ends : head.toNat - after.toNat ≤ limits.length → reached (·.throughCursor) after pages = head
  within : ∀ page ∈ pages, ∀ change ∈ page.changes, change.cursor ≤ head

omit [Codec] in
/-- A page of the memory engine is a slice of the log. -/
theorem memory_changePage_slice (stored : head.toNat ≤ changes.length) (start : after ≤ head) :
    let page := MemoryEngine.changePage changes head after limit scope
    page.throughCursor.toNat = min head.toNat (after.toNat + limit) ∧
      page.changes = ((changes.take page.throughCursor.toNat).drop after.toNat).filter (inScope scope) := by
  dsimp only
  rw [UInt64.le_iff_toNat_le] at start
  have bound := head.toNat_lt
  unfold MemoryEngine.changePage
  split
  · next past =>
    have atHead : head.toNat ≤ after.toNat := by
      rcases past with last | past
      · rw [last, toNat_u64Max]
        omega
      · exact UInt64.le_iff_toNat_le.mp past
    dsimp only
    refine ⟨by omega, ?_⟩
    simp
  · have stop : (UInt64.ofNat (min (min (after.toNat + limit) head.toNat) changes.length)).toNat =
        min (min (after.toNat + limit) head.toNat) changes.length := by
      rw [UInt64.toNat_ofNat']
      omega
    dsimp only
    rw [stop]
    exact ⟨by omega, rfl⟩

omit [Codec] in
theorem enumerates (chained : Chained changes) (stored : head.toNat ≤ changes.length) (start : after ≤ head)
    {page : UInt64 → Nat → Except Error RuntimeChangePage}
    (cuts : ∀ after limit, 0 < limit → page after limit = .ok (MemoryEngine.changePage changes head after limit scope))
    {limits : List Nat} (positive : ∀ limit ∈ limits, 0 < limit) :
    ∃ pages, follow page (·.throughCursor) after limits = .ok pages ∧
      Enumerates changes head after scope limits pages := by
  obtain ⟨pages, followed, reaches, found⟩ := @follow_slices RuntimeChange UInt64 RuntimeChangePage Error page
    (·.throughCursor) UInt64.toNat (·.changes) changes (inScope scope) head.toNat
    (fun after limit start some_ => ⟨_, cuts after limit some_,
      memory_changePage_slice stored (UInt64.le_iff_toNat_le.mpr start)⟩)
    limits positive after (UInt64.le_iff_toNat_le.mp start)
  refine ⟨pages, followed, reaches, found, ?_, ?_⟩
  · intro enough
    have total : limits.length ≤ limits.sum := List.length_le_sum_of_one_le limits positive
    rw [← UInt64.toNat_inj, reaches]
    rw [UInt64.le_iff_toNat_le] at start
    omega
  · intro page listed change member
    have listed' : change ∈ pages.flatMap (·.changes) := List.mem_flatMap.mpr ⟨page, listed, member⟩
    rw [found] at listed'
    have taken := List.mem_of_mem_drop (List.mem_of_mem_filter listed')
    obtain ⟨n, isChange⟩ := List.mem_iff_getElem?.mp taken
    rw [List.getElem?_take] at isChange
    split at isChange
    · rw [UInt64.le_iff_toNat_le, chained.cursor_getElem isChange]
      omega
    · cases isChange

/-- The native engine returns the memory engine's pages of one log, whatever the cursor, the limit and
the scope, exactly when every change of the log is read back from its JSON as it was written. Then, up
to any head of the log, page after page enumerates the changes of a scope. A page up to a head stays
as it is when more is committed to either engine. -/
theorem change_pages_iff {memory : MemoryEngine} (same : rows.Holds memory.runtimeChanges) :
    ((∀ after limit scope,
        rows.view.runtimeChangesSince after limit scope = memory.runtimeChangesSince after limit scope) ∧
      ∀ head : UInt64, head.toNat ≤ memory.runtimeChanges.length →
        (∀ after limit scope, 0 < limit → rows.view.changePage head after limit scope =
          .ok (MemoryEngine.changePage memory.runtimeChanges head after limit scope)) ∧
        (∀ after scope limits, after ≤ head → (∀ limit ∈ limits, 0 < limit) →
          ∃ pages, follow (fun after limit => rows.view.changePage head after limit scope) (·.throughCursor)
            after limits = .ok pages ∧ Enumerates memory.runtimeChanges head after scope limits pages) ∧
        (∀ rows' after limit scope, rows.Later rows' →
          rows'.view.changePage head after limit scope = rows.view.changePage head after limit scope) ∧
        ∀ commits after limit scope,
          MemoryEngine.changePage (memory.commits commits).runtimeChanges head after limit scope =
            MemoryEngine.changePage memory.runtimeChanges head after limit scope) ↔
    Readable memory.runtimeChanges := by
  constructor
  · intro pages
    exact readable_of_pages same pages.1
  · intro readable
    refine ⟨?_, ?_⟩
    · intro after limit scope
      have length : (UInt64.ofNat memory.runtimeChanges.length).toNat = memory.runtimeChanges.length := by
        rw [UInt64.toNat_ofNat']
        exact Nat.mod_eq_of_lt same.short
      rw [View.runtimeChangesSince, same.cursor, except_ok_bind, MemoryEngine.runtimeChangesSince]
      split
      · next zero =>
        subst zero
        rfl
      · next some_ => exact changePage_eq same readable length.le (Nat.pos_of_ne_zero some_)
    · intro head stored
      refine ⟨?_, ?_, ?_, ?_⟩
      · intro after limit scope some_
        exact changePage_eq same readable stored some_
      · intro after scope limits start positive
        exact enumerates same.chained stored start (fun after limit some_ => changePage_eq same readable stored some_)
          positive
      · intro rows' after limit scope later
        exact changePage_later same stored later
      · intro commits after limit scope
        obtain ⟨more, whole⟩ := commits_extend memory commits
        rw [← whole, memory_changePage_append stored]

end

/-! ## The log of one commit -/

def sureSchema : RuntimeSchemaRegistry :=
  { revision := 1, migration := "doors", records := [(.lit "door" (Eq.refl true), ⟨[], true, []⟩)]
    relations := [], events := [] }

/-- The first commit of a house: its schema, and what the sensor says about the door. -/
def sureCommit (confidence : Option F32) : RuntimeCommit :=
  { scope := .lit "house" (Eq.refl true), at_ := 5, actor := "sensor", expectedCursor := 0
    mutations := [.schema sureSchema, .claim (sureDoor confidence)] }

/-- The JSON of the schema. -/
def sureSchemaText : String :=
  object [member "revision" (some "1"), member "migration" (quoted "doors"),
    member "records" (object [member "door" (object [member "properties" (object []),
      member "allow_additional_properties" (some "true"), member "unique_properties" (some "[]")])]),
    member "relations" (object []), member "events" (object [])]

/-- The JSON of a change of the commit. -/
def plainChange (change : RuntimeChange) : String :=
  let mutation := match change.mutation with
    | .claim claim => object [member "mutation" (quoted "claim"), member "claim" (plainClaim claim)]
    | _ => object [member "mutation" (quoted "schema"), member "registry" sureSchemaText]
  object [member "cursor" (toString change.cursor), member "commit_id" (quoted change.commitId),
    member "commit_ordinal" (toString change.commitOrdinal), member "scope" (quoted change.scope.asStr),
    member "at" (toString change.at_), member "actor" (quoted change.actor), member "mutation" mutation,
    member "previous_digest" (change.previousDigest.map quoted), member "digest" (quoted change.digest)]

/-- What `serde_json` reads of a change it wrote. -/
def RuntimeChange.reread (change : RuntimeChange) : RuntimeChange :=
  match change.mutation with
  | .claim claim => { change with mutation := .claim (Claim.reread claim) }
  | _ => change

/-- An encoding that knows the changes of the commit. -/
@[reducible] def sureCodec (confidence : Option F32) : Codec where
  claim := .ofTexts plainClaim []
  change := .ofTexts plainChange ((Rows.appended [] (sureCommit confidence)).map RuntimeChange.reread)
  work := .ofTexts (fun _ => "") []
  registry := .ofTexts (fun _ => sureSchemaText) [sureSchema]
  record := .ofTexts (fun _ => "") []
  relation := .ofTexts (fun _ => "") []
  vector := .ofTexts (fun _ => "") []
  sample := .ofTexts (fun _ => "") []
  geo := .ofTexts (fun _ => "") []
  object := .ofTexts (fun _ => "") []
  audit := .ofTexts (fun _ => "") []
  outcome := .ofTexts (fun _ => "") []

/-- The rows of a native engine that accepts the commit. -/
def sureRows (confidence : Option F32) : Rows :=
  let _ := sureCodec confidence
  ((∅ : Rows).commitRuntime (sureCommit confidence)).2

/-- Both engines accept the commit, and hold its log. -/
theorem exists_sure (confidence : Option F32) (accepts : let _ := sureCodec confidence
      MemoryEngine.new.checkCommit (sureCommit confidence) = .ok () ∧
        ((∅ : Rows).commitRuntime (sureCommit confidence)).1.isOk) :
    let _ := sureCodec confidence
    ∃ (memory : MemoryEngine) (outcome : RuntimeCommitOutcome),
      MemoryEngine.new.commitRuntime (sureCommit confidence) = (.ok outcome, memory) ∧
      memory.runtimeChanges = Rows.appended [] (sureCommit confidence) ∧
      (sureRows confidence).Holds memory.runtimeChanges := by
  let _ := sureCodec confidence
  obtain ⟨checked, planned⟩ := accepts
  have room : MemoryEngine.new.Room (sureCommit confidence) := by
    show 0 + 2 < 2 ^ 63
    decide
  rcases MemoryEngine.commitRuntime_cases MemoryEngine.sound_new room with
    ⟨e, refused, -⟩ | ⟨outcome, memory, committed, accepts⟩
  · rw [checked] at refused
    cases refused
  have changes : memory.runtimeChanges = Rows.appended [] (sureCommit confidence) := accepts.changes
  cases written : (∅ : Rows).commitRuntime (sureCommit confidence) with
  | mk result rows =>
    rw [written] at planned
    cases result with
    | error e => cases planned
    | ok other =>
      refine ⟨memory, outcome, committed, changes, ?_⟩
      rw [changes, sureRows, written]
      exact Rows.holds_empty.commit written

/-- The native engine cannot read a claim with an infinite confidence back, and returns no page with it;
the memory engine returns both changes of the commit. -/
theorem pages_lose_infinite : let _ := sureCodec (some infinite)
    ∃ (memory : MemoryEngine) (outcome : RuntimeCommitOutcome),
      MemoryEngine.new.commitRuntime (sureCommit (some infinite)) = (.ok outcome, memory) ∧
      (sureRows (some infinite)).Holds memory.runtimeChanges ∧
      memory.runtimeChangesSince 0 16 none =
        .ok { requestedAfter := 0, throughCursor := 2, headCursor := 2, changes := memory.runtimeChanges } ∧
      (sureRows (some infinite)).view.runtimeChangesSince 0 16 none =
        .error (.substrate "runtime change 2 failed cursor/hash-chain verification") := by
  let _ := sureCodec (some infinite)
  obtain ⟨memory, outcome, committed, changes, holds⟩ := exists_sure (some infinite) (by decide +kernel)
  refine ⟨memory, outcome, committed, holds, ?_, by decide +kernel⟩
  rw [MemoryEngine.runtimeChangesSince, changes]
  rfl

/-- A claim without a confidence is read back, so that both engines return the same pages. -/
theorem change_pages_iff_sure : let _ := sureCodec none
    ∃ memory : MemoryEngine, memory.runtimeChanges = Rows.appended [] (sureCommit none) ∧
      ∀ after limit scope,
        (sureRows none).view.runtimeChangesSince after limit scope = memory.runtimeChangesSince after limit scope := by
  let _ := sureCodec none
  obtain ⟨memory, outcome, committed, changes, holds⟩ := exists_sure none (by decide +kernel)
  have readable : Readable (Rows.appended [] (sureCommit none)) := by
    unfold Readable
    decide +kernel
  rw [← changes] at readable
  exact ⟨memory, changes, ((change_pages_iff holds).mpr readable).1⟩

end Vyrm.Store
