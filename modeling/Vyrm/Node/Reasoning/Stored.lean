import Vyrm.Node.Reasoning

/-!
# What the log says about the ledger

Reading the pages of the log gives the events of the reasoning scope in order, so the runs that are
loaded are those of the log up to the head that was observed. A commit that records an event
appends it to its run, and one that migrates carries the older runs over with it.
-/

namespace Vyrm.Node.Reasoning
open Lib Vyrm.Core Vyrm.Store

/-- The runs of a log, and whether there is an event. -/
def stored (serde : Serde) (log : List RuntimeChange) : Except Error (Runs × Bool) :=
  (log.filter fun change => scope = change.scope).foldlM (absorb serde) (∅, false)

theorem stored_append (serde : Serde) (log more : List RuntimeChange) :
    stored serde (log ++ more) = stored serde log >>= fun reading =>
      (more.filter fun change => scope = change.scope).foldlM (absorb serde) reading := by
  rw [stored, List.filter_append, List.foldlM_append, stored]

/-! ## Pages -/

section
variable {log : List RuntimeChange}

/-- Changes with the cursors 1, 2, 3 and so on. -/
abbrev Numbered (log : List RuntimeChange) : Prop :=
  log.map (·.cursor.toNat) = List.range' 1 log.length

/-- The changes up to a cursor, of a stretch of a log. -/
theorem filter_cursor_le {first : Nat} {observed : UInt64}
    (numbered : log.map (·.cursor.toNat) = List.range' first log.length) :
    log.filter (fun change => change.cursor ≤ observed) = log.take (observed.toNat + 1 - first) := by
  induction log generalizing first with
  | nil => simp
  | cons change log ih =>
    rw [List.map_cons, List.length_cons, List.range'_succ, List.cons.injEq] at numbered
    obtain ⟨here, rest⟩ := numbered
    rw [List.filter_cons, ih rest]
    by_cases covered : first ≤ observed.toNat
    · have more : observed.toNat + 1 - first = observed.toNat + 1 - (first + 1) + 1 := by omega
      rw [if_pos (by simpa [UInt64.le_iff_toNat_le, here] using covered), more, List.take_succ_cons]
    · have none : observed.toNat + 1 - (first + 1) = 0 ∧ observed.toNat + 1 - first = 0 := by omega
      rw [if_neg (by simpa [UInt64.le_iff_toNat_le, here] using covered), none.1, none.2]
      rfl

theorem Numbered.stretch (numbered : Numbered log) (c s : Nat) :
    ((log.take s).drop c).map (·.cursor.toNat) = List.range' (1 + c) ((log.take s).drop c).length := by
  have taken : (List.range' 1 log.length).take s = List.range' 1 (min s log.length) := by
    rcases Nat.le_total s log.length with short | long
    · rw [List.take_range'_of_length_ge short, Nat.min_eq_left short]
    · rw [List.take_range'_of_length_le long, Nat.min_eq_right long]
  rw [List.map_drop, List.map_take, numbered, taken, List.drop_range']
  simp

/-- What a page has of the changes up to the observed head. -/
theorem Numbered.filter_page (numbered : Numbered log) (c s : Nat) (observed : UInt64) :
    (((log.take s).drop c).filter fun change => (some scope).all fun scope => scope = change.scope).filter
        (fun change => change.cursor ≤ observed) =
      ((log.take (min observed.toNat s)).drop c).filter fun change => scope = change.scope := by
  rw [List.filter_comm, filter_cursor_le (numbered.stretch c s), ← List.take_take]
  simp only [Option.all_some, List.drop_take]
  rw [show observed.toNat + 1 - (1 + c) = observed.toNat - c by omega]

end

/-! ## Loading -/

variable {serde : Serde} {engine next : MemoryEngine} {legacy : Option Bytes}

/-- The page after a cursor below the observed head, of a log that may have grown since. -/
theorem runtimeChangesSince_eq (short : engine.runtimeChanges.length < 2 ^ 63) {cursor : UInt64}
    (behind : cursor.toNat < engine.runtimeChanges.length) :
    ∃ page, engine.runtimeChangesSince cursor replayPage (some scope) = .ok page ∧
      page.headCursor.toNat = engine.runtimeChanges.length ∧
      page.throughCursor.toNat = min (cursor.toNat + replayPage) engine.runtimeChanges.length ∧
      page.changes = ((engine.runtimeChanges.take (cursor.toNat + replayPage)).drop cursor.toNat).filter
        fun change => (some scope).all fun scope => scope = change.scope := by
  have head : (UInt64.ofNat engine.runtimeChanges.length).toNat = engine.runtimeChanges.length :=
    MemoryEngine.toNat_head short
  have notLast : ¬ (cursor = u64Max ∨ UInt64.ofNat engine.runtimeChanges.length ≤ cursor) := by
    rw [not_or, UInt64.le_iff_toNat_le, head]
    refine ⟨?_, by omega⟩
    rintro rfl
    have size : u64Max.toNat = 2 ^ 64 - 1 := by decide
    omega
  refine ⟨MemoryEngine.changePage engine.runtimeChanges engine.head cursor replayPage (some scope), rfl, ?_⟩
  rw [MemoryEngine.changePage, MemoryEngine.head, if_neg notLast]
  refine ⟨head, ?_, ?_⟩
  · simp only [head, UInt64.toNat_ofNat']
    omega
  · simp only [head]
    congr 2
    rw [List.take_eq_take_iff]
    omega

/-- Absorbing a page is absorbing the stretch of the observed log that it covers. The log may have
grown since the head was observed. -/
theorem absorbPage_eq {log more : List RuntimeChange} (numbered : Numbered (log ++ more)) {observed : UInt64}
    (observes : observed.toNat = log.length) (reading : Runs × Bool) {page : RuntimeChangePage} {c : Nat}
    (changes : page.changes = (((log ++ more).take (c + replayPage)).drop c).filter
      fun change => (some scope).all fun scope => scope = change.scope) :
    absorbPage serde observed reading page =
      (((log.take (c + replayPage)).drop c).filter fun change => scope = change.scope).foldlM
        (absorb serde) reading := by
  rw [absorbPage, changes, numbered.filter_page, observes]
  congr 3
  rw [List.take_append_of_le_length (by omega), List.take_eq_take_iff]
  omega

/-- The loop over the pages reads the rest of the log. -/
theorem readPages_eq (sound : engine.Sound) {fuel : Nat} {cursor : UInt64} (reading : Runs × Bool)
    (enough : engine.runtimeChanges.length < fuel + cursor.toNat) :
    readPages serde engine engine.head fuel cursor reading =
      ((engine.runtimeChanges.drop cursor.toNat).filter fun change => scope = change.scope).foldlM
        (absorb serde) reading := by
  have observes := MemoryEngine.toNat_head sound.short
  induction fuel generalizing cursor reading with
  | zero =>
    rw [readPages, List.drop_eq_nil_of_le (by omega)]
    rfl
  | succ fuel ih =>
    rw [readPages]
    by_cases done : engine.head ≤ cursor
    · rw [if_pos done]
      rw [UInt64.le_iff_toNat_le, observes] at done
      rw [List.drop_eq_nil_of_le done]
      rfl
    · rw [if_neg done]
      rw [UInt64.le_iff_toNat_le, observes] at done
      obtain ⟨page, read, head, through, changes⟩ := runtimeChangesSince_eq sound.short (Nat.lt_of_not_le done)
      have numbered : Numbered (engine.runtimeChanges ++ []) := by
        rw [List.append_nil]
        exact sound.numbered
      have absorbed := fun reading => @absorbPage_eq serde _ _ numbered _ observes reading page cursor.toNat
        (by rw [List.append_nil]; exact changes)
      have split : engine.runtimeChanges.drop cursor.toNat =
          (engine.runtimeChanges.take (cursor.toNat + replayPage)).drop cursor.toNat ++
            engine.runtimeChanges.drop (cursor.toNat + replayPage) := by
        conv_lhs => rw [← List.take_append_drop (cursor.toNat + replayPage) engine.runtimeChanges]
        rw [List.drop_append_of_le_length]
        rw [List.length_take]
        omega
      have next : (min page.throughCursor engine.head).toNat =
          min (cursor.toNat + replayPage) engine.runtimeChanges.length := by
        have either : min page.throughCursor engine.head =
            if page.throughCursor ≤ engine.head then page.throughCursor else engine.head := rfl
        rw [either]
        split
        · exact through
        · rename_i above
          rw [UInt64.le_iff_toNat_le, observes, through] at above
          omega
      have last : (¬ page.throughCursor < page.headCursor ∨ engine.head ≤ min page.throughCursor engine.head) ↔
          engine.runtimeChanges.length ≤ cursor.toNat + replayPage := by
        rw [UInt64.lt_iff_toNat_lt, UInt64.le_iff_toNat_le, head, through, next, observes]
        omega
      simp only [read, absorbed, last]
      rw [split, List.filter_append, List.foldlM_append]
      congr 1
      funext reading
      by_cases short : engine.runtimeChanges.length ≤ cursor.toNat + replayPage
      · rw [if_pos short, List.drop_eq_nil_of_le short]
        rfl
      · have positive : replayPage = 1024 := rfl
        have cursors : (min page.throughCursor engine.head).toNat = cursor.toNat + replayPage := by omega
        rw [if_neg short, ih reading (by omega), cursors]

theorem loadRuntime_eq (serde : Serde) (sound : engine.Sound) :
    loadRuntime serde engine = do
      let reading ← stored serde engine.runtimeChanges
      let ledger ← foundLedger reading
      return (ledger, engine.head) := by
  have observes := MemoryEngine.toNat_head sound.short
  rw [loadRuntime, readPages_eq sound (∅, false) (by rw [observes]; exact Nat.lt_succ_self _)]
  rfl

/-! ## Events of a commit -/

/-- Mutations that carry some events, and no other event. -/
inductive Carries (serde : Serde) : List RuntimeMutation → List ReasoningEvent → Prop where
  | nil : Carries serde [] []
  | skip {mutation : RuntimeMutation} {mutations : List RuntimeMutation} {events : List ReasoningEvent}
    (other : ∀ event, mutation ≠ .event event) (rest : Carries serde mutations events) :
    Carries serde (mutation :: mutations) events
  | event {mutation : RuntimeMutation} {mutations : List RuntimeMutation} {event : ReasoningEvent}
    {events : List ReasoningEvent} (made : eventMutation serde event = .ok mutation)
    (rest : Carries serde mutations events) : Carries serde (mutation :: mutations) (event :: events)

/-- An event that is read back as it was written. -/
def RoundTrips (serde : Serde) (event : ReasoningEvent) : Prop :=
  serde.fromStr (serde.toString event) = .ok event

theorem Carries.append {mutations more : List RuntimeMutation} {events later : List ReasoningEvent}
    (carries : Carries serde mutations events) (rest : Carries serde more later) :
    Carries serde (mutations ++ more) (events ++ later) := by
  induction carries with
  | nil => exact rest
  | skip other _ ih => exact .skip other ih
  | event made _ ih => exact .event made ih

theorem carries_mapM {mutations : List RuntimeMutation} {events : List ReasoningEvent}
    (made : events.mapM (eventMutation serde) = .ok mutations) : Carries serde mutations events := by
  induction events generalizing mutations with
  | nil =>
    cases made
    exact .nil
  | cons event events ih =>
    rw [List.mapM_cons] at made
    obtain ⟨mutation, first, rest⟩ := except_bind_ok.mp made
    obtain ⟨mutations, more, rest⟩ := except_bind_ok.mp rest
    cases rest
    exact .event first (ih more)

theorem absorb_made {event : ReasoningEvent} {mutation : RuntimeMutation} {change : RuntimeChange}
    (made : eventMutation serde event = .ok mutation) (same : change.mutation = mutation)
    (faithful : RoundTrips serde event) (reading : Runs × Bool) :
    absorb serde reading change = .ok (push reading.1 event, true) := by
  obtain ⟨reference, named, made⟩ := except_bind_ok.mp made
  cases made
  have faithful : serde.fromStr (serde.toString event) = .ok event := faithful
  simp only [absorb, same, List.lookup_cons]
  simp [faithful, json, named]

theorem absorb_other {change : RuntimeChange} (other : ∀ event, change.mutation ≠ .event event)
    (reading : Runs × Bool) : absorb serde reading change = .ok reading := by
  unfold absorb
  split
  · rename_i event same
    exact absurd same (other event)
  · rfl

/-- Absorbing the changes of a commit pushes the events it carries. -/
theorem Carries.absorb {mutations : List RuntimeMutation} {events : List ReasoningEvent}
    {changes : List RuntimeChange} (carries : Carries serde mutations events)
    (same : changes.map (·.mutation) = mutations) (faithful : ∀ event ∈ events, RoundTrips serde event)
    (reading : Runs × Bool) :
    changes.foldlM (Reasoning.absorb serde) reading =
      .ok (events.foldl push reading.1, reading.2 || ! events.isEmpty) := by
  induction carries generalizing changes reading with
  | nil =>
    obtain rfl := List.map_eq_nil_iff.mp same
    simp
  | skip other _ ih =>
    obtain ⟨change, changes, rfl, rfl, rest⟩ := List.map_eq_cons_iff.mp same
    rw [List.foldlM_cons, absorb_other other, except_ok_bind, ih rest faithful]
  | event made _ ih =>
    obtain ⟨change, changes, rfl, here, rest⟩ := List.map_eq_cons_iff.mp same
    rw [List.foldlM_cons, absorb_made made here (faithful _ (by simp)), except_ok_bind,
      ih rest fun event member => faithful event (by simp [member])]
    simp

/-! ## Runs by their identity -/

/-- Events that are all of the run they stand under. -/
def Named (runs : Runs) : Prop :=
  ∀ (id : String) (events : List ReasoningEvent), runs[id]? = some events → events ≠ [] ∧ ∀ event ∈ events, event.runId = id

/-- The events of one run go to the end of its entry. -/
theorem foldl_push_own {id : String} {events : List ReasoningEvent} (some_ : events ≠ [])
    (own : ∀ event ∈ events, event.runId = id) (runs : Runs) :
    events.foldl push runs = runs.insert id (runs[id]?.getD [] ++ events) := by
  induction events using List.reverseRecOn with
  | nil => exact absurd rfl some_
  | append_singleton events event ih =>
    obtain rfl : event.runId = id := own event (by simp)
    rw [List.foldl_append, List.foldl_cons, List.foldl_nil]
    by_cases more : events = []
    · subst more
      rfl
    · rw [ih more fun other member => own other (by simp [member]), push]
      apply Std.ExtTreeMap.ext_getElem?
      intro other
      by_cases same : event.runId = other
      · subst same
        simp
      · rw [OrdMap.getElem?_insert_of_ne same, OrdMap.getElem?_insert_of_ne same,
          OrdMap.getElem?_insert_of_ne same]

/-- Pushing the events of runs that are not there yet adds the runs. -/
theorem getElem?_foldl_push {pairs : List (String × List ReasoningEvent)}
    (named : ∀ pair ∈ pairs, pair.2 ≠ [] ∧ ∀ event ∈ pair.2, event.runId = pair.1)
    (distinct : (pairs.map Prod.fst).Nodup) {runs : Runs} (fresh : ∀ pair ∈ pairs, runs[pair.1]? = none)
    {id : String} {events : List ReasoningEvent} :
    ((pairs.map Prod.snd).flatten.foldl push runs)[id]? = some events ↔
      (id, events) ∈ pairs ∨ runs[id]? = some events := by
  induction pairs generalizing runs with
  | nil => simp
  | cons pair pairs ih =>
    obtain ⟨key, first⟩ := pair
    obtain ⟨new, distinct⟩ := List.nodup_cons.mp distinct
    obtain ⟨some_, own⟩ := named (key, first) (by simp)
    have none : runs[key]? = none := fresh (key, first) (by simp)
    have others : ∀ pair ∈ pairs, pair.1 ≠ key := by
      rintro pair member rfl
      exact new (List.mem_map.mpr ⟨pair, member, rfl⟩)
    rw [List.map_cons, List.flatten_cons, List.foldl_append, foldl_push_own some_ own, none, Option.getD_none,
      List.nil_append, ih (fun pair member => named pair (by simp [member])) distinct]
    · by_cases same : key = id
      · subst same
        simp [none, eq_comm, or_comm]
      · simp [OrdMap.getElem?_insert_of_ne same, Ne.symm same]
    · intro pair member
      rw [OrdMap.getElem?_insert_of_ne (others pair member).symm]
      exact fresh pair (by simp [member])

/-- Pushing the events of all runs, run by run, gives the runs again. -/
theorem foldl_push_values {runs : Runs} (named : Named runs) :
    (OrdMap.values runs).flatten.foldl push ∅ = runs := by
  have distinct : (runs.toList.map Prod.fst).Nodup := by
    rw [Std.ExtTreeMap.map_fst_toList_eq_keys]
    exact Std.ExtTreeMap.nodup_keys
  apply Std.ExtTreeMap.ext_getElem?
  intro id
  apply Option.ext
  intro events
  rw [OrdMap.values, getElem?_foldl_push _ distinct (by simp), Std.ExtTreeMap.mem_toList_iff_getElem?_eq_some]
  · simp
  · intro pair member
    exact named pair.1 pair.2 (Std.ExtTreeMap.mem_toList_iff_getElem?_eq_some.mp member)

/-- The events of a run go to its entry. -/
theorem getD_foldl_push (events : List ReasoningEvent) (runs : Runs) (id : String) :
    (events.foldl push runs)[id]?.getD [] = runs[id]?.getD [] ++ events.filter fun event => event.runId = id := by
  induction events using List.reverseRecOn with
  | nil => simp
  | append_singleton events event ih =>
    rw [List.foldl_append, List.foldl_cons, List.foldl_nil, List.filter_append, ← List.append_assoc, ← ih, push]
    by_cases own : event.runId = id
    · subst own
      simp
    · rw [OrdMap.getElem?_insert_of_ne own]
      simp [own]

/-- The events of a run among those of all runs. -/
theorem filter_values {runs : Runs} (named : Named runs) (id : String) :
    (OrdMap.values runs).flatten.filter (fun event => event.runId = id) = runs[id]?.getD [] := by
  have pushed := getD_foldl_push (OrdMap.values runs).flatten ∅ id
  rw [foldl_push_values named] at pushed
  simpa using pushed.symm

end Vyrm.Node.Reasoning
