import Vyrm.Graph.Route

/-!
# Incremental maintenance

What a refresh makes of the file table, entry by entry, and when the index is the one that is built
from scratch.
-/

namespace Vyrm.Graph
open Lib Std

variable {π F : Type} [PathBuf π] [F64 F]

/-! ## Files apart from their stats -/

/-- A file apart from what its stats were. -/
def IndexedFile.bare (file : IndexedFile π) : IndexedFile π := { file with stats := ⟨0, 0, 0⟩ }

/-- The same files, apart from their stats. -/
def SameFiles (a b : Files π) : Prop := ∀ path : π, a[path]?.map IndexedFile.bare = b[path]?.map IndexedFile.bare

theorem SameFiles.symm {a b : Files π} (same : SameFiles a b) : SameFiles b a := fun path => (same path).symm

theorem SameFiles.trans {a b c : Files π} (first : SameFiles a b) (second : SameFiles b c) : SameFiles a c :=
  fun path => (first path).trans (second path)

/-- What is read of files apart from their stats is the same of the same files. -/
theorem SameFiles.entries {γ : Type} {a b : Files π} (same : SameFiles a b) (read : IndexedFile π → γ)
    (bare : ∀ file, read file.bare = read file) :
    (a.toList.map fun entry => (entry.1, read entry.2)) = b.toList.map fun entry => (entry.1, read entry.2) := by
  have maps : (a.map fun _ file => file.bare) = b.map fun _ file => file.bare := by
    apply ExtTreeMap.ext_getElem?
    intro path
    rw [ExtTreeMap.getElem?_map, ExtTreeMap.getElem?_map]
    exact same path
  have lists := congrArg ExtTreeMap.toList maps
  rw [ExtTreeMap.toList_map, ExtTreeMap.toList_map] at lists
  have read_ := congrArg (List.map fun entry => (entry.1, read entry.2)) lists
  simpa [List.map_map, Function.comp_def, bare] using read_

namespace Index

variable {analysis : Analysis} {index other : Index π F} {tree : Tree π}

/-- The derived tables are those of the files. -/
def InStep (analysis : Analysis) (index : Index π F) : Prop :=
  index.definitions = (rebuild analysis index).definitions ∧ index.centrality = (rebuild analysis index).centrality

theorem rebuild_congr (same : SameFiles index.files other.files) :
    (rebuild analysis index).definitions = (rebuild analysis other).definitions ∧
      (rebuild analysis index).centrality = (rebuild analysis other).centrality := by
  have occurrences := same.entries (·.occurrences) fun _ => rfl
  have terms := same.entries (·.terms) fun _ => rfl
  constructor
  · simp only [rebuild, occurrences]
  · simp only [rebuild, occurrences, terms]

/-- Routing reads the files apart from their stats, the definitions and the centrality. -/
theorem route_congr (same : SameFiles index.files other.files) (definitions : index.definitions = other.definitions)
    (centrality : index.centrality = other.centrality) (query : String) (limit : Nat) :
    route analysis index query limit = route analysis other query limit := by
  have entries := same.entries IndexedFile.bare fun _ => rfl
  have factor : ∀ index : Index π F, candidates analysis index query =
      (index.files.toList.map fun entry => (entry.1, entry.2.bare)).filterMap fun entry =>
        let justification := justify analysis index query entry.1 entry.2
        let score : F := score justification
        if F64.lt (F64.ofNat 0) score then
          some
            { path := entry.1, score, lines := entry.2.lines
              centrality := index.centrality[entry.1]?.getD (F64.ofNat 0), justification }
        else none := by
    intro index
    rw [List.filterMap_map]
    rfl
  rw [route, route, factor, factor, entries]
  obtain ⟨files, definitions', centrality', generation⟩ := index
  obtain ⟨files', definitions'', centrality'', generation'⟩ := other
  obtain rfl : definitions' = definitions'' := definitions
  obtain rfl : centrality' = centrality'' := centrality
  rfl

theorem inStep_empty : InStep analysis (empty : Index π F) := by
  have none : ∀ definitions, centralityOf analysis ([] : List (π × OrdMap String Nat)) definitions =
      (∅ : OrdMap π F) := by simp [centralityOf]
  exact ⟨rfl, (none _).symm⟩

theorem inStep_rebuild : InStep analysis (rebuild analysis index) := ⟨rfl, rfl⟩

theorem InStep.congr (inStep : InStep analysis index) (same : SameFiles index.files other.files)
    (definitions : index.definitions = other.definitions) (centrality : index.centrality = other.centrality) :
    InStep analysis other := by
  obtain ⟨definitions', centrality'⟩ := @rebuild_congr _ _ _ _ analysis _ _ same
  exact ⟨by rw [← definitions, inStep.1, definitions'], by rw [← centrality, inStep.2, centrality']⟩

/-! ## One refresh -/

/-- What becomes of the entry of a listed file. -/
def entryAfter (analysis : Analysis) (tree : Tree π) (path : π) (before : Option (IndexedFile π)) :
    Option (IndexedFile π) :=
  if before.any fun existing => existing.stats = tree.fileStats path then before
  else
    match tree.read path with
    | .ok text => some (extractFile analysis path text (tree.fileStats path))
    | .error _ => before

theorem entryAfter_idem (path : π) (before : Option (IndexedFile π)) :
    entryAfter analysis tree path (entryAfter analysis tree path before) = entryAfter analysis tree path before := by
  by_cases skipped : before.any fun existing => existing.stats = tree.fileStats path
  · simp only [entryAfter, if_pos skipped]
  · cases read : tree.read path with
    | error error => simp only [entryAfter, if_neg skipped, read]
    | ok text =>
      simp only [entryAfter, if_neg skipped, read]
      rw [if_pos]
      simp [extractFile]

/-- What a refresh has read before, of some trees. -/
def Extracted (analysis : Analysis) (trees : List (Tree π)) (files : Files π) : Prop :=
  ∀ (path : π) (file : IndexedFile π), files[path]? = some file →
    ∃ tree ∈ trees, ∃ text, tree.read path = .ok text ∧ file = extractFile analysis path text (tree.fileStats path)

/-- A change of a file changes its stats, and its digest. -/
def Honest (trees : List (Tree π)) : Prop :=
  ∀ before ∈ trees, ∀ after ∈ trees, ∀ (path : π) (text text' : String),
    before.read path = .ok text → after.read path = .ok text' →
      before.fileStats path = after.fileStats path ∨ digest (utf8 text) = digest (utf8 text') → text = text'

/-- The entry of a listed file says what the file does. -/
def Current (tree : Tree π) (path : π) (before : Option (IndexedFile π)) : Prop :=
  ∀ text, tree.read path = .ok text → ∃ file, before = some file ∧ file.digest = digest (utf8 text)

/-- Of a file whose entry has its stats, the entry says what the file does. -/
theorem current_of_stats {trees : List (Tree π)} (honest : Honest trees) (here : tree ∈ trees) {files : Files π}
    {path : π} (extracted : Extracted analysis trees files)
    (skipped : files[path]?.any fun existing => existing.stats = tree.fileStats path) :
    Current tree path files[path]? := by
  intro text read
  obtain ⟨file, found, same⟩ := (Option.any_eq_true ..).mp skipped
  obtain ⟨before, member, text', read', rfl⟩ := extracted path file found
  have stats : before.fileStats path = tree.fileStats path := of_decide_eq_true same
  obtain rfl := honest before member tree here path text' text read' read (.inl stats)
  exact ⟨_, found, rfl⟩

/-- A visited file is current. -/
theorem current_entryAfter {trees : List (Tree π)} (honest : Honest trees) (here : tree ∈ trees) {files : Files π}
    {path : π} (extracted : Extracted analysis trees files) :
    Current tree path (entryAfter analysis tree path files[path]?) := by
  by_cases skipped : files[path]?.any fun existing => existing.stats = tree.fileStats path
  · rw [entryAfter, if_pos skipped]
    exact current_of_stats honest here extracted skipped
  · intro text read
    simp only [entryAfter, if_neg skipped, read]
    exact ⟨_, rfl, rfl⟩

theorem Extracted.insert {trees : List (Tree π)} (here : tree ∈ trees) {files : Files π} {path : π} {text : String}
    (extracted : Extracted analysis trees files) (read : tree.read path = .ok text) :
    Extracted analysis trees (files.insert path (extractFile analysis path text (tree.fileStats path))) := by
  intro other file found
  by_cases same : path = other
  · subst same
    rw [OrdMap.getElem?_insert_self, Option.some.injEq] at found
    exact ⟨tree, here, text, read, found.symm⟩
  · rw [OrdMap.getElem?_insert_of_ne same] at found
    exact extracted other file found

/-- A visit makes an entry what it must become, and counts it if it was not current. -/
structure Visited (analysis : Analysis) (trees : List (Tree π)) (tree : Tree π) (path : π) (files : Files π)
    (report : Refresh) (next : Files π) (report' : Refresh) : Prop where
  entry : next[path]? = entryAfter analysis tree path files[path]?
  others : ∀ other : π, path ≠ other → next[other]? = files[other]?
  extracted : Extracted analysis trees next
  removed : report'.removed = report.removed
  counted : report'.added = 0 ∧ report'.changed = 0 ↔
    (report.added = 0 ∧ report.changed = 0) ∧ Current tree path files[path]?

theorem visit_ok {trees : List (Tree π)} (honest : Honest trees) (here : tree ∈ trees) {strict : Bool}
    {files next : Files π} {report report' : Refresh} {path : π} (extracted : Extracted analysis trees files)
    (visited : visit analysis tree strict files report path = .ok (next, report')) :
    Visited analysis trees tree path files report next report' := by
  unfold visit at visited
  dsimp only at visited
  split at visited
  · rename_i skipped
    cases visited
    have current := current_of_stats honest here extracted skipped
    exact ⟨by rw [entryAfter, if_pos skipped], fun _ _ => rfl, extracted, rfl, by simp [current]⟩
  · rename_i read_
    have after : ∀ text, tree.read path = .ok text → entryAfter analysis tree path files[path]? =
        some (extractFile analysis path text (tree.fileStats path)) := by
      intro text read
      simp only [entryAfter, if_neg read_, read]
    split at visited
    · rename_i error read
      have current : Current tree path files[path]? := by
        intro text read'
        rw [read] at read'
        cases read'
      split at visited
      · cases visited
      · cases visited
        exact ⟨by simp only [entryAfter, if_neg read_, read], fun _ _ => rfl, extracted, rfl, by simp [current]⟩
    · rename_i text read
      have only : ∀ text', tree.read path = .ok text' → text' = text := by
        intro text' read'
        rw [read] at read'
        exact (Except.ok.inj read').symm
      have inserted := extracted.insert here read
      have others : ∀ other : π, path ≠ other →
          (files.insert path (extractFile analysis path text (tree.fileStats path)))[other]? = files[other]? :=
        fun other different => OrdMap.getElem?_insert_of_ne different
      have entry : (files.insert path (extractFile analysis path text (tree.fileStats path)))[path]? =
          entryAfter analysis tree path files[path]? := by
        rw [after text read, OrdMap.getElem?_insert_self]
      split at visited
      · rename_i existing found
        split at visited
        · rename_i same
          cases visited
          have current : Current tree path files[path]? := by
            intro text' read'
            rw [only text' read']
            exact ⟨existing, found, same⟩
          exact ⟨entry, others, inserted, rfl, by simp [current]⟩
        · rename_i differs
          cases visited
          have stale : ¬ Current tree path files[path]? := by
            intro current
            obtain ⟨file, found', same⟩ := current text read
            rw [found] at found'
            cases found'
            exact differs same
          exact ⟨entry, others, inserted, rfl, by simp [stale]⟩
      · rename_i none
        cases visited
        have stale : ¬ Current tree path files[path]? := by
          intro current
          obtain ⟨file, found, -⟩ := current text read
          rw [none] at found
          cases found
        exact ⟨entry, others, inserted, rfl, by simp [stale]⟩

/-- A scan visits every listed file. -/
structure Scanned (analysis : Analysis) (trees : List (Tree π)) (tree : Tree π) (present : List π)
    (files : Files π) (report : Refresh) (next : Files π) (report' : Refresh) : Prop where
  listed : ∀ path ∈ present, next[path]? = entryAfter analysis tree path files[path]?
  others : ∀ path ∉ present, next[path]? = files[path]?
  extracted : Extracted analysis trees next
  removed : report'.removed = report.removed
  counted : report'.added = 0 ∧ report'.changed = 0 ↔
    (report.added = 0 ∧ report.changed = 0) ∧ ∀ path ∈ present, Current tree path files[path]?

theorem scan_ok {trees : List (Tree π)} (honest : Honest trees) (here : tree ∈ trees) {strict : Bool}
    {present : List π} {files next : Files π} {report report' : Refresh} (extracted : Extracted analysis trees files)
    (scanned : scan analysis tree strict present files report = (.ok report', next)) :
    Scanned analysis trees tree present files report next report' := by
  induction present generalizing files report with
  | nil =>
    cases scanned
    exact ⟨by simp, fun _ _ => rfl, extracted, rfl, by simp⟩
  | cons path rest ih =>
    unfold scan at scanned
    split at scanned
    · cases scanned
    · rename_i middle report'' visited
      have first := visit_ok honest here extracted visited
      have later := ih first.extracted scanned
      have revisited : ∀ other : π, entryAfter analysis tree other middle[other]? =
          entryAfter analysis tree other files[other]? := by
        intro other
        by_cases same : path = other
        · subst same
          rw [first.entry, entryAfter_idem]
        · rw [first.others other same]
      refine ⟨?_, ?_, later.extracted, later.removed.trans first.removed, ?_⟩
      · intro other member
        by_cases again : other ∈ rest
        · rw [later.listed other again, revisited]
        · obtain rfl : other = path := by simpa [again] using member
          rw [later.others other again, first.entry]
      · intro other absent
        rw [List.mem_cons, not_or] at absent
        rw [later.others other absent.2, first.others other (Ne.symm absent.1)]
      · rw [later.counted, first.counted, List.forall_mem_cons, and_assoc]
        refine and_congr_right fun _ => and_congr_right fun current => forall₂_congr fun other member => ?_
        by_cases same : path = other
        · subst same
          rw [first.entry]
          exact iff_of_true (current_entryAfter honest here extracted) current
        · rw [first.others other same]

/-- However a scan ends, the entries are of files that were read. -/
theorem scan_extracted {trees : List (Tree π)} (honest : Honest trees) (here : tree ∈ trees) {strict : Bool}
    {present : List π} {files : Files π} {report : Refresh} (extracted : Extracted analysis trees files) :
    Extracted analysis trees (scan analysis tree strict present files report).2 := by
  induction present generalizing files report with
  | nil => exact extracted
  | cons path rest ih =>
    unfold scan
    split
    · exact extracted
    · rename_i middle report' visited
      exact ih (visit_ok honest here extracted visited).extracted

/-- The files of a tree are those of a table: the listed ones that can be read have entries with their
digests, and no other file has one. -/
def Settled (tree : Tree π) (present : List π) (files : Files π) : Prop :=
  (∀ path ∈ present, Current tree path files[path]?) ∧ ∀ path : π, path ∈ files → path ∈ present

/-- What a refresh does that succeeds. -/
structure Refreshed (analysis : Analysis) (trees : List (Tree π)) (tree : Tree π) (present : List π)
    (index next : Index π F) : Prop where
  listed : ∀ path ∈ present, next.files[path]? = entryAfter analysis tree path index.files[path]?
  unlisted : ∀ path ∉ present, next.files[path]? = none
  extracted : Extracted analysis trees next.files
  kept : Settled tree present index.files →
    next.definitions = index.definitions ∧ next.centrality = index.centrality
  rebuilt : ¬ Settled tree present index.files → InStep analysis next

theorem getElem?_foldl_erase (paths : List π) (files : Files π) (path : π) :
    (path ∈ paths → (paths.foldl (fun files path => files.erase path) files)[path]? = none) ∧
      (path ∉ paths → (paths.foldl (fun files path => files.erase path) files)[path]? = files[path]?) := by
  induction paths using List.reverseRecOn with
  | nil => simp
  | append_singleton paths last ih =>
    rw [List.foldl_append, List.foldl_cons, List.foldl_nil, ExtTreeMap.getElem?_erase]
    by_cases same : last = path
    · subst same
      simp
    · have other : compare last path ≠ .eq := fun equal => same (LawfulEqOrd.eq_of_compare equal)
      rw [if_neg other]
      simpa [Ne.symm same] using ih

/-- The files that are removed are those that are not listed. -/
theorem mem_removed {files : Files π} {present : List π} {path : π} :
    path ∈ files.keys.filter (fun path => ! present.any fun other => compare other path = .eq) ↔
      path ∈ files ∧ path ∉ present := by
  have listed : (present.any fun other => compare other path = .eq) = true ↔ path ∈ present := by
    rw [List.any_eq_true]
    constructor
    · intro ⟨other, member, same⟩
      rw [← LawfulEqOrd.eq_of_compare (of_decide_eq_true same)]
      exact member
    · intro member
      exact ⟨path, member, by simp⟩
  rw [List.mem_filter, ExtTreeMap.mem_keys, Bool.not_eq_true', ← listed, Bool.not_eq_true]

theorem refresh_ok {trees : List (Tree π)} (honest : Honest trees) (here : tree ∈ trees) {strict : Bool}
    {report : Refresh} {next : Index π F} (extracted : Extracted analysis trees index.files)
    (refreshed : refreshWithPolicy analysis index tree strict = (.ok report, next)) :
    ∃ present, tree.indexableFiles = .ok present ∧ Refreshed analysis trees tree present index next := by
  unfold refreshWithPolicy at refreshed
  split at refreshed
  · cases refreshed
  · rename_i present listing
    refine ⟨present, listing, ?_⟩
    split at refreshed
    · cases refreshed
    · rename_i report' files scanned
      have scan_ := scan_ok honest here extracted scanned
      dsimp only at refreshed
      generalize erased : files.keys.filter (fun path => ! present.any fun other => compare other path = .eq) =
        removed at refreshed
      have member : ∀ path : π, path ∈ removed ↔ path ∈ files ∧ path ∉ present := by
        intro path
        rw [← erased]
        exact mem_removed
      have settled : removed.length = 0 ∧ report'.added = 0 ∧ report'.changed = 0 ↔
          Settled tree present index.files := by
        have counted := scan_.counted
        simp only [true_and] at counted
        have none_removed : removed.length = 0 ↔ ∀ path : π, path ∈ index.files → path ∈ present := by
          rw [List.length_eq_zero_iff, List.eq_nil_iff_forall_not_mem]
          refine forall_congr' fun path => ?_
          by_cases here : path ∈ present
          · simp [member, here]
          · have same : path ∈ files ↔ path ∈ index.files := by
              rw [ExtTreeMap.mem_iff_isSome_getElem?, ExtTreeMap.mem_iff_isSome_getElem?, scan_.others path here]
            simp [member, here, same]
        rw [none_removed, counted, Settled, and_comm]
      have listed : ∀ path ∈ present, (removed.foldl (fun files path => files.erase path) files)[path]? =
          entryAfter analysis tree path index.files[path]? := by
        intro path here
        rw [(getElem?_foldl_erase removed files path).2 (by simp [member, here]), scan_.listed path here]
      have unlisted : ∀ path ∉ present, (removed.foldl (fun files path => files.erase path) files)[path]? =
          none := by
        intro path absent
        by_cases stored : path ∈ files
        · exact (getElem?_foldl_erase removed files path).1 ((member path).mpr ⟨stored, absent⟩)
        · rw [(getElem?_foldl_erase removed files path).2 (by simp [member, stored])]
          exact ExtTreeMap.getElem?_eq_none stored
      have still : Extracted analysis trees (removed.foldl (fun files path => files.erase path) files) := by
        intro path file found
        by_cases here : path ∈ present
        · rw [listed path here, ← scan_.listed path here] at found
          exact scan_.extracted path file found
        · rw [unlisted path here] at found
          cases found
      split at refreshed
      · rename_i quiet
        cases refreshed
        have quiet : Settled tree present index.files := settled.mp (by simpa [Refresh.isNoop, and_comm, and_assoc] using quiet)
        exact ⟨listed, unlisted, still, fun _ => ⟨rfl, rfl⟩, fun loud => absurd quiet loud⟩
      · rename_i loud
        cases refreshed
        have loud : ¬ Settled tree present index.files := by
          intro quiet
          obtain ⟨nothing, added, changed⟩ := settled.mpr quiet
          exact loud (by simp [Refresh.isNoop, nothing, added, changed])
        exact ⟨listed, unlisted, still, fun quiet => absurd quiet loud, fun _ => inStep_rebuild⟩

/-! ## Against a build -/

section
variable {trees : List (Tree π)} {present : List π} {next : Index π F} {files : Files π} {path : π}

/-- Current entries of a file say the same of it, whenever they were read. -/
theorem bare_of_current (honest : Honest trees) (here : tree ∈ trees) (extracted : Extracted analysis trees files)
    {text : String} (read : tree.read path = .ok text) (current : Current tree path files[path]?) :
    files[path]?.map IndexedFile.bare = some (extractFile analysis path text ⟨0, 0, 0⟩) := by
  obtain ⟨file, found, same⟩ := current text read
  obtain ⟨before, member, text', read', rfl⟩ := extracted path file found
  obtain rfl := honest before member tree here path text' text read' read (.inr same)
  rw [found]
  rfl

/-- A file that cannot be read keeps the entry it has. -/
theorem entryAfter_error {error : String} (read : tree.read path = .error error) (before : Option (IndexedFile π)) :
    entryAfter analysis tree path before = before := by
  simp only [entryAfter, read, ite_self]

/-- A refresh of a settled table leaves the files as they were, apart from their stats. -/
theorem Refreshed.sameFiles (refreshed : Refreshed analysis trees tree present index next) (honest : Honest trees)
    (here : tree ∈ trees) (extracted : Extracted analysis trees index.files)
    (settled : Settled tree present index.files) : SameFiles next.files index.files := by
  intro path
  by_cases listed : path ∈ present
  · cases read : tree.read path with
    | error error => rw [refreshed.listed path listed, entryAfter_error read]
    | ok text =>
      have after : Current tree path next.files[path]? := by
        rw [refreshed.listed path listed]
        exact current_entryAfter honest here extracted
      rw [bare_of_current honest here refreshed.extracted read after,
        bare_of_current honest here extracted read (settled.1 path listed)]
  · have absent : path ∉ index.files := fun stored => listed (settled.2 path stored)
    rw [refreshed.unlisted path listed, ExtTreeMap.getElem?_eq_none absent]

/-- After a refresh the derived tables are in step unless nothing changed and they were not before. -/
theorem Refreshed.inStep_iff (refreshed : Refreshed analysis trees tree present index next) (honest : Honest trees)
    (here : tree ∈ trees) (extracted : Extracted analysis trees index.files) :
    InStep analysis next ↔ (Settled tree present index.files → InStep analysis index) := by
  constructor
  · intro inStep settled
    obtain ⟨definitions, centrality⟩ := refreshed.kept settled
    exact inStep.congr (refreshed.sameFiles honest here extracted settled) definitions centrality
  · intro before
    by_cases settled : Settled tree present index.files
    · obtain ⟨definitions, centrality⟩ := refreshed.kept settled
      exact (before settled).congr (refreshed.sameFiles honest here extracted settled).symm definitions.symm
        centrality.symm
    · exact refreshed.rebuilt settled

theorem scan_lenient (present : List π) (files : Files π) (report : Refresh) :
    ∃ report' next, scan analysis tree false present files report = (.ok report', next) := by
  induction present generalizing files report with
  | nil => exact ⟨report, files, rfl⟩
  | cons path rest ih =>
    have visited : ∃ next, visit analysis tree false files report path = .ok next := by
      unfold visit
      dsimp only
      split
      · exact ⟨_, rfl⟩
      · split
        · exact ⟨_, rfl⟩
        · split
          · split <;> exact ⟨_, rfl⟩
          · exact ⟨_, rfl⟩
    obtain ⟨⟨next, report'⟩, visited⟩ := visited
    rw [scan, visited]
    exact ih next report'

/-- What is built of a tree: its listed files that can be read, with the tables of these. -/
theorem build_ok (honest : Honest trees) (here : tree ∈ trees) (listing : tree.indexableFiles = .ok present) :
    ∃ built : Index π F, build analysis tree = .ok built ∧
      Refreshed analysis trees tree present empty built ∧ InStep analysis built := by
  have nothing : Extracted analysis trees (empty : Index π F).files := by
    intro path file found
    simp [empty] at found
  obtain ⟨report, files, scanned⟩ := @scan_lenient _ _ analysis tree present (∅ : Files π) ⟨0, 0, 0, 0, 0⟩
  have done : ∃ report built, refreshWithPolicy analysis (empty : Index π F) tree false = (.ok report, built) := by
    have scanned : scan analysis tree false present (empty : Index π F).files ⟨0, 0, 0, 0, 0⟩ =
        (.ok report, files) := scanned
    simp only [refreshWithPolicy, listing, scanned]
    split <;> exact ⟨_, _, rfl⟩
  obtain ⟨report, built, done⟩ := done
  obtain ⟨present', listing', refreshed⟩ := refresh_ok honest here nothing done
  rw [listing, Except.ok.injEq] at listing'
  subst listing'
  exact ⟨built, by rw [build, done], refreshed,
    (refreshed.inStep_iff honest here nothing).mpr fun _ => inStep_empty⟩

/-- The index answers as one that is built from scratch: the same files, apart from their stats, the
same definitions and centrality, and the same routes. -/
def UpToDate (analysis : Analysis) (index : Index π F) (tree : Tree π) : Prop :=
  ∃ built : Index π F, build analysis tree = .ok built ∧ SameFiles index.files built.files ∧
    index.definitions = built.definitions ∧ index.centrality = built.centrality ∧
    (∀ query limit, route analysis index query limit = route analysis built query limit) ∧
    ∀ query budget, routeBudget analysis index query budget = routeBudget analysis built query budget

/-- Every listed file that has an entry can be read. -/
def Readable (tree : Tree π) (present : List π) (files : Files π) : Prop :=
  ∀ path ∈ present, path ∈ files → (tree.read path).isOk

theorem Refreshed.sameFiles_iff {built : Index π F} (refreshed : Refreshed analysis trees tree present index next)
    (fresh : Refreshed analysis trees tree present empty built) (honest : Honest trees) (here : tree ∈ trees)
    (extracted : Extracted analysis trees index.files) :
    SameFiles next.files built.files ↔ Readable tree present index.files := by
  have nothing : Extracted analysis trees (empty : Index π F).files := by
    intro path file found
    simp [empty] at found
  have missing : ∀ path : π, (empty : Index π F).files[path]? = none := by simp [empty]
  constructor
  · intro same path listed stored
    cases read : tree.read path with
    | ok text => rfl
    | error error =>
      have kept := same path
      rw [refreshed.listed path listed, fresh.listed path listed, entryAfter_error read, entryAfter_error read,
        missing, Option.map_none, Option.map_eq_none_iff] at kept
      rw [ExtTreeMap.mem_iff_isSome_getElem?, kept] at stored
      cases stored
  · intro readable path
    by_cases listed : path ∈ present
    · cases read : tree.read path with
      | ok text =>
        have after : Current tree path next.files[path]? := by
          rw [refreshed.listed path listed]
          exact current_entryAfter honest here extracted
        have built_ : Current tree path built.files[path]? := by
          rw [fresh.listed path listed]
          exact current_entryAfter honest here nothing
        rw [bare_of_current honest here refreshed.extracted read after,
          bare_of_current honest here fresh.extracted read built_]
      | error error =>
        have absent : path ∉ index.files := by
          intro stored
          have ok := readable path listed stored
          rw [read] at ok
          cases ok
        rw [refreshed.listed path listed, fresh.listed path listed, entryAfter_error read, entryAfter_error read,
          missing, ExtTreeMap.getElem?_eq_none absent]
    · rw [refreshed.unlisted path listed, fresh.unlisted path listed]

/-- A refresh leaves the index up to date exactly when it reads every listed file that has an entry, and
the derived tables were in step or the files have changed. -/
theorem Refreshed.upToDate_iff (refreshed : Refreshed analysis trees tree present index next)
    (listing : tree.indexableFiles = .ok present) (honest : Honest trees) (here : tree ∈ trees)
    (extracted : Extracted analysis trees index.files) :
    UpToDate analysis next tree ↔
      Readable tree present index.files ∧ (Settled tree present index.files → InStep analysis index) := by
  obtain ⟨built, made, fresh, inStep⟩ := @build_ok π F _ _ analysis tree trees present honest here listing
  rw [← refreshed.inStep_iff honest here extracted, ← refreshed.sameFiles_iff fresh honest here extracted]
  constructor
  · rintro ⟨built', made', same, definitions, centrality, -⟩
    rw [made, Except.ok.injEq] at made'
    subst made'
    exact ⟨same, inStep.congr same.symm definitions.symm centrality.symm⟩
  · intro ⟨same, after⟩
    obtain ⟨definitions, centrality⟩ := @rebuild_congr _ _ _ _ analysis _ _ same
    have definitions : next.definitions = built.definitions := by rw [after.1, definitions, ← inStep.1]
    have centrality : next.centrality = built.centrality := by rw [after.2, centrality, ← inStep.2]
    have routes := @route_congr _ _ _ _ analysis _ _ same definitions centrality
    refine ⟨built, made, same, definitions, centrality, routes, ?_⟩
    intro query budget
    rw [routeBudget, routeBudget, routes]

end

end Index

/-! ## Runs -/

/-- What happens to a source tree and an index of it. -/
inductive Event (π : Type) where
  | edit (tree : Tree π)
  | refresh (strict : Bool)

/-- The tree an event leaves. -/
def Event.tree : Event π → Option (Tree π)
  | .edit tree => some tree
  | .refresh _ => none

structure World (π F : Type) [PathBuf π] where
  tree : Tree π
  index : Index π F

namespace World

/-- A refresh that fails leaves the index as it is by then. -/
def next (analysis : Analysis) (world : World π F) : Event π → World π F
  | .edit tree => { world with tree }
  | .refresh strict => { world with index := (world.index.refreshWithPolicy analysis world.tree strict).2 }

/-- A new index, after some events. -/
def run (analysis : Analysis) (first : Tree π) (events : List (Event π)) : World π F :=
  events.foldl (next analysis) ⟨first, Index.empty⟩

variable {analysis : Analysis} {trees : List (Tree π)} {world : World π F}

/-- The tree is one of the run, and the entries are of files that were read in the run. -/
def Traced (analysis : Analysis) (trees : List (Tree π)) (world : World π F) : Prop :=
  world.tree ∈ trees ∧ Index.Extracted analysis trees world.index.files

theorem Traced.next (traced : Traced analysis trees world) (honest : Index.Honest trees) {event : Event π}
    (here : ∀ tree ∈ event.tree, tree ∈ trees) : Traced analysis trees (world.next analysis event) := by
  cases event with
  | edit tree => exact ⟨here tree rfl, traced.2⟩
  | refresh strict =>
    refine ⟨traced.1, ?_⟩
    cases refreshed : world.index.refreshWithPolicy analysis world.tree strict with
    | mk result after =>
      have same : (world.next analysis (.refresh strict)).index = after := by rw [World.next, refreshed]
      rw [same]
      cases result with
      | ok report =>
        obtain ⟨present, -, done⟩ := Index.refresh_ok honest traced.1 traced.2 refreshed
        exact done.extracted
      | error error =>
        unfold Index.refreshWithPolicy at refreshed
        split at refreshed
        · cases refreshed
          exact traced.2
        · rename_i present _
          have scanned := @Index.scan_extracted _ _ analysis world.tree trees honest traced.1 strict present
            world.index.files ⟨0, 0, 0, 0, 0⟩ traced.2
          split at refreshed
          · rename_i files failed
            cases refreshed
            rw [failed] at scanned
            exact scanned
          · dsimp only at refreshed
            split at refreshed <;> cases refreshed

theorem traced_run (first : Tree π) (events : List (Event π))
    (honest : Index.Honest (first :: events.filterMap Event.tree)) :
    Traced analysis (first :: events.filterMap Event.tree) (run analysis first events : World π F) := by
  have start : Traced analysis (first :: events.filterMap Event.tree) (⟨first, Index.empty⟩ : World π F) := by
    refine ⟨by simp, ?_⟩
    intro path file found
    simp [Index.empty] at found
  have steps : ∀ (rest : List (Event π)) (world : World π F), (∀ event ∈ rest, event ∈ events) →
      Traced analysis (first :: events.filterMap Event.tree) world →
      Traced analysis (first :: events.filterMap Event.tree) (rest.foldl (World.next analysis) world) := by
    intro rest
    induction rest with
    | nil => exact fun _ _ traced => traced
    | cons event rest ih =>
      intro world among traced
      refine ih _ (fun other member => among other (by simp [member])) (traced.next honest ?_)
      intro tree left
      exact List.mem_cons_of_mem _ (List.mem_filterMap.mpr ⟨event, among event (by simp), left⟩)
  exact steps events _ (fun _ member => member) start

end World

/-- After any edits of the tree and any refreshes, strict or not, of which some may have failed
part-way, a refresh that succeeds leaves the index as a build would exactly when every listed file
that has an entry can be read, and the definitions and the centrality were in step with the files
unless the files have changed. A change of a file changes its stats and its digest. -/
theorem refresh_upToDate_iff (analysis : Analysis) (first : Tree π) (events : List (Event π))
    (honest : Index.Honest (first :: events.filterMap Event.tree)) (strict : Bool) (report : Refresh)
    (next : Index π F)
    (refreshed : Index.refreshWithPolicy analysis (World.run analysis first events).index
      (World.run analysis first events : World π F).tree strict = (.ok report, next)) :
    Index.UpToDate analysis next (World.run analysis first events : World π F).tree ↔
      ∃ present, (World.run analysis first events : World π F).tree.indexableFiles = .ok present ∧
        Index.Readable (World.run analysis first events : World π F).tree present
          (World.run analysis first events : World π F).index.files ∧
        (Index.Settled (World.run analysis first events : World π F).tree present
            (World.run analysis first events : World π F).index.files →
          Index.InStep analysis (World.run analysis first events : World π F).index) := by
  obtain ⟨here, extracted⟩ := @World.traced_run π F _ _ analysis first events honest
  obtain ⟨present, listing, done⟩ := Index.refresh_ok honest here extracted refreshed
  rw [done.upToDate_iff listing honest here extracted]
  constructor
  · intro condition
    exact ⟨present, listing, condition⟩
  · rintro ⟨present', listing', condition⟩
    rw [listing, Except.ok.injEq] at listing'
    subst listing'
    exact condition

/-! ## Two ways out of step -/

/-- Files of one directory, by their names. -/
instance : PathBuf String where
  trans := inferInstance
  lawful := inferInstance
  display name := name
  fileName name := some name
  extension name := if '.' ∈ name.toList then (name.toList.splitOn '.').getLast?.map String.ofList else none
  fileStem name := some (String.ofList (name.toList.takeWhile (· ≠ '.')))
  parent _ := some ""

/-- Exact arithmetic. The centrality of files that no other refers to is the same in `f64`. -/
instance : F64 Rat where
  ofNat n := n
  add := (· + ·)
  sub := (· - ·)
  mul := (· * ·)
  div := (· / ·)
  max a b := if a ≤ b then b else a
  min a b := if a ≤ b then a else b
  lt a b := decide (a < b)
  partialCmp a b := some (compare a b)
  damping := 17 / 20

/-- The texts of a file, with its modification times. -/
def sampleVersions : List (String × UInt64) := [("fn alpha() \x7b\x7d\n", 1), ("fn beta() \x7b\x7d\n", 2)]

/-- The analysis of the texts, in which each declares its function, and of a text with an import. -/
def sampleAnalysis : Analysis :=
  { extract := fun text _ =>
      if text = "fn alpha() \x7b\x7d\n" then [⟨"alpha", .definition, 1⟩]
      else if text = "fn beta() \x7b\x7d\n" then [⟨"beta", .definition, 1⟩]
      else if text = "use crate::a;\n" then [⟨"crate::a", .import_, 1⟩]
      else []
    lower := fun text => String.ofList (text.toList.map Char.toLower)
    alphanumeric := Char.isAlphanum }

/-- A version of one file, and a file that imports it and may not be readable. -/
def sampleTree (version : String × UInt64) (mtime : UInt64) (readable : Bool) : Tree String :=
  { indexableFiles := .ok ["a.rs", "b.rs"]
    fileStats := fun path =>
      if path = "a.rs" then ⟨version.2, 0, UInt64.ofNat version.1.length⟩ else ⟨mtime, 0, 14⟩
    read := fun path =>
      if path = "a.rs" then .ok version.1
      else if readable then .ok "use crate::a;\n" else .error "Permission denied (os error 13)" }

theorem sample_honest {trees : List (Tree String)}
    (sampled : ∀ tree ∈ trees, ∃ version ∈ sampleVersions, ∃ mtime readable, tree = sampleTree version mtime readable) :
    Index.Honest trees := by
  have versions : ∀ a ∈ sampleVersions, ∀ b ∈ sampleVersions,
      a.2 = b.2 ∨ digest (utf8 a.1) = digest (utf8 b.1) → a.1 = b.1 := by decide +kernel
  intro before first after second path text text' read read' alike
  obtain ⟨version, member, mtime, readable, rfl⟩ := sampled before first
  obtain ⟨version', member', mtime', readable', rfl⟩ := sampled after second
  by_cases here : path = "a.rs"
  · simp only [sampleTree, here, if_pos, Except.ok.injEq] at read read' alike
    subst read read'
    refine versions version member version' member' (alike.imp ?_ id)
    intro same
    exact congrArg Stats.mtimeSecs same
  · simp only [sampleTree, if_neg here] at read read'
    split at read <;> cases read
    split at read' <;> cases read'
    rfl

/-- The text of the file changes and the other file cannot be read, so that a strict refresh fails
after the first; then the other can be read again. -/
def failedPartWay : List (Event String) :=
  [.refresh false, .edit (sampleTree ("fn beta() \x7b\x7d\n", 2) 2 false), .refresh true,
    .edit (sampleTree ("fn beta() \x7b\x7d\n", 2) 2 true)]

/-- A file that is indexed can no longer be read. -/
def unreadable : List (Event String) := [.refresh false, .edit (sampleTree ("fn alpha() \x7b\x7d\n", 1) 1 false)]

/-- The tree and the index after some events, from the first version of the file. -/
def sampleRun (events : List (Event String)) : World String Rat :=
  World.run sampleAnalysis (sampleTree ("fn alpha() \x7b\x7d\n", 1) 1 true) events

/-- A refresh that succeeds and does not leave the index as a build would. -/
def Diverges (events : List (Event String)) : Prop :=
  Index.Honest (sampleTree ("fn alpha() \x7b\x7d\n", 1) 1 true :: events.filterMap Event.tree) ∧
    ∃ report next,
      Index.refreshWithPolicy sampleAnalysis (sampleRun events).index (sampleRun events).tree true = (.ok report, next) ∧
        ¬ Index.UpToDate sampleAnalysis next (sampleRun events).tree

theorem diverges_of_probe {events : List (Event String)}
    (honest : Index.Honest (sampleTree ("fn alpha() \x7b\x7d\n", 1) 1 true :: events.filterMap Event.tree))
    (probe : Index String Rat → Bool)
    (reads : ∀ a b : Index String Rat, SameFiles a.files b.files → a.definitions = b.definitions → probe a = probe b)
    (ok : (Index.refreshWithPolicy sampleAnalysis (sampleRun events).index (sampleRun events).tree true).1.isOk)
    (after : ((Index.build sampleAnalysis (sampleRun events).tree).toOption.map probe) = some
      (! probe (Index.refreshWithPolicy sampleAnalysis (sampleRun events).index (sampleRun events).tree true).2)) :
    Diverges events := by
  refine ⟨honest, ?_⟩
  cases refreshed : Index.refreshWithPolicy sampleAnalysis (sampleRun events).index (sampleRun events).tree true with
  | mk result next =>
    rw [refreshed] at ok after
    cases result with
    | error error => cases ok
    | ok report =>
      refine ⟨report, next, rfl, ?_⟩
      rintro ⟨built, made, same, definitions, -⟩
      rw [made, reads next built same definitions] at after
      cases value : probe built <;> simp [Except.toOption, value] at after

/-- After a strict refresh that failed part-way, and of a file that can no longer be read, a refresh
succeeds and the index is not the one that is built. -/
theorem refresh_diverges : Diverges failedPartWay ∧ Diverges unreadable := by
  constructor
  · refine diverges_of_probe (sample_honest ?_) (fun index => index.definitions.contains "beta")
      (fun a b _ definitions => by rw [definitions]) (by decide +kernel) (by decide +kernel)
    intro tree member
    simp only [failedPartWay, Event.tree, List.filterMap_cons, List.filterMap_nil, List.mem_cons,
      List.not_mem_nil, or_false] at member
    rcases member with rfl | rfl | rfl
    · exact ⟨("fn alpha() \x7b\x7d\n", 1), by decide, 1, true, rfl⟩
    · exact ⟨("fn beta() \x7b\x7d\n", 2), by decide, 2, false, rfl⟩
    · exact ⟨("fn beta() \x7b\x7d\n", 2), by decide, 2, true, rfl⟩
  · refine diverges_of_probe (sample_honest ?_) (fun index => index.files["b.rs"]?.isSome)
      (fun a b same _ => ?_) (by decide +kernel) (by decide +kernel)
    · intro tree member
      simp only [unreadable, Event.tree, List.filterMap_cons, List.filterMap_nil, List.mem_cons,
        List.not_mem_nil, or_false] at member
      rcases member with rfl | rfl
      · exact ⟨("fn alpha() \x7b\x7d\n", 1), by decide, 1, true, rfl⟩
      · exact ⟨("fn alpha() \x7b\x7d\n", 1), by decide, 1, false, rfl⟩
    · have here := congrArg Option.isSome (same "b.rs")
      simpa using here

/-- An edit of the file, after a refresh. -/
def edited : List (Event String) := [.refresh false, .edit (sampleTree ("fn beta() \x7b\x7d\n", 2) 1 true)]

theorem edited_honest :
    Index.Honest (sampleTree ("fn alpha() \x7b\x7d\n", 1) 1 true :: edited.filterMap Event.tree) := by
  refine sample_honest ?_
  intro tree member
  simp only [edited, Event.tree, List.filterMap_cons, List.filterMap_nil, List.mem_cons, List.not_mem_nil,
    or_false] at member
  rcases member with rfl | rfl
  · exact ⟨("fn alpha() \x7b\x7d\n", 1), by decide, 1, true, rfl⟩
  · exact ⟨("fn beta() \x7b\x7d\n", 2), by decide, 1, true, rfl⟩

/-- An edited file is taken in. -/
theorem refresh_upToDate_iff_sample : ∃ report next,
    Index.refreshWithPolicy sampleAnalysis (sampleRun edited).index (sampleRun edited).tree true = (.ok report, next) ∧
      report.changed = 1 ∧ Index.UpToDate sampleAnalysis next (sampleRun edited).tree := by
  have changed : (Index.refreshWithPolicy sampleAnalysis (sampleRun edited).index
      (sampleRun edited).tree true).1.toOption.map (·.changed) = some 1 := by decide +kernel
  have before : (sampleRun edited).index.files["a.rs"]?.map (·.digest) =
      some (digest (utf8 "fn alpha() \x7b\x7d\n")) := by decide +kernel
  have apart : digest (utf8 "fn alpha() \x7b\x7d\n") ≠ digest (utf8 "fn beta() \x7b\x7d\n") := by decide +kernel
  cases refreshed : Index.refreshWithPolicy sampleAnalysis (sampleRun edited).index (sampleRun edited).tree true with
  | mk result next =>
    rw [refreshed] at changed
    cases result with
    | error error => cases changed
    | ok report =>
      refine ⟨report, next, rfl, by simpa [Except.toOption] using changed, ?_⟩
      refine (refresh_upToDate_iff sampleAnalysis (sampleTree ("fn alpha() \x7b\x7d\n", 1) 1 true) edited
        edited_honest true report next refreshed).mpr ⟨["a.rs", "b.rs"], rfl, ?_, ?_⟩
      · intro path listed indexed
        change ((sampleTree ("fn beta() \x7b\x7d\n", 2) 1 true).read path).isOk
        by_cases here : path = "a.rs" <;> simp [sampleTree, here, Except.isOk, Except.toBool]
      · intro settled
        have current := settled.1 "a.rs" (by simp)
        change Index.Current (sampleTree ("fn beta() \x7b\x7d\n", 2) 1 true) "a.rs"
          (sampleRun edited).index.files["a.rs"]? at current
        obtain ⟨file, found, same⟩ := current "fn beta() \x7b\x7d\n" (by simp [sampleTree])
        rw [found, Option.map_some, Option.some.injEq] at before
        exact absurd (before.symm.trans same) apart

end Vyrm.Graph
