import Vyrm.Graph.Incremental
import Vyrm.Lib.Fallible
import Vyrm.Lib.TopK

/-!
# What grounding leaves out

Grounding compares the paths, the digests and the occurrences. Routing also reads the term counts, the
definitions and the centrality of the index.
-/

namespace Vyrm.Graph.Index
open Lib Std

variable {π F : Type} [PathBuf π] [F64 F] {analysis : Analysis} {index built : Index π F}

/-! ## Answers -/

/-- Why a file answers a query, if it does. -/
def answer (analysis : Analysis) (index : Index π F) (query : String) (path : π) (file : IndexedFile π) :
    Option Justification :=
  let justification := justify analysis index query path file
  if F64.lt (F64.ofNat 0) (score justification : F) then some justification else none

/-- The files that answer a query, in path order, each with its justification. -/
def answers (analysis : Analysis) (index : Index π F) (query : String) : List (π × Justification) :=
  (index.files.filterMap fun path file => answer analysis index query path file).toList

theorem mem_answers {query : String} {path : π} {why : Justification} :
    (path, why) ∈ answers analysis index query ↔
      index.files[path]?.bind (answer analysis index query path) = some why := by
  rw [answers, ExtTreeMap.mem_toList_iff_getElem?_eq_some, ExtTreeMap.getElem?_filterMap']

/-- The centrality of a file. -/
def central (index : Index π F) (path : π) : F := index.centrality[path]?.getD (F64.ofNat 0)

/-- The order of two files by centrality, then by path. -/
def byCentrality (index : Index π F) (a b : π) : Ordering :=
  ((F64.partialCmp (central index b) (central index a)).getD .eq).then (compare a b)

/-- The order of two answers by their scores. -/
def byScore (F : Type) [F64 F] (a b : Justification) : Ordering :=
  (F64.partialCmp (score b : F) (score a)).getD .eq

/-- The order of answers. -/
def standing (index : Index π F) (a b : π × Justification) : Ordering :=
  (byScore F a.2 b.2).then (byCentrality index a.1 b.1)

/-- A routed file without its line count and its centrality. -/
def shown (file : RoutedFile π F) : π × F × Justification := (file.path, file.score, file.justification)

/-- An answer is routed with its score, and the centrality of its file. -/
theorem mem_candidates {query : String} {file : RoutedFile π F} (routed : file ∈ candidates analysis index query) :
    file.score = score file.justification ∧ file.centrality = central index file.path := by
  simp only [candidates, List.mem_filterMap, Option.ite_none_right_eq_some, Option.some.injEq] at routed
  obtain ⟨entry, -, -, rfl⟩ := routed
  exact ⟨rfl, rfl⟩

theorem candidates_answers (query : String) :
    (candidates analysis index query).map (fun file => (file.path, file.justification)) =
      answers analysis index query := by
  rw [candidates, answers, ExtTreeMap.toList_filterMap, List.map_filterMap]
  congr 1
  funext entry
  simp only [answer]
  split <;> rfl

theorem route_shown (query : String) (limit : Nat) :
    (route analysis index query limit).map shown =
      (((answers analysis index query).mergeSort fun a b => standing index a b ≠ .gt).take limit).map
        fun a => (a.1, score a.2, a.2) := by
  have sorted : ((candidates analysis index query).mergeSort fun a b => compareRouted a b ≠ .gt).map
      (fun file => (file.path, file.justification)) =
        (answers analysis index query).mergeSort fun a b => standing index a b ≠ .gt := by
    rw [← candidates_answers]
    refine List.map_mergeSort ?_
    intro a first b second
    obtain ⟨scoreA, centralA⟩ := mem_candidates first
    obtain ⟨scoreB, centralB⟩ := mem_candidates second
    simp only [compareRouted, standing, byScore, byCentrality, scoreA, scoreB, centralA, centralB]
    rfl
  rw [← sorted, ← List.map_take, List.map_map, route]
  refine List.map_congr_left ?_
  intro file kept
  have routed := List.mem_mergeSort.mp (List.mem_of_mem_take kept)
  simp [shown, (mem_candidates routed).1]

/-! ## What routing reads -/

/-- The files that two indexes route a query to are the same, with their scores and justifications. -/
def RoutesAlike (analysis : Analysis) (index other : Index π F) : Prop :=
  ∀ query limit, (route analysis index query limit).map shown = (route analysis other query limit).map shown

/-- The lines of a file that mention a term. -/
def mentions (analysis : Analysis) (index : Index π F) (query : String) (path : π) : Nat :=
  index.files[path]?.elim 0 fun file => file.terms[analysis.lower query]?.getD 0

/-- A file imports one that the definition map has for a name. -/
def importsDefiner (analysis : Analysis) (index : Index π F) (query : String) (path : π) : Bool :=
  index.files[path]?.any fun file => (justify analysis index query path file).importsADefiner

/-- The term counts, the definitions and the centrality of two indexes are the same where a query is
answered from them. -/
structure TablesAlike (analysis : Analysis) (index other : Index π F) : Prop where
  terms : ∀ query path why, (path, why) ∈ answers analysis index query ++ answers analysis other query →
    mentions analysis index query path = mentions analysis other query path
  definitions : ∀ query path why, (path, why) ∈ answers analysis index query ++ answers analysis other query →
    importsDefiner analysis index query path = importsDefiner analysis other query path
  centrality : ∀ query, ∀ a ∈ answers analysis index query, ∀ b ∈ answers analysis index query,
    byScore F a.2 b.2 = .eq → (byCentrality index a.1 b.1 = .gt ↔ byCentrality other a.1 b.1 = .gt)

/-- The same paths, and the same occurrences. -/
def SameOccurrences (a b : Files π) : Prop := ∀ path : π, a[path]?.map (·.occurrences) = b[path]?.map (·.occurrences)

/-- Grounding reports agreement only of files with the same occurrences. -/
theorem sameOccurrences_of_ground {tree : Tree π} {grounding : Grounding π}
    (grounded : ground analysis index tree = .ok grounding) (agreed : grounding.agreed) :
    ∃ built : Index π F, build analysis tree = .ok built ∧ SameOccurrences index.files built.files := by
  obtain ⟨built, made, rest⟩ := except_bind_ok.mp grounded
  refine ⟨built, made, ?_⟩
  cases rest
  simp only [Bool.and_eq_true, List.isEmpty_iff, List.filter_eq_nil_iff] at agreed
  obtain ⟨⟨mine, theirs⟩, differing⟩ := agreed
  intro path
  have mine := mine path
  have theirs := theirs path
  have differing := differing path
  simp only [ExtTreeMap.mem_keys, ExtTreeMap.mem_iff_isSome_getElem?, ExtTreeMap.contains_eq_isSome_getElem?] at *
  cases found : index.files[path]? with
  | none => cases found' : built.files[path]? <;> simp_all
  | some file =>
    cases found' : built.files[path]? with
    | none => simp_all
    | some file' => simp_all

omit [F64 F] in
theorem justify_eq {query : String} {path : π} {file : IndexedFile π} (found : index.files[path]? = some file) :
    justify analysis index query path file =
      { defines := (file.occurrences.filter fun o => o.role = .definition ∧ o.name = query).map (·.name)
        referenceLines := mentions analysis index query path
        importsADefiner := importsDefiner analysis index query path } := by
  simp [justify, mentions, importsDefiner, found]

/-- A file is answered alike where the tables are alike. -/
theorem answer_congr (same : SameOccurrences index.files built.files) {query : String} {path : π}
    (alike : ∀ why, (path, why) ∈ answers analysis index query ++ answers analysis built query →
      mentions analysis index query path = mentions analysis built query path ∧
        importsDefiner analysis index query path = importsDefiner analysis built query path) :
    index.files[path]?.bind (answer analysis index query path) =
      built.files[path]?.bind (answer analysis built query path) := by
  have here := same path
  cases found : index.files[path]? with
  | none =>
    cases found' : built.files[path]? with
    | none => rfl
    | some file' => simp [found, found'] at here
  | some file =>
    cases found' : built.files[path]? with
    | none => simp [found, found'] at here
    | some file' =>
      rw [found, found', Option.map_some, Option.map_some, Option.some.injEq] at here
      have equal : (∃ why, (path, why) ∈ answers analysis index query ++ answers analysis built query) →
          answer analysis index query path file = answer analysis built query path file' := by
        intro ⟨why, answered⟩
        obtain ⟨terms, definitions⟩ := alike why answered
        rw [answer, answer, justify_eq found, justify_eq found', here, terms, definitions]
      simp only [List.mem_append, mem_answers, found, found', Option.bind_some] at equal ⊢
      cases mine : answer analysis index query path file with
      | some why => rw [← mine, equal ⟨why, .inl mine⟩]
      | none =>
        cases theirs : answer analysis built query path file' with
        | none => rfl
        | some why => rw [← mine, ← theirs, equal ⟨why, .inr theirs⟩]

theorem answers_congr (same : SameOccurrences index.files built.files) {query : String}
    (alike : ∀ path why, (path, why) ∈ answers analysis index query ++ answers analysis built query →
      mentions analysis index query path = mentions analysis built query path ∧
        importsDefiner analysis index query path = importsDefiner analysis built query path) :
    answers analysis index query = answers analysis built query := by
  rw [answers, answers]
  congr 1
  apply ExtTreeMap.ext_getElem?
  intro path
  rw [ExtTreeMap.getElem?_filterMap', ExtTreeMap.getElem?_filterMap']
  exact answer_congr same (alike path)

/-- What routing reads from tables that are alike. -/
theorem routesAlike_of_tables (same : SameOccurrences index.files built.files)
    (tables : TablesAlike analysis index built) : RoutesAlike analysis index built := by
  intro query limit
  have equal := answers_congr same fun path why answered =>
    ⟨tables.terms query path why answered, tables.definitions query path why answered⟩
  rw [route_shown, route_shown, equal]
  congr 2
  refine mergeSort_congr ?_
  intro a first b second
  rw [decide_eq_decide, not_iff_not, standing, standing]
  cases scores : byScore F a.2 b.2 with
  | lt => rfl
  | gt => rfl
  | eq =>
    simp only [Ordering.eq_then]
    exact tables.centrality query a (equal ▸ first) b (equal ▸ second) scores

/-! ## Numbers -/

/-- Scores and centralities are compared as numbers are: none of them is NaN. -/
def Numbers (index : Index π F) : Prop :=
  ∃ value : F → Rat,
    (∀ a b, F64.partialCmp (score a : F) (score b) = some (compare (value (score a)) (value (score b)))) ∧
      ∀ a b, F64.partialCmp (central index a) (central index b) =
        some (compare (value (central index a)) (value (central index b)))

theorem Numbers.transCmp (numbers : Numbers index) : TransCmp (standing index) := by
  obtain ⟨value, scores, centralities⟩ := numbers
  have lexicographic : standing index =
      compareLex (fun a b => compareOn (fun a : π × Justification => value (score a.2)) b a)
        (compareLex (fun a b => compareOn (fun a : π × Justification => value (central index a.1)) b a)
          (compareOn Prod.fst)) := by
    funext a b
    simp only [standing, byScore, byCentrality, scores, centralities, Option.getD_some, compareLex, compareOn]
  rw [lexicographic]
  infer_instance

/-- The order tells answers apart. -/
theorem eq_of_standing {query : String} {a b : π × Justification} (first : a ∈ answers analysis index query)
    (second : b ∈ answers analysis index query) (equal : standing built a b = .eq) : a = b := by
  obtain ⟨path, why⟩ := a
  obtain ⟨path', why'⟩ := b
  simp only [standing, byCentrality, Ordering.then_eq_eq] at equal
  obtain rfl := LawfulEqCmp.eq_of_compare equal.2.2
  rw [mem_answers] at first second
  rw [first, Option.some.injEq] at second
  rw [second]

/-- What is routed alike is answered alike, in the same order. -/
theorem RoutesAlike.sorted (alike : RoutesAlike analysis index built) (query : String) :
    ((answers analysis index query).mergeSort fun a b => standing index a b ≠ .gt) =
      (answers analysis built query).mergeSort fun a b => standing built a b ≠ .gt := by
  have routed := alike query ((answers analysis index query).length + (answers analysis built query).length)
  rw [route_shown, route_shown, List.take_of_length_le (by simp), List.take_of_length_le (by simp)] at routed
  refine List.map_injective_iff.mpr ?_ routed
  intro a b shown
  simp only [Prod.mk.injEq] at shown
  exact Prod.ext shown.1 shown.2.2

theorem RoutesAlike.members (alike : RoutesAlike analysis index built) (query : String) (a : π × Justification) :
    a ∈ answers analysis index query ↔ a ∈ answers analysis built query := by
  have mine := List.mergeSort_perm (answers analysis index query) fun a b => standing index a b ≠ .gt
  have theirs := List.mergeSort_perm (answers analysis built query) fun a b => standing built a b ≠ .gt
  rw [← mine.mem_iff, alike.sorted, theirs.mem_iff]

/-- Tables from which the same is routed are alike, where they hold numbers. -/
theorem tables_of_routesAlike (same : SameOccurrences index.files built.files) (alike : RoutesAlike analysis index built)
    (numbers : Numbers index) (numbers' : Numbers built) : TablesAlike analysis index built := by
  have tables : ∀ query path why, (path, why) ∈ answers analysis index query ++ answers analysis built query →
      mentions analysis index query path = mentions analysis built query path ∧
        importsDefiner analysis index query path = importsDefiner analysis built query path := by
    intro query path why answered
    rw [List.mem_append, ← alike.members, or_self] at answered
    have answered' := (alike.members query (path, why)).mp answered
    rw [mem_answers, Option.bind_eq_some_iff] at answered answered'
    obtain ⟨file, found, answer_⟩ := answered
    obtain ⟨file', found', answer_'⟩ := answered'
    simp only [answer, Option.ite_none_right_eq_some, Option.some.injEq] at answer_ answer_'
    rw [justify_eq found] at answer_
    rw [justify_eq found'] at answer_'
    rw [← answer_.2, Justification.mk.injEq] at answer_'
    exact ⟨answer_'.2.2.1.symm, answer_'.2.2.2.symm⟩
  refine ⟨fun query path why answered => (tables query path why answered).1,
    fun query path why answered => (tables query path why answered).2, ?_⟩
  intro query a first b second tied
  have trans := numbers.transCmp
  have trans' := numbers'.transCmp
  have equal := answers_congr same (tables query)
  have after := @after_iff_of_mergeSort_eq _ (standing index) (standing built) trans trans' _
    (fun a first b second => eq_of_standing first second) (fun a first b second => eq_of_standing first second)
    (by rw [alike.sorted, equal]) a b first second
  simpa only [standing, tied, Ordering.eq_then] using after

/-- Tables that were derived from files with the same terms and occurrences are alike. -/
theorem tables_of_inStep (files : SameFiles index.files built.files) (mine : InStep analysis index)
    (theirs : InStep analysis built) : TablesAlike analysis index built := by
  obtain ⟨definitions, centrality⟩ := @rebuild_congr _ _ _ _ analysis _ _ files
  have definitions : index.definitions = built.definitions := by rw [mine.1, definitions, ← theirs.1]
  have centrality : index.centrality = built.centrality := by rw [mine.2, centrality, ← theirs.2]
  have read : ∀ (index : Index π F) query path, mentions analysis index query path =
      (index.files[path]?.map IndexedFile.bare).elim 0 (fun file => file.terms[analysis.lower query]?.getD 0) ∧
      importsDefiner analysis index query path = (index.files[path]?.map IndexedFile.bare).any
        fun file => (justify analysis index query path file).importsADefiner := by
    intro index query path
    cases found : index.files[path]? <;> simp [mentions, importsDefiner, found, IndexedFile.bare, justify]
  refine ⟨fun query path why _ => ?_, fun query path why _ => ?_, fun query a _ b _ _ => ?_⟩
  · rw [(read index query path).1, (read built query path).1, files path]
  · rw [(read index query path).2, (read built query path).2, files path]
    simp only [justify, definitions]
  · simp only [byCentrality, central, centrality]

/-! ## Any index -/

/-- The indexes there are: after refreshes, of which some may have failed, and from bytes. Reading the bytes
panics where the definition map has a file that is not indexed. -/
inductive Reached (analysis : Analysis) : Index π F → Prop where
  | empty : Reached analysis empty
  | refresh {index : Index π F} (reached : Reached analysis index) (tree : Tree π) (strict : Bool) :
      Reached analysis (refreshWithPolicy analysis index tree strict).2
  | fromBytes (parsed : Index π F)
      (indexed : ∀ entry ∈ parsed.definitions.toList, ∀ path ∈ entry.2.toList, path ∈ parsed.files) :
      Reached analysis (fromBytes analysis parsed)

end Vyrm.Graph.Index

namespace Vyrm.Graph

/-! ## Agreement without the same routes -/

/-- An index that is reached, is grounded on a tree, and routes otherwise than one that is built. -/
def Misrouted (index : Index String Rat) (tree : Tree String) : Prop :=
  Index.Reached sampleAnalysis index ∧
    ∃ grounding, Index.ground sampleAnalysis index tree = .ok grounding ∧ grounding.agreed ∧
      ∃ built, Index.build sampleAnalysis tree = .ok built ∧ ¬ Index.RoutesAlike sampleAnalysis index built

theorem sampleRun_reached (events : List (Event String)) : Index.Reached sampleAnalysis (sampleRun events).index := by
  have steps : ∀ (events : List (Event String)) (world : World String Rat),
      Index.Reached sampleAnalysis world.index →
        Index.Reached sampleAnalysis (events.foldl (World.next sampleAnalysis) world).index := by
    intro events
    induction events with
    | nil => exact fun _ reached => reached
    | cons event rest ih =>
      intro world reached
      refine ih _ ?_
      cases event with
      | edit tree => exact reached
      | refresh strict => exact reached.refresh world.tree strict
  exact steps events _ .empty

/-- The index that bytes with another term count are read to. -/
def recounted : Index String Rat :=
  Index.fromBytes sampleAnalysis
    { (sampleRun [.refresh false]).index with
      files := (sampleRun [.refresh false]).index.files.modify "a.rs" fun file =>
        { file with terms := file.terms.insert "alpha" 9 } }

theorem misrouted_of_answer {index : Index String Rat} {tree : Tree String}
    (reached : Index.Reached sampleAnalysis index)
    (agreed : (Index.ground sampleAnalysis index tree).toOption.map (·.agreed) = some true) (query : String)
    (answered : ((Index.build sampleAnalysis tree : Except String (Index String Rat)).toOption.map fun built =>
      (Index.answers sampleAnalysis index query).all (Index.answers sampleAnalysis built query).contains &&
        (Index.answers sampleAnalysis built query).all (Index.answers sampleAnalysis index query).contains) =
      some false) :
    Misrouted index tree := by
  refine ⟨reached, ?_⟩
  cases grounded : Index.ground sampleAnalysis index tree with
  | error error => simp [grounded, Except.toOption] at agreed
  | ok grounding =>
    cases made : (Index.build sampleAnalysis tree : Except String (Index String Rat)) with
    | error error => simp [made, Except.toOption] at answered
    | ok built =>
      refine ⟨grounding, rfl, by simpa [grounded, Except.toOption] using agreed, built, rfl, ?_⟩
      intro alike
      rw [made, Except.toOption, Option.map_some, Option.some.injEq, Bool.and_eq_false_iff] at answered
      simp [alike.members query] at answered

end Vyrm.Graph
