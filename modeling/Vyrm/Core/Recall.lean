import Vyrm.Core.Temporal
import Vyrm.Lib.FirstFit

/-!
# Recall

`crates/vyrm-core/src/recall.rs`: the claims in force for some subjects, under a budget of tokens.
The documentation has the loop stop at the first claim that does not fit; the loop goes on, and
includes a later claim that is small enough.
-/

namespace Vyrm.Core
open Lib

/-- `RecallQuery` (`recall.rs:20-29`). -/
structure RecallQuery where
  subjects : List Subject
  predicates : Option (List Predicate)
  asOf : Millis
  deriving DecidableEq

/-- `RecallSet` (`recall.rs:33-48`). -/
structure RecallSet where
  claims : List Claim
  digest : String
  tokenEstimate : Nat
  truncated : Bool
  deriving DecidableEq

/-- `ESTIMATED_BYTES_PER_TOKEN` (`recall.rs:55`). -/
def estimatedBytesPerToken : Nat := 4

/-- `estimate_claim_tokens` (`recall.rs:59-65`); the quotient is rounded up. -/
def estimateClaimTokens (claim : Claim) : Nat :=
  let bytes := claim.subject.bytes.length + claim.predicate.bytes.length + (utf8 claim.object).length +
    (utf8 claim.producer.actor).length
  (bytes + (estimatedBytesPerToken - 1)) / estimatedBytesPerToken

/-- `digest` (`recall.rs:67-76`). -/
def recallDigest (claims : List Claim) : String :=
  sha256Hex (utf8 "vyrm-recall-v1\x00" ++ be64 (.ofNat claims.length) ++
    claims.flatMap fun claim => be64 (.ofNat claim.canonicalBytes.length) ++ claim.canonicalBytes)

/-- What the loops carry from claim to claim. -/
structure Recalling where
  included : List Claim
  spent : Nat
  truncated : Bool

namespace Recalling

def start : Recalling := ⟨[], 0, false⟩

/-- The budget and one claim (`recall.rs:124-130`). -/
def offer (tokenBudget : Nat) (state : Recalling) (current : Claim) : Recalling :=
  let cost := estimateClaimTokens current
  if state.included = [] ∨ state.spent + cost ≤ tokenBudget then
    { state with spent := state.spent + cost, included := state.included ++ [current] }
  else { state with truncated := true }

end Recalling

/-- What a run of versions adds (`recall.rs:115-130`). -/
def recallRun (query : RecallQuery) (tokenBudget : Nat) (state : Recalling) (predicate : Predicate)
    (group : List Claim) : Recalling :=
  if query.predicates.any (predicate ∉ ·) then state
  else match resolveAsOf group query.asOf with
    | none => state
    | some current => state.offer tokenBudget current

/-- The loop over the runs of one subject's versions (`recall.rs:105-131`). -/
def recallRuns (query : RecallQuery) (tokenBudget : Nat) (state : Recalling) : List Claim → Recalling
  | [] => state
  | head :: rest =>
    let run := rest.takeWhile fun claim => claim.predicate = head.predicate
    let behind := rest.dropWhile fun claim => claim.predicate = head.predicate
    recallRuns query tokenBudget (recallRun query tokenBudget state head.predicate (head :: run)) behind
termination_by versions => versions.length
decreasing_by
  exact Nat.lt_succ_of_le (List.dropWhile_suffix _).length_le

section

variable {ε : Type} (source : Subject → Except ε (List Claim)) (query : RecallQuery)

/-- The loop over the subjects (`recall.rs:96-132`); the source is its `subject_versions`. -/
def recallSubjects (tokenBudget : Nat) (state : Recalling) (visited : List Subject) :
    List Subject → Except ε Recalling
  | [] => .ok state
  | subject :: subjects =>
    if subject ∈ visited then recallSubjects tokenBudget state visited subjects
    else do
      let versions ← source subject
      recallSubjects tokenBudget (recallRuns query tokenBudget state versions) (visited ++ [subject]) subjects

/-- The set that the loops end with (`recall.rs:134-139`). -/
def Recalling.finish (state : Recalling) : RecallSet :=
  { digest := recallDigest state.included
    tokenEstimate := state.spent
    truncated := state.truncated
    claims := state.included }

/-- `recall` (`recall.rs:87-141`). -/
def recall_ (tokenBudget : Nat) : Except ε RecallSet := do
  let state ← recallSubjects source query tokenBudget .start [] query.subjects
  return state.finish

end

/-! ## What is resolved -/

/-- The runs of versions of one predicate. -/
def predicateRuns : List Claim → List (Predicate × List Claim)
  | [] => []
  | head :: rest =>
    (head.predicate, head :: rest.takeWhile fun claim => claim.predicate = head.predicate) ::
      predicateRuns (rest.dropWhile fun claim => claim.predicate = head.predicate)
termination_by versions => versions.length
decreasing_by
  exact Nat.lt_succ_of_le (List.dropWhile_suffix _).length_le

namespace RecallQuery

/-- The claim of a run that is in force, if its predicate is asked for. -/
def current (query : RecallQuery) (run : Predicate × List Claim) : Option Claim :=
  if query.predicates.any (run.1 ∉ ·) then none else resolveAsOf run.2 query.asOf

/-- The claims that a query resolves, in order: subject by subject, each once, and predicate by predicate. -/
def resolved {ε : Type} (query : RecallQuery) (source : Subject → Except ε (List Claim)) : Except ε (List Claim) := do
  let found ← query.subjects.eraseDups.mapM source
  return found.flatMap fun versions => (predicateRuns versions).filterMap query.current

end RecallQuery

theorem recallRuns_eq (query : RecallQuery) (tokenBudget : Nat) (state : Recalling) (versions : List Claim) :
    recallRuns query tokenBudget state versions =
      ((predicateRuns versions).filterMap query.current).foldl (Recalling.offer tokenBudget) state := by
  induction versions using predicateRuns.induct generalizing state with
  | case1 => simp [recallRuns, predicateRuns]
  | case2 head rest ih =>
    rw [recallRuns, predicateRuns, ih, List.filterMap_cons, recallRun, RecallQuery.current]
    split
    · rfl
    cases resolveAsOf _ query.asOf with
    | none => rfl
    | some current => rfl

section

variable {ε : Type} (source : Subject → Except ε (List Claim)) (query : RecallQuery)

/-- The loop visits each subject once, where it is named first. -/
theorem recallSubjects_eq (tokenBudget : Nat) (state : Recalling) (visited subjects : List Subject) :
    recallSubjects source query tokenBudget state visited subjects = do
      let found ← ((subjects.filter (· ∉ visited)).eraseDups).mapM source
      return (found.flatMap fun versions => (predicateRuns versions).filterMap query.current).foldl
        (Recalling.offer tokenBudget) state := by
  induction subjects generalizing state visited with
  | nil => rfl
  | cons subject subjects ih =>
    rw [recallSubjects, List.filter_cons]
    by_cases seen : subject ∈ visited
    · rw [if_pos seen, if_neg (by simpa using seen), ih]
    · have rest : (subjects.filter (· ∉ visited)).filter (fun other => !other == subject) =
          subjects.filter (· ∉ visited ++ [subject]) := by
        rw [List.filter_filter]
        refine List.filter_congr fun other _ => ?_
        simp [and_comm, beq_eq_decide]
      rw [if_neg seen, if_pos (by simpa using seen), List.eraseDups_cons, rest, List.mapM_cons]
      cases source subject with
      | error e => rfl
      | ok versions =>
        simp only [bind, Except.bind, pure, Except.pure]
        rw [ih, recallRuns_eq]
        cases (subjects.filter (· ∉ visited ++ [subject])).eraseDups.mapM source with
        | error e => rfl
        | ok found => simp [List.foldl_append, bind, Except.bind, pure, Except.pure]

end

/-! ## The budget -/

/-- The estimate of some claims. -/
def tokens (claims : List Claim) : Nat := (claims.map estimateClaimTokens).sum

/-- Claims within a budget: their estimates fit, or there is one claim at most. -/
def FitsBudget (tokenBudget : Nat) (claims : List Claim) : Prop := claims.length ≤ 1 ∨ tokens claims ≤ tokenBudget

instance (tokenBudget : Nat) : DecidablePred (FitsBudget tokenBudget) := fun _ => inferInstanceAs (Decidable (_ ∨ _))

theorem tokens_append (claims more : List Claim) : tokens (claims ++ more) = tokens claims + tokens more := by
  rw [tokens, List.map_append, List.sum_append]
  rfl

theorem prefixClosed_fitsBudget (tokenBudget : Nat) : PrefixClosed (FitsBudget tokenBudget) := by
  intro front back fits
  rw [FitsBudget, List.length_append, tokens_append] at fits
  unfold FitsBudget
  omega

/-- What the loops carry agrees with the claims that are included, of those that were offered. -/
structure Recalling.Agrees (offered : List Claim) (state : Recalling) : Prop where
  spent : state.spent = tokens state.included
  truncated : if state.truncated then state.included.length < offered.length else state.included = offered

theorem Recalling.agrees_start : start.Agrees [] := ⟨rfl, rfl⟩

/-- A claim is included when it fits with those that are. -/
theorem Recalling.Agrees.included_offer {offered : List Claim} {state : Recalling} (agrees : state.Agrees offered)
    (tokenBudget : Nat) (claim : Claim) : (state.offer tokenBudget claim).included =
      if FitsBudget tokenBudget (state.included ++ [claim]) then state.included ++ [claim] else state.included := by
  have room : state.included = [] ∨ state.spent + estimateClaimTokens claim ≤ tokenBudget ↔
      FitsBudget tokenBudget (state.included ++ [claim]) := by
    rw [FitsBudget, tokens_append, agrees.spent, List.length_append, ← List.length_eq_zero_iff]
    simp [tokens]
  rw [Recalling.offer]
  simp only [room]
  split
  · rfl
  · rfl

theorem Recalling.Agrees.offer {offered : List Claim} {state : Recalling} (agrees : state.Agrees offered)
    (tokenBudget : Nat) (claim : Claim) : (state.offer tokenBudget claim).Agrees (offered ++ [claim]) := by
  obtain ⟨spent, truncated⟩ := agrees
  unfold Recalling.offer
  dsimp only
  split
  · refine ⟨?_, ?_⟩
    · rw [tokens_append, spent]
      rfl
    · dsimp only
      split
      next cut =>
        rw [if_pos cut] at truncated
        simpa using truncated
      next whole =>
        rw [if_neg whole] at truncated
        rw [truncated]
  · refine ⟨spent, ?_⟩
    dsimp only
    rw [if_pos rfl, List.length_append]
    split at truncated
    · omega
    · rw [truncated]
      simp

/-- What the loops include is what is taken in order, claim by claim, as far as it fits. -/
theorem Recalling.Agrees.foldl_offer {offered : List Claim} {state : Recalling} (agrees : state.Agrees offered)
    (tokenBudget : Nat) (claims : List Claim) :
    (claims.foldl (Recalling.offer tokenBudget) state).Agrees (offered ++ claims) ∧
      (claims.foldl (Recalling.offer tokenBudget) state).included =
        takeFitting (FitsBudget tokenBudget) state.included claims := by
  induction claims generalizing state offered with
  | nil => exact ⟨by rwa [List.append_nil], rfl⟩
  | cons claim claims ih =>
    obtain ⟨final, included⟩ := ih (agrees.offer tokenBudget claim)
    rw [List.append_cons, List.foldl_cons]
    refine ⟨final, ?_⟩
    rw [included, takeFitting, agrees.included_offer]
    split
    · rfl
    · rfl

/-- What a recall promises of the claims that its query resolves. -/
structure RecallSet.Budgeted (tokenBudget : Nat) (resolved : List Claim) (recalled : RecallSet) : Prop where
  longest : IsLongestPrefix (FitsBudget tokenBudget) resolved recalled.claims
  estimate : recalled.tokenEstimate = tokens recalled.claims
  truncated : recalled.truncated = true ↔ recalled.claims.length < resolved.length

/-- The set that comes of some resolved claims. -/
def fill (tokenBudget : Nat) (resolved : List Claim) : RecallSet :=
  (resolved.foldl (Recalling.offer tokenBudget) Recalling.start).finish

theorem budgeted_fill_iff {tokenBudget : Nat} {resolved : List Claim} :
    (fill tokenBudget resolved).Budgeted tokenBudget resolved ↔ NoneFitsBehind (FitsBudget tokenBudget) resolved := by
  obtain ⟨⟨spent, truncated⟩, included⟩ := Recalling.agrees_start.foldl_offer tokenBudget resolved
  have empty : FitsBudget tokenBudget [] := .inl (Nat.zero_le _)
  rw [← takeFitting_isLongestPrefix_iff (prefixClosed_fitsBudget tokenBudget) empty]
  constructor
  · intro budgeted
    have longest := budgeted.longest
    rwa [fill, Recalling.finish, included] at longest
  · intro longest
    refine ⟨?_, spent, ?_⟩
    · rwa [fill, Recalling.finish, included]
    · rw [fill, Recalling.finish]
      dsimp only
      split at truncated
      next cut => exact iff_of_true cut truncated
      next whole =>
        refine iff_of_false whole ?_
        rw [truncated, List.nil_append]
        exact Nat.lt_irrefl _

/-- A recall fills its budget with the claims that its query resolves. -/
theorem recall_eq {ε : Type} (source : Subject → Except ε (List Claim)) (query : RecallQuery) (tokenBudget : Nat) :
    recall_ source query tokenBudget = do return fill tokenBudget (← query.resolved source) := by
  have subjects := recallSubjects_eq source query tokenBudget .start [] query.subjects
  have all : query.subjects.filter (· ∉ ([] : List Subject)) = query.subjects := by simp
  rw [all] at subjects
  rw [recall_, subjects, RecallQuery.resolved]
  cases query.subjects.eraseDups.mapM source with
  | error e => rfl
  | ok found => rfl

/-- A recall resolves the claims that its query asks for. The set that it returns has the longest prefix of them that
is within the budget, with its estimate and its mark of truncation, exactly when no claim behind the first one that
does not fit is small enough to fit in its place. -/
theorem recall_budgeted_iff {ε : Type} (source : Subject → Except ε (List Claim)) (query : RecallQuery)
    (tokenBudget : Nat) :
    match query.resolved source with
    | .error e => recall_ source query tokenBudget = .error e
    | .ok resolved => ∃ recalled, recall_ source query tokenBudget = .ok recalled ∧
        (recalled.Budgeted tokenBudget resolved ↔ NoneFitsBehind (FitsBudget tokenBudget) resolved) := by
  rw [recall_eq]
  cases query.resolved source with
  | error e => rfl
  | ok resolved => exact ⟨_, rfl, budgeted_fill_iff⟩

/-! A large claim between two small ones -/

private def note (predicate : Predicate) (object : String) : Claim :=
  { subject := .lit "s" (Eq.refl true), predicate, object, validFrom := 1, validTo := none, txTime := 1,
    producer := ⟨"p", none, none⟩, confidence := none, supersedes := none, signature := none, tier := .localTier,
    promotionState := .unpromoted }

private def smallNote : Claim := note (.lit "a" (Eq.refl true)) "x"

private def largeNote : Claim := note (.lit "b" (Eq.refl true)) "a longer text"

private def lastNote : Claim := note (.lit "c" (Eq.refl true)) "y"

/-- With a budget of two tokens the first and the third claim are recalled. -/
theorem recall_goes_on : ¬ ∀ (source : Subject → Except Unit (List Claim)) (query : RecallQuery) (tokenBudget : Nat)
    (resolved : List Claim) (recalled : RecallSet), query.resolved source = .ok resolved →
      recall_ source query tokenBudget = .ok recalled → recalled.Budgeted tokenBudget resolved := by
  intro budgeted
  let query : RecallQuery := ⟨[.lit "s" (Eq.refl true)], none, 1⟩
  have resolved : query.resolved (fun _ => (.ok [smallNote, largeNote, lastNote] : Except Unit (List Claim))) =
      .ok [smallNote, largeNote, lastNote] := by
    have runs : predicateRuns [smallNote, largeNote, lastNote] =
        [(smallNote.predicate, [smallNote]), (largeNote.predicate, [largeNote]), (lastNote.predicate, [lastNote])] := by
      have first : smallNote.predicate ≠ largeNote.predicate := by decide
      have second : largeNote.predicate ≠ lastNote.predicate := by decide
      simp [predicateRuns, first.symm, second.symm]
    change Except.ok ((predicateRuns [smallNote, largeNote, lastNote]).filterMap query.current ++ []) = _
    rw [runs]
    rfl
  have result := recall_eq (fun _ => (.ok [smallNote, largeNote, lastNote] : Except Unit (List Claim))) query 2
  rw [resolved] at result
  have stopped := budgeted_fill_iff.mp (budgeted _ query 2 _ _ resolved result)
  exact stopped [smallNote] largeNote [lastNote] rfl (by decide) (by decide) lastNote (List.mem_singleton_self _) (by decide)

end Vyrm.Core
