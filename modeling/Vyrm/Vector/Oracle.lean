import Mathlib.Data.List.MinMax
import Vyrm.Vector.Exact

/-!
# What the exact oracle returns

The oracle reads off a list of candidates the latest version of every vector, and ranks those a
request is shown. Only the members of the list matter.
-/

namespace Vyrm.Vector
open Lib Vyrm.Core Std

variable {request : SearchRequest} {candidates : List VectorCandidate}

/-! ## The latest versions -/

/-- A version that competes for being the latest. -/
def SearchRequest.competes (request : SearchRequest) (candidate : VectorCandidate) : Prop :=
  request.reads candidate ∧ candidate.matchesModel request.embeddingModel ∧
    candidate.vector.validFrom ≤ request.validAt

instance (request : SearchRequest) (candidate : VectorCandidate) : Decidable (request.competes candidate) :=
  inferInstanceAs (Decidable (_ ∧ _ ∧ _))

/-- The latest version of its vector. -/
def LatestIn (request : SearchRequest) (candidates : List VectorCandidate) (candidate : VectorCandidate) : Prop :=
  candidate ∈ candidates ∧ request.competes candidate ∧
    ∀ other ∈ candidates, request.competes other → other.vector.reference = candidate.vector.reference →
      other.sourceCursor ≤ candidate.sourceCursor

instance (request : SearchRequest) (candidates : List VectorCandidate) (candidate : VectorCandidate) :
    Decidable (LatestIn request candidates candidate) := inferInstanceAs (Decidable (_ ∧ _ ∧ _))

/-- The versions that `materialize_visible_refs` tells apart. -/
def versionsRead (request : SearchRequest) (candidates : List VectorCandidate) : List (RuntimeRef × UInt64) :=
  (candidates.filter fun candidate =>
    request.reads candidate ∧ candidate.matchesModel request.embeddingModel).map VectorCandidate.version

/-- What `materialize_visible_refs` asks of the candidates. -/
structure Readable (request : SearchRequest) (candidates : List VectorCandidate) : Prop where
  valid : ∀ candidate ∈ candidates, request.reads candidate → candidate.validate = .ok ()
  distinct : (versionsRead request candidates).Nodup

/-- The maps of the loop, for the candidates it has seen. -/
structure Tracks (request : SearchRequest) (candidates : List VectorCandidate) (state : Materialized) : Prop where
  versions : state.versions = (versionsRead request candidates).reverse
  latest : ∀ (reference : RuntimeRef) (candidate : VectorCandidate), state.latest[reference]? = some candidate ↔
    LatestIn request candidates candidate ∧ candidate.vector.reference = reference

theorem mem_versionsRead {candidate : VectorCandidate} (listed : candidate ∈ candidates)
    (competes : request.competes candidate) : candidate.version ∈ versionsRead request candidates :=
  List.mem_map_of_mem (List.mem_filter.mpr ⟨listed, decide_eq_true ⟨competes.1, competes.2.1⟩⟩)

/-- A version that does not compete changes nothing. -/
theorem latestIn_concat_of_not {candidate other : VectorCandidate} (ignored : ¬ request.competes candidate) :
    LatestIn request (candidates ++ [candidate]) other ↔ LatestIn request candidates other := by
  have same : ∀ c, (c ∈ candidates ++ [candidate] ∧ request.competes c) ↔ (c ∈ candidates ∧ request.competes c) := by
    intro c
    rw [List.mem_append, List.mem_singleton]
    constructor
    · rintro ⟨old | rfl, competes⟩
      · exact ⟨old, competes⟩
      · exact absurd competes ignored
    · exact fun ⟨old, competes⟩ => ⟨.inl old, competes⟩
  unfold LatestIn
  constructor
  · intro ⟨listed, competes, most⟩
    obtain ⟨listed, _⟩ := (same other).mp ⟨listed, competes⟩
    exact ⟨listed, competes, fun c inside => most c (List.mem_append_left _ inside)⟩
  · intro ⟨listed, competes, most⟩
    refine ⟨List.mem_append_left _ listed, competes, ?_⟩
    intro c inside isRead
    exact most c ((same c).mp ⟨inside, isRead⟩).1 isRead

/-- A version that is not the latest changes nothing. -/
theorem latestIn_concat_of_older {candidate current other : VectorCandidate}
    (latest : LatestIn request candidates current) (same : current.vector.reference = candidate.vector.reference)
    (older : candidate.sourceCursor < current.sourceCursor) :
    LatestIn request (candidates ++ [candidate]) other ↔ LatestIn request candidates other := by
  constructor
  · intro ⟨listed, competes, most⟩
    have below : other ≠ candidate := by
      rintro rfl
      have := most current (List.mem_append_left _ latest.1) latest.2.1 same
      exact absurd older (UInt64.not_lt.mpr this)
    rw [List.mem_append, List.mem_singleton] at listed
    exact ⟨listed.resolve_right below, competes, fun c inside => most c (List.mem_append_left _ inside)⟩
  · intro ⟨listed, competes, most⟩
    refine ⟨List.mem_append_left _ listed, competes, ?_⟩
    intro c inside isRead sameRef
    rw [List.mem_append, List.mem_singleton] at inside
    rcases inside with inside | rfl
    · exact most c inside isRead sameRef
    · exact UInt64.le_trans (UInt64.le_of_lt older) (most current latest.1 latest.2.1 (same.trans sameRef))

/-- A version that is later than those before it is the latest, and the others of its vector are not. -/
theorem latestIn_concat_of_newer {candidate other : VectorCandidate} (competes : request.competes candidate)
    (newer : ∀ c ∈ candidates, request.competes c → c.vector.reference = candidate.vector.reference →
      c.sourceCursor < candidate.sourceCursor) :
    LatestIn request (candidates ++ [candidate]) other ↔ other = candidate ∨
      (LatestIn request candidates other ∧ other.vector.reference ≠ candidate.vector.reference) := by
  constructor
  · intro ⟨listed, isRead, most⟩
    rw [List.mem_append, List.mem_singleton] at listed
    rcases listed with old | isNew
    · refine .inr ⟨⟨old, isRead, fun c inside => most c (List.mem_append_left _ inside)⟩, ?_⟩
      intro same
      have := most candidate (by simp) competes same.symm
      exact absurd (newer other old isRead same) (UInt64.not_lt.mpr this)
    · exact .inl isNew
  · rintro (rfl | ⟨⟨listed, isRead, most⟩, different⟩)
    · refine ⟨by simp, competes, ?_⟩
      intro c inside isRead same
      rw [List.mem_append, List.mem_singleton] at inside
      rcases inside with inside | rfl
      · exact UInt64.le_of_lt (newer c inside isRead same)
      · exact UInt64.le_refl _
    · refine ⟨List.mem_append_left _ listed, isRead, ?_⟩
      intro c inside competes same
      rw [List.mem_append, List.mem_singleton] at inside
      rcases inside with inside | rfl
      · exact most c inside competes same
      · exact absurd same.symm different

/-- A vector that has a version that competes has a latest one. -/
theorem exists_latest {candidate : VectorCandidate} (listed : candidate ∈ candidates)
    (competes : request.competes candidate) :
    ∃ best, LatestIn request candidates best ∧ best.vector.reference = candidate.vector.reference := by
  let rivals := candidates.filter fun c => request.competes c ∧ c.vector.reference = candidate.vector.reference
  have among : candidate ∈ rivals := List.mem_filter.mpr ⟨listed, decide_eq_true ⟨competes, rfl⟩⟩
  cases top : rivals.argmax (fun c => c.sourceCursor.toNat) with
  | none =>
    rw [List.argmax_eq_none.mp top] at among
    cases among
  | some best =>
    obtain ⟨inside, isRival⟩ := List.mem_filter.mp (List.argmax_mem top)
    obtain ⟨isRead, same⟩ := of_decide_eq_true isRival
    refine ⟨best, ⟨inside, isRead, ?_⟩, same⟩
    intro other otherListed otherRead otherSame
    have rival : other ∈ rivals := List.mem_filter.mpr ⟨otherListed, decide_eq_true ⟨otherRead, otherSame.trans same⟩⟩
    have below : other.sourceCursor.toNat ≤ best.sourceCursor.toNat :=
      List.le_of_mem_argmax (f := fun c : VectorCandidate => c.sourceCursor.toNat) rival top
    exact UInt64.le_iff_toNat_le.mpr below

/-! ## The loop -/

theorem versionsRead_concat (candidate : VectorCandidate) :
    versionsRead request (candidates ++ [candidate]) = versionsRead request candidates ++
      if request.reads candidate ∧ candidate.matchesModel request.embeddingModel then [candidate.version] else [] := by
  unfold versionsRead
  rw [List.filter_append, List.map_append]
  by_cases counted : request.reads candidate ∧ candidate.matchesModel request.embeddingModel
  · simp [counted]
  · simp [counted]

theorem readable_concat {candidate : VectorCandidate} :
    Readable request (candidates ++ [candidate]) ↔ Readable request candidates ∧
      (request.reads candidate → candidate.validate = .ok ()) ∧
      (request.reads candidate ∧ candidate.matchesModel request.embeddingModel →
        candidate.version ∉ versionsRead request candidates) := by
  have parts : Readable request (candidates ++ [candidate]) ↔
      (∀ c ∈ candidates ++ [candidate], request.reads c → c.validate = .ok ()) ∧
      (versionsRead request (candidates ++ [candidate])).Nodup := ⟨fun h => ⟨h.1, h.2⟩, fun h => ⟨h.1, h.2⟩⟩
  rw [parts, versionsRead_concat, List.forall_mem_append, List.forall_mem_singleton, List.nodup_append]
  by_cases counted : request.reads candidate ∧ candidate.matchesModel request.embeddingModel
  · rw [if_pos counted]
    constructor
    · rintro ⟨⟨valid, own⟩, distinct, -, apart⟩
      exact ⟨⟨valid, distinct⟩, own, fun _ listed => apart _ listed _ (List.mem_singleton_self _) rfl⟩
    · rintro ⟨⟨valid, distinct⟩, own, fresh⟩
      refine ⟨⟨valid, own⟩, distinct, List.nodup_singleton _, ?_⟩
      intro a listed b isNew same
      rw [List.mem_singleton] at isNew
      exact fresh counted (isNew ▸ same ▸ listed)
  · rw [if_neg counted]
    constructor
    · rintro ⟨⟨valid, own⟩, distinct, -, -⟩
      exact ⟨⟨valid, distinct⟩, own, fun h => absurd h counted⟩
    · rintro ⟨⟨valid, distinct⟩, own, -⟩
      exact ⟨⟨valid, own⟩, distinct, List.nodup_nil, fun a _ b none_ => by cases none_⟩

namespace Tracks

variable {state : Materialized} {candidate : VectorCandidate}

/-- A version that is only counted. -/
theorem ignore (tracks : Tracks request candidates state) {versions : List (RuntimeRef × UInt64)}
    (counted : versions = (versionsRead request (candidates ++ [candidate])).reverse)
    (same : ∀ other, LatestIn request (candidates ++ [candidate]) other ↔ LatestIn request candidates other) :
    Tracks request (candidates ++ [candidate]) { state with versions } := by
  refine ⟨counted, ?_⟩
  intro reference other
  rw [same]
  exact tracks.latest reference other

/-- A version that is the latest so far. -/
theorem insert (tracks : Tracks request candidates state) {versions : List (RuntimeRef × UInt64)}
    (counted : versions = (versionsRead request (candidates ++ [candidate])).reverse)
    (competes : request.competes candidate)
    (newer : ∀ c ∈ candidates, request.competes c → c.vector.reference = candidate.vector.reference →
      c.sourceCursor < candidate.sourceCursor) :
    Tracks request (candidates ++ [candidate])
      ⟨state.latest.insert candidate.vector.reference candidate, versions⟩ := by
  refine ⟨counted, ?_⟩
  intro reference other
  rw [latestIn_concat_of_newer competes newer]
  by_cases same : candidate.vector.reference = reference
  · subst same
    rw [OrdMap.getElem?_insert_self, Option.some.injEq]
    constructor
    · rintro rfl
      exact ⟨.inl rfl, rfl⟩
    · rintro ⟨rfl | ⟨-, different⟩, sameRef⟩
      · rfl
      · exact absurd sameRef different
  · rw [OrdMap.getElem?_insert_of_ne same, tracks.latest]
    constructor
    · rintro ⟨latest, rfl⟩
      exact ⟨.inr ⟨latest, fun back => same back.symm⟩, rfl⟩
    · rintro ⟨rfl | ⟨latest, -⟩, sameRef⟩
      · exact absurd sameRef same
      · exact ⟨latest, sameRef⟩

/-- One turn of the loop goes through exactly when the candidate can be read, and then the maps
track it as well. -/
theorem step (tracks : Tracks request candidates state) (candidate : VectorCandidate) :
    (∃ next, materialize request state candidate = .ok next ∧ Tracks request (candidates ++ [candidate]) next) ∧
      ((request.reads candidate → candidate.validate = .ok ()) ∧
      (request.reads candidate ∧ candidate.matchesModel request.embeddingModel →
        candidate.version ∉ versionsRead request candidates)) ∨
    (∃ e, materialize request state candidate = .error e) ∧
      ¬ ((request.reads candidate → candidate.validate = .ok ()) ∧
      (request.reads candidate ∧ candidate.matchesModel request.embeddingModel →
        candidate.version ∉ versionsRead request candidates)) := by
  have uncounted : ¬ (request.reads candidate ∧ candidate.matchesModel request.embeddingModel) →
      Tracks request (candidates ++ [candidate]) state := by
    intro skipped
    refine tracks.ignore ?_ fun other => latestIn_concat_of_not fun competes => skipped ⟨competes.1, competes.2.1⟩
    rw [versionsRead_concat, if_neg skipped, List.append_nil]
    exact tracks.versions
  unfold materialize
  by_cases reads : request.reads candidate
  · rw [if_neg (not_not.mpr reads)]
    cases valid : candidate.validate with
    | error e => exact .inr ⟨⟨e, rfl⟩, fun all => by cases all.1 reads⟩
    | ok _ =>
      rw [except_ok_bind]
      by_cases isModel : candidate.matchesModel request.embeddingModel
      · rw [if_neg (not_not.mpr isModel)]
        by_cases known : candidate.version ∈ versionsRead request candidates
        · have listed : candidate.version ∈ state.versions := by
            rw [tracks.versions, List.mem_reverse]
            exact known
          rw [if_pos listed]
          exact .inr ⟨⟨_, rfl⟩, fun all => all.2 ⟨reads, isModel⟩ known⟩
        · have unlisted : candidate.version ∉ state.versions := by
            rw [tracks.versions, List.mem_reverse]
            exact known
          have counted : candidate.version :: state.versions =
              (versionsRead request (candidates ++ [candidate])).reverse := by
            rw [versionsRead_concat, if_pos ⟨reads, isModel⟩, List.reverse_append, ← tracks.versions]
            rfl
          rw [if_neg unlisted]
          refine .inl ⟨?_, fun _ => rfl, fun _ => known⟩
          by_cases early : request.validAt < candidate.vector.validFrom
          · rw [if_pos early]
            refine ⟨_, rfl, tracks.ignore counted fun other => latestIn_concat_of_not ?_⟩
            exact fun competes => absurd early (UInt64.not_lt.mpr competes.2.2)
          · rw [if_neg early]
            have competes : request.competes candidate := ⟨reads, isModel, UInt64.not_lt.mp early⟩
            cases current : state.latest[candidate.vector.reference]? with
            | none =>
              refine ⟨_, rfl, tracks.insert counted competes ?_⟩
              -- a version before this one would have left a latest one
              intro c listed isRead same
              by_contra
              obtain ⟨best, latest⟩ := exists_latest listed isRead
              rw [same] at latest
              rw [(tracks.latest _ best).mpr latest] at current
              cases current
            | some best =>
              obtain ⟨latest, sameRef⟩ := (tracks.latest _ best).mp current
              by_cases newer : best.sourceCursor < candidate.sourceCursor
              · rw [if_pos (by simpa using newer)]
                refine ⟨_, rfl, tracks.insert counted competes ?_⟩
                intro c listed isRead same
                exact UInt64.lt_of_le_of_lt (latest.2.2 c listed isRead (same.trans sameRef.symm)) newer
              · rw [if_neg (by simpa using newer)]
                refine ⟨_, rfl, tracks.ignore counted fun other => latestIn_concat_of_older latest sameRef ?_⟩
                apply UInt64.lt_of_le_of_ne (UInt64.not_lt.mp newer)
                intro same
                apply known
                have version : candidate.version = best.version := Prod.ext sameRef.symm same
                rw [version]
                exact mem_versionsRead latest.1 latest.2.1
      · rw [if_pos isModel]
        exact .inl ⟨⟨_, rfl, uncounted fun both => isModel both.2⟩, fun _ => rfl, fun both => absurd both.2 isModel⟩
  · rw [if_pos reads]
    exact .inl ⟨⟨_, rfl, uncounted fun both => reads both.1⟩, fun h => absurd h reads, fun both => absurd both.1 reads⟩

end Tracks

/-- The loop goes through exactly when the candidates can be read. -/
theorem materialize_run (request : SearchRequest) (candidates : List VectorCandidate) :
    (∃ state, candidates.foldlM (materialize request) ⟨∅, []⟩ = .ok state ∧ Tracks request candidates state) ∧
        Readable request candidates ∨
      (∃ e, candidates.foldlM (materialize request) ⟨∅, []⟩ = .error e) ∧ ¬ Readable request candidates := by
  induction candidates using List.reverseRecOn with
  | nil =>
    refine .inl ⟨⟨_, rfl, rfl, ?_⟩, ⟨by simp, List.nodup_nil⟩⟩
    intro reference candidate
    simp [LatestIn]
  | append_singleton candidates candidate ih =>
    rw [List.foldlM_append, readable_concat]
    rcases ih with ⟨⟨state, ran, tracks⟩, readable⟩ | ⟨⟨e, failed⟩, unreadable⟩
    · rw [ran, except_ok_bind, List.foldlM_cons]
      rcases tracks.step candidate with ⟨⟨next, turned, tracks⟩, fits⟩ | ⟨⟨e, failed⟩, unfit⟩
      · rw [turned, except_ok_bind]
        exact .inl ⟨⟨next, rfl, tracks⟩, readable, fits⟩
      · rw [failed]
        exact .inr ⟨⟨e, rfl⟩, fun both => unfit both.2⟩
    · rw [failed]
      exact .inr ⟨⟨e, rfl⟩, fun both => unreadable both.1⟩

/-- What a request is shown: the latest versions of its field that are valid and pass its filter. -/
structure Shown (request : SearchRequest) (candidates visible : List VectorCandidate) : Prop where
  mem : ∀ candidate, candidate ∈ visible ↔ LatestIn request candidates candidate ∧ request.shows candidate
  distinct : (visible.map (·.vector.reference)).Nodup

theorem Tracks.shown {state : Materialized} (tracks : Tracks request candidates state) :
    Shown request candidates (state.latest.values.filter (request.shows ·)) := by
  refine ⟨?_, ?_⟩
  · intro candidate
    rw [List.mem_filter, OrdMap.mem_values, decide_eq_true_iff]
    constructor
    · intro ⟨⟨reference, found⟩, shows⟩
      exact ⟨((tracks.latest _ _).mp found).1, shows⟩
    · intro ⟨latest, shows⟩
      exact ⟨⟨_, (tracks.latest _ _).mpr ⟨latest, rfl⟩⟩, shows⟩
  · refine (List.filter_sublist.map _).nodup ?_
    rw [OrdMap.values, List.map_map, List.Nodup, List.pairwise_map]
    apply (ExtTreeMap.distinct_keys_toList (t := state.latest)).imp_of_mem
    intro p q memP memQ different same
    apply different
    have refP := ((tracks.latest _ _).mp (ExtTreeMap.mem_toList_iff_getElem?_eq_some.mp memP)).2
    have refQ := ((tracks.latest _ _).mp (ExtTreeMap.mem_toList_iff_getElem?_eq_some.mp memQ)).2
    rw [← refP, ← refQ, show p.2.vector.reference = q.2.vector.reference from same]
    exact ReflOrd.compare_self

/-- What `materialize_visible_refs` returns. -/
theorem materializeVisible_ok {visible : List VectorCandidate}
    (ran : materializeVisible request candidates = .ok visible) :
    Readable request candidates ∧ Shown request candidates visible := by
  obtain ⟨state, tracked, same⟩ := except_bind_ok.mp ran
  cases same
  rcases materialize_run request candidates with ⟨⟨state', ran', tracks⟩, readable⟩ | ⟨⟨e, failed⟩, -⟩
  · cases tracked.symm.trans ran'
    exact ⟨readable, tracks.shown⟩
  · cases tracked.symm.trans failed

theorem Readable.exists_visible (readable : Readable request candidates) :
    ∃ visible, materializeVisible request candidates = .ok visible ∧ Shown request candidates visible := by
  rcases materialize_run request candidates with ⟨⟨state, ran, tracks⟩, -⟩ | ⟨-, unreadable⟩
  · refine ⟨_, ?_, tracks.shown⟩
    rw [materializeVisible, ran]
    rfl
  · exact absurd readable unreadable

/-- Some of the candidates can be read when all can. -/
theorem Readable.of_perm_sublist {some_ more : List VectorCandidate} (readable : Readable request candidates)
    (perm : some_.Perm more) (sublist : more.Sublist candidates) : Readable request some_ := by
  refine ⟨fun c listed => readable.valid c (sublist.subset (perm.mem_iff.mp listed)), ?_⟩
  have versions : (versionsRead request some_).Perm (versionsRead request more) := (perm.filter _).map _
  exact versions.nodup_iff.mpr (((sublist.filter _).map _).nodup readable.distinct)

/-! ## The ranking -/

section

variable {S : Type} [LinearOrder S]

/-- The comparison of hits, by its three keys. -/
theorem compareBestFirst_eq : (SearchHit.compareBestFirst : SearchHit S → SearchHit S → Ordering) =
    compareLex (fun left right => compareOn SearchHit.score right left)
      (compareLex (compareOn SearchHit.reference) fun left right => compareOn SearchHit.sourceCursor right left) := rfl

instance : TransCmp (SearchHit.compareBestFirst : SearchHit S → SearchHit S → Ordering) := by
  rw [compareBestFirst_eq]
  have : TransCmp fun left right : SearchHit S => compareOn SearchHit.score right left := TransCmp.opposite
  have : TransCmp fun left right : SearchHit S => compareOn SearchHit.sourceCursor right left := TransCmp.opposite
  infer_instance

instance : Std.Total (SearchHit.Before : SearchHit S → SearchHit S → Prop) := total_of_cmp

instance : IsTrans (SearchHit S) SearchHit.Before := isTrans_of_cmp

/-- Hits of different vectors are told apart. -/
theorem separates_of_distinct {hits : List (SearchHit S)} (distinct : (hits.map (·.reference)).Nodup) :
    Separates SearchHit.Before hits := by
  intro a memA b memB first second
  have equal := eq_of_not_after first second
  rw [compareBestFirst_eq, compareLex_eq_eq, compareLex_eq_eq] at equal
  exact List.inj_on_of_nodup_map distinct memA memB (LawfulEqOrd.eq_of_compare equal.2.1)

variable [Scoring S]

/-- The vector of a hit is that of its candidate. -/
theorem reference_of_hitOf {candidate : VectorCandidate} {hit : SearchHit S}
    (scored : hitOf request candidate = .ok hit) : hit.reference = candidate.vector.reference := by
  obtain ⟨score, -, same⟩ := except_bind_ok.mp scored
  cases same
  rfl

theorem references_of_hits {visible : List VectorCandidate} {hits : List (SearchHit S)}
    (scored : visible.map (hitOf request) = hits.map .ok) :
    hits.map (·.reference) = visible.map (·.vector.reference) := by
  induction visible generalizing hits with
  | nil =>
    cases hits with
    | nil => rfl
    | cons hit hits => cases scored
  | cons candidate visible ih =>
    cases hits with
    | nil => cases scored
    | cons hit hits =>
      rw [List.map_cons, List.map_cons, List.cons.injEq] at scored
      rw [List.map_cons, List.map_cons, ih scored.2, reference_of_hitOf scored.1]

/-- Candidates that each have a hit have a list of hits. -/
theorem exists_hits {candidates : List VectorCandidate}
    (each : ∀ candidate ∈ candidates, ∃ hit : SearchHit S, hitOf request candidate = .ok hit) :
    ∃ hits : List (SearchHit S), candidates.map (hitOf request) = hits.map .ok := by
  induction candidates with
  | nil => exact ⟨[], rfl⟩
  | cons candidate candidates ih =>
    obtain ⟨hit, first⟩ := each candidate List.mem_cons_self
    obtain ⟨hits, rest⟩ := ih fun c listed => each c (List.mem_cons_of_mem _ listed)
    exact ⟨hit :: hits, by rw [List.map_cons, List.map_cons, first, rest]⟩

/-- One of the hits is that of a candidate. -/
theorem hit_of_mem {candidates : List VectorCandidate} {hits : List (SearchHit S)} {candidate : VectorCandidate}
    (scored : candidates.map (hitOf request) = hits.map .ok) (listed : candidate ∈ candidates) :
    ∃ hit ∈ hits, hitOf request candidate = .ok hit := by
  have image : (hitOf request candidate : Except Error (SearchHit S)) ∈ candidates.map (hitOf request) :=
    List.mem_map_of_mem listed
  rw [scored] at image
  obtain ⟨hit, inside, isHit⟩ := List.mem_map.mp image
  exact ⟨hit, inside, isHit.symm⟩

/-- The ranking of a list of candidates, of which some are known to be scored, and the rest is
added: it stays the same exactly when every added one is outranked often enough. -/
theorem bestHits_add {visible added all : List VectorCandidate} {hits : List (SearchHit S)}
    (perm : all.Perm (visible ++ added)) (distinct : (all.map (·.vector.reference)).Nodup)
    (scored : visible.map (hitOf request) = hits.map .ok) :
    (∃ others, all.mapM (hitOf request) = .ok others ∧ bestHits request others = bestHits request hits) ↔
      ∀ candidate ∈ added, ∃ hit, hitOf request candidate = .ok hit ∧ request.topK ≤ hits.countP (·.Before hit) := by
  -- with the hits of what was added at hand, it is a fact about sorted lists
  have ranked : ∀ extra others : List (SearchHit S), added.map (hitOf request) = extra.map .ok →
      all.map (hitOf request) = others.map .ok →
      (bestHits request others = bestHits request hits ↔ ∀ hit ∈ extra, request.topK ≤ hits.countP (·.Before hit)) := by
    intro extra others addedScored allScored
    have shuffled : others.Perm (hits ++ extra) := by
      have images : (others.map (Except.ok (ε := Error))).Perm ((hits ++ extra).map .ok) := by
        rw [← allScored, List.map_append, ← scored, ← addedScored, ← List.map_append]
        exact perm.map _
      exact (List.map_perm_map_iff fun a b same => Except.ok.inj same).mp images
    have apart : (others.map (·.reference)).Nodup := by
      rw [references_of_hits allScored]
      exact distinct
    have apart : ((hits ++ extra).map (·.reference)).Nodup := (shuffled.map _).nodup_iff.mp apart
    have separates := separates_of_distinct apart
    rw [bestHits, bestHits, ← insertionSort_congr separates shuffled.symm]
    exact take_insertionSort_append separates apart.of_map
  constructor
  · intro ⟨others, ran, same⟩ candidate member
    have allScored := except_mapM_ok.mp ran
    have each : ∀ c ∈ added, ∃ hit : SearchHit S, hitOf request c = .ok hit := by
      intro c listed
      obtain ⟨hit, -, isHit⟩ := hit_of_mem allScored (perm.mem_iff.mpr (List.mem_append_right _ listed))
      exact ⟨hit, isHit⟩
    obtain ⟨extra, addedScored⟩ := exists_hits each
    obtain ⟨hit, listed, isHit⟩ := hit_of_mem addedScored member
    exact ⟨hit, isHit, (ranked extra others addedScored allScored).mp same hit listed⟩
  · intro outranked
    obtain ⟨extra, addedScored⟩ := exists_hits fun c listed =>
      (outranked c listed).imp fun hit h => h.1
    have each : ∀ c ∈ all, ∃ hit : SearchHit S, hitOf request c = .ok hit := by
      intro c listed
      rcases List.mem_append.mp (perm.mem_iff.mp listed) with old | new
      · obtain ⟨hit, -, isHit⟩ := hit_of_mem scored old
        exact ⟨hit, isHit⟩
      · exact (outranked c new).imp fun hit h => h.1
    obtain ⟨others, allScored⟩ := exists_hits each
    refine ⟨others, except_mapM_ok.mpr allScored, (ranked extra others addedScored allScored).mpr ?_⟩
    intro hit listed
    have image : (Except.ok hit : Except Error (SearchHit S)) ∈ added.map (hitOf request) := by
      rw [addedScored]
      exact List.mem_map_of_mem listed
    obtain ⟨c, member, isHit⟩ := List.mem_map.mp image
    obtain ⟨hit', own, enough⟩ := outranked c member
    rw [own] at isHit
    cases isHit
    exact enough

/-- A version that comes after as many hits of some versions as are asked for. -/
def OutrankedBy (S : Type) [LinearOrder S] [Scoring S] (request : SearchRequest) (among : VectorCandidate → Prop)
    (candidate : VectorCandidate) : Prop :=
  ∃ hit : SearchHit S, hitOf request candidate = .ok hit ∧ ∃ better : List VectorCandidate, better.Nodup ∧
    request.topK ≤ better.length ∧ ∀ c ∈ better, among c ∧
      ∃ above : SearchHit S, hitOf request c = .ok above ∧ above.Before hit

/-- Being outranked, counted among the hits. -/
theorem outrankedBy_iff {among : VectorCandidate → Prop} {candidate : VectorCandidate} {visible : List VectorCandidate}
    {hits : List (SearchHit S)} (mem : ∀ c, c ∈ visible ↔ among c) (nodup : visible.Nodup)
    (scored : visible.map (hitOf request) = hits.map .ok) :
    OutrankedBy S request among candidate ↔
      ∃ hit, hitOf request candidate = .ok hit ∧ request.topK ≤ hits.countP (·.Before hit) := by
  apply exists_congr
  intro hit
  apply and_congr_right
  intro _
  -- the candidates above a hit are as many as their hits
  let above : VectorCandidate → Bool := fun c =>
    match (hitOf request c : Except Error (SearchHit S)) with
    | .ok h => h.Before hit
    | .error _ => false
  have counted : hits.countP (·.Before hit) = visible.countP above := by
    have images : (hits.map (Except.ok (ε := Error))).countP (fun r =>
        match r with
        | .ok h => h.Before hit
        | .error _ => false) = (visible.map (hitOf request)).countP (fun r : Except Error (SearchHit S) =>
        match r with
        | .ok h => h.Before hit
        | .error _ => false) := by rw [scored]
    rw [List.countP_map, List.countP_map] at images
    exact images
  have isAbove : ∀ c, above c = true ↔ ∃ h : SearchHit S, hitOf request c = .ok h ∧ h.Before hit := by
    intro c
    show (match (hitOf request c : Except Error (SearchHit S)) with
      | .ok h => decide (h.Before hit)
      | .error _ => false) = true ↔ _
    cases (hitOf request c : Except Error (SearchHit S)) with
    | ok h => simp
    | error e => simp
  rw [counted, List.countP_eq_length_filter]
  constructor
  · intro ⟨better, distinct, many, each⟩
    have subset : better ⊆ visible.filter above := by
      intro c member
      obtain ⟨isShown, isBetter⟩ := each c member
      exact List.mem_filter.mpr ⟨(mem c).mpr isShown, (isAbove c).mpr isBetter⟩
    exact Nat.le_trans many (List.subperm_of_subset distinct subset).length_le
  · intro many
    refine ⟨visible.filter above, nodup.filter _, many, ?_⟩
    intro c member
    obtain ⟨listed, isBetter⟩ := List.mem_filter.mp member
    exact ⟨(mem c).mp listed, (isAbove c).mp isBetter⟩

/-- What `search_exact` does, part by part. -/
theorem searchExact_ok {candidates : List VectorCandidate} {hits : List (SearchHit S)} :
    searchExact request candidates = .ok hits ↔ request.validate = .ok () ∧
      ∃ visible found, materializeVisible request candidates = .ok visible ∧
        visible.mapM (hitOf request) = .ok found ∧ bestHits request found = hits := by
  unfold searchExact
  rw [except_bind_ok]
  constructor
  · intro ⟨_, valid, rest⟩
    obtain ⟨visible, shown, rest⟩ := except_bind_ok.mp rest
    obtain ⟨found, scored, same⟩ := except_bind_ok.mp rest
    exact ⟨valid, visible, found, shown, scored, Except.ok.inj same⟩
  · intro ⟨valid, visible, found, shown, scored, same⟩
    refine ⟨(), valid, except_bind_ok.mpr ⟨visible, shown, except_bind_ok.mpr ⟨found, scored, ?_⟩⟩⟩
    exact congrArg Except.ok same

end

end Vyrm.Vector
