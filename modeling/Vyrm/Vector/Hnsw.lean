import Vyrm.Core.Digest
import Vyrm.Vector.Segment

/-!
# The graph index

`crates/vyrm-vector/src/hnsw.rs`: a layered graph over the versions of dense vectors. Its heaps are
sorted lists, the best node first in the frontier and the worst first among the results. A node id
that is out of range would panic in the source; `validate_graph` lets none through, and a score of one
is an error here.
-/

namespace Vyrm.Vector
open Lib Vyrm.Core

/-- `HnswConfig` (`hnsw.rs:24-40`). -/
structure HnswConfig where
  id : ProjectionId
  scope : ScopeId
  field : String
  dimensions : Nat
  metric : ScoreMetric
  embeddingModel : Option EmbeddingModelBinding
  m : Nat
  efConstruction : Nat
  maxLevel : Nat
  seed : UInt64
  filterProperties : List String
  deriving DecidableEq

/-- `HnswConfig::validate` (`hnsw.rs:43-71`). -/
def HnswConfig.validate (config : HnswConfig) : Except Error Unit :=
  if ¬ FilterCondition.isName config.field then
    invalid "HNSW field must be non-empty and contain no NUL bytes"
  else if config.dimensions = 0 ∨ maxVectorDimensions < config.dimensions then
    invalid "HNSW dimensions must be in 1..=1048576"
  else if config.m < 2 ∨ 128 < config.m then invalid "HNSW m must be in 2..=128"
  else if config.efConstruction < config.m ∨ 1000000 < config.efConstruction then
    invalid "HNSW ef_construction must be in m..=1000000"
  else if config.maxLevel = 0 ∨ 32 < config.maxLevel then invalid "HNSW max_level must be in 1..=32"
  else if ∃ property ∈ config.filterProperties, ¬ FilterCondition.isName property then
    invalid "HNSW filter properties must be valid names"
  else validateModel config.embeddingModel

/-- `MAX_HNSW_NODES` (`hnsw.rs:17`). -/
def maxHnswNodes : Nat := 10000000

/-- `HnswDescriptor` (`hnsw.rs:80-94`). -/
structure HnswDescriptor where
  stamp : ProjectionStamp
  scope : ScopeId
  field : String
  dimensions : Nat
  metric : ScoreMetric
  embeddingModel : Option EmbeddingModelBinding
  m : Nat
  efConstruction : Nat
  maxLevel : Nat
  nodes : Nat
  filterProperties : List String
  deriving DecidableEq

namespace HnswDescriptor

/-- `HnswDescriptor::validate` (`hnsw.rs:97-119`). -/
def validate (descriptor : HnswDescriptor) : Except Error Unit := do
  descriptor.stamp.validate
  if ¬ FilterCondition.isName descriptor.field ∨ descriptor.dimensions = 0 ∨ descriptor.m < 2 ∨
      128 < descriptor.m ∨ descriptor.efConstruction < descriptor.m ∨ 1000000 < descriptor.efConstruction ∨
      descriptor.maxLevel = 0 ∨ 32 < descriptor.maxLevel ∨ maxHnswNodes < descriptor.nodes ∨
      ∃ property ∈ descriptor.filterProperties, ¬ FilterCondition.isName property then
    invalid "HNSW descriptor contains invalid build parameters"
  else validateModel descriptor.embeddingModel

/-- `HnswDescriptor::candidate_path` (`hnsw.rs:121-133`). -/
def candidatePath (descriptor : HnswDescriptor) (estimatedCost : Nat) : CandidatePath :=
  { stamp := descriptor.stamp
    kind := .hnsw
    field := descriptor.field
    dimensions := descriptor.dimensions
    metric := descriptor.metric
    embeddingModel := descriptor.embeddingModel
    filterProperties := descriptor.filterProperties
    estimatedCandidates := descriptor.nodes
    estimatedCost }

/-- What the index checks of a request before it serves it (`hnsw.rs:371-379`). -/
def Serves (descriptor : HnswDescriptor) (request : SearchRequest) : Prop :=
  descriptor.stamp.state = .ready ∧ descriptor.scope = request.scope ∧ descriptor.field = request.field ∧
    descriptor.metric = request.metric ∧ descriptor.embeddingModel = request.embeddingModel ∧
    descriptor.dimensions = request.query.dimensions ∧
    request.read.commitCursor ≤ descriptor.stamp.sourceCursor

instance (descriptor : HnswDescriptor) (request : SearchRequest) : Decidable (descriptor.Serves request) :=
  inferInstanceAs (Decidable (_ ∧ _ ∧ _ ∧ _ ∧ _ ∧ _ ∧ _))

end HnswDescriptor

/-- `HnswNode` (`hnsw.rs:138-143`). -/
structure HnswNode where
  candidate : VectorCandidate
  level : Nat
  neighbors : List (List Nat)
  deriving DecidableEq

/-- The neighbors of a node in a layer (`hnsw.rs:594, 642`). -/
def linksAt (nodes : List HnswNode) (layer id : Nat) : List Nat :=
  match nodes[id]? with
  | some node => (node.neighbors[layer]?).getD []
  | none => []

/-- `ScoredNode` (`hnsw.rs:448-452`). -/
structure ScoredNode (S : Type) where
  id : Nat
  score : S
  deriving DecidableEq

section

variable {S : Type} [LinearOrder S] [Scoring S]

/-- `score_dense_candidate` (`exact.rs:193-202`) of the node with an id. -/
def nodeScore (nodes : List HnswNode) (query : List F32) (metric : ScoreMetric) (id : Nat) : Except Error S :=
  match nodes[id]? with
  | none => invalid "node id is out of range"
  | some node =>
    match node.candidate.vector.value with
    | .dense values => scoreDense query values metric
    | _ => invalid "dense query requires a dense candidate"

omit [Scoring S] in
/-- A node comes before another one: it has the higher score, or the lower id (`hnsw.rs:466-473`). -/
def ScoredNode.Better (left right : ScoredNode S) : Prop :=
  right.score < left.score ∨ (left.score = right.score ∧ left.id < right.id)

instance (left right : ScoredNode S) : Decidable (left.Better right) := inferInstanceAs (Decidable (_ ∨ _))

/-! ## Traversal -/

/-- One neighbor in `greedy_layer` (`hnsw.rs:595-602`). -/
def improve (nodes : List HnswNode) (query : List F32) (metric : ScoreMetric)
    (state : ScoredNode S × Bool) (neighbor : Nat) : Except Error (ScoredNode S × Bool) := do
  let score ← nodeScore nodes query metric neighbor
  if (⟨neighbor, score⟩ : ScoredNode S).Better state.1 then return (⟨neighbor, score⟩, true)
  else return state

/-- The loop of `greedy_layer` (`hnsw.rs:592-607`), for so many turns at most. -/
def greedyLoop (nodes : List HnswNode) (query : List F32) (metric : ScoreMetric) (layer : Nat) :
    Nat → ScoredNode S → Except Error Nat
  | 0, current => .ok current.id
  | turns + 1, current => do
    let (next, improved) ← (linksAt nodes layer current.id).foldlM (improve nodes query metric) (current, false)
    if improved then greedyLoop nodes query metric layer turns next else .ok next.id

/-- `greedy_layer` (`hnsw.rs:583-608`). Each turn of its loop is at another node. -/
def greedyLayer (S : Type) [LinearOrder S] [Scoring S] (nodes : List HnswNode) (query : List F32) (start layer : Nat)
    (metric : ScoreMetric) : Except Error Nat := do
  let score : S ← nodeScore nodes query metric start
  greedyLoop nodes query metric layer nodes.length ⟨start, score⟩

/-- The sets of `search_layer` (`hnsw.rs:619-621`). -/
structure LayerSearch (S : Type) where
  visited : List Nat
  frontier : List (ScoredNode S)
  best : List (ScoredNode S)

omit [Scoring S] in
/-- `frontier.push`. -/
def LayerSearch.enqueue (state : LayerSearch S) (scored : ScoredNode S) : LayerSearch S :=
  { state with frontier := state.frontier.orderedInsert ScoredNode.Better scored }

omit [Scoring S] in
/-- `best.push`, when the node is eligible. -/
def LayerSearch.admitNode (state : LayerSearch S) (eligible : Nat → Bool) (scored : ScoredNode S) : LayerSearch S :=
  if eligible scored.id then
    { state with best := state.best.orderedInsert (fun left right => right.Better left) scored }
  else state

/-- One entry of `search_layer` (`hnsw.rs:622-634`). -/
def enter (nodes : List HnswNode) (query : List F32) (metric : ScoreMetric) (eligible : Nat → Bool)
    (state : LayerSearch S) (entry : Nat) : Except Error (LayerSearch S) :=
  if nodes.length ≤ entry ∨ entry ∈ state.visited then .ok state
  else do
    let score ← nodeScore nodes query metric entry
    let state := { state with visited := entry :: state.visited }
    return (state.enqueue ⟨entry, score⟩).admitNode eligible ⟨entry, score⟩

/-- One neighbor in `search_layer` (`hnsw.rs:646-670`). -/
def visit (nodes : List HnswNode) (query : List F32) (metric : ScoreMetric) (eligible : Nat → Bool) (ef : Nat)
    (state : LayerSearch S) (neighbor : Nat) : Except Error (LayerSearch S) :=
  if neighbor ∈ state.visited then .ok state
  else do
    let score ← nodeScore nodes query metric neighbor
    let state := { state with visited := neighbor :: state.visited }
    if state.best.length < ef ∨ state.best.head?.all (·.score < score) then
      let state := (state.enqueue ⟨neighbor, score⟩).admitNode eligible ⟨neighbor, score⟩
      return if ef < state.best.length then { state with best := state.best.tail } else state
    else return state

/-- The loop of `search_layer` (`hnsw.rs:635-672`), for so many turns at most. -/
def searchLoop (nodes : List HnswNode) (query : List F32) (metric : ScoreMetric) (eligible : Nat → Bool)
    (ef layer : Nat) : Nat → LayerSearch S → Except Error (LayerSearch S)
  | 0, state => .ok state
  | turns + 1, state =>
    match state.frontier with
    | [] => .ok state
    | current :: rest =>
      let state := { state with frontier := rest }
      if ef ≤ state.best.length ∧ state.best.head?.any (current.score < ·.score) then .ok state
      else do
        let state ← (linksAt nodes layer current.id).foldlM (visit nodes query metric eligible ef) state
        searchLoop nodes query metric eligible ef layer turns state

omit [Scoring S] in
/-- `sort_scored` (`hnsw.rs:678-685`). -/
def sortScored (nodes : List (ScoredNode S)) : List (ScoredNode S) := nodes.insertionSort ScoredNode.Better

/-- `search_layer` (`hnsw.rs:610-676`). Each turn of its loop takes another node off the frontier. -/
def searchLayer (nodes : List HnswNode) (query : List F32) (entries : List Nat) (ef layer : Nat)
    (metric : ScoreMetric) (eligible : Nat → Bool) : Except Error (List (ScoredNode S)) := do
  let state ← entries.foldlM (enter nodes query metric eligible) ⟨[], [], []⟩
  let state ← searchLoop nodes query metric eligible ef layer nodes.length state
  return sortScored state.best

/-! ## Construction -/

/-- `layer_limit` (`hnsw.rs:575-581`). -/
def layerLimit (m layer : Nat) : Nat := if layer = 0 then m * 2 else m

omit [Scoring S] in
/-- `select_neighbors` (`hnsw.rs:569-573`). -/
def selectNeighbors (candidates : List (ScoredNode S)) (limit : Nat) : List (ScoredNode S) :=
  (sortScored candidates).take limit

/-- `dense_candidate` (`hnsw.rs:702-707`). -/
def denseCandidate (candidate : VectorCandidate) : Except Error (List F32) :=
  match candidate.vector.value with
  | .dense values => .ok values
  | _ => invalid "HNSW currently supports dense candidates only"

/-- How often `m` divides a number (`hnsw.rs:718-722`). -/
def levelFrom (m : Nat) : Nat → Nat → Nat
  | 0, _ => 0
  | more + 1, random => if random % m = 0 then levelFrom m more (random / m) + 1 else 0

/-- `deterministic_level` (`hnsw.rs:709-723`). -/
def deterministicLevel (config : HnswConfig) (candidate : VectorCandidate) : Nat :=
  let bytes := utf8 "vyrm-hnsw-level-v1" ++ [0] ++ be64 config.seed ++ candidate.vector.reference.kind.bytes ++ [0] ++
    candidate.vector.reference.id.bytes ++ be64 candidate.sourceCursor
  levelFrom config.m config.maxLevel (ofBE ((sha256 bytes).take 8))

/-- The links of a node in a layer are replaced. -/
def setLinks (nodes : List HnswNode) (id layer : Nat) (links : List Nat) : List HnswNode :=
  nodes.modify id fun node => { node with neighbors := node.neighbors.set layer links }

/-- `prune_neighbors` (`hnsw.rs:543-567`). -/
def pruneNeighbors (S : Type) [LinearOrder S] [Scoring S] (nodes : List HnswNode) (id layer m : Nat)
    (metric : ScoreMetric) : Except Error (List HnswNode) :=
  match nodes[id]? with
  | none => invalid "node id is out of range"
  | some node => do
    let query ← denseCandidate node.candidate
    let scored ← (linksAt nodes layer id).mapM fun neighbor => do
      let score : S ← nodeScore nodes query metric neighbor
      return (⟨neighbor, score⟩ : ScoredNode S)
    return setLinks nodes id layer ((selectNeighbors scored m).map (·.id))

/-- The back link of a new node, and what it displaces (`hnsw.rs:525-537`). -/
def linkBack (S : Type) [LinearOrder S] [Scoring S] (config : HnswConfig) (newId layer : Nat)
    (nodes : List HnswNode) (selected : Nat) : Except Error (List HnswNode) :=
  let links := linksAt nodes layer selected
  let nodes := if newId ∈ links then nodes else setLinks nodes selected layer (links ++ [newId])
  pruneNeighbors S nodes selected layer (layerLimit config.m layer) config.metric

/-- The layers down to a level, from the one above it (`hnsw.rs:492-494`). -/
def descend (S : Type) [LinearOrder S] [Scoring S] (nodes : List HnswNode) (query : List F32) (metric : ScoreMetric)
    (level : Nat) : Nat → Nat → Except Error Nat
  | 0, current => .ok current
  | steps + 1, current => do
    let current ← greedyLayer S nodes query current (level + steps + 1) metric
    descend S nodes query metric level steps current

/-- The neighbors of a new node, layer by layer from the highest (`hnsw.rs:495-512`). -/
def selectLayers (S : Type) [LinearOrder S] [Scoring S] (config : HnswConfig) (nodes : List HnswNode)
    (query : List F32) : Nat → Nat → Except Error (List (Nat × List Nat))
  | 0, _ => .ok []
  | layer + 1, current => do
    let found : List (ScoredNode S) ←
      searchLayer nodes query [current] config.efConstruction layer config.metric fun _ => true
    let selected := selectNeighbors found (layerLimit config.m layer)
    let rest ← selectLayers S config nodes query layer ((selected.head?.map (·.id)).getD current)
    return (layer, selected.map (·.id)) :: rest

/-- `insert_node` (`hnsw.rs:476-541`). -/
def insertNode (S : Type) [LinearOrder S] [Scoring S] (config : HnswConfig)
    (graph : List HnswNode × Option Nat) (candidate : VectorCandidate) :
    Except Error (List HnswNode × Option Nat) := do
  let (nodes, entrypoint) := graph
  let level := deterministicLevel config candidate
  let newId := nodes.length
  match entrypoint with
  | none => return (nodes ++ [⟨candidate, level, List.replicate (level + 1) []⟩], some 0)
  | some entry => do
    let query ← denseCandidate candidate
    let entryLevel := (nodes[entry]?.map (·.level)).getD 0
    let current ← descend S nodes query config.metric level (entryLevel - level) entry
    let selectedByLayer ← selectLayers S config nodes query (min level entryLevel + 1) current
    let neighbors := selectedByLayer.foldl (fun neighbors (layer, selected) => neighbors.set layer selected)
      (List.replicate (level + 1) [])
    let nodes := nodes ++ [⟨candidate, level, neighbors⟩]
    let nodes ← selectedByLayer.foldlM (fun nodes (layer, selected) =>
      selected.foldlM (linkBack S config newId layer) nodes) nodes
    return (nodes, if entryLevel < level then some newId else some entry)

end

/-! ## The artifact -/

/-- `HnswBody` (`hnsw.rs:147-153`). -/
structure HnswBody where
  config : HnswConfig
  generation : Nat
  sourceCursor : UInt64
  entrypoint : Option Nat
  nodes : List HnswNode
  deriving DecidableEq

/-- The digests of an index, and the length of its encoding. -/
class HnswEncoding where
  /-- `sha256_hex` of the JSON of a configuration (`hnsw.rs:73-76`). -/
  hnswConfigDigest : HnswConfig → String
  /-- `sha256_hex` of the JSON of a body (`hnsw.rs:216`). -/
  hnswDigest : HnswBody → String
  hnswLength : HnswBody → Nat

/-- One link of a node that is popped (`hnsw.rs:786-791`). -/
def mark (count : Nat) (state : List Nat × List Nat) (neighbor : Nat) : List Nat × List Nat :=
  if neighbor ∈ state.1 ∨ count ≤ neighbor then state else (neighbor :: state.1, neighbor :: state.2)

/-- The loop that marks what is reachable in layer zero (`hnsw.rs:785-792`), for so many turns at most. -/
def reachLoop (nodes : List HnswNode) : Nat → List Nat × List Nat → List Nat
  | 0, (reachable, _) => reachable
  | _ + 1, (reachable, []) => reachable
  | turns + 1, (reachable, node :: pending) =>
    reachLoop nodes turns ((linksAt nodes 0 node).foldl (mark nodes.length) (reachable, pending))

/-- The links of one layer of a node (`hnsw.rs:763-777`). -/
def linksValid (config : HnswConfig) (nodes : List HnswNode) (id layer : Nat) (links : List Nat) : Prop :=
  links.length ≤ layerLimit config.m layer ∧ links.Nodup ∧
    ∀ neighbor ∈ links, neighbor ≠ id ∧ ∃ node ∈ nodes[neighbor]?, layer ≤ node.level

instance (config : HnswConfig) (nodes : List HnswNode) (id layer : Nat) (links : List Nat) :
    Decidable (linksValid config nodes id layer links) := inferInstanceAs (Decidable (_ ∧ _ ∧ _))

/-- A candidate belongs to an index (`hnsw.rs:199-207`, `749-757`). -/
def HnswConfig.Covers (config : HnswConfig) (sourceCursor : UInt64) (candidate : VectorCandidate) : Prop :=
  candidate.scope = config.scope ∧ candidate.sourceCursor ≤ sourceCursor ∧
    candidate.vector.field = config.field ∧ candidate.vector.value.dimensions = config.dimensions ∧
    candidate.matchesModel config.embeddingModel ∧ ∃ values, candidate.vector.value = .dense values

instance (value : VectorValue) : Decidable (∃ values, value = .dense values) :=
  match value with
  | .dense values => .isTrue ⟨values, rfl⟩
  | .sparse _ _ _ => .isFalse (by simp)
  | .multiDense _ _ => .isFalse (by simp)

instance (config : HnswConfig) (sourceCursor : UInt64) (candidate : VectorCandidate) :
    Decidable (config.Covers sourceCursor candidate) := inferInstanceAs (Decidable (_ ∧ _ ∧ _ ∧ _ ∧ _ ∧ _))

/-- `validate_graph` (`hnsw.rs:725-799`). -/
def validateGraph (body : HnswBody) : Except Error Unit := do
  let nodes := body.nodes
  body.config.validate
  validateCandidateVersions (nodes.map (·.candidate)) []
  if (∃ entry ∈ body.entrypoint, nodes.length ≤ entry) ∨ (nodes = [] ↔ body.entrypoint ≠ none) then
    invalid "HNSW entrypoint is inconsistent with its nodes"
  else if ∃ pair ∈ nodes.zip nodes.tail,
      ¬ (compare pair.1.candidate.vector.reference pair.2.candidate.vector.reference).then
        (compare pair.1.candidate.sourceCursor pair.2.candidate.sourceCursor) = .lt then
    invalid "HNSW nodes are not in canonical identity/version order"
  else if ∃ entry ∈ body.entrypoint, ∃ node ∈ nodes, ((nodes[entry]?).map (·.level)).getD 0 < node.level then
    invalid "HNSW entrypoint does not own the maximum level"
  else if ∃ id < nodes.length, ∃ node ∈ nodes[id]?, ¬ body.config.Covers body.sourceCursor node.candidate ∨
      body.config.maxLevel < node.level ∨ node.neighbors.length ≠ node.level + 1 then
    invalid "HNSW node violates configuration or coverage"
  else if ∃ id < nodes.length, ∃ node ∈ nodes[id]?, ∃ layer < node.neighbors.length,
      ∃ links ∈ node.neighbors[layer]?, ¬ linksValid body.config nodes id layer links then
    invalid "HNSW neighbor reference is invalid"
  else if ∃ entry ∈ body.entrypoint, ∃ id < nodes.length, id ∉ reachLoop nodes nodes.length ([entry], [entry]) then
    invalid "HNSW layer zero is not reachable from the entrypoint"
  else .ok ()

section

variable [HnswEncoding]

namespace HnswBody

def descriptor (body : HnswBody) : HnswDescriptor :=
  { stamp :=
      { contractVersion := dataRuntimeContractVersion
        id := body.config.id
        generation := body.generation
        sourceCursor := body.sourceCursor
        configDigest := HnswEncoding.hnswConfigDigest body.config
        artifactDigest := HnswEncoding.hnswDigest body
        state := .ready }
    scope := body.config.scope
    field := body.config.field
    dimensions := body.config.dimensions
    metric := body.config.metric
    embeddingModel := body.config.embeddingModel
    m := body.config.m
    efConstruction := body.config.efConstruction
    maxLevel := body.config.maxLevel
    nodes := body.nodes.length
    filterProperties := body.config.filterProperties }

/-- The checks of `from_parts` (`hnsw.rs:252-281`). -/
def check (body : HnswBody) : Except Error Unit := do
  body.config.validate
  body.descriptor.validate
  validateGraph body

end HnswBody

/-- `HnswIndex` (`hnsw.rs:165-172`). -/
structure HnswIndex where
  body : HnswBody
  checked : body.check = .ok ()

namespace HnswIndex

/-- `from_parts` (`hnsw.rs:252-300`), which `from_bytes` calls for what it has decoded. -/
def fromParts (body : HnswBody) : Except Error HnswIndex :=
  match checked : body.check with
  | .ok () => .ok ⟨body, checked⟩
  | .error e => .error e

/-- `MAX_HNSW_BYTES` (`hnsw.rs:16`). -/
def maxHnswBytes : Nat := 2 ^ 30

/-- `build` (`hnsw.rs:175-229`). -/
def build (S : Type) [LinearOrder S] [Scoring S] (config : HnswConfig) (generation : Nat) (sourceCursor : UInt64)
    (candidates : List VectorCandidate) : Except Error HnswIndex := do
  config.validate
  if generation = 0 then invalid "HNSW generation must be greater than zero"
  else if maxHnswNodes < candidates.length then invalid "HNSW node limit exceeded"
  else do
    validateCandidateVersions candidates []
    let (nodes, entrypoint) ← (sortVersions candidates).foldlM (fun graph candidate =>
      if ¬ config.Covers sourceCursor candidate then invalid "HNSW candidate violates configuration or coverage"
      else insertNode S config graph candidate) ([], none)
    let body : HnswBody := ⟨config, generation, sourceCursor, entrypoint, nodes⟩
    if maxHnswBytes < HnswEncoding.hnswLength body then
      invalid "encoded HNSW artifact exceeds the 1 GiB safety limit"
    else fromParts body

def descriptor (index : HnswIndex) : HnswDescriptor := index.body.descriptor

/-- The versions of a vector, the oldest first (`hnsw.rs:282-291`). -/
def versionsOf (index : HnswIndex) (reference : RuntimeRef) : List Nat :=
  ((List.range index.body.nodes.length).filter fun id =>
      ∃ node ∈ index.body.nodes[id]?, node.candidate.vector.reference = reference).insertionSort
    fun left right => ∀ node ∈ index.body.nodes[left]?, ∀ other ∈ index.body.nodes[right]?,
      node.candidate.sourceCursor ≤ other.candidate.sourceCursor

/-- A version that a request may read (`hnsw.rs:425-428`). -/
def readable (index : HnswIndex) (request : SearchRequest) (id : Nat) : Prop :=
  ∃ node ∈ index.body.nodes[id]?, node.candidate.sourceCursor ≤ request.read.commitCursor ∧
    node.candidate.vector.validFrom ≤ request.validAt

instance (index : HnswIndex) (request : SearchRequest) (id : Nat) : Decidable (index.readable request id) :=
  inferInstanceAs (Decidable (∃ node ∈ index.body.nodes[id]?, _ ∧ _))

/-- `is_visible` (`hnsw.rs:417-446`). -/
def isVisible (index : HnswIndex) (request : SearchRequest) (id : Nat) : Bool :=
  match index.body.nodes[id]? with
  | none => false
  | some node =>
    let latest := (index.versionsOf node.candidate.vector.reference).reverse.find? (index.readable request ·)
    latest = some id && node.candidate.vector.validTo.all (request.validAt < ·) &&
      request.filter.all (·.matches_ node.candidate.vector.properties)

/-- `estimated_search_cost` (`hnsw.rs:314-352`). -/
def estimatedSearchCost (index : HnswIndex) (request : SearchRequest) (efSearch : Nat) : Except Error Nat := do
  request.validate
  let count := index.body.nodes.length
  if efSearch = 0 ∨ 1000000 < efSearch then invalid "HNSW ef_search must be in 1..=1000000"
  else if request.filter.isNone ∧ request.read.commitCursor = index.descriptor.stamp.sourceCursor then
    return max (min efSearch count) 1 * 4
  else
    let references := (index.body.nodes.map (·.candidate.vector.reference)).dedup
    let eligible := (references.filterMap fun reference =>
      (index.versionsOf reference).reverse.find? (index.readable request ·)).countP (index.isVisible request ·)
    if eligible = 0 then return max count 1 * 4
    else return max (min ((efSearch * references.length + eligible - 1) / eligible) count) 1 * 4

/-- `search` (`hnsw.rs:356-419`). -/
def search {S : Type} [LinearOrder S] [Scoring S] (index : HnswIndex) (request : SearchRequest) (efSearch : Nat) :
    Except Error (List (SearchHit S)) := do
  request.validate
  let exactRerank ← match request.mode with
    | .exact => invalid "HNSW cannot serve an exact-only request"
    | .allowApproximate exactRerank | .requireApproximate exactRerank => .ok exactRerank
  if efSearch < exactRerank ∨ 1000000 < efSearch then invalid "HNSW ef_search must be in exact_rerank..=1000000"
  else if ¬ index.descriptor.Serves request then
    invalid "HNSW artifact does not satisfy request identity or freshness"
  else if ∃ property ∈ request.requiredProperties, property ∉ index.descriptor.filterProperties then
    invalid "HNSW artifact does not cover every filter property"
  else
    match index.body.entrypoint with
    | none => return []
    | some entry =>
      match request.query with
      | .dense query => do
        let level := ((index.body.nodes[entry]?).map (·.level)).getD 0
        let current ← descend S index.body.nodes query index.body.config.metric 0 level entry
        let candidates : List (ScoredNode S) ←
          searchLayer index.body.nodes query [current] efSearch 0 index.body.config.metric (index.isVisible request)
        searchExact request ((candidates.take exactRerank).filterMap fun scored =>
          (index.body.nodes[scored.id]?).map (·.candidate))
      | _ => invalid "HNSW currently supports dense queries only"

end HnswIndex

end

end Vyrm.Vector
