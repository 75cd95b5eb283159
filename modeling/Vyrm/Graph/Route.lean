import Mathlib.Data.List.Dedup
import Std.Data.ExtTreeSet.Lemmas
import Vyrm.Lib.OrdMap
import Vyrm.Lib.Text

/-!
# The routing index

`crates/vyrm-graph/src/route.rs`: an index of the source files of a project, which is kept up to date
file by file, and the routing of a query from its tables.
-/

namespace Vyrm.Graph
open Lib Std

/-! ## Paths, texts and numbers -/

/-- `std::path::PathBuf`. -/
class PathBuf (π : Type) extends Ord π where
  trans : TransOrd π
  lawful : LawfulEqOrd π
  display : π → String
  /-- `file_name`, `extension` and `file_stem`, where they are UTF-8. -/
  fileName : π → Option String
  extension : π → Option String
  fileStem : π → Option String
  parent : π → Option π

attribute [instance] PathBuf.trans PathBuf.lawful

/-- `BTreeSet<PathBuf>`. -/
abbrev PathSet (π : Type) [PathBuf π] := ExtTreeSet π compare

/-- `f64`. -/
class F64 (F : Type) where
  ofNat : Nat → F
  add : F → F → F
  sub : F → F → F
  mul : F → F → F
  div : F → F → F
  max : F → F → F
  min : F → F → F
  lt : F → F → Bool
  partialCmp : F → F → Option Ordering
  /-- `0.85`. -/
  damping : F

instance {F : Type} [F64 F] : Add F := ⟨F64.add⟩
instance {F : Type} [F64 F] : Sub F := ⟨F64.sub⟩
instance {F : Type} [F64 F] : Mul F := ⟨F64.mul⟩
instance {F : Type} [F64 F] : Div F := ⟨F64.div⟩

/-- `Language` (`profile.rs:16-27`). -/
inductive Language where
  | rust
  | typeScript
  | tsx
  | javaScript
  | svelte
  | python
  | unknown
  deriving DecidableEq

/-- `Role` (`symbols.rs:37-44`). -/
inductive Role where
  | definition
  | reference
  | import_
  deriving DecidableEq

/-- `Occurrence` (`symbols.rs:47-51`). -/
structure Occurrence where
  name : String
  role : Role
  line : Nat
  deriving DecidableEq

/-- What a text is analysed with. -/
structure Analysis where
  /-- `symbols::extract`, by the grammars of the languages. -/
  extract : String → Language → List Occurrence
  /-- `str::to_lowercase`. -/
  lower : String → String
  /-- `char::is_alphanumeric`. -/
  alphanumeric : Char → Bool

/-- `digest` (`route.rs:55-62`). -/
def digest (bytes : Bytes) : UInt64 :=
  bytes.foldl (fun hash byte => (hash ^^^ byte.toUInt64) * 0x100000001b3) 0xcbf29ce484222325

/-- `str::lines`. -/
def textLines (text : String) : List (List Char) :=
  let pieces := text.toList.splitOn '\n'
  let ended := pieces.dropLast.map fun line => if line.getLast? = some '\r' then line.dropLast else line
  ended ++ pieces.getLast?.toList.filter (· ≠ [])

variable {π F : Type} [PathBuf π] [F64 F]

/-- `Language::of_path` (`profile.rs:31-41`). -/
def Language.ofPath (path : π) : Language :=
  match PathBuf.extension path with
  | some "rs" => .rust
  | some "ts" | some "mts" => .typeScript
  | some "tsx" => .tsx
  | some "js" | some "mjs" | some "cjs" | some "jsx" => .javaScript
  | some "svelte" => .svelte
  | some "py" | some "pyi" => .python
  | _ => .unknown

/-! ## Files -/

/-- `file_stats` (`route.rs:199-210`). -/
structure Stats where
  mtimeSecs : UInt64
  mtimeNanos : UInt32
  byteLen : UInt64
  deriving DecidableEq

/-- `IndexedFile` (`route.rs:64-85`). -/
structure IndexedFile (π : Type) where
  path : π
  language : Language
  lines : Nat
  occurrences : List Occurrence
  terms : OrdMap String Nat
  digest : UInt64
  stats : Stats

/-- `term_table` (`route.rs:216-230`). -/
def termTable (analysis : Analysis) (text : String) : OrdMap String Nat :=
  (textLines text).foldl (fun table line =>
    let words := line.splitOnP fun c => ! (analysis.alphanumeric c || c = '_')
    let counted := (words.map String.ofList).filter fun word => 3 ≤ (utf8 word).length
    let seenOnLine := (counted.map analysis.lower).dedup
    seenOnLine.foldl (fun table term => table.insert term (table[term]?.getD 0 + 1)) table) ∅

/-- `module_entity` (`route.rs:246-261`). -/
def moduleEntity (path : π) : Option String := do
  let name ← PathBuf.fileName path
  let stem := String.ofList (name.toList.takeWhile (· ≠ '.'))
  let name ← if stem = "index" ∨ stem = "mod" ∨ stem = "__init__" then
      PathBuf.parent path >>= PathBuf.fileName
    else some stem
  match name.toList with
  | [] => none
  | first :: rest =>
    if (first.isAlpha || first = '_') && rest.all (fun c => c.isAlphanum || c = '_' || c = '-') then some name
    else none

/-- The occurrences of `extract_file` (`route.rs:264-279`). -/
def fileOccurrences (analysis : Analysis) (path : π) (text : String) : List Occurrence :=
  let occurrences := analysis.extract text (Language.ofPath path)
  match moduleEntity path with
  | none => occurrences
  | some entity =>
    if occurrences.any fun o => o.role = .definition ∧ o.name = entity then occurrences
    else occurrences ++ [⟨entity, .definition, 1⟩]

/-- `extract_file` (`route.rs:263-292`). -/
def extractFile (analysis : Analysis) (path : π) (text : String) (stats : Stats) : IndexedFile π :=
  { path
    language := Language.ofPath path
    lines := (textLines text).length
    occurrences := fileOccurrences analysis path text
    terms := termTable analysis text
    digest := digest (utf8 text)
    stats }

/-- What `Profile::indexable_files`, `file_stats` and `fs::read_to_string` find. -/
structure Tree (π : Type) where
  indexableFiles : Except String (List π)
  fileStats : π → Stats
  read : π → Except String String

/-! ## Derived tables -/

/-- `BTreeMap<PathBuf, IndexedFile>`. -/
abbrev Files (π : Type) [PathBuf π] := OrdMap π (IndexedFile π)

/-- `BTreeMap<String, BTreeSet<PathBuf>>`. -/
abbrev Definitions (π : Type) [PathBuf π] := OrdMap String (PathSet π)

/-- `rebuild_definitions` (`route.rs:474-487`), of the files as entries with their occurrences. -/
def definitionsOf (entries : List (π × List Occurrence)) : Definitions π :=
  entries.foldl (fun definitions (path, occurrences) =>
    occurrences.foldl (fun definitions o =>
      if o.role = .definition then
        definitions.insert o.name ((definitions[o.name]?.getD ∅).insert path)
      else definitions) definitions) ∅

/-- The positions of the definers of every term (`route.rs:511-522`). A definer that is no indexed file
has none; there the source panics. -/
def definersOfTerm (analysis : Analysis) (paths : List π) (definitions : Definitions π) : OrdMap String (List Nat) :=
  let positions := definitions.toList.foldl (fun terms (name, definers) =>
    let term := analysis.lower name
    let found := definers.toList.filterMap fun path => paths.findIdx? fun other => compare other path = .eq
    terms.insert term (terms[term]?.getD [] ++ found)) (∅ : OrdMap String (List Nat))
  positions.map fun _ found => (found.mergeSort (· ≤ ·)).dedup

/-- The edges of a file (`route.rs:524-536`). -/
def outEdges (definers : OrdMap String (List Nat)) (from_ : Nat) (terms : OrdMap String Nat) : List (Nat × F) :=
  let weights := terms.toList.foldl (fun weights (term, referenceLines) =>
    (definers[term]?.getD []).foldl (fun weights target =>
      if target ≠ from_ then weights.insert target (weights[target]?.getD (F64.ofNat 0) + F64.ofNat referenceLines)
      else weights) weights) (∅ : OrdMap Nat F)
  weights.toList

/-- The sum of numbers from the left. -/
def total (values : List F) : F := values.foldl (· + ·) (F64.ofNat 0)

/-- One iteration (`route.rs:542-559`). -/
def iterate (edges : List (List (Nat × F))) (uniform : F) (rank : List F) : List F :=
  let next := List.replicate rank.length ((F64.ofNat 1 - F64.damping) * uniform)
  let (next, dangling) := (edges.zip rank).foldl (fun (next, dangling) (edges, own) =>
    if edges.isEmpty then (next, dangling + own)
    else
      let sum := total (edges.map Prod.snd)
      let share := fun weight => F64.damping * own * weight / sum
      (edges.foldl (fun next (target, weight) => next.modify target (· + share weight)) next, dangling))
    (next, F64.ofNat 0)
  let danglingShare := F64.damping * dangling * uniform
  next.map (· + danglingShare)

/-- `rebuild_centrality` (`route.rs:489-569`), of the files as entries with their terms. -/
def centralityOf (analysis : Analysis) (entries : List (π × OrdMap String Nat)) (definitions : Definitions π) :
    OrdMap π F :=
  let n := entries.length
  let definers := definersOfTerm analysis (entries.map Prod.fst) definitions
  let edges := entries.zipIdx.map fun (entry, from_) => outEdges definers from_ entry.2
  let uniform : F := F64.ofNat 1 / F64.ofNat n
  let rank := (List.range 30).foldl (fun rank _ => iterate edges uniform rank) (List.replicate n uniform)
  let max := rank.foldl F64.max (F64.ofNat 0)
  if F64.lt (F64.ofNat 0) max then
    (entries.zip rank).foldl (fun centrality (entry, own) => centrality.insert entry.1 (own / max)) ∅
  else ∅

/-! ## The index -/

/-- `Index` (`route.rs:183-197`). -/
structure Index (π F : Type) [PathBuf π] where
  files : Files π
  definitions : Definitions π
  centrality : OrdMap π F
  generation : Nat

/-- `Refresh` (`route.rs:89-100`), without its duration. -/
structure Refresh where
  added : Nat
  changed : Nat
  removed : Nat
  skippedUnread : Nat
  readButIdentical : Nat
  deriving DecidableEq

/-- `Refresh::is_noop` (`route.rs:103-105`). -/
def Refresh.isNoop (report : Refresh) : Bool := report.added = 0 && report.changed = 0 && report.removed = 0

namespace Index

/-- `Index::default`. -/
def empty : Index π F := { files := ∅, definitions := ∅, centrality := ∅, generation := 0 }

/-- A listed file (`route.rs:355-395`). -/
def visit (analysis : Analysis) (tree : Tree π) (strict : Bool) (files : Files π) (report : Refresh) (path : π) :
    Except String (Files π × Refresh) :=
  let stats := tree.fileStats path
  if files[path]?.any fun existing => existing.stats = stats then
    .ok (files, { report with skippedUnread := report.skippedUnread + 1 })
  else
    match tree.read path with
    | .error error =>
      if strict then
        let shown := PathBuf.display path
        .error s!"cannot establish routing freshness for {shown}: {error}"
      else .ok (files, report)
    | .ok text =>
      let candidate := extractFile analysis path text stats
      match files[path]? with
      | some existing =>
        if existing.digest = candidate.digest then
          .ok (files.insert path candidate, { report with readButIdentical := report.readButIdentical + 1 })
        else .ok (files.insert path candidate, { report with changed := report.changed + 1 })
      | none => .ok (files.insert path candidate, { report with added := report.added + 1 })

/-- The listed files in turn. An error leaves the files as they are by then. -/
def scan (analysis : Analysis) (tree : Tree π) (strict : Bool) :
    List π → Files π → Refresh → Except String Refresh × Files π
  | [], files, report => (.ok report, files)
  | path :: rest, files, report =>
    match visit analysis tree strict files report path with
    | .error error => (.error error, files)
    | .ok (files, report) => scan analysis tree strict rest files report

/-- `rebuild_definitions` (`route.rs:474-487`), and `rebuild_centrality` after it. -/
def rebuild (analysis : Analysis) (index : Index π F) : Index π F :=
  let definitions := definitionsOf (index.files.toList.map fun entry => (entry.1, entry.2.occurrences))
  { index with
    definitions
    centrality := centralityOf analysis (index.files.toList.map fun entry => (entry.1, entry.2.terms)) definitions }

/-- `refresh_with_policy` (`route.rs:347-421`): `refresh`, and `refresh_strict`. -/
def refreshWithPolicy (analysis : Analysis) (index : Index π F) (tree : Tree π) (strict : Bool) :
    Except String Refresh × Index π F :=
  match tree.indexableFiles with
  | .error error => (.error error, index)
  | .ok present =>
    match scan analysis tree strict present index.files ⟨0, 0, 0, 0, 0⟩ with
    | (.error error, files) => (.error error, { index with files })
    | (.ok report, files) =>
      let listed := fun path => present.any fun other => compare other path = .eq
      let removed := files.keys.filter fun path => ! listed path
      let report := { report with removed := removed.length }
      let index := { index with files := removed.foldl (fun files path => files.erase path) files }
      if report.isNoop then (.ok report, index)
      else (.ok report, rebuild analysis { index with generation := index.generation + 1 })

/-- `Index::build` (`route.rs:296-300`). -/
def build (analysis : Analysis) (tree : Tree π) : Except String (Index π F) :=
  match refreshWithPolicy analysis empty tree false with
  | (.error error, _) => .error error
  | (.ok _, index) => .ok index

/-! ## Routing -/

/-- `Justification` (`route.rs:146-151`). -/
structure Justification where
  defines : List String
  referenceLines : Nat
  importsADefiner : Bool
  deriving DecidableEq

/-- `RoutedFile` (`route.rs:171-180`). -/
structure RoutedFile (π F : Type) where
  path : π
  score : F
  lines : Nat
  centrality : F
  justification : Justification

/-- `str::contains`. -/
def contains (text part : String) : Bool := text.toList.tails.any fun tail => part.toList.isPrefixOf tail

/-- Why a file answers a query (`route.rs:585-604`). -/
def justify (analysis : Analysis) (index : Index π F) (query : String) (path : π) (file : IndexedFile π) :
    Justification :=
  let definers := index.definitions[query]?.getD ∅
  let definerStems := definers.toList.filterMap PathBuf.fileStem
  { defines := (file.occurrences.filter fun o => o.role = .definition ∧ o.name = query).map (·.name)
    referenceLines := file.terms[analysis.lower query]?.getD 0
    importsADefiner := ! definerStems.isEmpty && ! definers.contains path && file.occurrences.any fun o =>
      o.role = .import_ && definerStems.any fun stem => contains o.name stem }

/-- The score of a file (`route.rs:616-620`). -/
def score (justification : Justification) : F :=
  F64.ofNat justification.defines.length * F64.ofNat 100 +
    F64.min (F64.ofNat justification.referenceLines) (F64.ofNat 20) +
    (if justification.importsADefiner then F64.ofNat 3 else F64.ofNat 0)

/-- The order of routed files (`route.rs:637-646`). -/
def compareRouted (a b : RoutedFile π F) : Ordering :=
  ((F64.partialCmp b.score a.score).getD .eq).then
    (((F64.partialCmp b.centrality a.centrality).getD .eq).then (compare a.path b.path))

/-- The files that answer a query, in path order. -/
def candidates (analysis : Analysis) (index : Index π F) (query : String) : List (RoutedFile π F) :=
  index.files.toList.filterMap fun (path, file) =>
    let justification := justify analysis index query path file
    let score : F := score justification
    if F64.lt (F64.ofNat 0) score then
      some { path, score, lines := file.lines, centrality := index.centrality[path]?.getD (F64.ofNat 0), justification }
    else none

/-- `Index::route` (`route.rs:571-648`). -/
def route (analysis : Analysis) (index : Index π F) (query : String) (limit : Nat) : List (RoutedFile π F) :=
  ((candidates analysis index query).mergeSort fun a b => compareRouted a b ≠ .gt).take limit

/-- The fill of `route_budget` (`route.rs:664-672`). -/
def fill (budget : Nat) : Nat → List (RoutedFile π F) → List (RoutedFile π F) → List (RoutedFile π F)
  | _, taken, [] => taken
  | spent, taken, file :: rest =>
    if taken = [] ∨ spent + file.lines ≤ budget then fill budget (spent + file.lines) (taken ++ [file]) rest
    else fill budget spent taken rest

/-- `Index::route_budget` (`route.rs:650-673`). -/
def routeBudget (analysis : Analysis) (index : Index π F) (query : String) (budget : Nat) : List (RoutedFile π F) :=
  fill budget 0 [] (route analysis index query (2 ^ 64 - 1))

/-- `Index::from_bytes` (`route.rs:681-689`), of the index the bytes are parsed to. -/
def fromBytes (analysis : Analysis) (parsed : Index π F) : Index π F :=
  { parsed with
    centrality :=
      centralityOf analysis (parsed.files.toList.map fun entry => (entry.1, entry.2.terms)) parsed.definitions }

/-! ## Grounding -/

/-- `Grounding` (`route.rs:121-128`), without its duration. -/
structure Grounding (π : Type) where
  agreed : Bool
  onlyInIncremental : List π
  onlyInRebuild : List π
  differing : List π

/-- `Index::ground` (`route.rs:423-472`). -/
def ground (analysis : Analysis) (index : Index π F) (tree : Tree π) : Except String (Grounding π) := do
  let rebuilt : Index π F ← build analysis tree
  let mine := index.files.keys
  let theirs := rebuilt.files.keys
  let onlyInIncremental := mine.filter fun path => ! rebuilt.files.contains path
  let onlyInRebuild := theirs.filter fun path => ! index.files.contains path
  let differing := mine.filter fun path =>
    match index.files[path]?, rebuilt.files[path]? with
    | some a, some b => a.digest ≠ b.digest || a.occurrences ≠ b.occurrences
    | _, _ => false
  let agreed := onlyInIncremental.isEmpty && onlyInRebuild.isEmpty && differing.isEmpty
  return { agreed, onlyInIncremental, onlyInRebuild, differing }

end Index

end Vyrm.Graph
