import Vyrm.Kv.Segment.Read

/-!
# The block cache

`BlockCache` and `load_block` of `crates/vyrm-kv/src/segment.rs`. An entry that is used gets a new stamp and leaves
its old one behind in the heap, until that is popped or the heap is rebuilt. When the clock of the stamps wraps, the
entries are numbered again.
-/

namespace Vyrm.Kv
open Lib

/-- The cache id of a segment and the index of a block. -/
abbrev CacheKey := Nat × Nat

/-- What the heap holds: when a block was used. -/
abbrev Stamp := Nat × CacheKey

/-- The order of the heap. -/
def Stamp.le (a b : Stamp) : Bool :=
  a.1 < b.1 || (a.1 = b.1 && (a.2.1 < b.2.1 || (a.2.1 = b.2.1 && a.2.2 ≤ b.2.2)))

/-- `resident_bytes` (`segment.rs:134-140`). -/
def DecodedBlock.residentBytes (block : DecodedBlock) : Nat :=
  saturatingAdd block.bytes.length (min (block.recordOffsets.length * 4) u64Max)

/-- `CacheEntry` (`segment.rs:60-63`). -/
structure CacheEntry where
  value : DecodedBlock
  lastUsed : Nat
  deriving DecidableEq

/-- `BlockCache` (`segment.rs:48-57`). The map lists its entries, and the heap its stamps. -/
structure BlockCache where
  capacityBytes : Nat
  residentBytes : Nat
  values : List (CacheKey × CacheEntry)
  order : List Stamp
  clock : Nat
  hits : Nat
  misses : Nat
  evictions : Nat
  deriving DecidableEq

/-- The stamps of the entries. -/
def liveStamps (values : List (CacheKey × CacheEntry)) : List Stamp := values.map fun entry => (entry.2.lastUsed, entry.1)

/-- `entry.last_used = stamp`, of the entry of a key. -/
def setLastUsed (key : CacheKey) (stamp : Nat) (values : List (CacheKey × CacheEntry)) :
    List (CacheKey × CacheEntry) :=
  values.map fun entry => (entry.1, if entry.1 = key then { entry.2 with lastUsed := stamp } else entry.2)

/-- `BinaryHeap::pop`: the least stamp. -/
def popStamp : List Stamp → Option (Stamp × List Stamp)
  | [] => none
  | first :: rest =>
    let least := rest.foldl (fun least stamp => if least.le stamp then least else stamp) first
    some (least, (first :: rest).erase least)

namespace BlockCache

/-- `new_block_cache` (`segment.rs:67-78`). -/
def new (capacityBytes : Nat) : BlockCache :=
  { capacityBytes, residentBytes := 0, values := [], order := [], clock := 0, hits := 0, misses := 0, evictions := 0 }

/-- `rebuild_order` (`segment.rs:748-754`). -/
def rebuildOrder (cache : BlockCache) : BlockCache := { cache with order := liveStamps cache.values }

/-- `maybe_rebuild_order` (`segment.rs:741-746`). -/
def maybeRebuildOrder (cache : BlockCache) : BlockCache :=
  let maximum := max (min (cache.values.length * 2) u64Max) 32
  if maximum < cache.order.length then cache.rebuildOrder else cache

/-- `renumber` (`segment.rs:756-771`): the stamp of an entry is its place among the sorted stamps. -/
def renumber (cache : BlockCache) : BlockCache :=
  let ordered := (liveStamps cache.values).mergeSort Stamp.le
  let place (key : CacheKey) : Nat := ordered.findIdx (fun stamp => stamp.2 = key) + 1
  let values := cache.values.map fun entry => (entry.1, { entry.2 with lastUsed := place entry.1 })
  rebuildOrder { cache with values, clock := values.length }

/-- `next_stamp` (`segment.rs:723-729`). The stamp is the clock. -/
def nextStamp (cache : BlockCache) : BlockCache :=
  let cache := { cache with clock := (cache.clock + 1) % 2 ^ 64 }
  if cache.clock = 0 then cache.renumber else cache

/-- `touch` (`segment.rs:731-739`). -/
def touch (cache : BlockCache) (key : CacheKey) : BlockCache :=
  let cache := cache.nextStamp
  { cache with values := setLastUsed key cache.clock cache.values, order := (cache.clock, key) :: cache.order }

/-- The loop that makes room (`segment.rs:688-705`). Each round pops a stamp. -/
def evict (decodedBytes : Nat) : Nat → BlockCache → BlockCache
  | 0, cache => cache
  | fuel + 1, cache =>
    if cache.capacityBytes < saturatingAdd cache.residentBytes decodedBytes then
      match popStamp cache.order with
      | none => cache
      | some ((stamp, oldest), order) =>
        let cache := { cache with order }
        match cache.values.lookup oldest with
        | none => evict decodedBytes fuel cache
        | some entry =>
          if entry.lastUsed ≠ stamp then evict decodedBytes fuel cache
          else
            evict decodedBytes fuel
              { cache with
                values := cache.values.filter (·.1 ≠ oldest)
                residentBytes := cache.residentBytes - entry.value.residentBytes
                evictions := saturatingAdd cache.evictions 1 }
    else cache

/-- A block is looked up (`segment.rs:660-672`). -/
def lookup (cache : BlockCache) (key : CacheKey) : Option DecodedBlock × BlockCache :=
  match cache.values.lookup key with
  | some entry => (some entry.value, ({ cache with hits := saturatingAdd cache.hits 1 }.touch key).maybeRebuildOrder)
  | none => (none, { cache with misses := saturatingAdd cache.misses 1 })

/-- A block that was decoded is kept (`segment.rs:680-718`). -/
def retain (cache : BlockCache) (key : CacheKey) (decoded : DecodedBlock) : DecodedBlock × BlockCache :=
  match cache.values.lookup key with
  | some entry => (entry.value, (cache.touch key).maybeRebuildOrder)
  | none =>
    let decodedBytes := decoded.residentBytes
    if decodedBytes ≤ cache.capacityBytes then
      let cache := evict decodedBytes cache.order.length cache
      let cache := { cache with residentBytes := saturatingAdd cache.residentBytes decodedBytes }
      let cache := cache.nextStamp
      let values := (key, ⟨decoded, cache.clock⟩) :: cache.values.filter (·.1 ≠ key)
      let order := (cache.clock, key) :: cache.order
      (decoded, { cache with values, order }.maybeRebuildOrder)
    else (decoded, cache)

/-- `load_block` (`segment.rs:649-719`), where `decode` reads and parses the block of a key. -/
def loadBlock (decode : CacheKey → Except Error DecodedBlock) (cache : BlockCache) (key : CacheKey) :
    Except Error DecodedBlock × BlockCache :=
  match cache.lookup key with
  | (some value, cache) => (.ok value, cache)
  | (none, cache) =>
    match decode key with
    | .error e => (.error e, cache)
    | .ok decoded =>
      let (value, cache) := cache.retain key decoded
      (.ok value, cache)

end BlockCache

/-! ## Entries -/

section

variable {values : List (CacheKey × CacheEntry)} {key : CacheKey} {entry : CacheEntry}

/-- The bytes of the entries. -/
def totalBytes (values : List (CacheKey × CacheEntry)) : Nat := (values.map fun entry => entry.2.value.residentBytes).sum

theorem lookup_iff_mem (distinct : (values.map Prod.fst).Nodup) : values.lookup key = some entry ↔ (key, entry) ∈ values := by
  induction values with
  | nil => simp
  | cons first rest ih =>
    obtain ⟨other, used⟩ := first
    rw [List.map_cons, List.nodup_cons] at distinct
    rw [List.lookup_cons, List.mem_cons]
    by_cases same : key = other
    · subst same
      have fresh : (key, entry) ∉ rest := fun member => distinct.1 (List.mem_map.mpr ⟨_, member, rfl⟩)
      simp [fresh, eq_comm]
    · have different : (key == other) = false := by simpa using same
      rw [different, ih distinct.2]
      simp [same]

theorem lookup_eq_none : values.lookup key = none ↔ key ∉ values.map Prod.fst := by
  rw [List.lookup_eq_none_iff, List.mem_map, not_exists]
  refine forall_congr' fun entry => ?_
  rw [not_and]
  refine forall_congr' fun _ => ?_
  rw [bne_iff_ne]
  exact ne_comm

/-- The entry of a key makes up what is not the others'. -/
theorem totalBytes_filter (distinct : (values.map Prod.fst).Nodup) (member : (key, entry) ∈ values) :
    totalBytes (values.filter (·.1 ≠ key)) + entry.value.residentBytes = totalBytes values := by
  induction values with
  | nil => cases member
  | cons first rest ih =>
    rw [List.map_cons, List.nodup_cons] at distinct
    rcases List.mem_cons.mp member with rfl | later
    · have others : rest.filter (·.1 ≠ key) = rest := by
        refine List.filter_eq_self.mpr fun other here => ?_
        have different : other.1 ≠ key := fun same => distinct.1 (List.mem_map.mpr ⟨_, here, same⟩)
        simpa using different
      simp only [totalBytes] at others ⊢
      rw [List.filter_cons_of_neg (by simp), others, List.map_cons, List.sum_cons, Nat.add_comm]
    · have different : first.1 ≠ key := fun same => distinct.1 (List.mem_map.mpr ⟨_, later, same.symm⟩)
      have rest_ := ih distinct.2 later
      simp only [totalBytes] at rest_ ⊢
      rw [List.filter_cons_of_pos (by simpa using different), List.map_cons, List.sum_cons, List.map_cons, List.sum_cons,
        Nat.add_assoc, rest_]

theorem mem_liveStamps {stamp : Stamp} : stamp ∈ liveStamps values ↔ ∃ entry, (stamp.2, entry) ∈ values ∧ entry.lastUsed = stamp.1 := by
  constructor
  · intro member
    obtain ⟨⟨key, entry⟩, here, rfl⟩ := List.mem_map.mp member
    exact ⟨entry, here, rfl⟩
  · rintro ⟨entry, here, same⟩
    refine List.mem_map.mpr ⟨_, here, ?_⟩
    rw [same]

theorem nodup_liveStamps (distinct : (values.map Prod.fst).Nodup) : (liveStamps values).Nodup := by
  refine List.Nodup.of_map Prod.snd ?_
  rw [liveStamps, List.map_map]
  exact distinct

end

theorem map_fst_setLastUsed (key : CacheKey) (stamp : Nat) (values : List (CacheKey × CacheEntry)) :
    (setLastUsed key stamp values).map Prod.fst = values.map Prod.fst := by
  simp [setLastUsed]

/-! ## Stamps -/

theorem Stamp.le_trans {a b c : Stamp} (first : a.le b = true) (next : b.le c = true) : a.le c = true := by
  simp only [Stamp.le, Bool.or_eq_true, Bool.and_eq_true, decide_eq_true_eq] at first next ⊢
  omega

theorem Stamp.le_total (a b : Stamp) : (a.le b || b.le a) = true := by
  simp only [Stamp.le, Bool.or_eq_true, Bool.and_eq_true, decide_eq_true_eq]
  omega

theorem popStamp_eq_none {order : List Stamp} : popStamp order = none ↔ order = [] := by
  cases order with
  | nil => simp [popStamp]
  | cons first rest => simp [popStamp]

/-- The stamp that is popped is one of the heap. -/
theorem popStamp_perm {order rest : List Stamp} {stamp : Stamp} (popped : popStamp order = some (stamp, rest)) :
    order.Perm (stamp :: rest) := by
  cases order with
  | nil => cases popped
  | cons first others =>
    have least : ∀ (stamps : List Stamp) (start : Stamp),
        stamps.foldl (fun least stamp => if least.le stamp then least else stamp) start ∈ start :: stamps := by
      intro stamps
      induction stamps with
      | nil => simp
      | cons stamp stamps ih =>
        intro start
        rw [List.foldl_cons]
        have later := ih (if start.le stamp then start else stamp)
        by_cases before : start.le stamp
        · rw [if_pos before] at later ⊢
          rcases List.mem_cons.mp later with same | later
          · rw [same]
            exact List.mem_cons_self ..
          · exact List.mem_cons_of_mem _ (List.mem_cons_of_mem _ later)
        · rw [if_neg before] at later ⊢
          exact List.mem_cons_of_mem _ later
    simp only [popStamp, Option.some.injEq, Prod.mk.injEq] at popped
    obtain ⟨rfl, rfl⟩ := popped
    exact List.perm_cons_erase (least others first)

/-! ## The invariant -/

namespace BlockCache

/-- What every step on a cache keeps: each entry is what its block decodes to and is counted, and the heap holds its
stamp once. -/
structure Inv (decode : CacheKey → Except Error DecodedBlock) (cache : BlockCache) : Prop where
  distinct : (cache.values.map Prod.fst).Nodup
  decoded : ∀ entry ∈ cache.values, decode entry.1 = .ok entry.2.value
  resident : cache.residentBytes = totalBytes cache.values
  fits : cache.residentBytes ≤ cache.capacityBytes
  live : ∀ stamp ∈ liveStamps cache.values, cache.order.count stamp = 1
  past : ∀ stamp ∈ cache.order, stamp.1 ≤ cache.clock
  clock : cache.clock ≤ u64Max
  few : cache.values.length ≤ u64Max
  usize : cache.capacityBytes ≤ u64Max

/-- The heap is at most twice as long as the entries are many. -/
def Bounded (cache : BlockCache) : Prop := cache.order.length ≤ max 32 (2 * cache.values.length)

/-- The entry of a key is the one that was used last. -/
def Latest (cache : BlockCache) (key : CacheKey) : Prop :=
  ∃ entry, (key, entry) ∈ cache.values ∧ ∀ stamp ∈ liveStamps cache.values, stamp.le (entry.lastUsed, key) = true

variable {decode : CacheKey → Except Error DecodedBlock} {cache : BlockCache}

theorem inv_new {capacityBytes : Nat} (usize : capacityBytes ≤ u64Max) : Inv decode (new capacityBytes) where
  distinct := List.nodup_nil
  decoded _ member := absurd member List.not_mem_nil
  resident := rfl
  fits := Nat.zero_le _
  live _ member := absurd member List.not_mem_nil
  past _ member := absurd member List.not_mem_nil
  clock := Nat.zero_le _
  few := Nat.zero_le _
  usize

/-- The stamps of the entries are in the heap, so they are past. -/
theorem Inv.past_live (inv : Inv decode cache) {stamp : Stamp} (member : stamp ∈ liveStamps cache.values) :
    stamp.1 ≤ cache.clock := by
  have once := inv.live stamp member
  exact inv.past stamp (List.count_pos_iff.mp (by omega))

theorem Inv.rebuildOrder (inv : Inv decode cache) : Inv decode cache.rebuildOrder where
  distinct := inv.distinct
  decoded := inv.decoded
  resident := inv.resident
  fits := inv.fits
  live _ member := List.count_eq_one_of_mem (nodup_liveStamps inv.distinct) member
  past _ member := inv.past_live member
  clock := inv.clock
  few := inv.few
  usize := inv.usize

/-- A heap that has grown too long is rebuilt from the entries. -/
theorem Inv.maybeRebuildOrder (inv : Inv decode cache) :
    Inv decode cache.maybeRebuildOrder ∧ cache.maybeRebuildOrder.Bounded := by
  unfold BlockCache.maybeRebuildOrder Bounded
  by_cases long : max (min (cache.values.length * 2) u64Max) 32 < cache.order.length
  · rw [if_pos long]
    refine ⟨inv.rebuildOrder, ?_⟩
    simp only [BlockCache.rebuildOrder, liveStamps, List.length_map]
    omega
  · rw [if_neg long]
    exact ⟨inv, by omega⟩

/-! ## New stamps -/

/-- The blocks of the entries, without their stamps. -/
def blocks (cache : BlockCache) : List (CacheKey × DecodedBlock) := cache.values.map fun entry => (entry.1, entry.2.value)

theorem map_fst_values (cache : BlockCache) : cache.values.map Prod.fst = cache.blocks.map Prod.fst := by
  simp [blocks, Function.comp_def]

/-- What concerns the blocks only stays as it is when the stamps change. -/
theorem Inv.of_blocks (inv : Inv decode cache) {next : BlockCache} (same : next.blocks = cache.blocks)
    (resident : next.residentBytes = cache.residentBytes) (capacity : next.capacityBytes = cache.capacityBytes)
    (live : ∀ stamp ∈ liveStamps next.values, next.order.count stamp = 1)
    (past : ∀ stamp ∈ next.order, stamp.1 ≤ next.clock) (clock : next.clock ≤ u64Max) : Inv decode next where
  distinct := by
    rw [map_fst_values, same, ← map_fst_values]
    exact inv.distinct
  decoded entry member := by
    have listed : (entry.1, entry.2.value) ∈ next.blocks := List.mem_map.mpr ⟨entry, member, rfl⟩
    rw [same] at listed
    obtain ⟨other, here, both⟩ := List.mem_map.mp listed
    obtain ⟨key, value⟩ := Prod.mk.inj both
    rw [← key, ← value]
    exact inv.decoded other here
  resident := by
    have bytes : ∀ cache : BlockCache, totalBytes cache.values = (cache.blocks.map fun block => block.2.residentBytes).sum := by
      intro cache
      simp [blocks, totalBytes, Function.comp_def]
    rw [resident, inv.resident, bytes, bytes, same]
  fits := by
    rw [resident, capacity]
    exact inv.fits
  live
  past
  clock
  few := by
    have length : ∀ cache : BlockCache, cache.values.length = cache.blocks.length := by
      intro cache
      rw [blocks, List.length_map]
    rw [length, same, ← length]
    exact inv.few
  usize := by
    rw [capacity]
    exact inv.usize

/-- The place of an entry among the sorted stamps is last when the entry was used last only. -/
theorem latest_of_place (distinct : (cache.values.map Prod.fst).Nodup) {key : CacheKey} {entry : CacheEntry}
    (member : (key, entry) ∈ cache.values)
    (last : ((liveStamps cache.values).mergeSort Stamp.le).findIdx (fun stamp => stamp.2 = key) + 1 = cache.values.length) :
    cache.Latest key := by
  have sorted : ((liveStamps cache.values).mergeSort Stamp.le).Pairwise (fun a b => a.le b = true) := by
    refine List.pairwise_mergeSort ?_ ?_ _
    · exact fun _ _ _ => Stamp.le_trans
    · exact Stamp.le_total
  have length : ((liveStamps cache.values).mergeSort Stamp.le).length = cache.values.length := by
    rw [List.length_mergeSort, liveStamps, List.length_map]
  have inside : ((liveStamps cache.values).mergeSort Stamp.le).findIdx (fun stamp => stamp.2 = key) <
      ((liveStamps cache.values).mergeSort Stamp.le).length := by omega
  have found := List.findIdx_getElem (w := inside)
  have whole : ∀ stamp, stamp ∈ (liveStamps cache.values).mergeSort Stamp.le ↔ stamp ∈ liveStamps cache.values :=
    fun _ => List.mem_mergeSort
  generalize (liveStamps cache.values).mergeSort Stamp.le = ordered at *
  have own : ordered[ordered.findIdx (fun stamp => stamp.2 = key)] = (entry.lastUsed, key) := by
    obtain ⟨other, here, used⟩ := mem_liveStamps.mp ((whole _).mp (List.getElem_mem inside))
    have named := of_decide_eq_true found
    rw [named, ← lookup_iff_mem distinct, (lookup_iff_mem distinct).mpr member] at here
    obtain rfl := Option.some.inj here
    exact Prod.ext used.symm named
  refine ⟨entry, member, fun stamp listed => ?_⟩
  obtain ⟨i, bound, rfl⟩ := List.mem_iff_getElem.mp ((whole stamp).mpr listed)
  rw [← own]
  rcases Nat.lt_or_ge i (ordered.findIdx (fun stamp => stamp.2 = key)) with before | after
  · exact List.pairwise_iff_getElem.mp sorted _ _ _ _ before
  · have same : i = ordered.findIdx (fun stamp => stamp.2 = key) := by omega
    subst same
    have both := Stamp.le_total (ordered[ordered.findIdx (fun stamp => stamp.2 = key)])
      (ordered[ordered.findIdx (fun stamp => stamp.2 = key)])
    simpa using both

theorem place_le (cache : BlockCache) {key : CacheKey} (member : key ∈ cache.values.map Prod.fst) :
    ((liveStamps cache.values).mergeSort Stamp.le).findIdx (fun stamp => stamp.2 = key) + 1 ≤ cache.values.length := by
  obtain ⟨entry, here, rfl⟩ := List.mem_map.mp member
  have listed : (entry.2.lastUsed, entry.1) ∈ (liveStamps cache.values).mergeSort Stamp.le :=
    List.mem_mergeSort.mpr (List.mem_map.mpr ⟨entry, here, rfl⟩)
  have inside := List.findIdx_lt_length_of_exists (p := fun stamp : Stamp => stamp.2 = entry.1)
    ⟨_, listed, by simp⟩
  rw [List.length_mergeSort, liveStamps, List.length_map] at inside
  exact inside

theorem Inv.renumber (inv : Inv decode cache) : Inv decode cache.renumber := by
  have same : cache.renumber.blocks = cache.blocks := by
    simp [blocks, BlockCache.renumber, BlockCache.rebuildOrder, Function.comp_def]
  have distinct : (cache.renumber.values.map Prod.fst).Nodup := by
    simpa [BlockCache.renumber, BlockCache.rebuildOrder, Function.comp_def] using inv.distinct
  refine inv.of_blocks same rfl rfl ?_ ?_ ?_
  · intro stamp member
    exact List.count_eq_one_of_mem (nodup_liveStamps distinct) member
  · intro stamp member
    obtain ⟨numbered, here, rfl⟩ := List.mem_map.mp member
    obtain ⟨entry, listed, rfl⟩ := List.mem_map.mp here
    have low := place_le cache (List.mem_map.mpr ⟨entry, listed, rfl⟩)
    simpa [BlockCache.renumber, BlockCache.rebuildOrder] using low
  · simpa [BlockCache.renumber, BlockCache.rebuildOrder] using inv.few

theorem nextStamp_eq (bound : cache.clock ≤ u64Max) : cache.nextStamp =
    if cache.clock = u64Max then cache.renumber else { cache with clock := cache.clock + 1 } := by
  unfold nextStamp
  by_cases wraps : cache.clock = u64Max
  · have zero : (cache.clock + 1) % 2 ^ 64 = 0 := by
      rw [wraps]
      rfl
    simp only [wraps, if_true]
    rfl
  · have small : (cache.clock + 1) % 2 ^ 64 = cache.clock + 1 := by
      refine Nat.mod_eq_of_lt ?_
      unfold u64Max at bound wraps
      omega
    simp only [small, if_neg wraps, if_neg (Nat.succ_ne_zero cache.clock)]

theorem Inv.nextStamp (inv : Inv decode cache) : Inv decode cache.nextStamp := by
  rw [nextStamp_eq inv.clock]
  by_cases wraps : cache.clock = u64Max
  · rw [if_pos wraps]
    exact inv.renumber
  · rw [if_neg wraps]
    have bound := inv.clock
    refine inv.of_blocks rfl rfl rfl inv.live (fun stamp member => ?_) ?_
    · exact Nat.le_succ_of_le (inv.past stamp member)
    · change cache.clock + 1 ≤ u64Max
      omega

theorem blocks_nextStamp (bound : cache.clock ≤ u64Max) : cache.nextStamp.blocks = cache.blocks ∧
    cache.nextStamp.residentBytes = cache.residentBytes ∧ cache.nextStamp.capacityBytes = cache.capacityBytes := by
  rw [nextStamp_eq bound]
  by_cases wraps : cache.clock = u64Max
  · rw [if_pos wraps]
    refine ⟨?_, rfl, rfl⟩
    simp [blocks, BlockCache.renumber, BlockCache.rebuildOrder, Function.comp_def]
  · rw [if_neg wraps]
    exact ⟨rfl, rfl, rfl⟩

/-- A new stamp is not in the heap yet, unless the clock wraps for the entry that was used last: that entry has just
been given the stamp that it gets again. -/
theorem Inv.fresh (inv : Inv decode cache) {key : CacheKey} (rare : ¬ (cache.clock = u64Max ∧ cache.Latest key)) :
    (cache.nextStamp.clock, key) ∉ cache.nextStamp.order := by
  rw [nextStamp_eq inv.clock]
  by_cases wraps : cache.clock = u64Max
  · rw [if_pos wraps]
    intro member
    obtain ⟨numbered, here, same⟩ := List.mem_map.mp member
    obtain ⟨entry, listed, rfl⟩ := List.mem_map.mp here
    obtain ⟨last, rfl⟩ := Prod.mk.inj same
    refine rare ⟨wraps, latest_of_place inv.distinct listed ?_⟩
    simpa [BlockCache.renumber, BlockCache.rebuildOrder] using last
  · rw [if_neg wraps]
    intro member
    have old := inv.past _ member
    simp at old

/-- An entry that is used gets the new stamp. -/
theorem Inv.touch (inv : Inv decode cache) {key : CacheKey} (rare : ¬ (cache.clock = u64Max ∧ cache.Latest key)) :
    Inv decode (cache.touch key) := by
  have fresh := inv.fresh rare
  have next := inv.nextStamp
  unfold BlockCache.touch
  generalize cache.nextStamp = cache at fresh next ⊢
  refine next.of_blocks ?_ rfl rfl ?_ ?_ next.clock
  · simp only [blocks, setLastUsed, List.map_map]
    refine List.map_congr_left fun entry _ => ?_
    by_cases same : entry.1 = key
    · simp [same]
    · simp [same]
  · intro stamp member
    change ((cache.clock, key) :: cache.order).count stamp = 1
    obtain ⟨entry, here, rfl⟩ := List.mem_map.mp member
    obtain ⟨before, listed, rfl⟩ := List.mem_map.mp here
    by_cases same : before.1 = key
    · rw [if_pos same, same, List.count_cons_self, List.count_eq_zero_of_not_mem fresh]
    · have other : (before.2.lastUsed, before.1) ≠ (cache.clock, key) := fun both => same (Prod.mk.inj both).2
      rw [if_neg same, List.count_cons_of_ne other.symm]
      exact next.live _ (List.mem_map.mpr ⟨before, listed, rfl⟩)
  · intro stamp member
    rcases List.mem_cons.mp member with rfl | old
    · exact Nat.le_refl _
    · exact next.past stamp old

/-! ## Making room -/

/-- A stamp that no entry has is dropped from the heap. -/
theorem Inv.drop (inv : Inv decode cache) {stamp : Stamp} {rest : List Stamp} (popped : cache.order.Perm (stamp :: rest))
    (stale : stamp ∉ liveStamps cache.values) : Inv decode { cache with order := rest } := by
  refine inv.of_blocks rfl rfl rfl (fun other member => ?_) (fun other member => ?_) inv.clock
  · have different : stamp ≠ other := fun same => stale (same ▸ member)
    have once := inv.live other member
    rwa [popped.count_eq, List.count_cons_of_ne different] at once
  · exact inv.past other (popped.mem_iff.mpr (List.mem_cons_of_mem _ member))

/-- An entry whose stamp is popped leaves the cache. -/
theorem Inv.remove (inv : Inv decode cache) {key : CacheKey} {entry : CacheEntry} {rest : List Stamp}
    (member : (key, entry) ∈ cache.values) (popped : cache.order.Perm ((entry.lastUsed, key) :: rest)) :
    Inv decode
      { cache with
        order := rest
        values := cache.values.filter (·.1 ≠ key)
        residentBytes := cache.residentBytes - entry.value.residentBytes
        evictions := saturatingAdd cache.evictions 1 } := by
  have part : (cache.values.filter (·.1 ≠ key)).Sublist cache.values := List.filter_sublist
  have bytes := totalBytes_filter inv.distinct member
  have resident := inv.resident
  have fits := inv.fits
  exact
    { distinct := inv.distinct.sublist (part.map _)
      decoded := fun other here => inv.decoded other (part.subset here)
      resident := by
        change cache.residentBytes - entry.value.residentBytes = totalBytes (cache.values.filter (·.1 ≠ key))
        omega
      fits := Nat.le_trans (Nat.sub_le _ _) fits
      live := by
        intro stamp live
        obtain ⟨other, here, used⟩ := mem_liveStamps.mp live
        obtain ⟨listed, different⟩ := List.mem_filter.mp here
        have apart : (entry.lastUsed, key) ≠ stamp := by
          rintro rfl
          simp at different
        have once := inv.live stamp (mem_liveStamps.mpr ⟨other, listed, used⟩)
        rwa [popped.count_eq, List.count_cons_of_ne apart] at once
      past := fun stamp here => inv.past stamp (popped.mem_iff.mpr (List.mem_cons_of_mem _ here))
      clock := inv.clock
      few := Nat.le_trans part.length_le inv.few
      usize := inv.usize }

/-- A cache without stamps has no entries. -/
theorem Inv.empty (inv : Inv decode cache) (none_ : cache.order = []) : cache.residentBytes = 0 := by
  rw [inv.resident]
  cases listed : cache.values with
  | nil => rfl
  | cons entry rest =>
    have once := inv.live (entry.2.lastUsed, entry.1) (by simp [listed, liveStamps])
    rw [none_] at once
    cases once

/-- The bytes of a block and of the entries do not exceed an address space, as far as the capacity does not. -/
def Holds (cache : BlockCache) (decodedBytes : Nat) : Prop :=
  cache.capacityBytes < u64Max ∨ totalBytes cache.values + decodedBytes ≤ u64Max

/-- What is left of a cache once there is room for a block. -/
structure Freed (decode : CacheKey → Except Error DecodedBlock) (decodedBytes : Nat) (cache next : BlockCache) : Prop where
  inv : Inv decode next
  room : next.residentBytes + decodedBytes ≤ next.capacityBytes
  capacity : next.capacityBytes = cache.capacityBytes
  clock : next.clock = cache.clock
  part : next.values.Sublist cache.values

theorem Freed.of_sublist {decodedBytes : Nat} {between next : BlockCache} (freed : Freed decode decodedBytes between next)
    (capacity : between.capacityBytes = cache.capacityBytes) (clock : between.clock = cache.clock)
    (part : between.values.Sublist cache.values) : Freed decode decodedBytes cache next :=
  ⟨freed.inv, freed.room, freed.capacity.trans capacity, freed.clock.trans clock, freed.part.trans part⟩

theorem Inv.freed_of_empty {decodedBytes : Nat} (inv : Inv decode cache) (fits : decodedBytes ≤ cache.capacityBytes)
    (none_ : cache.order = []) : Freed decode decodedBytes cache cache := by
  refine ⟨inv, ?_, rfl, rfl, List.Sublist.refl _⟩
  rw [inv.empty none_]
  omega

/-- Eviction makes room for a block that fits an empty cache. -/
theorem Inv.evict {decodedBytes fuel : Nat} (inv : Inv decode cache) (holds : cache.Holds decodedBytes)
    (fits : decodedBytes ≤ cache.capacityBytes) (enough : cache.order.length ≤ fuel) :
    Freed decode decodedBytes cache (evict decodedBytes fuel cache) := by
  induction fuel generalizing cache with
  | zero => exact inv.freed_of_empty fits (List.eq_nil_of_length_eq_zero (Nat.le_zero.mp enough))
  | succ fuel ih =>
    unfold BlockCache.evict
    by_cases full : cache.capacityBytes < saturatingAdd cache.residentBytes decodedBytes
    · rw [if_pos full]
      cases popped : popStamp cache.order with
      | none => exact inv.freed_of_empty fits (popStamp_eq_none.mp popped)
      | some found =>
        obtain ⟨⟨stamp, oldest⟩, rest⟩ := found
        have perm := popStamp_perm popped
        have shorter : rest.length ≤ fuel := by
          have length := perm.length_eq
          rw [List.length_cons] at length
          omega
        have dropped (stale : (stamp, oldest) ∉ liveStamps cache.values) :
            Freed decode decodedBytes cache (evict decodedBytes fuel { cache with order := rest }) := by
          exact (ih (inv.drop perm stale) holds fits shorter).of_sublist rfl rfl (List.Sublist.refl _)
        cases found : cache.values.lookup oldest with
        | none =>
          simp only [found]
          refine dropped fun live => ?_
          obtain ⟨entry, member, -⟩ := mem_liveStamps.mp live
          exact lookup_eq_none.mp found (List.mem_map.mpr ⟨_, member, rfl⟩)
        | some entry =>
          have member := (lookup_iff_mem inv.distinct).mp found
          simp only [found]
          by_cases stale : entry.lastUsed ≠ stamp
          · rw [if_pos stale]
            refine dropped fun live => ?_
            obtain ⟨other, here, used⟩ := mem_liveStamps.mp live
            have same := (lookup_iff_mem inv.distinct).mpr here
            rw [found] at same
            obtain rfl := Option.some.inj same
            exact stale used
          · rw [if_neg stale]
            obtain rfl := not_not.mp stale
            have bytes := totalBytes_filter inv.distinct member
            refine (ih (inv.remove member perm) (holds.imp_right fun all_ => ?_) fits shorter).of_sublist rfl rfl
              List.filter_sublist
            change totalBytes (cache.values.filter (·.1 ≠ oldest)) + decodedBytes ≤ u64Max
            omega
    · rw [if_neg full]
      refine ⟨inv, ?_, rfl, rfl, List.Sublist.refl _⟩
      have resident := inv.resident
      unfold saturatingAdd at full
      rcases holds with small | small <;> omega

/-! ## Loading a block -/

/-- A block that there is room for becomes an entry. -/
theorem Inv.insert (inv : Inv decode cache) {key : CacheKey} {decoded : DecodedBlock}
    (absent : key ∉ cache.values.map Prod.fst) (fresh : (cache.clock, key) ∉ cache.order)
    (sound : decode key = .ok decoded) (room : cache.residentBytes + decoded.residentBytes ≤ cache.capacityBytes)
    (few : cache.values.length < u64Max) :
    Inv decode
      { cache with
        residentBytes := cache.residentBytes + decoded.residentBytes
        values := (key, ⟨decoded, cache.clock⟩) :: cache.values
        order := (cache.clock, key) :: cache.order } where
  distinct := List.nodup_cons.mpr ⟨absent, inv.distinct⟩
  decoded entry member := by
    rcases List.mem_cons.mp member with rfl | old
    · exact sound
    · exact inv.decoded entry old
  resident := by
    have resident := inv.resident
    simp only [totalBytes, List.map_cons, List.sum_cons] at resident ⊢
    omega
  fits := room
  live stamp member := by
    rcases List.mem_cons.mp member with rfl | old
    · rw [List.count_cons_self, List.count_eq_zero_of_not_mem fresh]
    · obtain ⟨entry, here, -⟩ := mem_liveStamps.mp old
      have different : (cache.clock, key) ≠ stamp := by
        rintro rfl
        exact absent (List.mem_map.mpr ⟨_, here, rfl⟩)
      rw [List.count_cons_of_ne different]
      exact inv.live stamp old
  past stamp member := by
    rcases List.mem_cons.mp member with rfl | old
    · exact Nat.le_refl _
    · exact inv.past stamp old
  clock := inv.clock
  few := few
  usize := inv.usize

theorem nextStamp_residentBytes (cache : BlockCache) (bytes : Nat) :
    { cache with residentBytes := bytes }.nextStamp = { cache.nextStamp with residentBytes := bytes } := by
  unfold BlockCache.nextStamp
  by_cases zero : (cache.clock + 1) % 2 ^ 64 = 0
  · simp only [zero, if_true]
    rfl
  · simp only [zero, if_false]

theorem capacity_maybeRebuildOrder (cache : BlockCache) : cache.maybeRebuildOrder.capacityBytes = cache.capacityBytes := by
  unfold BlockCache.maybeRebuildOrder
  by_cases long : max (min (cache.values.length * 2) u64Max) 32 < cache.order.length
  · rw [if_pos long]
    rfl
  · rw [if_neg long]

/-- When a block is loaded, the clock does not wrap for the entry that was used last, and there is an address space
for what is resident. -/
structure Sound (decode : CacheKey → Except Error DecodedBlock) (cache : BlockCache) (key : CacheKey) : Prop where
  rare : ¬ (cache.clock = u64Max ∧ cache.Latest key)
  space : key ∉ cache.values.map Prod.fst → ∀ decoded, decode key = .ok decoded →
    cache.Holds decoded.residentBytes ∧ cache.values.length < u64Max

/-- The invariant, and that the heap is not too long. -/
structure Kept (decode : CacheKey → Except Error DecodedBlock) (cache : BlockCache) : Prop where
  inv : Inv decode cache
  bounded : cache.Bounded

theorem retain_fst (cache : BlockCache) {key : CacheKey} (absent : key ∉ cache.values.map Prod.fst) (decoded : DecodedBlock) :
    (cache.retain key decoded).1 = decoded := by
  unfold BlockCache.retain
  rw [lookup_eq_none.mpr absent]
  by_cases fits : decoded.residentBytes ≤ cache.capacityBytes
  · simp only [if_pos fits]
  · simp only [if_neg fits]

/-- A block that is not in the cache is admitted, or does not fit. -/
theorem Kept.retain (kept : Kept decode cache) {key : CacheKey} {decoded : DecodedBlock}
    (absent : key ∉ cache.values.map Prod.fst) (sound : decode key = .ok decoded)
    (holds : cache.Holds decoded.residentBytes) (few : cache.values.length < u64Max) :
    Kept decode (cache.retain key decoded).2 ∧ (cache.retain key decoded).2.capacityBytes = cache.capacityBytes := by
  unfold BlockCache.retain
  rw [lookup_eq_none.mpr absent]
  by_cases fits : decoded.residentBytes ≤ cache.capacityBytes
  · simp only [if_pos fits]
    have freed := kept.inv.evict holds fits (Nat.le_refl _)
    generalize BlockCache.evict decoded.residentBytes cache.order.length cache = next at freed ⊢
    obtain ⟨inv, room, capacity, clock, part⟩ := freed
    have away : key ∉ next.values.map Prod.fst := fun member => absent ((part.map _).subset member)
    have fresh : (next.nextStamp.clock, key) ∉ next.nextStamp.order := by
      refine inv.fresh fun both => away ?_
      obtain ⟨-, entry, member, -⟩ := both
      exact List.mem_map.mpr ⟨_, member, rfl⟩
    obtain ⟨same, resident, capacity'⟩ := blocks_nextStamp inv.clock
    have gone : key ∉ next.nextStamp.values.map Prod.fst := by
      rw [map_fst_values, same, ← map_fst_values]
      exact away
    have length : next.nextStamp.values.length = next.values.length := by
      rw [← List.length_map Prod.fst, map_fst_values, same, ← map_fst_values, List.length_map]
    have unsaturated : saturatingAdd next.residentBytes decoded.residentBytes =
        next.residentBytes + decoded.residentBytes := by
      have usize := inv.usize
      unfold saturatingAdd
      omega
    have others : next.nextStamp.values.filter (·.1 ≠ key) = next.nextStamp.values := by
      refine List.filter_eq_self.mpr fun entry member => ?_
      have different : entry.1 ≠ key := fun same => gone (List.mem_map.mpr ⟨_, member, same⟩)
      simpa using different
    rw [nextStamp_residentBytes, unsaturated]
    simp only [others]
    have inserted := inv.nextStamp.insert gone fresh sound (by rw [resident, capacity']; exact room)
      (by rw [length]; exact Nat.lt_of_le_of_lt part.length_le few)
    rw [resident] at inserted
    obtain ⟨kept, bounded⟩ := inserted.maybeRebuildOrder
    refine ⟨⟨kept, bounded⟩, ?_⟩
    rw [capacity_maybeRebuildOrder]
    exact capacity'.trans capacity
  · simp only [if_neg fits]
    exact ⟨kept, trivial⟩

/-- A block that is in the cache is used. -/
theorem loadBlock_of_mem (distinct : (cache.values.map Prod.fst).Nodup) {key : CacheKey} {entry : CacheEntry}
    (member : (key, entry) ∈ cache.values) : cache.loadBlock decode key =
      (.ok entry.value, ({ cache with hits := saturatingAdd cache.hits 1 }.touch key).maybeRebuildOrder) := by
  rw [BlockCache.loadBlock, BlockCache.lookup, (lookup_iff_mem distinct).mpr member]

theorem loadBlock_of_error {key : CacheKey} {e : Error} (absent : key ∉ cache.values.map Prod.fst)
    (failed : decode key = .error e) : cache.loadBlock decode key =
      (.error e, { cache with misses := saturatingAdd cache.misses 1 }) := by
  rw [BlockCache.loadBlock, BlockCache.lookup, lookup_eq_none.mpr absent]
  simp only [failed]

theorem loadBlock_of_ok {key : CacheKey} {block : DecodedBlock} (absent : key ∉ cache.values.map Prod.fst)
    (decoded : decode key = .ok block) : cache.loadBlock decode key =
      (.ok block, ({ cache with misses := saturatingAdd cache.misses 1 }.retain key block).2) := by
  rw [BlockCache.loadBlock, BlockCache.lookup, lookup_eq_none.mpr absent]
  simp only [decoded]
  rw [retain_fst { cache with misses := saturatingAdd cache.misses 1 } absent block]

theorem Inv.counted (inv : Inv decode cache) (hits misses : Nat) : Inv decode { cache with hits, misses } :=
  inv.of_blocks rfl rfl rfl inv.live inv.past inv.clock

/-- What is loaded is what the block decodes to, from the cache or not. -/
theorem Inv.loadBlock_fst (inv : Inv decode cache) (key : CacheKey) : (cache.loadBlock decode key).1 = decode key := by
  by_cases present : key ∈ cache.values.map Prod.fst
  · obtain ⟨entry, member, rfl⟩ := List.mem_map.mp present
    rw [loadBlock_of_mem inv.distinct member]
    exact (inv.decoded entry member).symm
  · cases decoded : decode key with
    | error e => rw [loadBlock_of_error present decoded]
    | ok block => rw [loadBlock_of_ok present decoded]

/-- Loading a block keeps the invariant. -/
theorem Kept.loadBlock (kept : Kept decode cache) {key : CacheKey} (sound : Sound decode cache key) :
    Kept decode (cache.loadBlock decode key).2 ∧
      (cache.loadBlock decode key).2.capacityBytes = cache.capacityBytes := by
  by_cases present : key ∈ cache.values.map Prod.fst
  · obtain ⟨entry, member, rfl⟩ := List.mem_map.mp present
    have hit : Inv decode { cache with hits := saturatingAdd cache.hits 1 } := kept.inv.counted _ cache.misses
    obtain ⟨inv, bounded⟩ := (hit.touch sound.rare).maybeRebuildOrder
    rw [loadBlock_of_mem kept.inv.distinct member]
    dsimp only
    refine ⟨⟨inv, bounded⟩, ?_⟩
    rw [capacity_maybeRebuildOrder]
    exact (blocks_nextStamp hit.clock).2.2
  · have missed : Kept decode { cache with misses := saturatingAdd cache.misses 1 } :=
      ⟨kept.inv.counted cache.hits _, kept.bounded⟩
    cases decoded : decode key with
    | error e =>
      rw [loadBlock_of_error present decoded]
      exact ⟨missed, rfl⟩
    | ok block =>
      obtain ⟨holds, few⟩ := sound.space present block decoded
      rw [loadBlock_of_ok present decoded]
      exact missed.retain present decoded holds few

/-! ## Runs -/

/-- The caches that loading blocks reaches. -/
inductive Reached (decode : CacheKey → Except Error DecodedBlock) (capacityBytes : Nat) : BlockCache → Prop where
  | new : Reached decode capacityBytes (BlockCache.new capacityBytes)
  | load {cache : BlockCache} (key : CacheKey) (reached : Reached decode capacityBytes cache)
      (sound : Sound decode cache key) : Reached decode capacityBytes (cache.loadBlock decode key).2

/-- The bytes of the entries are counted and fit, each entry has one live stamp, and the heap is not too long. -/
structure Accounted (cache : BlockCache) : Prop where
  resident : cache.residentBytes = totalBytes cache.values
  fits : cache.residentBytes ≤ cache.capacityBytes
  live : ∀ entry ∈ cache.values, cache.order.count (entry.2.lastUsed, entry.1) = 1
  bounded : cache.order.length ≤ max 32 (2 * cache.values.length)

theorem Kept.accounted (kept : Kept decode cache) : cache.Accounted where
  resident := kept.inv.resident
  fits := kept.inv.fits
  live entry member := kept.inv.live _ (List.mem_map.mpr ⟨entry, member, rfl⟩)
  bounded := kept.bounded

theorem kept_of_reached {capacityBytes : Nat} (usize : capacityBytes ≤ u64Max)
    (reached : Reached decode capacityBytes cache) : Kept decode cache ∧ cache.capacityBytes = capacityBytes := by
  induction reached with
  | new => exact ⟨⟨inv_new usize, Nat.zero_le _⟩, rfl⟩
  | load key reached sound ih =>
    obtain ⟨kept, capacity⟩ := ih
    obtain ⟨next, same⟩ := kept.loadBlock sound
    exact ⟨next, same.trans capacity⟩

end BlockCache

/-- The block cache, whatever the blocks and the capacity: as long as the clock does not wrap for the entry that was
used last, its bytes are counted and fit, each entry has one live stamp in a heap that is not too long, and what is
loaded is what the block decodes to. -/
theorem block_cache (decode : CacheKey → Except Error DecodedBlock) (capacityBytes : Nat)
    (usize : capacityBytes ≤ u64Max) (cache : BlockCache) (reached : BlockCache.Reached decode capacityBytes cache) :
    cache.capacityBytes = capacityBytes ∧ cache.Accounted ∧
      ∀ key, (cache.loadBlock decode key).1 = decode key := by
  obtain ⟨kept, capacity⟩ := BlockCache.kept_of_reached usize reached
  exact ⟨capacity, kept.accounted, kept.inv.loadBlock_fst⟩

/-! ## One block, over and over -/

def sampleBlock : DecodedBlock := ⟨[0], [0]⟩

def sampleKey : CacheKey := (1, 0)

/-- Every block decodes to the same. -/
def sampleDecode : CacheKey → Except Error DecodedBlock := fun _ => .ok sampleBlock

/-- A cache of one entry, which was used last. -/
structure Single (cache : BlockCache) (stamp : Nat) : Prop where
  values : cache.values = [(sampleKey, ⟨sampleBlock, stamp⟩)]
  clock : cache.clock = stamp

theorem Single.maybeRebuildOrder {cache : BlockCache} {stamp : Nat} (single : Single cache stamp) :
    Single cache.maybeRebuildOrder stamp := by
  unfold BlockCache.maybeRebuildOrder
  by_cases long : max (min (cache.values.length * 2) u64Max) 32 < cache.order.length
  · rw [if_pos long]
    exact ⟨single.values, single.clock⟩
  · rw [if_neg long]
    exact single

/-- The entry gets the next stamp. -/
theorem Single.touch {cache : BlockCache} {stamp : Nat} (single : Single cache stamp) (small : stamp < u64Max) :
    Single (cache.touch sampleKey) (stamp + 1) := by
  have bound : cache.clock ≤ u64Max := by
    rw [single.clock]
    omega
  have inside : ¬ cache.clock = u64Max := by
    rw [single.clock]
    omega
  unfold BlockCache.touch
  rw [BlockCache.nextStamp_eq bound, if_neg inside]
  exact ⟨by simp [single.values, single.clock, setLastUsed], by simp [single.clock]⟩

/-- The clock wraps: the entry is given the first stamp, and the same stamp again. -/
theorem Single.touch_wraps {cache : BlockCache} (single : Single cache u64Max) :
    (cache.touch sampleKey).values = [(sampleKey, ⟨sampleBlock, 1⟩)] ∧
      (cache.touch sampleKey).order = [(1, sampleKey), (1, sampleKey)] := by
  unfold BlockCache.touch
  rw [BlockCache.nextStamp_eq (Nat.le_of_eq single.clock), if_pos single.clock]
  simp [BlockCache.renumber, BlockCache.rebuildOrder, single.values, liveStamps, setLastUsed]

theorem Single.hit {cache : BlockCache} {stamp : Nat} (single : Single cache stamp) :
    cache.loadBlock sampleDecode sampleKey =
      (.ok sampleBlock, ({ cache with hits := saturatingAdd cache.hits 1 }.touch sampleKey).maybeRebuildOrder) := by
  have distinct : (cache.values.map Prod.fst).Nodup := by
    rw [single.values]
    exact List.nodup_singleton _
  have member : (sampleKey, (⟨sampleBlock, stamp⟩ : CacheEntry)) ∈ cache.values := by
    rw [single.values]
    exact List.mem_cons_self ..
  exact BlockCache.loadBlock_of_mem distinct member

theorem Single.loadBlock {cache : BlockCache} {stamp : Nat} (single : Single cache stamp) (small : stamp < u64Max) :
    Single (cache.loadBlock sampleDecode sampleKey).2 (stamp + 1) := by
  have counted : Single { cache with hits := saturatingAdd cache.hits 1 } stamp := ⟨single.values, single.clock⟩
  rw [single.hit]
  exact (counted.touch small).maybeRebuildOrder

theorem Single.loadBlock_wraps {cache : BlockCache} (single : Single cache u64Max) :
    (cache.loadBlock sampleDecode sampleKey).2.values = [(sampleKey, ⟨sampleBlock, 1⟩)] ∧
      (cache.loadBlock sampleDecode sampleKey).2.order = [(1, sampleKey), (1, sampleKey)] := by
  have counted : Single { cache with hits := saturatingAdd cache.hits 1 } u64Max := ⟨single.values, single.clock⟩
  obtain ⟨values, order⟩ := counted.touch_wraps
  rw [single.hit]
  generalize { cache with hits := saturatingAdd cache.hits 1 }.touch sampleKey = touched at values order ⊢
  -- two stamps are too few to rebuild the heap
  have short : ¬ max (min (touched.values.length * 2) u64Max) 32 < touched.order.length := by
    rw [order, List.length_cons, List.length_singleton]
    omega
  rw [BlockCache.maybeRebuildOrder, if_neg short]
  exact ⟨values, order⟩

/-- What loading the block so many times makes of an empty cache. -/
def sampleRun (times : Nat) : BlockCache :=
  (List.replicate times sampleKey).foldl (fun cache key => (cache.loadBlock sampleDecode key).2) (BlockCache.new 1024)

theorem sampleRun_succ (times : Nat) : sampleRun (times + 1) = ((sampleRun times).loadBlock sampleDecode sampleKey).2 := by
  rw [sampleRun, List.replicate_succ', List.foldl_append]
  rfl

theorem single_sampleRun {times : Nat} (small : times < u64Max) : Single (sampleRun (times + 1)) (times + 1) := by
  induction times with
  | zero => exact ⟨by decide, by decide⟩
  | succ times ih =>
    rw [sampleRun_succ]
    exact (ih (by omega)).loadBlock (by omega)

/-- When the block is used once more as the clock wraps, its entry has two live stamps. -/
theorem block_cache_fails : (sampleRun (u64Max + 1)).values = [(sampleKey, ⟨sampleBlock, 1⟩)] ∧
    (sampleRun (u64Max + 1)).order.count (1, sampleKey) = 2 ∧ ¬ (sampleRun (u64Max + 1)).Accounted := by
  have before : u64Max - 1 < u64Max := by decide
  have last : Single (sampleRun u64Max) u64Max := single_sampleRun before
  obtain ⟨values, order⟩ := last.loadBlock_wraps
  rw [sampleRun_succ]
  have twice : ((sampleRun u64Max).loadBlock sampleDecode sampleKey).2.order.count (1, sampleKey) = 2 := by
    rw [order]
    decide
  refine ⟨values, twice, fun accounted => ?_⟩
  have once := accounted.live _ (values ▸ List.mem_cons_self ..)
  rw [twice] at once
  exact absurd once (by decide)

/-- A block that was loaded once. -/
theorem block_cache_sample : (sampleRun 1).residentBytes = 5 ∧ (sampleRun 1).Accounted := by
  have sound : BlockCache.Sound sampleDecode (BlockCache.new 1024) sampleKey :=
    ⟨fun both => absurd both.1 (by decide), fun _ _ _ => ⟨.inl (by decide), by decide⟩⟩
  obtain ⟨-, accounted, -⟩ := block_cache sampleDecode 1024 (by decide) _ (.load sampleKey .new sound)
  exact ⟨by decide, accounted⟩

end Vyrm.Kv
