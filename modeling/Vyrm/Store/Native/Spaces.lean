import Vyrm.Core.Key.Order
import Vyrm.Kv.Database.Reads
import Vyrm.Store.Native.Rows
import Vyrm.Store.Native

/-!
# Isolation of keyspaces

All keyspaces of the native engine share the one ordered byte space of its database. The name of a
keyspace ends at the first NUL, so a scan from a storage key up to the end of a prefix meets the rows
of one keyspace only.
-/

namespace Vyrm.Store
open Lib Vyrm.Core

/-! ## Prefix ends -/

/-- The loop of `prefix_end` in `native.rs:1394-1404`, at the indices below the given one. -/
def prefixEndBelow (front : Bytes) : Nat → Option Bytes
  | 0 => none
  | index + 1 =>
    let byte := front.getD index 0
    if byte ≠ 0xFF then some ((front.set index (byte + 1)).take (index + 1))
    else prefixEndBelow front index

/-- `prefix_end` of the native engine, which has its own (`native.rs:1394-1404`). -/
def nativePrefixEnd (front : Bytes) : Option Bytes := prefixEndBelow front front.length

theorem prefixEndBelow_append (front rest : Bytes) {index : Nat} (within : index ≤ front.length) :
    prefixEndBelow (front ++ rest) index = prefixEndBelow front index := by
  induction index with
  | zero => rfl
  | succ index ih =>
    have here : (front ++ rest).getD index 0 = front.getD index 0 := by
      rw [List.getD_eq_getElem?_getD, List.getD_eq_getElem?_getD, List.getElem?_append_left (by omega)]
    rw [prefixEndBelow, prefixEndBelow, here, ih (by omega), List.set_append_left _ _ (by omega),
      List.take_append_of_le_length (by rw [List.length_set]; omega)]

/-- Both loops answer alike. -/
theorem nativePrefixEnd_eq (front : Bytes) : nativePrefixEnd front = prefixEnd front := by
  induction front using List.reverseRecOn with
  | nil => rfl
  | append_singleton front last ih =>
    have lastByte : (front ++ [last]).getD front.length 0 = last := by simp
    have small : last < 0xFF ↔ last ≠ 0xFF := by
      have top : (0xFF : UInt8).toNat = 255 := rfl
      have := last.toNat_lt
      rw [UInt8.lt_iff_toNat_lt, ne_eq, ← UInt8.toNat_inj, top]
      omega
    rw [prefixEnd_append_singleton, nativePrefixEnd, List.length_append, List.length_singleton, prefixEndBelow,
      lastByte]
    by_cases top : last = 0xFF
    · rw [if_neg (not_not.mpr top), if_neg (fun less => small.mp less top), ← ih, nativePrefixEnd]
      exact prefixEndBelow_append front [last] (Nat.le_refl _)
    · rw [if_pos top, if_pos (small.mpr top), List.take_of_length_le (by simp)]
      simp

/-- A prefix has no end exactly when all of its bytes are `0xFF`. -/
theorem prefixEnd_eq_none_iff {front : Bytes} : prefixEnd front = none ↔ ∀ byte ∈ front, byte = 0xFF := by
  induction front using List.reverseRecOn with
  | nil => simp [prefixEnd, prefixEndRev]
  | append_singleton front last ih =>
    rw [prefixEnd_append_singleton]
    split
    next small =>
      have lower : last ≠ 0xFF := fun top => absurd small (by rw [top]; decide)
      simp [lower]
    next high =>
      have top : last = 0xFF := by
        have bound : (0xFF : UInt8).toNat = 255 := rfl
        have := last.toNat_lt
        rw [UInt8.lt_iff_toNat_lt, bound] at high
        exact UInt8.toNat_inj.mp (by omega)
      simp [ih, top, or_imp]

/-- Nothing is above the keys with a prefix of `0xFF` bytes. -/
theorem isPrefix_of_prefixEnd_none {front key : Bytes} (endless : prefixEnd front = none) (above : front ≤ key) :
    front <+: key := by
  induction front using List.reverseRecOn with
  | nil => exact List.nil_prefix
  | append_singleton front last ih =>
    rw [prefixEnd_append_singleton] at endless
    split at endless
    · cases endless
    next high =>
      have top : last = 0xFF := by
        have bound : (0xFF : UInt8).toNat = 255 := rfl
        have := last.toNat_lt
        rw [UInt8.lt_iff_toNat_lt, bound] at high
        exact UInt8.toNat_inj.mp (by omega)
      exact isPrefix_append_singleton (ih endless (le_trans List.le_append_left above)) above (.inr top)

/-- The strings that start with a prefix are those from it up to its end, if it has one. -/
theorem isPrefix_iff_within (front key : Bytes) : front <+: key ↔ OrdMap.Within front (prefixEnd front) key := by
  have from_ : front <+: key → front ≤ key := by
    rintro ⟨rest, rfl⟩
    exact List.le_append_left
  cases ends : prefixEnd front with
  | none =>
    refine ⟨fun has => ⟨from_ has, nofun⟩, ?_⟩
    exact fun within => isPrefix_of_prefixEnd_none ends within.1
  | some stop =>
    constructor
    · intro has
      refine ⟨from_ has, ?_⟩
      rintro _ ⟨⟩
      exact (lt_prefixEnd_iff ends (from_ has)).mpr has
    · intro within
      exact (lt_prefixEnd_iff ends within.1).mp (within.2 stop rfl)

/-- Of the bounds above all strings that start with a prefix, its end is the least. -/
theorem prefixEnd_le_iff {front stop : Bytes} (ends : prefixEnd front = some stop) (bound : Bytes) :
    (∀ key, front <+: key → key < bound) ↔ stop ≤ bound := by
  constructor
  · intro above
    by_contra less
    have here : front ≤ bound := le_of_lt (above front (List.prefix_refl _))
    exact lt_irrefl bound (above bound ((lt_prefixEnd_iff ends here).mp (not_le.mp less)))
  · intro below key has
    have within := (isPrefix_iff_within front key).mp has
    exact lt_of_lt_of_le (within.2 stop ends) below

/-! ## Storage keys -/

theorem isPrefix_storageKey_iff {space : Keyspace} {front stored : Bytes} :
    storageKey space front <+: stored ↔ ∃ key, stored = storageKey space key ∧ front <+: key := by
  constructor
  · rintro ⟨rest, rfl⟩
    exact ⟨front ++ rest, by simp [storageKey], List.prefix_append _ _⟩
  · rintro ⟨_, rfl, rest, rfl⟩
    exact ⟨rest, by simp [storageKey]⟩

theorem storageKey_le_iff {space : Keyspace} {key key' : Bytes} :
    storageKey space key ≤ storageKey space key' ↔ key ≤ key' := by
  rw [← not_lt, ← not_lt, storageKey, storageKey, append_lt_append_left_iff]

/-- `strip_space` (`native.rs:1387-1392`). -/
def stripSpace (space : Keyspace) (stored : Bytes) : Except Error Bytes :=
  match stripFront (storageKey space []) stored with
  | some key => .ok key
  | none =>
    let name := String.ofList (space.name.map fun byte => Char.ofNat byte.toNat)
    .error (.substrate s!"key escaped native keyspace {name}")

theorem stripSpace_storageKey (space : Keyspace) (key : Bytes) : stripSpace space (storageKey space key) = .ok key := by
  have front : storageKey space [] <+: storageKey space key :=
    isPrefix_storageKey_iff.mpr ⟨key, rfl, List.nil_prefix⟩
  have rest : (storageKey space key).drop (storageKey space []).length = key := by simp [storageKey]
  simp [stripSpace, stripFront, front, rest]

theorem runtimeIdentityKey_inj {scope scope' : ScopeId} {reference reference' : RuntimeRef} :
    runtimeIdentityKey scope reference = runtimeIdentityKey scope' reference' ↔
      scope = scope' ∧ reference = reference' := by
  constructor
  · intro same
    simp only [runtimeIdentityKey, List.append_assoc, List.singleton_append] at same
    obtain ⟨scopes, same⟩ := separated_inj scope.sep_not_mem scope'.sep_not_mem same
    obtain ⟨kinds, ids⟩ := separated_inj reference.kind.sep_not_mem reference'.kind.sep_not_mem same
    obtain ⟨kind, id⟩ := reference
    obtain ⟨kind', id'⟩ := reference'
    exact ⟨Ident.bytes_inj.mp scopes,
      RuntimeRef.mk.injEq .. ▸ ⟨Ident.bytes_inj.mp kinds, Ident.bytes_inj.mp ids⟩⟩
  · rintro ⟨rfl, rfl⟩
    rfl

/-! ## Scans -/

namespace View

/-- A view whose scans list, in key order, what its point reads return. -/
def Ordered (view : View) : Prop :=
  ∀ start stop, ∃ pairs, view.scan start stop = .ok pairs ∧ pairs.Pairwise (fun a b => a.1 < b.1) ∧
    ∀ key value, (key, value) ∈ pairs ↔ OrdMap.Within start stop key ∧ view.get key = .ok (some value)

/-- A list of rows has, in key order, those of one keyspace whose key is among the wanted ones. -/
structure Lists (view : View) (space : Keyspace) (wanted : Bytes → Prop) (pairs : List (Bytes × Bytes)) : Prop where
  sorted : pairs.Pairwise fun a b => a.1 < b.1
  mem : ∀ stored value, (stored, value) ∈ pairs ↔
    ∃ key, stored = storageKey space key ∧ wanted key ∧ view.read space key = .ok (some value)

variable {view : View}

theorem read_ok_iff {space : Keyspace} {key : Bytes} {found : Option Bytes} :
    view.read space key = .ok found ↔ view.get (storageKey space key) = .ok found := by
  rw [read]
  cases view.get (storageKey space key) with
  | error e => simp [storage]
  | ok value => simp [storage]

/-- A scan lists the rows of a keyspace, when no other keyspace has keys in between. -/
theorem Ordered.lists (ordered : view.Ordered) (space : Keyspace) {start : Bytes} {stop : Option Bytes}
    {wanted : Bytes → Prop}
    (between : ∀ stored, OrdMap.Within start stop stored ↔ ∃ key, stored = storageKey space key ∧ wanted key) :
    ∃ pairs, storage (view.scan start stop) = .ok pairs ∧ view.Lists space wanted pairs := by
  obtain ⟨pairs, scanned, sorted, mem⟩ := ordered start stop
  refine ⟨pairs, by rw [scanned]; rfl, sorted, ?_⟩
  intro stored value
  rw [mem]
  constructor
  · rintro ⟨within, there⟩
    obtain ⟨key, rfl, isWanted⟩ := (between stored).mp within
    exact ⟨key, rfl, isWanted, read_ok_iff.mpr there⟩
  · rintro ⟨key, rfl, isWanted, there⟩
    exact ⟨(between _).mpr ⟨key, rfl, isWanted⟩, read_ok_iff.mp there⟩

theorem Ordered.scanSpace (ordered : view.Ordered) (space : Keyspace) (front : Bytes) :
    ∃ pairs, view.scanSpace space front = .ok pairs ∧ view.Lists space (fun key => front <+: key) pairs := by
  apply ordered.lists space
  intro stored
  rw [← isPrefix_iff_within, isPrefix_storageKey_iff]

theorem Ordered.scanSpaceFrom (ordered : view.Ordered) (space : Keyspace) (from_ : Bytes) :
    ∃ pairs, view.scanSpaceFrom space from_ = .ok pairs ∧ view.Lists space (fun key => from_ ≤ key) pairs := by
  apply ordered.lists space
  intro stored
  have start : storageKey space [] ≤ storageKey space from_ := storageKey_le_iff.mpr (by simp)
  constructor
  · intro within
    have inside : OrdMap.Within (storageKey space []) (prefixEnd (storageKey space [])) stored :=
      ⟨le_trans start within.1, within.2⟩
    rw [← isPrefix_iff_within, isPrefix_storageKey_iff] at inside
    obtain ⟨key, rfl, -⟩ := inside
    exact ⟨key, rfl, storageKey_le_iff.mp within.1⟩
  · rintro ⟨key, rfl, later⟩
    have inside := (isPrefix_iff_within (storageKey space []) (storageKey space key)).mp
      (isPrefix_storageKey_iff.mpr ⟨key, rfl, List.nil_prefix⟩)
    exact ⟨storageKey_le_iff.mpr later, inside.2⟩

end View

/-- The rows of a history, listed in key order. -/
theorem Rows.ordered_view (rows : Rows) : rows.view.Ordered := by
  intro start stop
  refine ⟨_, rfl, (OrdMap.isGraph_range rows start stop).sorted, ?_⟩
  intro key value
  rw [OrdMap.mem_range]
  simp [view]

/-- What a database answers at a snapshot. -/
def viewAt [Kv.Platform] (database : Kv.Database) (snapshot : Kv.Snapshot) : View where
  get key := database.get key snapshot
  scan start stop := database.scan start stop snapshot

theorem NativeEngine.view_eq [Kv.Platform] (engine : NativeEngine) :
    engine.view = viewAt engine.database engine.database.snapshot := rfl

section Runs

variable [Kv.Platform] {policy : Kv.Policy} {trace : List Kv.Event} {state : Kv.State}

theorem ordered_viewAt (run : Kv.Run policy trace state) (snapshot : Kv.Snapshot) :
    (viewAt state.db snapshot).Ordered := by
  intro start stop
  obtain ⟨pairs, scanned, sorted, mem⟩ := (Kv.read_paths_agree run snapshot [] start stop).2
  refine ⟨pairs, scanned, sorted, ?_⟩
  intro key value
  rw [mem, ← and_assoc]
  rfl

/-- Keys of different keyspaces and identities are different. In every state of every run, at every
snapshot, a scan of one keyspace lists the rows of that keyspace that start with the prefix, or that come
from the given key on, and no row of another one. The end of a prefix bounds what starts with it. -/
theorem keyspace_isolation (run : Kv.Run policy trace state) (snapshot : Kv.Snapshot) :
    (∀ (a b : Keyspace) (key key' : Bytes), storageKey a key = storageKey b key' ↔ a = b ∧ key = key') ∧
    (∀ (space : Keyspace) (key : Bytes), stripSpace space (storageKey space key) = .ok key) ∧
    (∀ (scope scope' : ScopeId) (reference reference' : RuntimeRef),
      runtimeIdentityKey scope reference = runtimeIdentityKey scope' reference' ↔
        scope = scope' ∧ reference = reference') ∧
    (∀ (space : Keyspace) (front : Bytes), ∃ pairs, (viewAt state.db snapshot).scanSpace space front = .ok pairs ∧
      (viewAt state.db snapshot).Lists space (fun key => front <+: key) pairs) ∧
    (∀ (space : Keyspace) (from_ : Bytes),
      ∃ pairs, (viewAt state.db snapshot).scanSpaceFrom space from_ = .ok pairs ∧
        (viewAt state.db snapshot).Lists space (fun key => from_ ≤ key) pairs) ∧
    (∀ front : Bytes, nativePrefixEnd front = prefixEnd front ∧
      (prefixEnd front = none ↔ ∀ byte ∈ front, byte = 0xFF) ∧
      (∀ key, front <+: key ↔ OrdMap.Within front (prefixEnd front) key) ∧
      ∀ stop ∈ prefixEnd front, ∀ bound, (∀ key, front <+: key → key < bound) ↔ stop ≤ bound) := by
  refine ⟨fun _ _ _ _ => storageKey_inj, stripSpace_storageKey, fun _ _ _ _ => runtimeIdentityKey_inj,
    (ordered_viewAt run snapshot).scanSpace, (ordered_viewAt run snapshot).scanSpaceFrom, ?_⟩
  intro front
  exact ⟨nativePrefixEnd_eq front, prefixEnd_eq_none_iff, isPrefix_iff_within front,
    fun _ ends => prefixEnd_le_iff ends⟩

end Runs

set_option maxRecDepth 100000 in
/-- Rows under one raw key in two keyspaces. -/
theorem keyspace_isolation_written : ∃ trace state, Kv.Run Kv.Calm trace state ∧
    ∃ pairs, (viewAt state.db ⟨2⟩).scanSpace .claims [97] = .ok pairs ∧
      (storageKey .claims [97], [1]) ∈ pairs ∧ ∀ value, (storageKey .access [97], value) ∉ pairs := by
  obtain ⟨trace, state, run, found⟩ := Kv.exists_run
    (fun _ state => state.db.get (storageKey .claims [97]) ⟨2⟩ == .ok (some [1]))
    (Kv.calm_of_quiet [.write ⟨[put .claims [97] [1], put .access [97] [2]]⟩ .authoritative])
    (by decide +kernel)
  have found : state.db.get (storageKey .claims [97]) ⟨2⟩ = .ok (some [1]) := eq_of_beq found
  obtain ⟨-, -, -, scans, -⟩ := keyspace_isolation run ⟨2⟩
  obtain ⟨pairs, scanned, lists⟩ := scans .claims [97]
  refine ⟨trace, state, run, pairs, scanned, (lists.mem _ _).mpr ⟨[97], rfl, List.prefix_refl _, ?_⟩, ?_⟩
  · exact View.read_ok_iff.mpr found
  · intro value listed
    obtain ⟨key, same, -⟩ := (lists.mem _ _).mp listed
    cases (storageKey_inj.mp same).1

end Vyrm.Store
