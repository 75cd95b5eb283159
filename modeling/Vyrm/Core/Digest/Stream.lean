import Vyrm.Core.Digest

/-!
# Streaming SHA-256

`Sha256` of `crates/vyrm-core/src/digest.rs`: a digest that is fed piece by piece. Between two updates it
holds the state after the whole blocks so far, and the bytes behind them.
-/

namespace Vyrm.Core
open Lib

/-- `Sha256` (`digest.rs:25-31`). -/
structure Sha256 where
  state : DigestState
  buffer : Bytes
  buffered : Nat
  length : Nat

/-- `buffer[start..start + bytes.len()].copy_from_slice(bytes)`. -/
def copyAt (buffer : Bytes) (start : Nat) (bytes : Bytes) : Bytes :=
  buffer.take start ++ bytes ++ buffer.drop (start + bytes.length)

/-- The loop over whole blocks (`digest.rs:68-72`): the state behind them, and the input that is left. -/
def compressBlocks (state : DigestState) (input : Bytes) : DigestState × Bytes :=
  if 64 ≤ input.length then compressBlocks (state.compress (input.take 64)) (input.drop 64) else (state, input)
termination_by input.length
decreasing_by
  rw [List.length_drop]
  omega

namespace Sha256

/-- `new` (`digest.rs:40-47`). -/
def new : Sha256 := ⟨.initial, List.replicate 64 0, 0, 0⟩

/-- The end of `update`, which starts with an empty buffer (`digest.rs:68-74`). -/
def updateBlocks (self : Sha256) (input : Bytes) : Sha256 :=
  let (state, rest) := compressBlocks self.state input
  { self with state, buffer := copyAt self.buffer 0 rest, buffered := rest.length }

/-- `update` (`digest.rs:49-75`); it panics when the length does not fit. -/
def update (self : Sha256) (input : Bytes) : Option Sha256 :=
  if 2 ^ 64 ≤ self.length + input.length then none
  else
    let self := { self with length := self.length + input.length }
    if self.buffered ≠ 0 then
      let take := min (64 - self.buffered) input.length
      let self := { self with
        buffer := copyAt self.buffer self.buffered (input.take take)
        buffered := self.buffered + take }
      if self.buffered = 64 then
        some (updateBlocks { self with state := self.state.compress self.buffer, buffered := 0 } (input.drop take))
      else some self
    else some (self.updateBlocks input)

/-- `finalize` (`digest.rs:75-97`). -/
def finalize (self : Sha256) : Bytes :=
  let bitLen := self.length * 8 % 2 ^ 64
  let buffer := copyAt self.buffer self.buffered [0x80]
  let buffered := self.buffered + 1
  let (state, buffer) :=
    if 56 < buffered then
      (self.state.compress (copyAt buffer buffered (List.replicate (64 - buffered) 0)), List.replicate 64 0)
    else (self.state, copyAt buffer buffered (List.replicate (56 - buffered) 0))
  (state.compress (copyAt buffer 56 (toBE 8 bitLen))).output

/-- The digest of the chunks of a message. -/
def ofChunks (chunks : List Bytes) : Option Bytes := (chunks.foldlM update new).map finalize

/-- `sha256` (`digest.rs:105-109`): the message in one chunk. -/
def oneShot (input : Bytes) : Option Bytes := (new.update input).map finalize

end Sha256

/-! ## Blocks -/

/-- Whole blocks first, and then the blocks of the rest. -/
theorem DigestState.absorb_append (state : DigestState) {whole : Bytes} {blocks : Nat}
    (size : whole.length = 64 * blocks) (more : Nat) (rest : Bytes) :
    state.absorb (blocks + more) (whole ++ rest) = (state.absorb blocks whole).absorb more rest := by
  induction blocks generalizing state whole with
  | zero =>
    obtain rfl := List.length_eq_zero_iff.mp size
    simp [absorb]
  | succ blocks ih =>
    have long : 64 ≤ whole.length := by omega
    have left : (whole.drop 64).length = 64 * blocks := by
      rw [List.length_drop]
      omega
    rw [Nat.add_right_comm, absorb, absorb, List.take_append_of_le_length long, List.drop_append_of_le_length long,
      ih _ left]

theorem DigestState.absorb_block (state : DigestState) {block : Bytes} (size : block.length = 64) :
    state.absorb 1 block = state.compress block := by
  rw [absorb, absorb, List.take_of_length_le (Nat.le_of_eq size)]

theorem compressBlocks_eq (state : DigestState) (input : Bytes) :
    ∃ whole rest blocks, input = whole ++ rest ∧ whole.length = 64 * blocks ∧ rest.length < 64 ∧
      compressBlocks state input = (state.absorb blocks whole, rest) := by
  induction state, input using compressBlocks.induct with
  | case1 state input long ih =>
    obtain ⟨whole, rest, blocks, same, size, short, run⟩ := ih
    have first : (input.take 64).length = 64 * 1 := by
      rw [List.length_take]
      omega
    refine ⟨input.take 64 ++ whole, rest, 1 + blocks, ?_, ?_, short, ?_⟩
    · rw [List.append_assoc, ← same, List.take_append_drop]
    · rw [List.length_append, first, size]
      omega
    · rw [compressBlocks, if_pos long, run, DigestState.absorb_append state first, DigestState.absorb_block state first]
  | case2 state input short =>
    refine ⟨[], input, 0, rfl, rfl, Nat.not_le.mp short, ?_⟩
    rw [compressBlocks, if_neg short, DigestState.absorb]

section

variable {buffer bytes : Bytes} {start : Nat}

theorem length_copyAt (fits : start + bytes.length ≤ buffer.length) :
    (copyAt buffer start bytes).length = buffer.length := by
  simp only [copyAt, List.length_append, List.length_take, List.length_drop]
  omega

/-- What was copied, behind what stood before it. -/
theorem take_copyAt (fits : start + bytes.length ≤ buffer.length) :
    (copyAt buffer start bytes).take (start + bytes.length) = buffer.take start ++ bytes := by
  apply List.take_left'
  simp only [List.length_append, List.length_take]
  omega

theorem copyAt_full (fits : start + bytes.length = buffer.length) :
    copyAt buffer start bytes = buffer.take start ++ bytes := by
  rw [copyAt, List.drop_of_length_le (Nat.le_of_eq fits.symm), List.append_nil]

end

/-! ## Updates -/

namespace Sha256

/-- The digest was fed a message: it compressed its whole blocks, and buffered the rest. -/
structure Fed (digest : Sha256) (message : Bytes) : Prop where
  length : digest.length = message.length
  bounded : message.length < 2 ^ 64
  size : digest.buffer.length = 64
  room : digest.buffered < 64
  blocks : ∃ whole blocks, message = whole ++ digest.buffer.take digest.buffered ∧ whole.length = 64 * blocks ∧
    digest.state = DigestState.initial.absorb blocks whole

theorem fed_new : new.Fed [] := ⟨rfl, Nat.pow_pos (Nat.succ_pos 1), rfl, Nat.succ_pos _, [], 0, rfl, rfl, rfl⟩

/-- The loop, behind whole blocks. -/
theorem fed_updateBlocks {digest : Sha256} {whole input : Bytes} {blocks : Nat}
    (length : digest.length = (whole ++ input).length) (bounded : (whole ++ input).length < 2 ^ 64)
    (size : digest.buffer.length = 64) (aligned : whole.length = 64 * blocks) (state : digest.state = DigestState.initial.absorb blocks whole) :
    (digest.updateBlocks input).Fed (whole ++ input) := by
  obtain ⟨first, rest, more, same, firstSize, short, run⟩ := compressBlocks_eq digest.state input
  have fits : 0 + rest.length ≤ digest.buffer.length := by omega
  have updated : digest.updateBlocks input =
      { digest with
        state := digest.state.absorb more first
        buffer := copyAt digest.buffer 0 rest
        buffered := rest.length } := by
    rw [updateBlocks, run]
  rw [updated]
  refine ⟨length, bounded, (length_copyAt fits).trans size, short, whole ++ first, blocks + more, ?_, ?_, ?_⟩
  · have kept := take_copyAt fits
    rw [Nat.zero_add, List.take_zero, List.nil_append] at kept
    rw [kept, same, List.append_assoc]
  · rw [List.length_append, aligned, firstSize, Nat.mul_add]
  · rw [DigestState.absorb_append _ aligned, ← state]

/-- An update feeds the rest of the message, if its length fits. -/
theorem Fed.update {digest : Sha256} {message : Bytes} (fed : digest.Fed message) {input : Bytes}
    (fits : (message ++ input).length < 2 ^ 64) :
    ∃ next, digest.update input = some next ∧ next.Fed (message ++ input) := by
  obtain ⟨whole, blocks, same, aligned, state⟩ := fed.blocks
  have room := fed.room
  have size := fed.size
  have length : digest.length + input.length = (message ++ input).length := by
    rw [fed.length, List.length_append]
  rw [Sha256.update, if_neg (by omega)]
  by_cases empty : digest.buffered = 0
  · refine ⟨_, if_neg (not_not.mpr empty), ?_⟩
    rw [empty, List.take_zero, List.append_nil] at same
    subst same
    exact fed_updateBlocks length fits size aligned state
  dsimp only
  rw [if_pos empty]
  have buffered : (digest.buffer.take digest.buffered).length = digest.buffered := by
    rw [List.length_take]
    omega
  by_cases fills : 64 - digest.buffered ≤ input.length
  · -- the buffer is filled and compressed
    have taken : (input.take (64 - digest.buffered)).length = 64 - digest.buffered := List.length_take_of_le fills
    rw [Nat.min_eq_left fills, if_pos (by omega), copyAt_full (by omega)]
    refine ⟨_, rfl, ?_⟩
    have block : (digest.buffer.take digest.buffered ++ input.take (64 - digest.buffered)).length = 64 := by
      rw [List.length_append]
      omega
    have split : message ++ input = (whole ++ (digest.buffer.take digest.buffered ++ input.take (64 - digest.buffered))) ++
        input.drop (64 - digest.buffered) := by
      rw [List.append_assoc, List.append_assoc, List.take_append_drop, ← List.append_assoc, ← same]
    rw [split]
    rw [split] at length fits
    have aligned' : (whole ++ (digest.buffer.take digest.buffered ++ input.take (64 - digest.buffered))).length =
        64 * (blocks + 1) := by
      rw [List.length_append, aligned, block]
      omega
    apply fed_updateBlocks length fits block aligned'
    rw [DigestState.absorb_append _ aligned, DigestState.absorb_block _ block, state]
  · -- all of the input fits the buffer
    have short := Nat.lt_of_not_le fills
    rw [Nat.min_eq_right (by omega), if_neg (by omega), List.take_length]
    refine ⟨_, rfl, length, fits, ?_, ?_, whole, blocks, ?_, aligned, state⟩
    · exact (length_copyAt (by omega)).trans size
    · show digest.buffered + input.length < 64
      omega
    · show message ++ input = whole ++ (copyAt digest.buffer digest.buffered input).take (digest.buffered + input.length)
      rw [take_copyAt (by omega), ← List.append_assoc, ← same]

/-- The length does not fit. -/
theorem Fed.update_none {digest : Sha256} {message : Bytes} (fed : digest.Fed message) {input : Bytes}
    (large : 2 ^ 64 ≤ (message ++ input).length) : digest.update input = none := by
  rw [List.length_append, ← fed.length] at large
  exact if_pos large

end Sha256

/-! ## The end -/

/-- The blocks of a message of whole blocks. -/
def blocksOf (message : Bytes) : List Bytes :=
  (List.range (message.length / 64)).map fun index => (message.drop (64 * index)).take 64

/-- A message padded to whole blocks: a one bit, the fewest zero bits that leave eight bytes of the last block,
and in these the number of bits. -/
def padded (message : Bytes) : Bytes :=
  let zeros := ((55 - message.length : Int) % 64).toNat
  message ++ 0x80 :: (List.replicate zeros 0 ++ toBE 8 (8 * message.length))

/-- The digest as the standard defines it: the padded message, compressed block by block. -/
def paddedDigest (message : Bytes) : Bytes :=
  ((blocksOf (padded message)).foldl DigestState.compress .initial).output

theorem DigestState.absorb_eq_foldl (state : DigestState) (message : Bytes) (blocks : Nat) :
    state.absorb blocks message =
      ((List.range blocks).map fun index => (message.drop (64 * index)).take 64).foldl compress state := by
  induction blocks generalizing state message with
  | zero => rfl
  | succ blocks ih =>
    rw [absorb, ih, List.range_succ_eq_map, List.map_cons, List.foldl_cons, List.map_map]
    congr 2
    funext index
    simp only [Function.comp_apply, List.drop_drop, Nat.mul_succ, Nat.add_comm]

/-- The padding of `finalize` is the shortest one. -/
theorem padding_eq (length : Nat) : padding length =
    0x80 :: (List.replicate ((55 - length : Int) % 64).toNat 0 ++ toBE 8 (length * 8 % 2 ^ 64)) := by
  rw [padding]
  congr 3
  omega

theorem length_padding (length : Nat) : (length + (padding length).length) % 64 = 0 := by
  simp only [padding, List.length_cons, List.length_append, List.length_replicate, length_toBE]
  omega

/-- Up to a length whose bits fit the last eight bytes, `sha256` is the digest of the padded message. -/
theorem sha256_eq_padded {message : Bytes} (short : message.length < 2 ^ 61) :
    sha256 message = paddedDigest message := by
  have bits : message.length * 8 % 2 ^ 64 = 8 * message.length := by omega
  have same : padded message = message ++ padding message.length := by
    rw [padded, padding_eq, bits]
  rw [paddedDigest, blocksOf, same, ← DigestState.absorb_eq_foldl, sha256]

namespace Sha256

/-- The block or two that `finalize` compresses are the rest of the message and its padding. -/
theorem Fed.finalize {digest : Sha256} {message : Bytes} (fed : digest.Fed message) :
    digest.finalize = sha256 message := by
  obtain ⟨whole, blocks, same, aligned, state⟩ := fed.blocks
  have room := fed.room
  have size := fed.size
  generalize rest : digest.buffer.take digest.buffered = tail at same
  have short : tail.length = digest.buffered := by
    rw [← rest, List.length_take]
    omega
  have total : message.length = 64 * blocks + digest.buffered := by
    rw [same, List.length_append, aligned, short]
  generalize bits : toBE 8 (message.length * 8 % 2 ^ 64) = last
  have lastSize : last.length = 8 := by rw [← bits, length_toBE]
  have fits : digest.buffered + [(0x80 : UInt8)].length ≤ digest.buffer.length := by
    rw [List.length_singleton, size]
    omega
  have marked : (copyAt digest.buffer digest.buffered [0x80]).take (digest.buffered + 1) = tail ++ [0x80] := by
    rw [← rest]
    exact take_copyAt fits
  have markedSize : (copyAt digest.buffer digest.buffered [0x80]).length = 64 := (length_copyAt fits).trans size
  have message_eq : sha256 message =
      ((digest.state.absorb ((tail ++ padding message.length).length / 64) (tail ++ padding message.length))).output := by
    have whole_eq : (message ++ padding message.length).length / 64 =
        blocks + (tail ++ padding message.length).length / 64 := by
      rw [same, List.append_assoc, List.length_append, aligned]
      omega
    rw [sha256, whole_eq]
    conv_lhs => rw [same, List.append_assoc, ← same]
    rw [DigestState.absorb_append _ aligned, ← state]
  rw [message_eq, Sha256.finalize, fed.length]
  dsimp only
  rw [bits]
  by_cases second : 56 < digest.buffered + 1
  · rw [if_pos second]
    dsimp only
    have zeros : (119 - message.length % 64) % 64 = (64 - (digest.buffered + 1)) + 56 := by omega
    have split : tail ++ padding message.length =
        (tail ++ [0x80] ++ List.replicate (64 - (digest.buffered + 1)) 0) ++ (List.replicate 56 0 ++ last) := by
      rw [padding, zeros, bits, ← List.replicate_append_replicate]
      simp
    have firstSize : (tail ++ [0x80] ++ List.replicate (64 - (digest.buffered + 1)) 0).length = 64 * 1 := by
      simp only [List.length_append, List.length_replicate, List.length_singleton]
      omega
    have count : (tail ++ padding message.length).length / 64 = 1 + 1 := by
      rw [split, List.length_append, firstSize, List.length_append, List.length_replicate, lastSize]
    rw [count, split, DigestState.absorb_append _ firstSize, DigestState.absorb_block _ firstSize,
      DigestState.absorb_block _ (by simp [lastSize])]
    rw [copyAt_full (by simp [markedSize]; omega), marked, copyAt_full (by simp [lastSize])]
    rfl
  · rw [if_neg second]
    dsimp only
    have zeros : (119 - message.length % 64) % 64 = 56 - (digest.buffered + 1) := by omega
    have block : tail ++ padding message.length =
        tail ++ [0x80] ++ List.replicate (56 - (digest.buffered + 1)) 0 ++ last := by
      rw [padding, zeros, bits]
      simp
    have blockSize : (tail ++ [0x80] ++ List.replicate (56 - (digest.buffered + 1)) 0 ++ last).length = 64 := by
      simp only [List.length_append, List.length_replicate, List.length_singleton]
      omega
    have room' : digest.buffered + 1 + (56 - (digest.buffered + 1)) = 56 := by omega
    have filled : (copyAt (copyAt digest.buffer digest.buffered [0x80]) (digest.buffered + 1)
        (List.replicate (56 - (digest.buffered + 1)) 0)).take 56 =
        tail ++ [0x80] ++ List.replicate (56 - (digest.buffered + 1)) 0 := by
      rw [← marked]
      convert take_copyAt _ using 2
      · rw [List.length_replicate, room']
      · rw [List.length_replicate]
        omega
    have filledSize : (copyAt (copyAt digest.buffer digest.buffered [0x80]) (digest.buffered + 1)
        (List.replicate (56 - (digest.buffered + 1)) 0)).length = 64 :=
      (length_copyAt (by rw [List.length_replicate]; omega)).trans markedSize
    rw [block, blockSize, Nat.div_self (by decide), DigestState.absorb_block _ blockSize, copyAt_full (by omega), filled]

/-- Chunks after a message that was fed. -/
theorem Fed.foldlM {digest : Sha256} {message : Bytes} (fed : digest.Fed message) (chunks : List Bytes) :
    (chunks.foldlM Sha256.update digest).map Sha256.finalize =
      if (message ++ chunks.flatten).length < 2 ^ 64 then some (sha256 (message ++ chunks.flatten)) else none := by
  induction chunks generalizing digest message with
  | nil =>
    rw [List.flatten_nil, List.append_nil, if_pos fed.bounded, ← fed.finalize]
    rfl
  | cons chunk chunks ih =>
    rw [List.foldlM_cons, List.flatten_cons, ← List.append_assoc]
    by_cases fits : (message ++ chunk).length < 2 ^ 64
    · obtain ⟨next, updated, fed⟩ := fed.update fits
      rw [updated]
      exact ih fed
    · rw [fed.update_none (Nat.not_lt.mp fits), if_neg]
      · rfl
      · rw [List.length_append]
        omega

end Sha256

end Vyrm.Core
