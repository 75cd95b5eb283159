import Vyrm.Kv.Error

/-!
# Control lines

`read_control_line` of `crates/vyrm-cluster/src/node_runtime.rs`: the lines of a stream that a buffered reader
hands out in chunks. A line that is too long is reported as such, and costs no more than the limit to skip.
-/

namespace Vyrm.Cluster
open Lib
open Vyrm.Kv (saturatingAdd)

/-- `VYRM_NODE_MAX_CONTROL_LINE_BYTES` (`node_runtime.rs:33`). -/
def maxControlLineBytes : Nat := 1024 * 1024

/-! ## The reader -/

/-- A buffered reader, as the chunks its buffer is filled with. -/
abbrev BufReader := List Bytes

namespace BufReader

/-- `fill_buf`: what is buffered, and nothing at the end of the stream only. -/
def fillBuf : BufReader → Bytes
  | [] => []
  | chunk :: rest => if chunk = [] then fillBuf rest else chunk

/-- `consume`. -/
def consume : BufReader → Nat → BufReader
  | [], _ => []
  | chunk :: rest, amount => if chunk = [] then consume rest amount else chunk.drop amount :: rest

/-- What is left of the stream. -/
def stream (reader : BufReader) : Bytes := reader.flatten

theorem fillBuf_eq_nil {reader : BufReader} : reader.fillBuf = [] ↔ reader.stream = [] := by
  induction reader with
  | nil => exact Iff.rfl
  | cons chunk rest ih =>
    rw [fillBuf]
    by_cases empty : chunk = []
    · simpa [stream, empty] using ih
    · simp [stream, empty]

/-- The stream begins with what is buffered. -/
theorem fillBuf_append (reader : BufReader) : ∃ behind, reader.stream = reader.fillBuf ++ behind ∧
    ∀ amount ≤ reader.fillBuf.length, (reader.consume amount).stream = reader.fillBuf.drop amount ++ behind := by
  induction reader with
  | nil => exact ⟨[], rfl, fun amount _ => by simp [consume, fillBuf, stream]⟩
  | cons chunk rest ih =>
    by_cases empty : chunk = []
    · obtain ⟨behind, same, consumed⟩ := ih
      refine ⟨behind, ?_, ?_⟩
      · simpa [stream, fillBuf, empty] using same
      · simpa [stream, fillBuf, consume, empty] using consumed
    · exact ⟨rest.flatten, by simp [stream, fillBuf, empty], fun amount _ => by simp [stream, fillBuf, consume, empty]⟩

end BufReader

/-! ## One line -/

/-- The first newline, and what stands before it. -/
theorem findNewline (bytes : Bytes) : (bytes.findIdx? (· = 10) = none ∧ 10 ∉ bytes) ∨
    ∃ content more, bytes = content ++ 10 :: more ∧ 10 ∉ content ∧ bytes.findIdx? (· = 10) = some content.length := by
  induction bytes with
  | nil => exact .inl ⟨rfl, List.not_mem_nil⟩
  | cons byte bytes ih =>
    by_cases here : byte = 10
    · exact .inr ⟨[], bytes, by rw [here, List.nil_append], List.not_mem_nil, by simp [List.findIdx?_cons, here]⟩
    · rcases ih with ⟨found, absent⟩ | ⟨content, more, same, absent, found⟩
      · exact .inl ⟨by simp [List.findIdx?_cons, here, found], by simp [Ne.symm here, absent]⟩
      · refine .inr ⟨byte :: content, more, by rw [same, List.cons_append], ?_, ?_⟩
        · simp [Ne.symm here, absent]
        · simp [List.findIdx?_cons, here, found]

/-- How much a turn of the loop consumes, of what is buffered. -/
def consumedOf (available : Bytes) : Nat := (available.findIdx? (· = 10)).elim available.length (· + 1)

theorem consumedOf_le (available : Bytes) : consumedOf available ≤ available.length := by
  rw [consumedOf]
  rcases findNewline available with ⟨found, -⟩ | ⟨content, more, same, -, found⟩
  · rw [found]
    exact Nat.le_refl _
  · rw [found, same]
    simp

theorem consumedOf_pos {available : Bytes} (some_ : available ≠ []) : 0 < consumedOf available := by
  rw [consumedOf]
  cases available.findIdx? (· = 10) with
  | none => exact List.length_pos_iff.mpr some_
  | some index => exact Nat.succ_pos _

theorem stream_consume_lt {reader : BufReader} (some_ : reader.fillBuf ≠ []) :
    (reader.consume (consumedOf reader.fillBuf)).stream.length < reader.stream.length := by
  obtain ⟨behind, same, consumed⟩ := reader.fillBuf_append
  have positive := consumedOf_pos some_
  have bound := consumedOf_le reader.fillBuf
  rw [consumed _ bound, same, List.length_append, List.length_append, List.length_drop]
  omega

/-- What a call returns: the line, or that it was too long. -/
abbrev ControlLine := Except Unit Bytes

/-- The line so far, with more content; an oversized line is dropped (`node_runtime.rs:379-391`). -/
def extendLine (line : Bytes) (oversized : Bool) (content : Bytes) : Bytes × Bool :=
  if oversized then (line, oversized)
  else if maxControlLineBytes < saturatingAdd line.length content.length then ([], true)
  else (line ++ content, oversized)

/-- The loop of `read_control_line` (`node_runtime.rs:371-412`), with the line so far. -/
def readControlLineFrom (line : Bytes) (oversized : Bool) (reader : BufReader) : Option ControlLine × BufReader :=
  let available := reader.fillBuf
  if available = [] then
    if line = [] ∧ ¬ oversized then (none, reader)
    else if oversized then (some (.error ()), reader)
    else (some (.ok line), reader)
  else
    let newline := available.findIdx? (· = 10)
    let consumed := consumedOf available
    let content := if newline.isSome then available.take (consumed - 1) else available.take consumed
    let (line, oversized) := extendLine line oversized content
    if newline.isSome then (some (if oversized then .error () else .ok line), reader.consume consumed)
    else readControlLineFrom line oversized (reader.consume consumed)
termination_by reader.stream.length
decreasing_by
  exact stream_consume_lt ‹_›

/-- `read_control_line` (`node_runtime.rs:366-413`). -/
def readControlLine (reader : BufReader) : Option ControlLine × BufReader := readControlLineFrom [] false reader

/-- What the `n`th call returns. -/
def controlLineAt : Nat → BufReader → Option ControlLine
  | 0, reader => (readControlLine reader).1
  | n + 1, reader => controlLineAt n (readControlLine reader).2

/-! ## The lines of a stream -/

/-- The lines of a stream, separated by newlines; behind the last newline there is a line only if there are bytes. -/
def linesOf (stream : Bytes) : List Bytes :=
  let pieces := stream.splitOn 10
  if pieces.getLast? = some [] then pieces.dropLast else pieces

/-- A line, unless its content exceeds the limit. -/
def controlLine (line : Bytes) : ControlLine := if maxControlLineBytes < line.length then .error () else .ok line

theorem linesOf_nil : linesOf [] = [] := rfl

theorem linesOf_last {stream : Bytes} (some_ : stream ≠ []) (absent : 10 ∉ stream) : linesOf stream = [stream] := by
  rw [linesOf, List.splitOn_eq_singleton absent]
  simp [some_]

theorem linesOf_cons {content rest : Bytes} (absent : 10 ∉ content) :
    linesOf (content ++ 10 :: rest) = content :: linesOf rest := by
  rw [linesOf, linesOf, List.splitOn_append_cons_self_of_not_mem absent, List.getLast?_cons_of_ne_nil (List.splitOn_ne_nil _ _)]
  split
  · rw [List.dropLast_cons_of_ne_nil (List.splitOn_ne_nil _ _)]
  · rfl

/-! ## The calls -/

/-- What the loop holds of the bytes of a line. -/
def held (seen : Bytes) : Bytes × Bool :=
  if maxControlLineBytes < seen.length then ([], true) else (seen, false)

theorem extendLine_held (seen content : Bytes) :
    extendLine (held seen).1 (held seen).2 content = held (seen ++ content) := by
  by_cases large : maxControlLineBytes < seen.length
  · have larger : maxControlLineBytes < (seen ++ content).length := by
      rw [List.length_append]
      omega
    simp only [held, extendLine, if_pos large, if_pos larger, if_true]
  · have same : maxControlLineBytes < saturatingAdd seen.length content.length ↔
        maxControlLineBytes < (seen ++ content).length := by
      rw [saturatingAdd, List.length_append, maxControlLineBytes, Kv.u64Max]
      omega
    simp only [held, extendLine, if_neg large, same, Bool.false_eq_true, if_false]

theorem held_line (seen : Bytes) :
    (if (held seen).2 then Except.error () else Except.ok (held seen).1) = controlLine seen := by
  rw [held, controlLine]
  split <;> rfl

/-- The loop, with the bytes of the line that it has seen: it ends with the stream, or at the next newline. -/
theorem readControlLineFrom_eq (seen : Bytes) (reader : BufReader) :
    let call := readControlLineFrom (held seen).1 (held seen).2 reader
    (10 ∉ reader.stream ∧ call.2.stream = [] ∧
      call.1 = if seen ++ reader.stream = [] then none else some (controlLine (seen ++ reader.stream))) ∨
    ∃ content, 10 ∉ content ∧ reader.stream = content ++ 10 :: call.2.stream ∧
      call.1 = some (controlLine (seen ++ content)) := by
  generalize size : reader.stream.length = n
  induction n using Nat.strong_induction_on generalizing seen reader with
  | _ n ih =>
  rw [readControlLineFrom]
  by_cases atEnd : reader.fillBuf = []
  · left
    have ended := BufReader.fillBuf_eq_nil.mp atEnd
    rw [if_pos atEnd, ended, List.append_nil]
    by_cases large : maxControlLineBytes < seen.length
    · have some_ : seen ≠ [] := by
        rintro rfl
        exact absurd large (Nat.not_lt_zero _)
      simp [held, controlLine, large, some_, ended]
    · by_cases empty : seen = []
      · simp [held, empty, ended]
      · simp [held, controlLine, large, empty, ended]
  · rw [if_neg atEnd]
    obtain ⟨behind, same, consumed⟩ := reader.fillBuf_append
    have shorter := stream_consume_lt atEnd
    have left_ := consumed _ (consumedOf_le reader.fillBuf)
    rcases findNewline reader.fillBuf with ⟨found, absent⟩ | ⟨content, more, available, absent, found⟩
    · -- the chunk belongs to the line as a whole
      have whole : consumedOf reader.fillBuf = reader.fillBuf.length := by
        rw [consumedOf, found]
        rfl
      rw [whole, List.drop_length, List.nil_append] at left_
      simp only [found, Option.isSome_none, Bool.false_eq_true, if_false, whole, List.take_length, extendLine_held]
      rw [whole] at shorter
      have later := ih _ (size ▸ shorter) (seen ++ reader.fillBuf) (reader.consume reader.fillBuf.length) rfl
      rw [left_, List.append_assoc, ← same] at later
      rcases later with ⟨none_, ended, result⟩ | ⟨content, before, rest, result⟩
      · refine .inl ⟨?_, ended, result⟩
        rw [same, List.mem_append, not_or]
        exact ⟨absent, none_⟩
      · refine .inr ⟨reader.fillBuf ++ content, ?_, ?_, ?_⟩
        · rw [List.mem_append, not_or]
          exact ⟨absent, before⟩
        · rw [same, List.append_assoc, ← rest]
        · rw [← List.append_assoc]
          exact result
    · -- the line ends in the chunk
      have upTo : consumedOf reader.fillBuf = content.length + 1 := by
        rw [consumedOf, found]
        rfl
      have before : reader.fillBuf.take content.length = content := by
        rw [available, List.take_left]
      have after : reader.fillBuf.drop (content.length + 1) = more := by
        rw [available, ← List.drop_drop, List.drop_left, List.drop_succ_cons, List.drop_zero]
      rw [upTo, after] at left_
      simp only [found, Option.isSome_some, if_true, upTo, Nat.add_sub_cancel, before, extendLine_held, held_line]
      refine .inr ⟨content, absent, ?_, rfl⟩
      rw [left_, same, available, List.append_assoc, List.cons_append]

/-- A call reads the first line, and leaves the others. -/
theorem readControlLine_eq (reader : BufReader) :
    (readControlLine reader).1 = (linesOf reader.stream).head?.map controlLine ∧
    linesOf (readControlLine reader).2.stream = (linesOf reader.stream).tail := by
  rcases readControlLineFrom_eq [] reader with ⟨absent, ended, result⟩ | ⟨content, absent, same, result⟩
  · by_cases empty : reader.stream = []
    · rw [empty] at result ⊢
      exact ⟨result, congrArg linesOf ended⟩
    · rw [linesOf_last empty absent]
      rw [List.nil_append, if_neg empty] at result
      exact ⟨result, congrArg linesOf ended⟩
  · rw [same, linesOf_cons absent]
    exact ⟨result, rfl⟩

/-- Reading control lines: however the stream is buffered, the calls return its lines in order, each of them as too
long exactly when its content exceeds the limit, and then the end. -/
theorem control_lines (reader : BufReader) (n : Nat) :
    controlLineAt n reader = ((linesOf reader.stream).map controlLine)[n]? := by
  induction n generalizing reader with
  | zero =>
    rw [controlLineAt, (readControlLine_eq reader).1, List.getElem?_map, List.head?_eq_getElem?]
  | succ n ih =>
    rw [controlLineAt, ih, (readControlLine_eq reader).2, List.getElem?_map, List.getElem?_map, List.getElem?_tail]

end Vyrm.Cluster
