import Vyrm.Lib.Path
import Vyrm.Store.Fjall

/-!
# Group commit

`crates/vyrm-store/src/writer.rs`: claims are queued under one mutex and committed in
batches by one worker. What a caller or the worker does between taking the lock and
giving it up, or waiting, is one step; the append to the store happens outside the
lock and is a step of its own.
-/

namespace Vyrm.Store
open Lib Vyrm.Core

/-- `WriterConfig` (`writer.rs:60-67`), as `spawn` asserts it (`writer.rs:133-134`). The delay is
left out: a wait may time out at any moment. -/
structure WriterConfig where
  maxBatch : Nat
  queueCapacity : Nat
  maxBatch_pos : 0 < maxBatch
  queueCapacity_pos : 0 < queueCapacity

/-- `WriterStats` (`writer.rs:80-87`). -/
structure WriterStats where
  claimsSubmitted : Nat
  claimsCommitted : Nat
  batchesCommitted : Nat
  largestBatch : Nat
  backpressureWaits : Nat
  deriving DecidableEq

/-- `State` (`writer.rs:99-111`). The counters are not bounded. -/
structure WriterState where
  pending : List Claim
  submitted : Nat
  durableThrough : Nat
  stats : WriterStats
  failure : Option String
  flushRequested : Bool
  shutdown : Bool
  deriving DecidableEq

/-- Where the worker is: about to take the lock, waiting for work, in `append_batch`, or gone. -/
inductive Worker where
  | running
  | waiting
  | appending (batch : List Claim)
  | exited
  deriving DecidableEq

namespace WriterState

/-- The state of a new writer (`writer.rs:137-145`). -/
def new : WriterState :=
  { pending := [], submitted := 0, durableThrough := 0, stats := ⟨0, 0, 0, 0, 0⟩, failure := none,
    flushRequested := false, shutdown := false }

/-- One turn of `submit` (`writer.rs:180-212`): its result, unless it waits. -/
def submit (config : WriterConfig) (state : WriterState) (claim : Claim) :
    Option (Except Error Unit) × WriterState :=
  match claim.validate with
  | .error e => (some (.error (.kernel e)), state)
  | .ok () =>
    match state.failure with
    | some failure => (some (.error (.substrate failure)), state)
    | none =>
      if state.shutdown then (some (.error (.substrate "writer is shut down")), state)
      else if state.pending.length < config.queueCapacity then
        (some (.ok ()),
         { state with
           pending := state.pending ++ [claim]
           submitted := state.submitted + 1
           stats := { state.stats with claimsSubmitted := state.stats.claimsSubmitted + 1 } })
      else
        (none, { state with
          stats := { state.stats with backpressureWaits := state.stats.backpressureWaits + 1 } })

/-- The first turn of `flush` (`writer.rs:203-214`); its target is the number of claims submitted. -/
def flush (state : WriterState) : Option (Except Error Unit) × WriterState :=
  match state.failure with
  | some failure => (some (.error (.substrate failure)), state)
  | none =>
    if state.submitted ≤ state.durableThrough then (some (.ok ()), state)
    else (none, { state with flushRequested := true })

/-- A later turn of `flush` (`writer.rs:216-227`). -/
def flushWoken (state : WriterState) (target : Nat) : Option (Except Error Unit) :=
  if state.durableThrough < target then state.failure.map fun failure => .error (.substrate failure)
  else some (.ok ())

/-- Takes a batch off the queue (`writer.rs:317-321`). -/
def take (config : WriterConfig) (state : WriterState) : Worker × WriterState :=
  let count := min config.maxBatch state.pending.length
  let pending := state.pending.drop count
  (.appending (state.pending.take count),
   { state with
     pending
     flushRequested := if pending = [] then false else state.flushRequested })

/-- One turn of the worker (`writer.rs:287-324`). -/
def check (config : WriterConfig) (state : WriterState) (timedOut : Bool) : Worker × WriterState :=
  if timedOut ∧ state.pending ≠ [] then state.take config
  else if state.shutdown ∧ state.pending = [] then (.exited, state)
  else
    let state :=
      if state.pending = [] then { state with flushRequested := false } else state
    if state.pending ≠ [] ∧
        (config.maxBatch ≤ state.pending.length ∨ state.flushRequested ∨ state.shutdown) then
      state.take config
    else (.waiting, state)

/-- What the worker publishes after `append_batch` (`writer.rs:329-347`). `shown` is the text of an
error. -/
def publish (shown : Error → String) (state : WriterState) (batch : List Claim) :
    Except Error AppendOutcome → Worker × WriterState
  | .ok _ =>
    (.running,
     { state with
       durableThrough := state.durableThrough + batch.length
       stats := { state.stats with
         claimsCommitted := state.stats.claimsCommitted + batch.length
         batchesCommitted := state.stats.batchesCommitted + 1
         largestBatch := max state.stats.largestBatch batch.length } })
  | .error e => (.exited, { state with failure := some (shown e), shutdown := true })

end WriterState

/-! ## The protocol -/

/-- The queue, the worker, the store, and the targets of the flushes that wait. -/
structure Writer where
  state : WriterState
  worker : Worker
  store : Fjall
  flushes : Nat → Option Nat

/-- What happens in one step. A flush is told from others by a number. -/
inductive WriterEvent where
  | submitted (claim : Claim) (result : Except Error Unit)
  | blocked (claim : Claim)
  | flushBegan (caller : Nat) (result : Option (Except Error Unit))
  | flushWoke (caller : Nat) (result : Option (Except Error Unit))
  | checked (timedOut : Bool)
  | completed (batch : List Claim) (result : Except Error AppendOutcome)
  | stopped

namespace Writer

variable [Codec] (config : WriterConfig) (shown : Error → String)

/-- `spawn` (`writer.rs:132-164`). -/
def spawn (store : Fjall) : Writer :=
  { state := .new, worker := .running, store, flushes := fun _ => none }

/-- What `append_batch` may do: what it computes, unless its transaction does not commit. -/
inductive Appends (store : Fjall) (batch : List Claim) : Except Error AppendOutcome → Fjall → Prop where
  | accepted {outcome : AppendOutcome} {store' : Fjall}
      (ran : store.appendBatch batch = .ok (outcome, store')) : Appends store batch (.ok outcome) store'
  | rejected {e : Error} (ran : store.appendBatch batch = .error e) : Appends store batch (.error e) store
  | aborted (e : Error) : Appends store batch (.error e) store

/-- The steps of submitters, flushers, the worker and `stop`, in any order. -/
inductive Step : Writer → WriterEvent → Writer → Prop where
  | submit {writer : Writer} {claim : Claim} {result : Except Error Unit} {state : WriterState}
      (turn : writer.state.submit config claim = (some result, state)) :
      Step writer (.submitted claim result) { writer with state }
  | block {writer : Writer} {claim : Claim} {state : WriterState}
      (turn : writer.state.submit config claim = (none, state)) :
      Step writer (.blocked claim) { writer with state }
  | flush {writer : Writer} {caller : Nat} {result : Option (Except Error Unit)} {state : WriterState}
      (fresh : writer.flushes caller = none) (turn : writer.state.flush = (result, state)) :
      Step writer (.flushBegan caller result)
        { writer with
          state
          flushes := Function.update writer.flushes caller
            (if result.isNone then some writer.state.submitted else none) }
  | wake {writer : Writer} {caller target : Nat} {result : Option (Except Error Unit)}
      (waits : writer.flushes caller = some target) (turn : writer.state.flushWoken target = result) :
      Step writer (.flushWoke caller result)
        { writer with
          flushes := Function.update writer.flushes caller
            (if result.isNone then some target else none) }
  | check {writer : Writer} {timedOut : Bool}
      (ready : writer.worker = .running ∧ timedOut = false ∨ writer.worker = .waiting) :
      Step writer (.checked timedOut)
        { writer with
          worker := (writer.state.check config timedOut).1
          state := (writer.state.check config timedOut).2 }
  | complete {writer : Writer} {batch : List Claim} {result : Except Error AppendOutcome} {store : Fjall}
      (appending : writer.worker = .appending batch) (appended : Appends writer.store batch result store) :
      Step writer (.completed batch result)
        { writer with
          worker := (writer.state.publish shown batch result).1
          state := (writer.state.publish shown batch result).2
          store }
  | stop {writer : Writer} :
      Step writer .stopped { writer with state := { writer.state with shutdown := true } }

end Writer

end Vyrm.Store
