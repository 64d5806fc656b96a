import SlotRouter.Budget
import SlotRouter.Invocation.Attempt
import SlotRouter.Topology.Refresh

/-!
# Invocations

An invocation makes attempts until one settles it or its budget is spent. A keyed invocation goes to the node that
serves its slot, any other one to any node. What an attempt comes to decides what happens next:

* a value is the result;
* after a connection error the idle links of the pool are dropped and another attempt is made; after several such
  failures in a row it pauses, and learns the layout again;
* `MOVED` replaces the entry of the slot, and the next attempt looks the slot up again;
* `ASK` leads to one attempt on the node it names, and that attempt settles the invocation;
* any other error is the result.

For an invocation that goes to any node, a redirect is such an other error. From the end of one attempt to the
beginning of the next is one turn, unless it pauses or has to learn the layout.
-/

namespace SlotRouter

/-- What an invocation keeps from attempt to attempt. -/
structure Invocation (α : Type) where
  policy : RetryPolicy
  body : Body α
  /-- The slot of its keys, if it has keys. -/
  slot : Option UInt16
  budget : Budget
  /-- The node of the last attempt. -/
  lastNode : Option String := none
  /-- What the last attempt that was charged came to. -/
  lastError : Option Error := none
  /-- Connection failures in a row. -/
  failures : Nat := 0
  /-- How often the body has been started. -/
  started : Nat := 0

namespace Invocation

/-- What an invocation is busy with. -/
inductive Stage where
  /-- Learns the layout, because nobody is known to serve it. -/
  | resolving (refresh : Refresh)
  | attempting (pool : PoolId) (asking : Bool) (attempt : Attempt)
  | pausing (wake : Nat)
  /-- Learns the layout, because connections have failed. -/
  | refreshing (refresh : Refresh)

/-- What has come of the thing that an invocation was busy with. -/
inductive Outcome (α : Type) where
  | resolved (result : Except Error Unit)
  | attempted (pool : PoolId) (asking : Bool) (ended : Attempt.Ended α)
  /-- The pause is over. -/
  | woken
  | refreshed (result : Except Error Unit)

variable {N : Type} {α : Type}

/-- How a turn of an invocation ends. -/
abbrev Step (α : Type) := Turn (Invocation α × Stage) (Except Error α)

/-- The number of attempts that have been charged. -/
def attempts (inv : Invocation α) : Nat := inv.budget.made.toNat

/-- The error of an invocation that may not go on. -/
def exhaustion? (inv : Invocation α) (now : Nat) : Option Error :=
  match inv.budget.check now with
  | none => none
  | some .attempts =>
    some (.retriesExhausted inv.attempts inv.slot inv.lastNode (inv.lastError.getD .noReachableNode))
  | some .deadline => some (.deadlineExceeded inv.attempts inv.slot inv.lastNode inv.lastError)

/-- The error of an invocation that an error has settled. -/
def failure (inv : Invocation α) : Error → Error
  | .clientClosed => .clientClosed
  | e => .commandFailed inv.attempts inv.slot inv.lastNode e

/-- Ends the invocation with an error. -/
def settle (w : World N) (inv : Invocation α) (e : Error) : World N × Step α :=
  (w, .done (.error (inv.failure e)))

/-- The pool to try: the one that serves the slot, or any. -/
def choose (w : World N) (slot : Option UInt16) : Option PoolId × World N :=
  match slot with
  | some slot => (w.topology.poolFor? slot.toNat, w)
  | none =>
    let (id?, topology) := w.topology.drawPool
    (id?, { w with topology })

/-- Charges an attempt and begins it. -/
def beginAttempt (w : World N) (inv : Invocation α) (id : PoolId) (asking : Bool) :
    World N × Step α :=
  let inv := { inv with budget := inv.budget.consume, lastNode := some (w.pool id).address }
  (w, .running (inv, .attempting id asking (.borrowing asking (.entering id))))

/-- The head of the loop: gives up, or begins the next attempt; `target` is the node that `ASK` named. -/
def next (w : World N) (inv : Invocation α) (target : Option String) : World N × Step α :=
  if w.topology.closed then (w, .done (.error .clientClosed))
  else
    match inv.exhaustion? w.now with
    | some e => (w, .done (.error e))
    | none =>
      match target with
      | some address =>
        let (id, w) := w.obtain address
        inv.beginAttempt w id true
      | none =>
        match choose w inv.slot with
        | (some id, w) => inv.beginAttempt w id false
        | (none, w) => (w, .running (inv, .resolving .entering))

/-- The first turn of an invocation; a deadline of the caller can only shorten its time. -/
def start (w : World N) (policy : RetryPolicy) (body : Body α) (slot : Option UInt16)
    (callerDeadline : Option Nat) : World N × Step α :=
  next w { policy, body, slot, budget := .ofPolicy policy w.now callerDeadline } none

/-- When a pause that begins now is over. -/
def wake (inv : Invocation α) (now : Nat) : Nat :=
  min (now + (inv.budget.pause? now).getD 0) inv.budget.deadline

/-- Drops the idle links of the pool that failed. -/
def invalidate (w : World N) : Option PoolId → World N
  | some id => w.modifyPool id Pool.invalidate
  | none => w

/-- Counts a connection failure and goes on, after a pause if there have been many. -/
def recover (w : World N) (inv : Invocation α) (id : Option PoolId) (e : Error) :
    World N × Step α :=
  let w := invalidate w id
  let inv := { inv with failures := inv.failures + 1, lastError := some e }
  if inv.failures < inv.policy.refreshAfter.toNat ∨ inv.budget.left = 0 then inv.next w none
  else (w, .running ({ inv with failures := 0 }, .pausing (inv.wake w.now)))

/-- The error when nobody serves the invocation although the layout has been learned. -/
def unserved (inv : Invocation α) : Error :=
  match inv.slot with
  | some slot => .clusterDown (.unserved slot)
  | none => .noReachableNode

/-- Goes on when the layout has been learned, or not. -/
def resolved (w : World N) (inv : Invocation α) : Except Error Unit → World N × Step α
  | .ok () =>
    match choose w inv.slot with
    | (some id, w) => inv.beginAttempt w id false
    | (none, w) => inv.settle w inv.unserved
  | .error e =>
    if e.isConnectionError then recover w { inv with budget := inv.budget.consume } none e
    else inv.settle w e

/-- Goes on after an attempt that failed and was not the last. -/
def retry (w : World N) (inv : Invocation α) (id : PoolId) (e : Error) : World N × Step α :=
  match inv.slot, e with
  | some _, .moved slot address =>
    let (_, topology) := w.topology.move slot.toNat address
    next { w with topology } { inv with failures := 0, lastError := some e } none
  | some _, .ask _ address =>
    next w { inv with failures := 0, lastError := some e } (some address)
  | _, _ => if e.isConnectionError then inv.recover w (some id) e else inv.settle w e

/-- Goes on after an attempt. -/
def attempted (w : World N) (inv : Invocation α) (id : PoolId) (asking : Bool) :
    Except Error α → World N × Step α
  | .ok value => (w, .done (.ok value))
  | .error e => if asking then inv.settle w e else inv.retry w id e

/-- Counts a start of the body. -/
def noteStart (inv : Invocation α) (started : Bool) : Invocation α :=
  if started then { inv with started := inv.started + 1 } else inv

/-- Goes on after what it was busy with; a forced refresh need not have come to a good end. -/
def after (w : World N) (inv : Invocation α) : Outcome α → World N × Step α
  | .resolved result => inv.resolved w result
  | .attempted id asking ended => (inv.noteStart ended.started).attempted w id asking ended.result
  | .woken => (w, .running (inv, .refreshing .entering))
  | .refreshed _ => inv.next w none

/-- When the present wait ends. -/
def timer? (inv : Invocation α) : Stage → Option Nat
  | .resolving r | .refreshing r => earlier? r.timer? (some inv.budget.deadline)
  | .attempting _ _ a => earlier? a.timer? (some inv.budget.deadline)
  | .pausing wake => some wake

/-- The invocation is given up. -/
def drop (w : World N) : Stage → World N
  | .resolving r | .refreshing r => r.drop w
  | .attempting _ _ a => a.drop w
  | .pausing _ => w

variable [Network N]

/-- One turn of a refresh that is given up at the deadline; the refresh goes first. -/
def refreshUntil (deadline : Nat) (w : World N) (r : Refresh) :
    World N × Turn Refresh (Except Error Unit) :=
  match r.turn w with
  | (w, .blocked) =>
    if deadline ≤ w.now then (r.drop w, .done (.error (.timeout .topology))) else (w, .blocked)
  | progress => progress

/-- One turn of an attempt that is given up at the deadline; the attempt goes first. -/
def attemptUntil (deadline : Nat) (w : World N) (body : Body α) (started : Nat) (a : Attempt) :
    World N × Turn Attempt (Attempt.Ended α) :=
  match a.turn w body started with
  | (w, .blocked) =>
    if deadline ≤ w.now then (a.drop w, .done ⟨a.hasStarted, .error (.timeout .command)⟩)
    else (w, .blocked)
  | progress => progress

/-- One turn of what the invocation is busy with. -/
def stageTurn (w : World N) (inv : Invocation α) : Stage → World N × Turn Stage (Outcome α)
  | .resolving r =>
    match refreshUntil inv.budget.deadline w r with
    | (w, .blocked) => (w, .blocked)
    | (w, .running r) => (w, .running (.resolving r))
    | (w, .done result) => (w, .done (.resolved result))
  | .attempting id asking a =>
    match attemptUntil inv.budget.deadline w inv.body inv.started a with
    | (w, .blocked) => (w, .blocked)
    | (w, .running a) => (w, .running (.attempting id asking a))
    | (w, .done ended) => (w, .done (.attempted id asking ended))
  | .pausing wake => if wake ≤ w.now then (w, .done .woken) else (w, .blocked)
  | .refreshing r =>
    match refreshUntil inv.budget.deadline w r with
    | (w, .blocked) => (w, .blocked)
    | (w, .running r) => (w, .running (.refreshing r))
    | (w, .done result) => (w, .done (.refreshed result))

/-- One turn of an invocation. -/
def turn (w : World N) (inv : Invocation α) (stage : Stage) : World N × Step α :=
  match inv.stageTurn w stage with
  | (w, .blocked) => (w, .blocked)
  | (w, .running stage) => (w, .running (inv, stage))
  | (w, .done outcome) => inv.after w outcome

end Invocation
end SlotRouter
