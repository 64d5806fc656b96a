import SlotRouter.Config

/-!
# The budget of an invocation

An invocation may make a number of attempts, and none after its deadline. Between attempts it may pause: the
time that remains is spread over the attempts that are left, the later pauses being the longer ones.

Instants and durations are nanoseconds. The counts are words of 32 bits, so the divisor of a pause can fail to
exist; `Budget.pause?` says so.
-/

namespace SlotRouter

/-- The bounds that every invocation of a client has. -/
structure RetryPolicy where
  maxAttempts : UInt32
  retryDuration : Nat
  refreshAfter : UInt32
  deriving DecidableEq, Inhabited

namespace RetryPolicy

/-- The bounds that a configuration sets; every count is at least one. -/
def ofConfig (c : Config) : RetryPolicy where
  maxAttempts := max c.maxAttempts 1
  retryDuration := c.effectiveRetryDuration
  refreshAfter := max c.refreshAfter 1

end RetryPolicy

/-- What an invocation may still spend. -/
structure Budget where
  maxAttempts : UInt32
  left : UInt32
  deadline : Nat
  deriving DecidableEq, Inhabited

/-- Which bound an invocation has reached. -/
inductive Exhausted where
  | attempts
  | deadline
  deriving DecidableEq, Inhabited

namespace Budget

/-- A budget of which nothing has been spent. -/
def fresh (maxAttempts : UInt32) (deadline : Nat) : Budget := ⟨maxAttempts, maxAttempts, deadline⟩

/-- The budget of an invocation that starts now; a deadline of the caller can only shorten it. -/
def ofPolicy (p : RetryPolicy) (now : Nat) (callerDeadline : Option Nat) : Budget :=
  let deadline := now + p.retryDuration
  fresh p.maxAttempts (match callerDeadline with
    | some d => min d deadline
    | none => deadline)

/-- The number of attempts that have been charged. -/
def made (b : Budget) : UInt32 := b.maxAttempts - b.left

/-- The time until the deadline. -/
def remaining (b : Budget) (now : Nat) : Nat := b.deadline - now

/-- The bound that has been reached, if one has; the count of attempts is looked at first. -/
def check (b : Budget) (now : Nat) : Option Exhausted :=
  if b.left = 0 then some .attempts
  else if now ≥ b.deadline then some .deadline
  else none

/-- Charges one attempt. -/
def consume (b : Budget) : Budget := { b with left := if b.left = 0 then 0 else b.left - 1 }

/-- `left * (left + 1)`, cut off at the largest word; there is none if `left + 1` is not a word. -/
def divisor? (left : UInt32) : Option Nat :=
  if left.toNat + 1 < UInt32.size then some (min (left.toNat * (left.toNat + 1)) (UInt32.size - 1))
  else none

/-- How long to pause before the next attempt. -/
def pause? (b : Budget) (now : Nat) : Option Nat :=
  if b.left = 0 then some 0 else (divisor? b.left).map (b.remaining now / ·)

end Budget
end SlotRouter
