import SlotRouter.Seed

/-!
# Configuration

What a client is told at its start: the seeds, the bounds of its retries, how it connects and how many connections
it keeps to each node. Durations are nanoseconds. `Config.check` refuses a configuration with which no command
could ever be sent; `Config.normalized` brings the seeds into the form of addresses first.
-/

namespace SlotRouter

/-- A number of milliseconds as a duration. -/
def milliseconds (n : Nat) : Nat := n * 1000000

/-- How a connection is opened and used. -/
structure ConnectionConfig where
  connectTimeout : Nat := milliseconds 2000
  socketTimeout : Nat := milliseconds 2000
  username : Option String := none
  password : Option String := none
  clientName : Option String := none
  deriving DecidableEq, Inhabited

/-- How many connections to a node there may be, and how long a borrower waits for one. -/
structure PoolConfig where
  maxConnections : Nat := 8
  waitTimeout : Nat := milliseconds 2000
  deriving DecidableEq, Inhabited

/-- The configuration of a client. -/
structure Config where
  seeds : List String := []
  maxAttempts : UInt32 := 5
  /-- How long an invocation may take; the socket timeout, if it is not given. -/
  retryDuration : Option Nat := none
  /-- After how many connection failures in a row the layout is learned again. -/
  refreshAfter : UInt32 := 2
  connection : ConnectionConfig := {}
  pool : PoolConfig := {}
  deriving DecidableEq, Inhabited

namespace Config

/-- How long an invocation may take. -/
def effectiveRetryDuration (c : Config) : Nat := c.retryDuration.getD c.connection.socketTimeout

/-- Refuses a configuration that leaves nothing to try. -/
def check (c : Config) : Except Error Unit :=
  if c.seeds.isEmpty then .error (.invalidArgument .noSeeds)
  else if c.maxAttempts = 0 then .error (.invalidArgument .noAttempts)
  else if c.refreshAfter = 0 then .error (.invalidArgument .noFailures)
  else if c.pool.maxConnections = 0 then .error (.invalidArgument .noConnections)
  else .ok ()

/-- The checked configuration with its seeds as addresses. -/
def normalized (c : Config) : Except Error Config := do
  let seeds ← Seed.readEach c.seeds
  let c := { c with seeds }
  c.check
  .ok c

/-- What a builder with these settings yields: it needs a seed before it reads any. -/
def built (c : Config) : Except Error Config :=
  if c.seeds.isEmpty then .error (.invalidArgument .noSeeds) else c.normalized

/-- A configuration passes the check exactly when every bound leaves something to try. -/
theorem check_eq_ok_iff (c : Config) :
    c.check = .ok () ↔
      c.seeds ≠ [] ∧ c.maxAttempts ≠ 0 ∧ c.refreshAfter ≠ 0 ∧ c.pool.maxConnections ≠ 0 := by
  unfold check
  repeat' split
  all_goals simp_all

end Config
end SlotRouter
