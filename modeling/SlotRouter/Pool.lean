import SlotRouter.Link
import SlotRouter.Semaphore

/-!
# Pools

A pool keeps the links to one node. A borrower needs a permit, and there are as many permits as there may be links;
it gets the link that came back last, or opens one if none is idle. A retired pool lends nothing any more, and
drops what it has and what comes back.
-/

namespace SlotRouter

/-- The links to one node. -/
structure Pool where
  address : String
  /-- How many links there may be. -/
  capacity : Nat
  permits : Semaphore
  /-- The links that nobody has, the one that came back last in front. -/
  idle : List Link := []
  closed : Bool := false

instance : Inhabited Pool := ⟨{ address := "", capacity := 0, permits := { free := 0 } }⟩

namespace Pool

/-- A pool for the address that lends at least one link. -/
def fresh (address : String) (maxConnections : Nat) : Pool :=
  let capacity := max maxConnections 1
  { address, capacity, permits := { free := capacity } }

/-- Drops the idle links; those that are lent are not touched. -/
def invalidate (p : Pool) : Pool := { p with idle := [] }

/-- Lends nothing from now on. -/
def close (p : Pool) : Pool := { p with closed := true, permits := p.permits.close, idle := [] }

/-- The last link that came back unbroken; broken links before it are dropped. -/
def takeIdle (p : Pool) : Option Link × Pool :=
  match p.idle.dropWhile Link.broken with
  | link :: idle => (some link, { p with idle })
  | [] => (none, { p with idle := [] })

/-- A permit comes back. -/
def returnPermit (p : Pool) : Pool := { p with permits := p.permits.release }

/-- A link comes back; it is kept unless it is broken, the pool is closed or the borrower says to drop it. -/
def keep (p : Pool) (link : Link) (discard : Bool) : Pool :=
  if discard || link.broken || p.closed then p else { p with idle := link :: p.idle }

/-- A link and its permit come back. -/
def giveBack (p : Pool) (link : Link) (discard : Bool) : Pool := (p.keep link discard).returnPermit

end Pool
end SlotRouter
