import SlotRouter.Topology.Discovery

/-!
# Refreshing the topology

A refresh finds a layout and installs it. Only one refresh searches at a time; one that had to wait for another, and
finds that a layout has been installed since it came, is done. A closed topology is not refreshed.
-/

namespace SlotRouter

/-- A refresh under way. -/
inductive Refresh where
  | entering
  /-- Waits for the lock, with a ticket; `seen` is the generation when it came. -/
  | queued (seen : Nat) (ticket : Nat)
  /-- Has the lock and searches. -/
  | discovering (discovery : Discovery)

namespace Refresh

/-- When the present wait ends. -/
def timer? : Refresh → Option Nat
  | .entering | .queued .. => none
  | .discovering d => d.timer?

variable {N : Type}

/-- The lock is given back. -/
def unlock (w : World N) : World N :=
  w.modifyTopology fun t => { t with refreshLock := t.refreshLock.release }

/-- The refresh is given up. -/
def drop (w : World N) : Refresh → World N
  | .entering => w
  | .queued _ ticket =>
    w.modifyTopology fun t => { t with refreshLock := t.refreshLock.abandon ticket }
  | .discovering d => unlock (d.drop w)

/-- Stores the lock. -/
def withLock (w : World N) (refreshLock : Semaphore) : World N :=
  w.modifyTopology fun t => { t with refreshLock }

/-- Installs what a search has found, and gives the lock back. -/
def finish (w : World N) : Except Error (List SlotRange) → World N × Except Error Unit
  | .error e => (unlock w, .error e)
  | .ok ranges =>
    match w.topology.install ranges with
    | .error e => (unlock w, .error e)
    | .ok t => (unlock { w with topology := { t with generation := t.generation + 1 } }, .ok ())

/-- A turn of the search, as a turn of the refresh. -/
def searched (w : World N) : Discovery.Step → World N × Turn Refresh (Except Error Unit)
  | .blocked => (w, .blocked)
  | .running d => (w, .running (.discovering d))
  | .done found =>
    let (w, result) := finish w found
    (w, .done result)

variable [Network N]

/-- The refresh has got the lock. -/
def locked (w : World N) (seen : Nat) : World N × Turn Refresh (Except Error Unit) :=
  if w.topology.closed then (unlock w, .done (.error .clientClosed))
  else if w.topology.generation ≠ seen then (unlock w, .done (.ok ()))
  else
    let (w, step) := Discovery.start w
    searched w step

/-- One turn of a refresh. -/
def turn (w : World N) : Refresh → World N × Turn Refresh (Except Error Unit)
  | .entering =>
    if w.topology.closed then (w, .done (.error .clientClosed))
    else
      let seen := w.topology.generation
      match w.topology.refreshLock.acquire with
      | (.taken, lock) => locked (withLock w lock) seen
      | (.waiting ticket, lock) => (withLock w lock, .running (.queued seen ticket))
      | (.refused, _) => (w, .blocked)
  | .queued seen ticket =>
    match w.topology.refreshLock.collect ticket with
    | (.taken, lock) => locked (withLock w lock) seen
    | _ => (w, .blocked)
  | .discovering d =>
    let (w, step) := d.turn w
    searched w step

end Refresh
end SlotRouter
