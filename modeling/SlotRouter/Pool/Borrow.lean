import SlotRouter.World

/-!
# Borrowing links

A borrower first gets a permit, for which it waits up to the wait timeout of the pool, and then a link: an idle one, or
one that it opens. Whoever has a permit and ends without a link gives the permit back.
-/

namespace SlotRouter

/-- A link that has been lent, with its permit. -/
structure Loan where
  pool : PoolId
  link : Link

/-- A borrower that has no link yet. -/
inductive Borrow where
  | entering (pool : PoolId)
  /-- Waits for a permit, with a ticket. -/
  | queued (pool : PoolId) (ticket : Nat) (deadline : Nat)
  /-- Has a permit and opens a link. -/
  | dialling (pool : PoolId) (dial : Dial)

namespace Borrow

/-- When the borrower's wait ends. -/
def timer? : Borrow → Option Nat
  | .entering _ => none
  | .queued _ _ deadline => some deadline
  | .dialling _ dial => dial.timer?

variable {N : Type}

/-- The borrower gives up. -/
def drop (w : World N) : Borrow → World N
  | .entering _ => w
  | .queued id ticket _ =>
    w.modifyPool id fun p => { p with permits := p.permits.abandon ticket }
  | .dialling id _ => w.modifyPool id Pool.returnPermit

variable [Network N]

/-- The refusal of a retired pool. -/
def retired (w : World N) (id : PoolId) : Error := .io (.retired (w.pool id).address)

/-- Stores the permits of the pool. -/
def withPermits (w : World N) (id : PoolId) (permits : Semaphore) : World N :=
  w.modifyPool id fun p => { p with permits }

/-- The borrower has got a permit. -/
def permitted (w : World N) (id : PoolId) : World N × Turn Borrow (Except Error Loan) :=
  let (link?, p) := (w.pool id).takeIdle
  let w := w.modifyPool id fun _ => p
  match link? with
  | some link => (w, .done (.ok ⟨id, link⟩))
  | none =>
    let (w, d) := w.dial p.address
    (w, .running (.dialling id d))

/-- One turn of a borrower. -/
def turn (w : World N) : Borrow → World N × Turn Borrow (Except Error Loan)
  | .entering id =>
    if (w.pool id).closed then (w, .done (.error (retired w id)))
    else
      match (w.pool id).permits.acquire with
      | (.refused, _) => (w, .done (.error (retired w id)))
      | (.taken, permits) => permitted (withPermits w id permits) id
      | (.waiting ticket, permits) =>
        (withPermits w id permits,
          .running (.queued id ticket (w.now + w.topology.setup.pool.waitTimeout)))
  | .queued id ticket deadline =>
    match (w.pool id).permits.collect ticket with
    | (.refused, permits) => (withPermits w id permits, .done (.error (retired w id)))
    | (.taken, permits) => permitted (withPermits w id permits) id
    | (.waiting _, _) =>
      if deadline ≤ w.now then
        (drop w (.queued id ticket deadline),
          .done (.error (.poolExhausted (w.pool id).address w.topology.setup.pool.waitTimeout)))
      else (w, .blocked)
  | .dialling id d =>
    match w.dialOn d with
    | (w, .blocked) => (w, .blocked)
    | (w, .running d) => (w, .running (.dialling id d))
    | (w, .done (.ok link)) => (w, .done (.ok ⟨id, link⟩))
    | (w, .done (.error e)) => (w.modifyPool id Pool.returnPermit, .done (.error e))

end Borrow

/-- A link and its permit go back to their pool. -/
def Loan.giveBack {N : Type} (w : World N) (pool : PoolId) (link : Link) (discard : Bool) : World N :=
  w.modifyPool pool fun p => p.giveBack link discard

end SlotRouter
