import Mathlib.Tactic.SplitIfs
import SlotRouter.Invocation

/-!
# Turns take no time

The clock is the same after every turn of every activity, and after an activity has been given up:
time passes only between turns.

Key theorem: `Invocation.now_turn`.
-/

namespace SlotRouter

variable {N α : Type}

namespace World

@[simp] theorem now_modifyTopology (w : World N) (f : Topology → Topology) :
    (w.modifyTopology f).now = w.now := rfl

@[simp] theorem now_modifyPool (w : World N) (id : PoolId) (f : Pool → Pool) :
    (w.modifyPool id f).now = w.now := rfl

@[simp] theorem now_obtain (w : World N) (address : String) :
    (w.obtain address).2.now = w.now := rfl

variable [Network N]

theorem now_exchange {w w' : World N} {x : Exchange} {t : Turn Exchange Answered}
    (h : w.exchange x = (w', t)) :
    w'.now = w.now := by
  obtain ⟨rfl, -⟩ := Prod.mk.inj h
  rfl

theorem now_dialOn {w w' : World N} {d : Dial} {t : Turn Dial (Except Error Link)}
    (h : w.dialOn d = (w', t)) :
    w'.now = w.now := by
  obtain ⟨rfl, -⟩ := Prod.mk.inj h
  rfl

end World

@[simp] theorem Loan.now_giveBack (w : World N) (id : PoolId) (link : Link) (discard : Bool) :
    (Loan.giveBack w id link discard).now = w.now := rfl

namespace Borrow

@[simp] theorem now_withPermits (w : World N) (id : PoolId) (permits : Semaphore) :
    (withPermits w id permits).now = w.now := rfl

@[simp] theorem now_drop (w : World N) (b : Borrow) : (b.drop w).now = w.now := by
  cases b <;> rfl

variable [Network N]

@[simp] theorem now_permitted (w : World N) (id : PoolId) : (permitted w id).1.now = w.now := by
  unfold permitted
  rcases (w.pool id).takeIdle with ⟨_ | link, p⟩ <;> rfl

@[simp] theorem now_turn (w : World N) (b : Borrow) : (b.turn w).1.now = w.now := by
  cases b with
  | entering id =>
    simp only [turn]
    split_ifs
    · rfl
    · split <;> simp
  | queued id ticket deadline =>
    simp only [turn]
    split
    · rfl
    · simp
    · split_ifs <;> simp
  | dialling id d =>
    simp only [turn]
    rcases hd : w.dialOn d with ⟨w', _ | d' | e | link⟩ <;> simpa using World.now_dialOn hd

end Borrow

namespace Attempt

@[simp] theorem now_drop (w : World N) (a : Attempt) : (a.drop w).now = w.now := by
  cases a with
  | borrowing asking b => exact b.now_drop w
  | _ => rfl

@[simp] theorem now_proceed (w : World N) (body : Body α) (started : Nat) (id : PoolId)
    (link : Link)
    (heard : List Patience.Heard) : (proceed w body started id link heard).1.now = w.now := by
  unfold proceed
  split <;> rfl

variable [Network N]

theorem now_patience (w : World N) (p : Patience) : (p.turn w).1.now = w.now := by
  unfold Patience.turn
  rcases hx : w.exchange p.exchange with ⟨w', _ | x | ⟨link, answer⟩⟩ <;> have hnow := World.now_exchange hx
  · dsimp only
    split
    · split_ifs <;> exact hnow
    · exact hnow
  · exact hnow
  · exact hnow

@[simp] theorem now_turn (w : World N) (body : Body α) (started : Nat) (a : Attempt) :
    (a.turn w body started).1.now = w.now := by
  cases a with
  | borrowing asking b =>
    have hnow := b.now_turn w
    simp only [turn]
    rcases hb : b.turn w with ⟨w', _ | b' | e | loan⟩ <;> rw [hb] at hnow
    · exact hnow
    · exact hnow
    · exact hnow
    · dsimp only
      split_ifs
      · exact hnow
      · simpa using hnow
  | announcing id x =>
    simp only [turn]
    rcases hx : w.exchange x with ⟨w', _ | x' | ⟨link, e | f⟩⟩ <;> simpa using World.now_exchange hx
  | running id heard p =>
    have hnow := now_patience w p
    simp only [turn]
    rcases hp : p.turn w with ⟨w', _ | p' | ⟨link, answer⟩⟩ <;> rw [hp] at hnow <;> simpa using hnow
  | resting id heard link wake =>
    simp only [turn]
    split_ifs <;> simp

end Attempt

namespace Discovery

@[simp] theorem now_drop (w : World N) (d : Discovery) : (d.drop w).now = w.now := by
  cases d with
  | borrowing node nodes seeds b => exact b.now_drop w
  | _ => rfl

variable [Network N]

@[simp] theorem now_nextSeed (w : World N) (seeds : List String) :
    (nextSeed w seeds).1.now = w.now := by
  cases seeds <;> rfl

@[simp] theorem now_nextNode (w : World N) (seeds nodes : List String) :
    (nextNode w seeds nodes).1.now = w.now := by
  induction nodes with
  | nil => exact now_nextSeed w seeds
  | cons node nodes ih =>
    unfold nextNode
    split
    · rfl
    · exact ih

@[simp] theorem now_start (w : World N) : (start w).1.now = w.now := now_nextNode ..

@[simp] theorem now_turn (w : World N) (d : Discovery) : (d.turn w).1.now = w.now := by
  cases d with
  | borrowing node nodes seeds b =>
    have hnow := b.now_turn w
    simp only [turn]
    rcases hb : b.turn w with ⟨w', _ | b' | e | loan⟩ <;> rw [hb] at hnow <;> simpa using hnow
  | querying node nodes seeds id x =>
    simp only [turn]
    rcases hx : w.exchange x with ⟨w', _ | x' | ⟨link, answer⟩⟩ <;> have hnow := World.now_exchange hx
    · exact hnow
    · exact hnow
    · dsimp only
      split
      · exact hnow
      · simpa using hnow
  | dialling seed seeds d =>
    simp only [turn]
    rcases hd : w.dialOn d with ⟨w', _ | d' | e | link⟩ <;> simpa using World.now_dialOn hd
  | asking seed seeds x =>
    simp only [turn]
    rcases hx : w.exchange x with ⟨w', _ | x' | ⟨link, answer⟩⟩ <;> have hnow := World.now_exchange hx
    · exact hnow
    · exact hnow
    · dsimp only
      split
      · exact hnow
      · simpa using hnow

end Discovery

namespace Refresh

@[simp] theorem now_unlock (w : World N) : (unlock w).now = w.now := rfl

@[simp] theorem now_withLock (w : World N) (lock : Semaphore) : (withLock w lock).now = w.now := rfl

@[simp] theorem now_drop (w : World N) (r : Refresh) : (r.drop w).now = w.now := by
  cases r with
  | discovering d => exact d.now_drop w
  | _ => rfl

@[simp] theorem now_finish (w : World N) (found : Except Error (List SlotRange)) :
    (finish w found).1.now = w.now := by
  unfold finish
  split
  · rfl
  · split <;> rfl

@[simp] theorem now_searched (w : World N) (step : Discovery.Step) :
    (searched w step).1.now = w.now := by
  cases step with
  | done found => exact now_finish w found
  | _ => rfl

variable [Network N]

@[simp] theorem now_locked (w : World N) (seen : Nat) : (locked w seen).1.now = w.now := by
  unfold locked
  split_ifs
  · rfl
  · rfl
  · exact (now_searched _ _).trans (Discovery.now_start w)

@[simp] theorem now_turn (w : World N) (r : Refresh) : (r.turn w).1.now = w.now := by
  cases r with
  | entering =>
    simp only [turn]
    split_ifs
    · rfl
    · split <;> simp
  | queued seen ticket =>
    simp only [turn]
    split <;> simp
  | discovering d => exact (now_searched _ _).trans (d.now_turn w)

end Refresh

namespace Invocation

variable {inv : Invocation α}

@[simp] theorem now_choose (w : World N) (slot : Option UInt16) :
    (choose w slot).2.now = w.now := by
  cases slot <;> rfl

@[simp] theorem now_beginAttempt (w : World N) (inv : Invocation α) (id : PoolId) (asking : Bool) :
    (inv.beginAttempt w id asking).1.now = w.now := rfl

@[simp] theorem now_next (w : World N) (inv : Invocation α) (target : Option String) :
    (inv.next w target).1.now = w.now := by
  unfold next
  split_ifs
  · rfl
  · split
    · rfl
    · cases target with
      | some address => rfl
      | none =>
        have hnow := now_choose w inv.slot
        dsimp only
        rcases hc : choose w inv.slot with ⟨_ | id, w'⟩ <;> rw [hc] at hnow <;> exact hnow

@[simp] theorem now_invalidate (w : World N) (id? : Option PoolId) :
    (invalidate w id?).now = w.now := by
  cases id? <;> rfl

@[simp] theorem now_recover (w : World N) (inv : Invocation α) (id? : Option PoolId) (e : Error) :
    (inv.recover w id? e).1.now = w.now := by
  unfold recover
  dsimp only
  split_ifs <;> simp

theorem now_resolved (w : World N) (inv : Invocation α) (result : Except Error Unit) :
    (inv.resolved w result).1.now = w.now := by
  unfold resolved
  split
  · have hnow := now_choose w inv.slot
    rcases hc : choose w inv.slot with ⟨_ | id, w'⟩ <;> rw [hc] at hnow <;> exact hnow
  · split_ifs
    · exact now_recover ..
    · rfl

theorem now_retry (w : World N) (inv : Invocation α) (id : PoolId) (e : Error) :
    (inv.retry w id e).1.now = w.now := by
  unfold retry
  split
  · exact now_next ..
  · exact now_next ..
  · split_ifs
    · exact now_recover ..
    · rfl

@[simp] theorem now_after (w : World N) (inv : Invocation α) (outcome : Outcome α) :
    (inv.after w outcome).1.now = w.now := by
  unfold after
  split
  · exact now_resolved ..
  · unfold attempted
    split
    · rfl
    · split_ifs
      · rfl
      · exact now_retry ..
  · rfl
  · exact now_next ..

variable [Network N]

@[simp] theorem now_refreshUntil (deadline : Nat) (w : World N) (r : Refresh) :
    (refreshUntil deadline w r).1.now = w.now := by
  have hnow := r.now_turn w
  unfold refreshUntil
  rcases hr : r.turn w with ⟨w', _ | r' | result⟩ <;> rw [hr] at hnow
  · dsimp only
    split_ifs <;> simpa using hnow
  · exact hnow
  · exact hnow

@[simp] theorem now_attemptUntil (deadline : Nat) (w : World N) (body : Body α) (started : Nat)
    (a : Attempt) : (attemptUntil deadline w body started a).1.now = w.now := by
  have hnow := a.now_turn w body started
  unfold attemptUntil
  rcases ha : a.turn w body started with ⟨w', _ | a' | ended⟩ <;> rw [ha] at hnow
  · dsimp only
    split_ifs <;> simpa using hnow
  · exact hnow
  · exact hnow

@[simp] theorem now_stageTurn (w : World N) (inv : Invocation α) (stage : Stage) :
    (inv.stageTurn w stage).1.now = w.now := by
  cases stage with
  | resolving r | refreshing r =>
    have hnow := now_refreshUntil inv.budget.deadline w r
    simp only [stageTurn]
    rcases hr : refreshUntil inv.budget.deadline w r with ⟨w', _ | r' | result⟩ <;> rw [hr] at hnow <;> exact hnow
  | attempting id asking a =>
    have hnow := now_attemptUntil inv.budget.deadline w inv.body inv.started a
    simp only [stageTurn]
    rcases ha : attemptUntil inv.budget.deadline w inv.body inv.started a with ⟨w', _ | a' | ended⟩ <;>
      rw [ha] at hnow <;> exact hnow
  | pausing wake =>
    simp only [stageTurn]
    split_ifs <;> rfl

/-- **A turn of an invocation takes no time.** -/
@[simp] theorem now_turn (w : World N) (inv : Invocation α) (stage : Stage) :
    (inv.turn w stage).1.now = w.now := by
  have hnow := inv.now_stageTurn w stage
  unfold turn
  rcases hs : inv.stageTurn w stage with ⟨w', _ | stage' | outcome⟩ <;> rw [hs] at hnow
  · exact hnow
  · exact hnow
  · exact (now_after _ _ _).trans hnow

end Invocation
end SlotRouter
