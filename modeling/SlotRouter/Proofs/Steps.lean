import SlotRouter.Proofs.Clock

/-!
# What an invocation can do

The forms that a step of an invocation can take: at the head of the loop (`Invocation.next_step`),
after something has come to an end (`Invocation.after_step`), and in a turn (`Invocation.turn_step`).
All that is proved of a turn of an invocation is proved by cases on these forms.

While it goes on, an activity may be busy with an exchange (`exchange?`), and a borrower has come to a pool.

Key definitions: `Invocation.NextStep`, `Invocation.AfterStep`, `Invocation.TurnStep`.
-/

namespace SlotRouter

variable {N α : Type}

/-- Charging an attempt takes one of those that are left. -/
theorem Budget.toNat_left_consume {b : Budget} (h : b.left ≠ 0) :
    b.consume.left.toNat + 1 = b.left.toNat := by
  have hpos : 1 ≤ b.left.toNat := by
    have : b.left.toNat ≠ 0 := fun h0 => h (UInt32.toNat_inj.1 h0)
    omega
  have hle : (1 : UInt32) ≤ b.left := UInt32.le_iff_toNat_le.2 hpos
  unfold consume
  rw [if_neg h, UInt32.toNat_sub_of_le _ _ hle]
  simp only [UInt32.reduceToNat]
  omega

namespace Invocation

@[simp] theorem slot_noteStart (inv : Invocation α) (started : Bool) :
    (inv.noteStart started).slot = inv.slot := by
  cases started <;> rfl

@[simp] theorem budget_noteStart (inv : Invocation α) (started : Bool) :
    (inv.noteStart started).budget = inv.budget := by
  cases started <;> rfl

@[simp] theorem lastNode_noteStart (inv : Invocation α) (started : Bool) :
    (inv.noteStart started).lastNode = inv.lastNode := by
  cases started <;> rfl

@[simp] theorem attempts_noteStart (inv : Invocation α) (started : Bool) :
    (inv.noteStart started).attempts = inv.attempts := by
  cases started <;> rfl

section

variable {w : World N} {inv : Invocation α} {own : UInt16}

theorem retry_of_isConnectionError {e : Error} (h : e.isConnectionError = true) (id : PoolId) :
    inv.retry w id e = inv.recover w (some id) e := by
  unfold retry
  cases e with
  | io | timeout | poolExhausted => cases inv.slot <;> rfl
  | _ => cases h

/-- After `MOVED` the entry is replaced, and the slot is looked up again at once. -/
theorem retry_moved (h : inv.slot = some own) (id : PoolId) (slot : UInt16) (address : String) :
    inv.retry w id (.moved slot address) =
      next { w with topology := (w.topology.move slot.toNat address).2 }
        { inv with failures := 0, lastError := some (.moved slot address) } none := by
  unfold retry
  rw [h]

theorem retry_ask (h : inv.slot = some own) (id : PoolId) (slot : UInt16) (address : String) :
    inv.retry w id (.ask slot address) =
      next w { inv with failures := 0, lastError := some (.ask slot address) } (some address) := by
  unfold retry
  rw [h]

end

section

variable {inv : Invocation α} {now : Nat}

/-- The count of attempts is looked at first. -/
theorem exhaustion?_of_spent (hleft : inv.budget.left = 0) : inv.exhaustion? now =
    some (.retriesExhausted inv.attempts inv.slot inv.lastNode (inv.lastError.getD .noReachableNode)) := by
  unfold exhaustion? Budget.check
  rw [if_pos hleft]

theorem exhaustion?_of_late (hleft : inv.budget.left ≠ 0) (hlate : inv.budget.deadline ≤ now) :
    inv.exhaustion? now = some (.deadlineExceeded inv.attempts inv.slot inv.lastNode inv.lastError) := by
  unfold exhaustion? Budget.check
  rw [if_neg hleft, if_pos hlate]

theorem exhaustion?_of_early (hleft : inv.budget.left ≠ 0) (hearly : now < inv.budget.deadline) :
    inv.exhaustion? now = none := by
  unfold exhaustion? Budget.check
  rw [if_neg hleft, if_neg (Nat.not_le.2 hearly)]

end

/-- What the head of the loop can come to. -/
inductive NextStep (w : World N) (inv : Invocation α) : World N × Step α → Prop where
  | closed : NextStep w inv (w, .done (.error .clientClosed))
  /-- The count of attempts is looked at first, so it is named even if the time is up as well. -/
  | spent (left : inv.budget.left = 0) : NextStep w inv (w, .done (.error
      (.retriesExhausted inv.attempts inv.slot inv.lastNode (inv.lastError.getD .noReachableNode))))
  | late (left : inv.budget.left ≠ 0) (late : inv.budget.deadline ≤ w.now) :
      NextStep w inv (w, .done (.error
        (.deadlineExceeded inv.attempts inv.slot inv.lastNode inv.lastError)))
  | attempt {w' : World N} (now : w'.now = w.now) (left : inv.budget.left ≠ 0)
      (early : w.now < inv.budget.deadline) (id : PoolId) (asking : Bool) :
      NextStep w inv (inv.beginAttempt w' id asking)
  | resolve {w' : World N} (now : w'.now = w.now) (left : inv.budget.left ≠ 0)
      (early : w.now < inv.budget.deadline) :
      NextStep w inv (w', .running (inv, .resolving .entering))

/-- The budget after what has come to an end: a search for a node that failed is charged. -/
def Outcome.charge : Outcome α → Budget → Budget
  | .resolved (.error _), b => b.consume
  | _, b => b

/-- Whether it may have been a connection failure that counts. -/
def Outcome.canFail : Outcome α → Prop
  | .resolved (.error _) | .attempted .. => True
  | _ => False

/-- What can follow when something has come to an end. -/
inductive AfterStep (w : World N) (inv : Invocation α) (outcome : Outcome α) :
    World N × Step α → Prop where
  | stop (w' : World N) (result : Except Error α) : AfterStep w inv outcome (w', .done result)
  | next {w' : World N} {inv' : Invocation α} {r : World N × Step α} (now : w'.now = w.now)
      (budget : inv'.budget = outcome.charge inv.budget) (searched : outcome ≠ .resolved (.ok ()))
      (h : NextStep w' inv' r) : AfterStep w inv outcome r
  | pause {w' : World N} {inv' : Invocation α} (budget : inv'.budget = outcome.charge inv.budget)
      (failed : outcome.canFail) :
      AfterStep w inv outcome (w', .running (inv', .pausing (inv'.wake w'.now)))
  | refresh (woken : outcome = .woken) :
      AfterStep w inv outcome (w, .running (inv, .refreshing .entering))
  /-- A node has been found, and the clock is not looked at again. -/
  | attempt {w' : World N} (now : w'.now = w.now) (searched : outcome = .resolved (.ok ()))
      (id : PoolId) : AfterStep w inv outcome (inv.beginAttempt w' id false)

theorem next_step (w : World N) (inv : Invocation α) (target : Option String) :
    NextStep w inv (inv.next w target) := by
  unfold next
  split_ifs
  · exact .closed
  · unfold exhaustion? Budget.check
    by_cases hleft : inv.budget.left = 0
    · simp only [if_pos hleft]
      exact .spent hleft
    · simp only [if_neg hleft]
      by_cases hlate : w.now ≥ inv.budget.deadline
      · simp only [if_pos hlate]
        exact .late hleft hlate
      · simp only [if_neg hlate]
        have hearly : w.now < inv.budget.deadline := by omega
        cases target with
        | some address => exact .attempt (World.now_obtain w address) hleft hearly _ true
        | none =>
          have hnow := now_choose w inv.slot
          dsimp only
          rcases hc : choose w inv.slot with ⟨_ | id, w'⟩ <;> rw [hc] at hnow
          · exact .resolve hnow hleft hearly
          · exact .attempt hnow hleft hearly id false

theorem NextStep.ne_blocked {w : World N} {inv : Invocation α} {r : World N × Step α}
    (h : NextStep w inv r) :
    r.2 ≠ .blocked := by
  cases h <;> exact nofun

theorem recover_step {w : World N} {inv inv' : Invocation α} {outcome : Outcome α}
    (id? : Option PoolId) (e : Error)
    (budget : inv'.budget = outcome.charge inv.budget) (failed : outcome.canFail) :
    AfterStep w inv outcome (inv'.recover w id? e) := by
  unfold recover
  dsimp only
  split_ifs
  · refine .next (now_invalidate w id?) ?_ ?_ (next_step _ _ none)
    · exact budget
    · rintro rfl
      exact failed
  · refine .pause ?_ failed
    exact budget

theorem after_step (w : World N) (inv : Invocation α) (outcome : Outcome α) :
    AfterStep w inv outcome (inv.after w outcome) := by
  cases outcome with
  | resolved result =>
    rcases result with e | ⟨⟩
    · simp only [after, resolved]
      split_ifs
      · exact recover_step none e rfl trivial
      · exact .stop _ _
    · have hnow := now_choose w inv.slot
      simp only [after, resolved]
      rcases hc : choose w inv.slot with ⟨_ | id, w'⟩ <;> rw [hc] at hnow
      · exact .stop _ _
      · exact .attempt hnow rfl id
  | attempted id asking ended =>
    have hbudget := budget_noteStart inv ended.started
    simp only [after, attempted]
    split
    · exact .stop _ _
    · split_ifs
      · exact .stop _ _
      · unfold retry
        split
        · dsimp only
          refine .next ?_ ?_ nofun (next_step _ _ none)
          · rfl
          · exact hbudget
        · refine .next ?_ ?_ nofun (next_step _ _ _)
          · rfl
          · exact hbudget
        · split_ifs
          · exact recover_step _ _ hbudget trivial
          · exact .stop _ _
  | woken => exact .refresh rfl
  | refreshed result => exact .next rfl rfl nofun (next_step w inv none)

/-- When something has come to an end, the invocation goes on at once. -/
theorem AfterStep.ne_blocked {w : World N} {inv : Invocation α} {outcome : Outcome α}
    {r : World N × Step α} (h : AfterStep w inv outcome r) : r.2 ≠ .blocked := by
  cases h with
  | next now budget searched h => exact h.ne_blocked
  | _ => exact nofun

variable [Network N]

/-- What can come of a turn that is limited by a deadline, where `turn` is the turn without it. -/
inductive Limited {σ ρ : Type} (deadline : Nat) (w : World N) (turn : World N × Turn σ ρ) :
    World N × Turn σ ρ → Prop where
  | waits {w' : World N} (h : turn = (w', .blocked)) (early : w.now < deadline) :
      Limited deadline w turn (w', .blocked)
  | goes {w' : World N} {state : σ} (h : turn = (w', .running state)) :
      Limited deadline w turn (w', .running state)
  | ends (w' : World N) (result : ρ) : Limited deadline w turn (w', .done result)

theorem refreshUntil_limited (deadline : Nat) (w : World N) (r : Refresh) :
    Limited deadline w (r.turn w) (refreshUntil deadline w r) := by
  have hnow := r.now_turn w
  unfold refreshUntil
  rcases hr : r.turn w with ⟨w', _ | r' | result⟩ <;> rw [hr] at hnow
  · dsimp only at hnow ⊢
    by_cases hlate : deadline ≤ w'.now
    · rw [if_pos hlate]
      exact .ends _ _
    · rw [if_neg hlate]
      have hearly : w.now < deadline := by omega
      exact .waits rfl hearly
  · exact .goes rfl
  · exact .ends _ _

theorem attemptUntil_limited (deadline : Nat) (w : World N) (body : Body α) (started : Nat)
    (a : Attempt) :
    Limited deadline w (a.turn w body started) (attemptUntil deadline w body started a) := by
  have hnow := a.now_turn w body started
  unfold attemptUntil
  rcases ha : a.turn w body started with ⟨w', _ | a' | ended⟩ <;> rw [ha] at hnow
  · dsimp only at hnow ⊢
    by_cases hlate : deadline ≤ w'.now
    · rw [if_pos hlate]
      exact .ends _ _
    · rw [if_neg hlate]
      have hearly : w.now < deadline := by omega
      exact .waits rfl hearly
  · exact .goes rfl
  · exact .ends _ _

/-- An invocation waits for the thing that it is busy with, and the time for that is not over. -/
inductive Stage.Waits (w : World N) (inv : Invocation α) : Stage → Prop where
  | resolving {r : Refresh} (h : (r.turn w).2 = .blocked) (early : w.now < inv.budget.deadline) :
      Waits w inv (.resolving r)
  | attempting {a : Attempt} (id : PoolId) (asking : Bool)
      (h : (a.turn w inv.body inv.started).2 = .blocked) (early : w.now < inv.budget.deadline) :
      Waits w inv (.attempting id asking a)
  | pausing {wake : Nat} (early : w.now < wake) : Waits w inv (.pausing wake)
  | refreshing {r : Refresh} (h : (r.turn w).2 = .blocked) (early : w.now < inv.budget.deadline) :
      Waits w inv (.refreshing r)

/-- What an invocation is busy with goes on as the same thing. -/
inductive Stage.Goes (w : World N) (inv : Invocation α) : Stage → Stage → Prop where
  | resolving {r r' : Refresh} (h : (r.turn w).2 = .running r') :
      Goes w inv (.resolving r) (.resolving r')
  | attempting {a a' : Attempt} (id : PoolId) (asking : Bool)
      (h : (a.turn w inv.body inv.started).2 = .running a') :
      Goes w inv (.attempting id asking a) (.attempting id asking a')
  | refreshing {r r' : Refresh} (h : (r.turn w).2 = .running r') :
      Goes w inv (.refreshing r) (.refreshing r')

/-- Which kind of thing an invocation is busy with. -/
inductive Kind where
  | resolving
  | attempting
  | pausing
  | refreshing
  deriving DecidableEq

/-- The kind of a stage. -/
def Stage.kind : Stage → Kind
  | .resolving _ => .resolving
  | .attempting .. => .attempting
  | .pausing _ => .pausing
  | .refreshing _ => .refreshing

/-- The kind of the thing that has come to an end. -/
def Outcome.kind : Outcome α → Kind
  | .resolved _ => .resolving
  | .attempted .. => .attempting
  | .woken => .pausing
  | .refreshed _ => .refreshing

/-- What can come of a turn of the thing that an invocation is busy with. -/
inductive StageStep (w : World N) (inv : Invocation α) (stage : Stage) :
    World N × Turn Stage (Outcome α) → Prop where
  | waits (w' : World N) (h : stage.Waits w inv) : StageStep w inv stage (w', .blocked)
  | goes (w' : World N) {stage' : Stage} (h : stage.Goes w inv stage') :
      StageStep w inv stage (w', .running stage')
  | ends (w' : World N) {outcome : Outcome α} (kind : outcome.kind = stage.kind) :
      StageStep w inv stage (w', .done outcome)

theorem stageTurn_step (w : World N) (inv : Invocation α) (stage : Stage) :
    StageStep w inv stage (inv.stageTurn w stage) := by
  cases stage with
  | resolving r =>
    have hlimited := refreshUntil_limited inv.budget.deadline w r
    simp only [stageTurn]
    generalize refreshUntil inv.budget.deadline w r = t at hlimited ⊢
    cases hlimited with
    | waits h early => exact .waits _ (.resolving (congrArg Prod.snd h) early)
    | goes h => exact .goes _ (.resolving (congrArg Prod.snd h))
    | ends => exact .ends _ rfl
  | attempting id asking a =>
    have hlimited := attemptUntil_limited inv.budget.deadline w inv.body inv.started a
    simp only [stageTurn]
    generalize attemptUntil inv.budget.deadline w inv.body inv.started a = t at hlimited ⊢
    cases hlimited with
    | waits h early => exact .waits _ (.attempting id asking (congrArg Prod.snd h) early)
    | goes h => exact .goes _ (.attempting id asking (congrArg Prod.snd h))
    | ends => exact .ends _ rfl
  | pausing wake =>
    simp only [stageTurn]
    by_cases hwake : wake ≤ w.now
    · rw [if_pos hwake]
      exact .ends _ rfl
    · rw [if_neg hwake]
      exact .waits _ (.pausing (Nat.lt_of_not_le hwake))
  | refreshing r =>
    have hlimited := refreshUntil_limited inv.budget.deadline w r
    simp only [stageTurn]
    generalize refreshUntil inv.budget.deadline w r = t at hlimited ⊢
    cases hlimited with
    | waits h early => exact .waits _ (.refreshing (congrArg Prod.snd h) early)
    | goes h => exact .goes _ (.refreshing (congrArg Prod.snd h))
    | ends => exact .ends _ rfl

/-- What can come of a turn of an invocation. -/
inductive TurnStep (w : World N) (inv : Invocation α) (stage : Stage) : World N × Step α → Prop where
  | waits (w' : World N) (h : stage.Waits w inv) : TurnStep w inv stage (w', .blocked)
  | goes (w' : World N) {stage' : Stage} (h : stage.Goes w inv stage') :
      TurnStep w inv stage (w', .running (inv, stage'))
  | ends {w' : World N} {outcome : Outcome α} {r : World N × Step α}
      (kind : outcome.kind = stage.kind) (h : AfterStep w' inv outcome r) : TurnStep w inv stage r

theorem turn_step (w : World N) (inv : Invocation α) (stage : Stage) :
    TurnStep w inv stage (inv.turn w stage) := by
  have hstep := stageTurn_step w inv stage
  unfold turn
  generalize inv.stageTurn w stage = t at hstep ⊢
  cases hstep with
  | waits w' h => exact .waits w' h
  | goes w' h => exact .goes w' h
  | ends w' kind => exact .ends kind (after_step w' inv _)

/-- An invocation waits only for the thing that it is busy with. -/
theorem turn_waits {w : World N} {inv : Invocation α} {stage : Stage}
    (h : (inv.turn w stage).2 = .blocked) : stage.Waits w inv := by
  have hstep := turn_step w inv stage
  generalize inv.turn w stage = r at h hstep
  cases hstep with
  | waits w' hwaits => exact hwaits
  | goes => cases h
  | ends kind hafter => exact absurd h hafter.ne_blocked

end Invocation

/-! ### What is under way -/

/-- The exchange in an opening. -/
def Dial.exchange? : Dial → Option Exchange
  | .connecting .. => none
  | .authenticating x | .naming x => some x

/-- The exchange of a borrower. -/
def Borrow.exchange? : Borrow → Option Exchange
  | .entering _ | .queued .. => none
  | .dialling _ d => d.exchange?

/-- The pool that the borrower has come to. -/
def Borrow.pool : Borrow → PoolId
  | .entering id | .queued id _ _ | .dialling id _ => id

/-- The exchange of an attempt: of its borrower, its own, or its body's. -/
def Attempt.exchange? : Attempt → Option Exchange
  | .borrowing _ b => b.exchange?
  | .announcing _ x => some x
  | .running _ _ p => some p.exchange
  | .resting .. => none

/-- The exchange of a search. -/
def Discovery.exchange? : Discovery → Option Exchange
  | .borrowing _ _ _ b => b.exchange?
  | .querying _ _ _ _ x | .asking _ _ x => some x
  | .dialling _ _ d => d.exchange?

/-- The exchange of a refresh. -/
def Refresh.exchange? : Refresh → Option Exchange
  | .entering | .queued .. => none
  | .discovering d => d.exchange?

/-- The exchange of an invocation. -/
def Invocation.Stage.exchange? : Invocation.Stage → Option Exchange
  | .resolving r | .refreshing r => r.exchange?
  | .attempting _ _ a => a.exchange?
  | .pausing _ => none

end SlotRouter
