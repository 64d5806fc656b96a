import SlotRouter.Invocation
import SlotRouter.Proofs.Custody.Exchange

/-!
# Activities and custody

Every turn of every activity keeps to its connections, and so does every way to give an activity up:
what is held may go from hand to hand, into a pool or out of the world, and it stays in one place.

Key theorems: `Attempt.moves`, `Refresh.moves`, `Invocation.moves`, and `moves_drop` for each of
them.
-/

namespace SlotRouter

open List

variable {N : Type} {replies : Replies} {α : Type}

/-! ### Opening and borrowing links -/

namespace Dial

/-- What is held while a link is opened. -/
def holding : Dial → Holding
  | .connecting _ handle _ => .opening handle
  | .authenticating x | .naming x => x.holding

/-- What is held after a turn of an opening. -/
abbrev heldAfter (d : Dial) : Turn Dial (Except Error Link) → Option Holding :=
  Turn.held (some d.holding) (fun d => some d.holding) fun result => result.toOption.map .inHand

theorem afterAuth_moves (config : ConnectionConfig) (link : Link) {d : Dial}
    {w : World (Watched N)} :
    Moves replies w (some (.inHand link)) w (d.heldAfter (afterAuth config link)) := by
  unfold afterAuth
  split <;> exact Moves.refl

theorem afterConnect_moves (config : ConnectionConfig) (link : Link) {d : Dial}
    {w : World (Watched N)} :
    Moves replies w (some (.inHand link)) w (d.heldAfter (afterConnect config link)) := by
  unfold afterConnect
  split
  · exact Moves.refl
  · exact afterAuth_moves config link

variable [Network N]

theorem start_moves (w : World (Watched N)) (address : String) :
    Moves replies w none (w.dial address).1 (some (w.dial address).2.holding) := by
  show Moves replies w none (w.withNet (start _ _ _ _)).1 (some (w.withNet (start _ _ _ _)).2.holding)
  unfold start
  rcases hconnect : Network.connect w.net w.now address with ⟨net, h⟩
  obtain ⟨hwho, hrecord⟩ := Watched.connect_spec hconnect
  exact Moves.connect hwho hrecord

/-- A turn of an opening keeps to its connection. -/
theorem moves (w : World (Watched N)) (d : Dial) :
    Moves replies w (some d.holding) (w.dialOn d).1 (d.heldAfter (w.dialOn d).2) := by
  cases d with
  | connecting address h deadline =>
    simp only [World.dialOn, World.withNet, turn]
    split
    · refine Moves.trans ?_ (afterConnect_moves _ _)
      exact Moves.turnInto rfl fun _ hx _ => ⟨⟨rfl, by rw [hx.1, hx.2.1]; rfl⟩, hx.2.2⟩
    · exact Moves.letGo
    · split_ifs
      · exact Moves.letGo
      · exact Moves.refl
  | authenticating x =>
    have hm : Moves replies w _ _ _ := x.moves w
    simp only [World.dialOn, World.withNet, turn]
    simp only [World.exchange, World.withNet] at hm
    rcases hx : x.turn w.now w.net with ⟨net, _ | x' | ⟨link, answer⟩⟩ <;> rw [hx] at hm
    · exact hm
    · exact hm
    · rcases answer with e | f
      · exact hm.trans Moves.letGo
      · exact hm.trans (afterAuth_moves _ _)
  | naming x =>
    have hm : Moves replies w _ _ _ := x.moves w
    simp only [World.dialOn, World.withNet, turn]
    simp only [World.exchange, World.withNet] at hm
    rcases hx : x.turn w.now w.net with ⟨net, _ | x' | ⟨link, answer⟩⟩ <;> rw [hx] at hm
    · exact hm
    · exact hm
    · rcases answer with e | f
      · exact hm.trans Moves.letGo
      · refine hm.trans ?_
        show Moves replies _ _ _ (((Reply.unit f).map fun _ => link).toOption.map .inHand)
        rcases Reply.unit f with e | u
        · exact Moves.letGo
        · exact Moves.refl

end Dial

namespace Borrow

/-- What a borrower has. -/
def holding? : Borrow → Option Holding
  | .entering _ | .queued .. => none
  | .dialling _ d => some d.holding

/-- What is held after a turn of a borrower. -/
abbrev heldAfter (b : Borrow) : Turn Borrow (Except Error Loan) → Option Holding :=
  Turn.held b.holding? holding? fun result => result.toOption.map fun loan => .inHand loan.link

theorem withPermits_moves {w : World (Watched N)} {H : Option Holding} (id : PoolId)
    (permits : Semaphore) :
    Moves replies w H (withPermits w id permits) H :=
  Moves.of_modifyPool fun p => List.Sublist.refl p.idle

/-- Giving up a borrower lets go of what it has. -/
theorem moves_drop (w : World (Watched N)) (b : Borrow) :
    Moves replies w b.holding? (b.drop w) none := by
  cases b with
  | entering id => exact Moves.refl
  | queued id ticket deadline => exact Moves.of_modifyPool fun p => List.Sublist.refl p.idle
  | dialling id d => exact Moves.letGo.trans (Moves.of_modifyPool fun p => List.Sublist.refl p.idle)

variable [Network N]

theorem permitted_moves (w : World (Watched N)) (id : PoolId) {b : Borrow} :
    Moves replies w none (permitted w id).1 (b.heldAfter (permitted w id).2) := by
  unfold permitted
  rcases htake : (w.pool id).takeIdle with ⟨_ | link, p⟩
  · have hm : Moves replies w none (w.modifyPool id fun _ => p) none :=
      Moves.of_topology (Topology.idle_take_none htake)
    exact hm.trans (Dial.start_moves _ _)
  · exact Moves.take htake

/-- A turn of a borrower keeps to its connection. -/
theorem moves (w : World (Watched N)) (b : Borrow) :
    Moves replies w b.holding? (b.turn w).1 (b.heldAfter (b.turn w).2) := by
  cases b with
  | entering id =>
    simp only [turn]
    split_ifs
    · exact Moves.refl
    · split
      · exact Moves.refl
      · exact (withPermits_moves id _).trans (permitted_moves _ id)
      · exact withPermits_moves id _
  | queued id ticket deadline =>
    simp only [turn]
    split
    · exact withPermits_moves id _
    · exact (withPermits_moves id _).trans (permitted_moves _ id)
    · split_ifs
      · exact moves_drop w (.queued id ticket deadline)
      · exact Moves.refl
  | dialling id d =>
    have hm : Moves replies w _ _ _ := d.moves w
    simp only [turn]
    rcases hd : w.dialOn d with ⟨w', _ | d' | e | link⟩ <;> rw [hd] at hm
    · exact hm
    · exact hm
    · exact hm.trans (Moves.of_modifyPool fun p => List.Sublist.refl p.idle)
    · exact hm

end Borrow

/-! ### Attempts -/

theorem Patience.moves [Network N] (w : World (Watched N)) (p : Patience) :
    Moves replies w (some p.exchange.holding) (p.turn w).1
      ((p.turn w).2.held (some p.exchange.holding) (fun p => some p.exchange.holding) fun r => some (.inHand r.1)) := by
  have hm : Moves replies w _ _ _ := p.exchange.moves w
  unfold Patience.turn
  rcases hx : w.exchange p.exchange with ⟨w', _ | x | ⟨link, answer⟩⟩ <;> rw [hx] at hm
  · dsimp only
    split
    · split_ifs
      · exact hm.trans (Moves.leave p.exchange.link?_holding)
      · exact hm
    · exact hm
  · exact hm
  · exact hm

namespace Attempt

/-- What an attempt has. -/
def holding? : Attempt → Option Holding
  | .borrowing _ b => b.holding?
  | .announcing _ x => some x.holding
  | .running _ _ p => some p.exchange.holding
  | .resting _ _ link _ => some (.inHand link)

/-- What is held after a turn of an attempt. -/
abbrev heldAfter (a : Attempt) : Turn Attempt (Ended α) → Option Holding :=
  Turn.held a.holding? holding? fun _ => none

/-- Giving up an attempt lets go of what it has. -/
theorem moves_drop (w : World (Watched N)) (a : Attempt) :
    Moves replies w a.holding? (a.drop w) none := by
  cases a with
  | borrowing asking b => exact b.moves_drop w
  | announcing id x => exact Moves.giveBack x.link?_holding
  | running id heard p => exact Moves.giveBack p.exchange.link?_holding
  | resting id heard link wake => exact Moves.giveBack rfl

theorem proceed_moves (w : World (Watched N)) (body : Body α) (started : Nat) (id : PoolId)
    (link : Link) (heard : List Patience.Heard) {a : Attempt} :
    Moves replies w (some (.inHand link)) (proceed w body started id link heard).1
      (a.heldAfter (proceed w body started id link heard).2) := by
  unfold proceed
  split
  · exact Moves.refl
  · exact Moves.refl
  · exact Moves.giveBack rfl

variable [Network N]

/-- A turn of an attempt keeps to its connection. -/
theorem moves (w : World (Watched N)) (body : Body α) (started : Nat) (a : Attempt) :
    Moves replies w a.holding? (a.turn w body started).1 (a.heldAfter (a.turn w body started).2) := by
  cases a with
  | borrowing asking b =>
    have hm : Moves replies w _ _ _ := b.moves w
    simp only [turn]
    rcases hb : b.turn w with ⟨w', _ | b' | e | loan⟩ <;> rw [hb] at hm
    · exact hm
    · exact hm
    · exact hm
    · dsimp only
      split_ifs
      · exact hm
      · exact hm.trans (proceed_moves ..)
  | announcing id x =>
    have hm : Moves replies w _ _ _ := x.moves w
    simp only [turn]
    rcases hx : w.exchange x with ⟨w', _ | x' | ⟨link, e | f⟩⟩ <;> rw [hx] at hm
    · exact hm
    · exact hm
    · exact hm.trans (Moves.giveBack rfl)
    · exact hm.trans (proceed_moves ..)
  | running id heard p =>
    have hm : Moves replies w _ _ _ := p.moves w
    simp only [turn]
    rcases hp : p.turn w with ⟨w', _ | p' | ⟨link, answer⟩⟩ <;> rw [hp] at hm
    · exact hm
    · exact hm
    · exact hm.trans (proceed_moves ..)
  | resting id heard link wake =>
    simp only [turn]
    split_ifs
    · exact proceed_moves ..
    · exact Moves.refl

end Attempt

/-! ### Refreshes -/

namespace Discovery

/-- What a search has. -/
def holding? : Discovery → Option Holding
  | .borrowing _ _ _ b => b.holding?
  | .querying _ _ _ _ x | .asking _ _ x => some x.holding
  | .dialling _ _ d => some d.holding

/-- What is held after a turn of a search, or of the refresh that it belongs to. -/
abbrev heldAfter (before : Option Holding) : Step → Option Holding :=
  Turn.held before holding? fun _ => none

/-- Giving up a search lets go of what it has. -/
theorem moves_drop (w : World (Watched N)) (d : Discovery) :
    Moves replies w d.holding? (d.drop w) none := by
  cases d with
  | borrowing node nodes seeds b => exact b.moves_drop w
  | querying node nodes seeds id x => exact Moves.giveBack x.link?_holding
  | dialling seed seeds d => exact Moves.letGo
  | asking seed seeds x => exact Moves.letGo

variable [Network N]

theorem nextSeed_moves (w : World (Watched N)) (seeds : List String) {H : Option Holding} :
    Moves replies w none (nextSeed w seeds).1 (heldAfter H (nextSeed w seeds).2) := by
  cases seeds with
  | nil => exact Moves.refl
  | cons seed seeds => exact Dial.start_moves w seed

theorem nextNode_moves (w : World (Watched N)) (seeds nodes : List String) {H : Option Holding} :
    Moves replies w none (nextNode w seeds nodes).1 (heldAfter H (nextNode w seeds nodes).2) := by
  induction nodes with
  | nil => exact nextSeed_moves w seeds
  | cons node nodes ih =>
    unfold nextNode
    split
    · exact Moves.refl
    · exact ih

theorem start_moves (w : World (Watched N)) {H : Option Holding} :
    Moves replies w none (start w).1 (heldAfter H (start w).2) := by
  have hdraw : Moves replies w none { w with topology := w.topology.drawNodes.2 } none :=
    Moves.of_topology (List.Sublist.refl _)
  exact hdraw.trans (nextNode_moves ..)

/-- A turn of a search keeps to its connection. -/
theorem moves (w : World (Watched N)) (d : Discovery) :
    Moves replies w d.holding? (d.turn w).1 (heldAfter d.holding? (d.turn w).2) := by
  cases d with
  | borrowing node nodes seeds b =>
    have hm : Moves replies w _ _ _ := b.moves w
    simp only [turn]
    rcases hb : b.turn w with ⟨w', _ | b' | e | loan⟩ <;> rw [hb] at hm
    · exact hm
    · exact hm
    · exact hm.trans (nextNode_moves ..)
    · exact hm
  | querying node nodes seeds id x =>
    have hm : Moves replies w _ _ _ := x.moves w
    simp only [turn]
    rcases hx : w.exchange x with ⟨w', _ | x' | ⟨link, answer⟩⟩ <;> rw [hx] at hm
    · exact hm
    · exact hm
    · have hback : Moves replies w _ (Loan.giveBack w' id link false) none := hm.trans (Moves.giveBack rfl)
      dsimp only
      split
      · exact hback
      · exact hback.trans (nextNode_moves ..)
  | dialling seed seeds d =>
    have hm : Moves replies w _ _ _ := d.moves w
    simp only [turn]
    rcases hd : w.dialOn d with ⟨w', _ | d' | e | link⟩ <;> rw [hd] at hm
    · exact hm
    · exact hm
    · exact hm.trans (nextSeed_moves ..)
    · exact hm
  | asking seed seeds x =>
    have hm : Moves replies w _ _ _ := x.moves w
    simp only [turn]
    rcases hx : w.exchange x with ⟨w', _ | x' | ⟨link, answer⟩⟩ <;> rw [hx] at hm
    · exact hm
    · exact hm
    · have hdrop := hm.trans Moves.letGo
      dsimp only
      split
      · exact hdrop
      · exact hdrop.trans (nextSeed_moves ..)

end Discovery

namespace Refresh

/-- What a refresh has. -/
def holding? : Refresh → Option Holding
  | .entering | .queued .. => none
  | .discovering d => d.holding?

/-- What is held after a turn of a refresh. -/
abbrev heldAfter (before : Option Holding) : Turn Refresh (Except Error Unit) → Option Holding :=
  Turn.held before holding? fun _ => none

theorem unlock_moves {w : World (Watched N)} {H : Option Holding} :
    Moves replies w H (unlock w) H :=
  Moves.of_topology (List.Sublist.refl _)

theorem withLock_moves {w : World (Watched N)} {H : Option Holding} (lock : Semaphore) :
    Moves replies w H (withLock w lock) H := Moves.of_topology (List.Sublist.refl _)

/-- Giving up a refresh lets go of what it has. -/
theorem moves_drop (w : World (Watched N)) (r : Refresh) :
    Moves replies w r.holding? (r.drop w) none := by
  cases r with
  | entering => exact Moves.refl
  | queued seen ticket => exact Moves.of_topology (List.Sublist.refl _)
  | discovering d => exact (d.moves_drop w).trans unlock_moves

theorem finish_moves (w : World (Watched N)) (found : Except Error (List SlotRange)) :
    Moves replies w none (finish w found).1 none := by
  unfold finish
  split
  · exact unlock_moves
  · split
    · exact unlock_moves
    · rename_i t hinstall
      have hidle : t.idle <+ w.topology.idle := Topology.idle_install hinstall
      exact (Moves.of_topology (t := { t with generation := t.generation + 1 }) hidle).trans unlock_moves

theorem searched_moves {w w' : World (Watched N)} {H : Option Holding} {step : Discovery.Step}
    (hm : Moves replies w H w' (Discovery.heldAfter H step)) :
    Moves replies w H (searched w' step).1 (heldAfter H (searched w' step).2) := by
  cases step with
  | blocked => exact hm
  | running d => exact hm
  | done found => exact hm.trans (finish_moves w' found)

variable [Network N]

theorem locked_moves (w : World (Watched N)) (seen : Nat) :
    Moves replies w none (locked w seen).1 (heldAfter none (locked w seen).2) := by
  unfold locked
  split_ifs
  · exact unlock_moves
  · exact unlock_moves
  · exact searched_moves (Discovery.start_moves w)

/-- A turn of a refresh keeps to its connection. -/
theorem moves (w : World (Watched N)) (r : Refresh) :
    Moves replies w r.holding? (r.turn w).1 (heldAfter r.holding? (r.turn w).2) := by
  cases r with
  | entering =>
    simp only [turn]
    split_ifs
    · exact Moves.refl
    · split
      · exact (withLock_moves _).trans (locked_moves ..)
      · exact withLock_moves _
      · exact Moves.refl
  | queued seen ticket =>
    simp only [turn]
    split
    · exact (withLock_moves _).trans (locked_moves ..)
    · exact Moves.refl
  | discovering d => exact searched_moves (d.moves w)

end Refresh

/-! ### Invocations -/

namespace Invocation

/-- What an invocation has. -/
def Stage.holding? : Stage → Option Holding
  | .resolving r | .refreshing r => r.holding?
  | .attempting _ _ a => a.holding?
  | .pausing _ => none

/-- What is held after a turn of an invocation. -/
abbrev heldAfter (before : Option Holding) : Step α → Option Holding :=
  Turn.held before (fun next => next.2.holding?) fun _ => none

/-- Giving up an invocation lets go of what it has. -/
theorem moves_drop (w : World (Watched N)) (stage : Stage) :
    Moves replies w stage.holding? (drop w stage) none := by
  cases stage with
  | resolving r => exact r.moves_drop w
  | attempting id asking a => exact a.moves_drop w
  | pausing wake => exact Moves.refl
  | refreshing r => exact r.moves_drop w

variable {w : World (Watched N)} {inv : Invocation α} {H : Option Holding}

theorem choose_moves (slot : Option UInt16) : Moves replies w none (choose w slot).2 none := by
  cases slot with
  | some slot => exact Moves.refl
  | none => exact Moves.of_topology (List.Sublist.refl _)

theorem next_moves (target : Option String) :
    Moves replies w none (next w inv target).1 (heldAfter H (next w inv target).2) := by
  unfold next
  split_ifs
  · exact Moves.refl
  · split
    · exact Moves.refl
    · cases target with
      | some address => exact Moves.obtain address
      | none =>
        have hchoose : Moves replies w none (choose w inv.slot).2 none := choose_moves inv.slot
        dsimp only
        rcases hc : choose w inv.slot with ⟨_ | id, w'⟩ <;> rw [hc] at hchoose
        · exact hchoose
        · exact hchoose

theorem invalidate_moves (id? : Option PoolId) : Moves replies w none (invalidate w id?) none := by
  cases id? with
  | some id => exact Moves.of_modifyPool fun p => List.nil_sublist p.idle
  | none => exact Moves.refl

theorem recover_moves (id? : Option PoolId) (e : Error) :
    Moves replies w none (recover w inv id? e).1 (heldAfter H (recover w inv id? e).2) := by
  have hinvalidate : Moves replies w none (invalidate w id?) none := invalidate_moves id?
  unfold recover
  dsimp only
  split_ifs
  · exact hinvalidate.trans (next_moves none)
  · exact hinvalidate

theorem resolved_moves (result : Except Error Unit) :
    Moves replies w none (resolved w inv result).1 (heldAfter H (resolved w inv result).2) := by
  unfold resolved
  split
  · have hchoose : Moves replies w none (choose w inv.slot).2 none := choose_moves inv.slot
    rcases hc : choose w inv.slot with ⟨_ | id, w'⟩ <;> rw [hc] at hchoose
    · exact hchoose
    · exact hchoose
  · split_ifs
    · exact recover_moves none _
    · exact Moves.refl

theorem retry_moves (id : PoolId) (e : Error) :
    Moves replies w none (retry w inv id e).1 (heldAfter H (retry w inv id e).2) := by
  unfold retry
  split
  · exact (Moves.move _ _).trans (next_moves none)
  · exact next_moves _
  · split_ifs
    · exact recover_moves _ _
    · exact Moves.refl

/-- Between two stages an invocation has no connection. -/
theorem after_moves (outcome : Outcome α) :
    Moves replies w none (inv.after w outcome).1 (heldAfter H (inv.after w outcome).2) := by
  unfold after
  split
  · exact resolved_moves _
  · unfold attempted
    split
    · exact Moves.refl
    · split_ifs
      · exact Moves.refl
      · exact retry_moves ..
  · exact Moves.refl
  · exact next_moves none

theorem start_moves (policy : RetryPolicy) (body : Body α) (slot : Option UInt16)
    (deadline : Option Nat) :
    Moves replies w none (start w policy body slot deadline).1 (heldAfter H (start w policy body slot deadline).2) :=
  next_moves none

variable [Network N]

theorem refreshUntil_moves (deadline : Nat) (r : Refresh) :
    Moves replies w r.holding? (refreshUntil deadline w r).1
      (Refresh.heldAfter r.holding? (refreshUntil deadline w r).2) := by
  have hm : Moves replies w _ _ _ := r.moves w
  unfold refreshUntil
  rcases hr : r.turn w with ⟨w', _ | r' | result⟩ <;> rw [hr] at hm
  · dsimp only
    split_ifs
    · exact hm.trans (r.moves_drop w')
    · exact hm
  · exact hm
  · exact hm

theorem attemptUntil_moves (deadline started : Nat) (body : Body α) (a : Attempt) :
    Moves replies w a.holding? (attemptUntil deadline w body started a).1
      (a.heldAfter (attemptUntil deadline w body started a).2) := by
  have hm : Moves replies w _ _ _ := a.moves w body started
  unfold attemptUntil
  rcases ha : a.turn w body started with ⟨w', _ | a' | ended⟩ <;> rw [ha] at hm
  · dsimp only
    split_ifs
    · exact hm.trans (a.moves_drop w')
    · exact hm
  · exact hm
  · exact hm

theorem stageTurn_moves (stage : Stage) :
    Moves replies w stage.holding? (inv.stageTurn w stage).1
      ((inv.stageTurn w stage).2.held stage.holding? Stage.holding? fun _ => none) := by
  cases stage with
  | resolving r | refreshing r =>
    have hm : Moves replies w _ _ _ := refreshUntil_moves inv.budget.deadline r
    simp only [stageTurn]
    rcases hr : refreshUntil inv.budget.deadline w r with ⟨w', _ | r' | result⟩ <;> rw [hr] at hm <;> exact hm
  | attempting id asking a =>
    have hm : Moves replies w _ _ _ := attemptUntil_moves inv.budget.deadline inv.started inv.body a
    simp only [stageTurn]
    rcases ha : attemptUntil inv.budget.deadline w inv.body inv.started a with ⟨w', _ | a' | ended⟩ <;>
      rw [ha] at hm <;> exact hm
  | pausing wake =>
    simp only [stageTurn]
    split_ifs <;> exact Moves.refl

/-- A turn of an invocation keeps to its connection. -/
theorem moves (w : World (Watched N)) (inv : Invocation α) (stage : Stage) :
    Moves replies w stage.holding? (inv.turn w stage).1 (heldAfter stage.holding? (inv.turn w stage).2) := by
  have hm : Moves replies w _ (inv.stageTurn w stage).1 _ := stageTurn_moves stage
  unfold turn
  rcases hs : inv.stageTurn w stage with ⟨w', _ | stage' | outcome⟩ <;> rw [hs] at hm
  · exact hm
  · exact hm
  · exact hm.trans (after_moves outcome)

end Invocation
end SlotRouter
