import SlotRouter.Proofs.Steps
import SlotRouter.Simulation.Timeline

/-!
# The course of an invocation

An invocation takes its turns in a world that others change in between. `Course` says what can be
seen of an invocation up to a moment: the attempts that were dispatched, the starts of the body, and
what came of everything that the invocation was busy with. What others may do between turns is a
parameter: with `Later` they may do anything, as long as the clock does not go back; with `Punctual`
an invocation that can come further does so before time passes, and one that waits is woken at the
whole millisecond of its timer.

Key definitions: `Progress`, `Sight`, `Course`, `Later`, `Punctual`.
-/

namespace SlotRouter

/-- How far an invocation has come. -/
inductive Progress (α : Type) where
  | busy (inv : Invocation α) (stage : Invocation.Stage)
  | over (result : Except Error α)

/-- Something that can be seen of an invocation, and when. -/
inductive Sight (α : Type) where
  /-- An attempt begins, at a node. -/
  | dispatched (now : Nat) (node : String)
  | bodyStarted (now : Nat)
  /-- What the invocation was busy with has ended. -/
  | ended (now : Nat) (outcome : Invocation.Outcome α)

variable {N α : Type}

namespace Progress

/-- How far the invocation is after a turn. -/
def ofStep (before : Progress α) : Invocation.Step α → Progress α
  | .blocked => before
  | .running (inv, stage) => .busy inv stage
  | .done result => .over result

/-- Whether the invocation can come no further now. -/
def isIdle [Network N] (w : World N) : Progress α → Bool
  | .busy inv stage => !(inv.turn w stage).2.isProgress
  | .over _ => true

/-- When the present wait of the invocation ends. -/
def timer? : Progress α → Option Nat
  | .busy inv stage => inv.timer? stage
  | .over _ => none

end Progress

namespace Invocation

/-- Whether the body has been started in the attempt under way. -/
def Stage.hasStarted : Stage → Bool
  | .attempting _ _ a => a.hasStarted
  | _ => false

/-- Whether the body was started in the attempt that ended. -/
def Outcome.hasStarted : Outcome α → Bool
  | .attempted _ _ ended => ended.started
  | _ => false

end Invocation

namespace Sight

/-- The instant of a sight. -/
def now : Sight α → Nat
  | .dispatched now _ | .bodyStarted now | .ended now _ => now

/-- The dispatch that is seen when a step begins an attempt. -/
def ofStep (r : World N × Invocation.Step α) : List (Sight α) :=
  match r.2 with
  | .running (_, .attempting id _ _) => [.dispatched r.1.now (r.1.pool id).address]
  | _ => []

/-- What is seen in a turn, the latest in front. -/
def ofTurn [Network N] (w : World N) (inv : Invocation α) (stage : Invocation.Stage) :
    List (Sight α) :=
  match inv.stageTurn w stage with
  | (_, .blocked) => []
  | (w, .running next) => if next.hasStarted && !stage.hasStarted then [.bodyStarted w.now] else []
  | (w, .done outcome) =>
    ofStep (inv.after w outcome) ++ .ended w.now outcome ::
      if outcome.hasStarted && !stage.hasStarted then [.bodyStarted w.now] else []

end Sight

/-- What may become of the world while the invocation takes no turn. -/
abbrev Surroundings (N α : Type) := World N → Progress α → World N → Prop

/-- Others do anything, and time may pass. -/
def Later : Surroundings N α := fun w _ w' => w.now ≤ w'.now

/-- Others do anything, but time passes only while the invocation can come no further, and not
beyond the whole millisecond of its timer. -/
def Punctual [Network N] : Surroundings N α := fun w p w' =>
  w'.now = w.now ∨ p.isIdle w = true ∧ w.now ≤ w'.now ∧
    ∀ instant, p.timer? = some instant → w'.now ≤ Simulation.Timeline.wholeMillisecond instant

/-- The invocation that somebody asks for: its bounds, its body, the slot of its keys, and when it
has to be over. -/
structure Job (α : Type) where
  policy : RetryPolicy
  body : Body α
  slot : Option UInt16
  callerDeadline : Option Nat

namespace Job

/-- The invocation before its first attempt. -/
def fresh (job : Job α) (now : Nat) : Invocation α where
  policy := job.policy
  body := job.body
  slot := job.slot
  budget := .ofPolicy job.policy now job.callerDeadline

/-- The first turn of the invocation. -/
def start (job : Job α) (w : World N) : World N × Invocation.Step α :=
  Invocation.start w job.policy job.body job.slot job.callerDeadline

theorem start_step (job : Job α) (w : World N) :
    Invocation.NextStep w (job.fresh w.now) (job.start w) :=
  Invocation.next_step w (job.fresh w.now) none

/-- When an invocation that starts at the instant has to be over. -/
def deadline (job : Job α) (begun : Nat) : Nat :=
  match job.callerDeadline with
  | some d => min d (begun + job.policy.retryDuration)
  | none => begun + job.policy.retryDuration

theorem deadline_fresh (job : Job α) (begun : Nat) :
    (job.fresh begun).budget.deadline = job.deadline begun := by
  unfold fresh Budget.ofPolicy Budget.fresh deadline
  cases job.callerDeadline <;> rfl

end Job

/-- What has been seen of the invocation that began at the instant `begun`, the latest in front, and
the world and its progress now. -/
inductive Course [Network N] (between : Surroundings N α) (job : Job α) (begun : Nat) :
    List (Sight α) → World N → Progress α → Prop where
  | start {w w' : World N} {inv : Invocation α} {stage : Invocation.Stage} (now : w.now = begun)
      (h : job.start w = (w', .running (inv, stage))) :
      Course between job begun (Sight.ofStep (job.start w)) w' (.busy inv stage)
  | refused {w w' : World N} {result : Except Error α} (now : w.now = begun)
      (h : job.start w = (w', .done result)) : Course between job begun [] w' (.over result)
  | turn {sights : List (Sight α)} {w : World N} {inv : Invocation α} {stage : Invocation.Stage}
      (h : Course between job begun sights w (.busy inv stage)) :
      Course between job begun (Sight.ofTurn w inv stage ++ sights) (inv.turn w stage).1
        (.ofStep (.busy inv stage) (inv.turn w stage).2)
  | wait {sights : List (Sight α)} {w w' : World N} {p : Progress α} (h : Course between job begun sights w p)
      (others : between w p w') : Course between job begun sights w' p

/-! ### Left to itself -/

/-- What has been seen of an invocation, its world and its progress. -/
structure Moment (N α : Type) where
  sights : List (Sight α)
  world : World N
  progress : Progress α

namespace Moment

/-- The first moment of an invocation. -/
def first (job : Job α) (w : World N) : Moment N α where
  sights := Sight.ofStep (job.start w)
  world := (job.start w).1
  progress := .ofStep (.over (.error .clientClosed)) (job.start w).2

/-- The moment at another instant. -/
def passTo (m : Moment N α) (now : Nat) : Moment N α := { m with world := { m.world with now } }

variable [Network N]

/-- The moment after a turn of the invocation, if it is not over. -/
def turn : Moment N α → Moment N α
  | ⟨sights, w, .busy inv stage⟩ =>
    ⟨Sight.ofTurn w inv stage ++ sights, (inv.turn w stage).1, .ofStep (.busy inv stage) (inv.turn w stage).2⟩
  | m => m

/-- The moment after a number of turns in which nobody else does anything. -/
def after : Nat → Moment N α → Moment N α
  | 0, m => m
  | turns + 1, m => after turns m.turn

end Moment

/-- The moment belongs to a course. -/
abbrev Moment.IsOf [Network N] (m : Moment N α) (between : Surroundings N α) (job : Job α) (begun : Nat) : Prop :=
  Course between job begun m.sights m.world m.progress

namespace Course

variable [Network N] {between : Surroundings N α} {job : Job α} {begun : Nat}

theorem first {w : World N} (now : w.now = begun) :
    (Moment.first job w).IsOf between job begun := by
  unfold Moment.IsOf Moment.first
  rcases h : job.start w with ⟨w', _ | ⟨inv, stage⟩ | result⟩
  · exact ((job.start_step w).ne_blocked (congrArg Prod.snd h)).elim
  · have hstart : Course between job begun _ w' (.busy inv stage) := .start now h
    rw [h] at hstart
    exact hstart
  · exact .refused now h

theorem turn_moment {m : Moment N α} (h : m.IsOf between job begun) :
    m.turn.IsOf between job begun := by
  rcases m with ⟨sights, w, ⟨inv, stage⟩ | result⟩
  · exact .turn h
  · exact h

/-- An invocation may be left to itself for any number of turns. -/
theorem after {m : Moment N α} (h : m.IsOf between job begun) (turns : Nat) :
    (Moment.after turns m).IsOf between job begun := by
  induction turns generalizing m with
  | zero => exact h
  | succ turns ih => exact ih (turn_moment h)

end Course
/-! ### A small client -/

/-- A `PING`, on a slot or on any node. -/
def Job.ping (policy : RetryPolicy) (slot : Option UInt16) : Job Unit where
  policy
  body _ heard := if heard.isEmpty then .send .ping else .finish (.ok ())
  slot
  callerDeadline := none

/-- The world of a client that has one seed and knows no node yet. -/
def World.ofSeed (net : N) : World N where
  topology := .fresh { seeds := ["a:1"], connection := {}, pool := {}, chance := .settled }
  net

/-- The world of the same client when it knows the node. -/
def World.ofNode (net : N) : World N := ((World.ofSeed net).obtain "a:1").2

end SlotRouter
