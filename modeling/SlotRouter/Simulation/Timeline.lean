import SlotRouter.World

/-!
# The timeline

Runs activities side by side on one clock. At each instant every activity in turn, in the order of the list, goes on
until it is blocked, again and again until none comes further. Then the clock moves to the next instant at which a timer
fires or something arrives. Timers fire at whole milliseconds.

A run is bounded by a number of rounds, which is a parameter.

Not covered: timers that lag behind the clock. Here a wait is over at the first turn of its activity at or after the
instant of its timer, whatever has woken the activity. A clock that ticks once a millisecond lets no timer go off before
the first tick at or after its instant, so an activity that something else wakes in between would wait on.
-/

namespace SlotRouter.Simulation

/-- An activity of a run, or its result and when it came. -/
inductive Strand (σ ρ : Type) where
  | live (state : σ)
  | ended (result : ρ) (time : Nat)

/-- A kind of activity: its turns, and when it wants to be woken. -/
structure Kind (N σ ρ : Type) where
  turn : World N → σ → World N × Turn σ ρ
  timer? : σ → Option Nat

namespace Timeline

/-- The first whole millisecond that is not before the instant. -/
def wholeMillisecond (n : Nat) : Nat := (n + 999999) / 1000000 * 1000000

variable {N σ ρ : Type}

/-- Lets an activity go on until it is blocked; says whether it has come further. -/
def poll (k : Kind N σ ρ) : (rounds : Nat) → World N → σ → World N × Strand σ ρ
  | 0, w, s => (w, .live s)
  | rounds + 1, w, s =>
    match k.turn w s with
    | (w, .blocked) => (w, .live s)
    | (w, .running s) => poll k rounds w s
    | (w, .done r) => (w, .ended r w.now)

/-- Whether an activity can come further now. -/
def canProgress (k : Kind N σ ρ) (w : World N) : Strand σ ρ → Bool
  | .live s => (k.turn w s).2.isProgress
  | .ended .. => false

/-- Lets every activity go on in turn. -/
def pass (k : Kind N σ ρ) (rounds : Nat) (w : World N) : List (Strand σ ρ) → World N × List (Strand σ ρ)
  | [] => (w, [])
  | .ended r time :: ss =>
    let (w, ss) := pass k rounds w ss
    (w, .ended r time :: ss)
  | .live s :: ss =>
    let (w, s) := poll k rounds w s
    let (w, ss) := pass k rounds w ss
    (w, s :: ss)

/-- Lets activities go on until none can come further at this instant. -/
def settle (k : Kind N σ ρ) : (rounds : Nat) → World N → List (Strand σ ρ) →
    World N × List (Strand σ ρ)
  | 0, w, ss => (w, ss)
  | rounds + 1, w, ss =>
    if ss.any (canProgress k w) then
      let (w, ss) := pass k (rounds + 1) w ss
      settle k rounds w ss
    else (w, ss)

/-- When an activity wants to be woken. -/
def wake? (k : Kind N σ ρ) : Strand σ ρ → Option Nat
  | .live s => (k.timer? s).map wholeMillisecond
  | .ended .. => none

/-- Whether an activity is over. -/
def isEnded : Strand σ ρ → Bool
  | .live _ => false
  | .ended .. => true

variable [Network N]

/-- The next instant at which something happens to the activities. -/
def nextInstant? (k : Kind N σ ρ) (w : World N) (ss : List (Strand σ ρ)) : Option Nat :=
  earlier? ((ss.filterMap (wake? k)).filter (w.now < ·)).min? (Network.nextEvent? w.net w.now)

/-- Runs activities until all are over. -/
def run (k : Kind N σ ρ) : (rounds : Nat) → World N → List (Strand σ ρ) →
    World N × List (Strand σ ρ)
  | 0, w, ss => (w, ss)
  | rounds + 1, w, ss =>
    let (w, ss) := settle k (rounds + 1) w ss
    if ss.all isEnded then (w, ss)
    else match nextInstant? k w ss with
      | some now => run k rounds { w with now } ss
      | none => (w, ss)

/-- Runs one activity to its result. -/
def runOne (k : Kind N σ ρ) (rounds : Nat) (w : World N) (s : σ) : World N × Option ρ :=
  match run k rounds w [.live s] with
  | (w, [.ended r _]) => (w, some r)
  | (w, _) => (w, none)

end Timeline
end SlotRouter.Simulation
