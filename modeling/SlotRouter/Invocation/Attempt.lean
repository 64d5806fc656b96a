import SlotRouter.Pool.Borrow
import SlotRouter.World

/-!
# Attempts

An attempt borrows a link and runs a body on it. A body is a strategy: it sends commands, one at a time, takes its time
between them, and decides on what it has heard. It may give up on a reply. After an `ASK` redirect the attempt
announces itself first. A link on which the body met a connection error is not kept.
-/

namespace SlotRouter

/-- What a body does next. Durations are nanoseconds. -/
inductive Move (α : Type) where
  /-- Sends a command; if a time is given, gives up on the reply after it. -/
  | send (command : Command) (patience : Option Nat := none)
  | rest (duration : Nat)
  | finish (result : Except Error α)

/-- A strategy for one link, given how often it was started before and what came of its moves so far. A rest comes to
nothing. -/
abbrev Body (α : Type) := (startedBefore : Nat) → (heard : List Patience.Heard) → Move α

/-- An attempt under way. -/
inductive Attempt where
  | borrowing (asking : Bool) (borrow : Borrow)
  /-- Announces itself after an `ASK` redirect. -/
  | announcing (pool : PoolId) (exchange : Exchange)
  /-- Runs the body, which has heard so much and sends a command. -/
  | running (pool : PoolId) (heard : List Patience.Heard) (patience : Patience)
  /-- Runs the body, which has heard so much and takes its time. -/
  | resting (pool : PoolId) (heard : List Patience.Heard) (link : Link) (wake : Nat)

namespace Attempt

/-- When the present wait ends. -/
def timer? : Attempt → Option Nat
  | .borrowing _ b => b.timer?
  | .announcing _ x => x.timer?
  | .running _ _ p => p.timer?
  | .resting _ _ _ wake => some wake

variable {N : Type} {α : Type}

/-- The attempt is given up. -/
def drop (w : World N) : Attempt → World N
  | .borrowing _ b => b.drop w
  | .announcing id x => Loan.giveBack w id x.link false
  | .running id _ p => Loan.giveBack w id p.exchange.link false
  | .resting id _ link _ => Loan.giveBack w id link false

/-- How an attempt ended, and whether its body was started. -/
structure Ended (α : Type) where
  started : Bool
  result : Except Error α

/-- Whether a link is to be dropped after the result. -/
def spoils : Except Error α → Bool
  | .ok _ => false
  | .error e => e.isConnectionError

/-- Lets the body make its next move. -/
def proceed (w : World N) (body : Body α) (started : Nat) (id : PoolId) (link : Link)
    (heard : List Patience.Heard) : World N × Turn Attempt (Ended α) :=
  match body started heard with
  | .send command patience =>
    (w, .running (.running id heard ⟨.entering link command, patience.map (w.now + ·)⟩))
  | .rest duration => (w, .running (.resting id heard link (w.now + duration)))
  | .finish result => (Loan.giveBack w id link (spoils result), .done ⟨true, result⟩)

/-- Whether the body has been started. -/
def hasStarted : Attempt → Bool
  | .borrowing .. | .announcing .. => false
  | .running .. | .resting .. => true

variable [Network N]

/-- One turn of an attempt; `started` counts earlier starts of the body. -/
def turn (w : World N) (body : Body α) (started : Nat) :
    Attempt → World N × Turn Attempt (Ended α)
  | .borrowing asking b =>
    match b.turn w with
    | (w, .blocked) => (w, .blocked)
    | (w, .running b) => (w, .running (.borrowing asking b))
    | (w, .done (.error e)) => (w, .done ⟨false, .error e⟩)
    | (w, .done (.ok loan)) =>
      if asking then (w, .running (.announcing loan.pool (.entering loan.link .asking)))
      else proceed w body started loan.pool loan.link []
  | .announcing id x =>
    match w.exchange x with
    | (w, .blocked) => (w, .blocked)
    | (w, .running x) => (w, .running (.announcing id x))
    | (w, .done (link, .error e)) => (Loan.giveBack w id link false, .done ⟨false, .error e⟩)
    | (w, .done (link, .ok _)) => proceed w body started id link []
  | .running id heard p =>
    match p.turn w with
    | (w, .blocked) => (w, .blocked)
    | (w, .running p) => (w, .running (.running id heard p))
    | (w, .done (link, answer)) => proceed w body started id link (heard ++ [answer])
  | .resting id heard link wake =>
    if wake ≤ w.now then proceed w body started id link (heard ++ [none]) else (w, .blocked)

end Attempt
end SlotRouter
