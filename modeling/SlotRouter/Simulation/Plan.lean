import SlotRouter.Simulation.Task

/-!
# Plans

A plan is a job that begins after a time, or a group that begins after a time and whose plans run side by side. All jobs of
a plan are activities of one run, in the order in which they stand; a group is over when its last plan is.
-/

namespace SlotRouter.Simulation

/-- What is to be done, and how long after the beginning of what it is part of. -/
inductive Plan where
  | job (after : Nat) (job : Job)
  | group (after : Nat) (plans : List Plan)

/-- What a plan has come to, and when. -/
inductive Outcome where
  | job (result : Result) (time : Nat)
  | group (outcomes : List Outcome) (time : Nat)
  /-- The run has ended before the plan. -/
  | unfinished

/-- When a plan was over. -/
def Outcome.time : Outcome → Nat
  | .job _ time | .group _ time => time
  | .unfinished => 0

namespace Plan

mutual

/-- The jobs of a plan, and how long after the start each begins. A group comes with a job of its own, which is over when
the group begins. -/
def jobs (start : Nat) : Plan → List (Nat × Job)
  | .job after what => [(start + after, what)]
  | .group after plans => (start + after, .rest 0) :: jobsOf (start + after) plans

/-- The jobs of several plans. -/
def jobsOf (start : Nat) : List Plan → List (Nat × Job)
  | [] => []
  | p :: ps => jobs start p ++ jobsOf start ps

end

/-- The end of a job: its result and when it came, unless the run has ended before. -/
abbrev End := Option (Result × Nat)

mutual

/-- The outcome of a plan by the ends of its jobs, and the ends that follow them. -/
def outcome : Plan → List End → Outcome × List End
  | .job _ _, some (result, time) :: ends => (.job result time, ends)
  | .group _ plans, some (_, begun) :: ends =>
    let (outcomes, ends) := outcomesOf plans ends
    (.group outcomes ((outcomes.map Outcome.time).foldl max begun), ends)
  | .group _ plans, none :: ends => (.unfinished, (outcomesOf plans ends).2)
  | _, ends => (.unfinished, ends.tail)

/-- The outcomes of several plans, and the ends that follow. -/
def outcomesOf : List Plan → List End → List Outcome × List End
  | [], ends => ([], ends)
  | p :: ps, ends =>
    let (o, ends) := outcome p ends
    let (os, ends) := outcomesOf ps ends
    (o :: os, ends)

end

/-- Runs plans side by side. -/
def runAll (rounds : Nat) (policy : RetryPolicy) (w : World Nodes) (plans : List Plan) :
    World Nodes × List Outcome :=
  let (w, ends) := Task.runAll rounds policy w (jobsOf 0 plans)
  (w, (outcomesOf plans ends).1)

end Plan
end SlotRouter.Simulation
