import Mathlib
import SlotRouter.Proofs.Rank
import SlotRouter.Proofs.Timers

/-!
# Invocations come to an end

An execution is an endless sequence of steps, each a turn of the invocation or something that others
do. If the invocation is not left alone for ever while it is busy (`Execution.Fair`), and neither
octets nor moves of its body come for ever at one instant (`Execution.Settles`), then it is over by
the first whole millisecond at or after its deadline. For the clock does not go beyond that while
the invocation is busy (`Course.busy_by_deadline`), so from some step on it stands still, and then
every turn that comes further makes what is left to do less (`Invocation.InTime.rank_turn`).

Key definitions: `Execution`, `Execution.Fair`, `Execution.Settles`. Key theorem:
`Execution.over_by_deadline`.
-/

namespace SlotRouter

open Simulation.Timeline (wholeMillisecond)

variable {N α : Type}

namespace Progress

/-- What is left to do. -/
def rank : Progress α → ℕ ×ₗ ℕ ×ₗ ℕ ×ₗ ℕ ×ₗ ℕ ×ₗ ℕ ×ₗ ℕ
  | .busy inv stage => inv.rank stage
  | .over _ => ⊥

/-- The exchange that the invocation is busy with. -/
def exchange? : Progress α → Option Exchange
  | .busy _ stage => stage.exchange?
  | .over _ => none

/-- What the body has heard so far in the attempt under way. -/
def heard : Progress α → List Patience.Heard
  | .busy _ stage => stage.heard
  | .over _ => []

end Progress

/-- An endless sequence of steps that begins with the first turn of an invocation. -/
structure Execution (N : Type) [Network N] (job : Job α) (begun : Nat) where
  moment : Nat → Moment N α
  /-- Whether the step is a turn of the invocation. -/
  own : Nat → Bool
  first : ∃ w : World N, w.now = begun ∧ moment 0 = .first job w
  turn : ∀ k, own k = true → moment (k + 1) = (moment k).turn
  others : ∀ k, own k = false → ∃ w', Punctual (moment k).world (moment k).progress w' ∧
    moment (k + 1) = { moment k with world := w' }

namespace Execution

variable [Network N] {job : Job α} {begun : Nat}

/-- The clock before the step. -/
def now (e : Execution N job begun) (k : Nat) : Nat := (e.moment k).world.now

/-- Whether the invocation is over before the step. -/
def IsOver (e : Execution N job begun) (k : Nat) : Prop :=
  ∃ result, (e.moment k).progress = .over result

/-- The invocation comes further in the step. -/
def Advances (e : Execution N job begun) (k : Nat) : Prop :=
  e.own k = true ∧ (e.moment k).progress.isIdle (e.moment k).world = false

/-- The invocation is not left alone: again and again, while it is busy, it comes further or time
passes. -/
def Fair (e : Execution N job begun) : Prop :=
  ∀ k, ¬e.IsOver k → ∃ m ≥ k, e.Advances m ∨ e.now m < e.now (m + 1)

/-- In the step octets are taken that have arrived, or the body makes another move. -/
def Fed (e : Execution N job begun) (k : Nat) : Prop :=
  e.own k = true ∧
    ((∃ x ∈ (e.moment k).progress.exchange?, x.Takes (e.now k) (e.moment k).world.net) ∨
      (e.moment k).progress.heard.length < (e.moment (k + 1)).progress.heard.length)

/-- Neither octets nor moves of the body come for ever at one instant. -/
def Settles (e : Execution N job begun) : Prop :=
  ∀ k, (∀ m ≥ k, e.now m = e.now k) → ∃ n, ∀ m ≥ n, ¬e.Fed m

variable (e : Execution N job begun)

theorem isOf (k : Nat) : (e.moment k).IsOf Punctual job begun := by
  induction k with
  | zero =>
    obtain ⟨w, hnow, hfirst⟩ := e.first
    rw [hfirst]
    exact Course.first hnow
  | succ k ih =>
    rcases hown : e.own k with _ | _
    · obtain ⟨w', hothers, hnext⟩ := e.others k hown
      rw [hnext]
      exact Course.wait ih hothers
    · rw [e.turn k hown]
      exact Course.turn_moment ih

theorem now_turn (m : Moment N α) : m.turn.world.now = m.world.now := by
  rcases m with ⟨sights, w, ⟨inv, stage⟩ | result⟩
  · exact inv.now_turn w stage
  · rfl

theorem now_mono : Monotone e.now := by
  refine monotone_nat_of_le_succ fun k => ?_
  unfold now
  rcases hown : e.own k with _ | _
  · obtain ⟨w', hothers, hnext⟩ := e.others k hown
    rw [hnext]
    rcases hothers with hsame | ⟨-, hle, -⟩
    · exact Nat.le_of_eq hsame.symm
    · exact hle
  · rw [e.turn k hown, now_turn]

theorem busy_of_not_isOver {k : Nat} (h : ¬e.IsOver k) :
    ∃ inv stage, (e.moment k).progress = .busy inv stage := by
  rcases hp : (e.moment k).progress with ⟨inv, stage⟩ | result
  · exact ⟨inv, stage, rfl⟩
  · exact absurd ⟨result, hp⟩ h

theorem now_le {k : Nat} (h : ¬e.IsOver k) : e.now k ≤ wholeMillisecond (job.deadline begun) := by
  obtain ⟨inv, stage, hbusy⟩ := e.busy_of_not_isOver h
  have hcourse := e.isOf k
  unfold Moment.IsOf at hcourse
  rw [hbusy] at hcourse
  exact hcourse.busy_by_deadline

/-- If the invocation is never over, the clock stands still at last. -/
theorem now_settles (h : ∀ k, ¬e.IsOver k) : ∃ k, ∀ m ≥ k, e.now m = e.now k := by
  have hbounded : BddAbove (Set.range e.now) := by
    refine ⟨wholeMillisecond (job.deadline begun), ?_⟩
    rintro _ ⟨k, rfl⟩
    exact e.now_le (h k)
  obtain ⟨k, hk⟩ := Nat.sSup_mem (Set.range_nonempty e.now) hbounded
  refine ⟨k, fun m hm => ?_⟩
  apply Nat.le_antisymm
  · rw [hk]
    exact le_csSup hbounded (Set.mem_range_self m)
  · exact e.now_mono hm

/-- In a turn that does not feed the invocation nothing is added to what is left to do, and if the
invocation comes further, less is left. -/
theorem rank_own {k : Nat} (hown : e.own k = true) (hfed : ¬e.Fed k) (hnext : ¬e.IsOver (k + 1)) :
    (e.moment (k + 1)).progress.rank ≤ (e.moment k).progress.rank ∧
      (e.Advances k → (e.moment (k + 1)).progress.rank < (e.moment k).progress.rank) := by
  have hcourse := e.isOf k
  have hturn := e.turn k hown
  unfold Moment.IsOf at hcourse
  unfold Advances
  unfold Fed now at hfed
  unfold IsOver at hnext
  rw [hturn] at hfed hnext ⊢
  generalize e.moment k = m at hcourse hfed hnext ⊢
  rcases m with ⟨sights, w, ⟨inv, stage⟩ | result⟩
  · have hin := (hcourse.inTime inv stage rfl).2
    dsimp only [Moment.turn] at hfed hnext ⊢
    rcases ht : (inv.turn w stage).2 with _ | ⟨inv', stage'⟩ | result <;> rw [ht] at hfed hnext
    · refine ⟨le_rfl, ?_⟩
      rintro ⟨-, hidle⟩
      rw [Progress.isIdle_busy.2 ht] at hidle
      cases hidle
    · have hless : inv'.rank stage' < inv.rank stage := by
        rcases hin.rank_turn ht with hless | htakes | hmoves
        · exact hless
        · exact absurd ⟨hown, .inl htakes⟩ hfed
        · exact absurd ⟨hown, .inr hmoves⟩ hfed
      exact ⟨hless.le, fun _ => hless⟩
    · exact absurd ⟨result, rfl⟩ hnext
  · exact absurd ⟨result, rfl⟩ hnext

theorem rank_step {k : Nat} (hfed : ¬e.Fed k) (hnext : ¬e.IsOver (k + 1)) :
    (e.moment (k + 1)).progress.rank ≤ (e.moment k).progress.rank ∧
      (e.Advances k → (e.moment (k + 1)).progress.rank < (e.moment k).progress.rank) := by
  rcases hown : e.own k with _ | _
  · obtain ⟨w', -, hothers⟩ := e.others k hown
    rw [hothers]
    refine ⟨le_rfl, ?_⟩
    rintro ⟨htrue, -⟩
    rw [hown] at htrue
    cases htrue
  · exact e.rank_own hown hfed hnext

/-- **The invocation is over at some time.** -/
theorem exists_isOver (hfair : e.Fair) (hsettles : e.Settles) : ∃ k, e.IsOver k := by
  by_contra hnever
  have hbusy : ∀ k, ¬e.IsOver k := fun k hk => hnever ⟨k, hk⟩
  obtain ⟨i, hstill⟩ := e.now_settles hbusy
  obtain ⟨j, hunfed⟩ := hsettles i hstill
  -- from here on the clock stands still and nothing is fed, so the rank has a least value
  obtain ⟨least, ⟨k, hk, rfl⟩, hleast⟩ := wellFounded_lt.has_min
    ((fun k => (e.moment k).progress.rank) '' Set.Ici (max i j)) ⟨_, max i j, Set.mem_Ici.2 le_rfl, rfl⟩
  have hi : i ≤ k := le_trans (le_max_left i j) hk
  have hj : j ≤ k := le_trans (le_max_right i j) hk
  have hdown : ∀ m ≥ k, (e.moment m).progress.rank ≤ (e.moment k).progress.rank := by
    intro m hm
    induction m, hm using Nat.le_induction with
    | base => exact le_rfl
    | succ m hm ih => exact (e.rank_step (hunfed m (hj.trans hm)) (hbusy _)).1.trans ih
  obtain ⟨m, hm, hadvances | hpasses⟩ := hfair k (hbusy k)
  · have hless := (e.rank_step (hunfed m (hj.trans hm)) (hbusy _)).2 hadvances
    refine hleast _ ⟨m + 1, ?_, rfl⟩ (hless.trans_le (hdown m hm))
    exact Set.mem_Ici.2 (le_trans hk (hm.le.trans (Nat.le_succ m)))
  · rw [hstill m (hi.trans hm), hstill (m + 1) (hi.trans (hm.le.trans (Nat.le_succ m)))] at hpasses
    exact lt_irrefl _ hpasses

/-- When an invocation has just come to its end, its time is not yet over. -/
theorem now_le_of_first {k : Nat} (hover : e.IsOver k) (hbefore : ∀ m < k, ¬e.IsOver m) :
    e.now k ≤ wholeMillisecond (max begun (job.deadline begun)) := by
  cases k with
  | zero =>
    obtain ⟨w, hnow, hfirst⟩ := e.first
    unfold now
    rw [hfirst]
    show (job.start w).1.now ≤ _
    calc (job.start w).1.now = w.now := Invocation.now_next w (job.fresh w.now) none
      _ = begun := hnow
      _ ≤ max begun (job.deadline begun) := le_max_left ..
      _ ≤ wholeMillisecond (max begun (job.deadline begun)) :=
        Simulation.Timeline.le_wholeMillisecond _
  | succ k =>
    have hbusy := hbefore k (Nat.lt_succ_self k)
    rcases hown : e.own k with _ | _
    · obtain ⟨w', -, hothers⟩ := e.others k hown
      unfold IsOver at hover hbusy
      rw [hothers] at hover
      exact absurd hover hbusy
    · calc e.now (k + 1) = e.now k := by
            unfold now
            rw [e.turn k hown, now_turn]
        _ ≤ wholeMillisecond (job.deadline begun) := e.now_le hbusy
        _ ≤ wholeMillisecond (max begun (job.deadline begun)) :=
          Simulation.Timeline.wholeMillisecond_mono (le_max_right ..)

/-- **Every invocation is over by its deadline.** While it is busy, the clock does not go beyond the
first whole millisecond at or after its deadline, and when it has to wait, its timer is still to go
off and is set no later than the deadline. And it does come to its end, by that whole millisecond.
Whatever others do, and whatever the network does, it is enough that the invocation is not left
alone, and that at no instant octets or moves of its body come for ever. -/
theorem over_by_deadline (hfair : e.Fair) (hsettles : e.Settles) :
    (∀ k inv stage, (e.moment k).progress = .busy inv stage →
      (e.moment k).world.now ≤ wholeMillisecond (max begun (job.deadline begun)) ∧
      ((inv.turn (e.moment k).world stage).2 = .blocked → ∃ instant, inv.timer? stage = some instant ∧
        (e.moment k).world.now < instant ∧ instant ≤ job.deadline begun)) ∧
    ∃ k result, (e.moment k).progress = .over result ∧
      (e.moment k).world.now ≤ wholeMillisecond (max begun (job.deadline begun)) := by
  refine ⟨fun k inv stage hbusy => ⟨?_, fun hblocked => ?_⟩, ?_⟩
  · have hcourse := e.isOf k
    unfold Moment.IsOf at hcourse
    rw [hbusy] at hcourse
    calc (e.moment k).world.now ≤ wholeMillisecond (job.deadline begun) := hcourse.busy_by_deadline
      _ ≤ wholeMillisecond (max begun (job.deadline begun)) :=
        Simulation.Timeline.wholeMillisecond_mono (le_max_right ..)
  · obtain ⟨instant, htimer, hle⟩ := ((e.isOf k).inTime inv stage hbusy).2.timer?
    exact ⟨instant, htimer, Invocation.timer_blocked hblocked htimer, hle⟩
  · have hsome := e.exists_isOver hfair hsettles
    classical
    have hover := Nat.find_spec hsome
    have hnow := e.now_le_of_first hover fun m hm => Nat.find_min hsome hm
    obtain ⟨result, hresult⟩ := hover
    exact ⟨Nat.find hsome, result, hresult, hnow⟩

end Execution

/-- A network on which connections never open. -/
structure Mute where
  connections : Nat := 0

namespace Mute

instance : Network Mute where
  connect m _ _ := ({ connections := m.connections + 1 }, m.connections)
  opening _ _ _ := .pending
  send m _ _ _ := (m, .pending)
  receive m _ _ := (m, .pending)
  nextEvent? _ _ := none

/-- A `PING` for any node, within one millisecond. -/
def ping : Job Unit := .ping { maxAttempts := 2, retryDuration := 1000000, refreshAfter := 3 } none

/-- The attempt waits for the connection. -/
def connecting : Moment Mute Unit := (Moment.first ping (.ofNode {})).turn

/-- The deadline has come, and the attempt is given up. -/
def givenUp : Moment Mute Unit := (connecting.passTo 1000000).turn

set_option maxRecDepth 100000 in
theorem idle_connecting : connecting.progress.isIdle connecting.world = true := by cbv

set_option maxRecDepth 100000 in
theorem timer_connecting : connecting.progress.timer? = some 1000000 := by cbv

set_option maxRecDepth 100000 in
theorem now_connecting : connecting.world.now = 0 := by cbv

set_option maxRecDepth 100000 in
theorem idle_woken :
    (connecting.passTo 1000000).progress.isIdle (connecting.passTo 1000000).world = false := by cbv

set_option maxRecDepth 100000 in
theorem over_givenUp :
    givenUp.progress = .over (.error (.deadlineExceeded 1 none (some "a:1") (some (.timeout .command)))) := by cbv

/-- The moments of the whole execution. -/
def moment : Nat → Moment Mute Unit
  | 0 => .first ping (.ofNode {})
  | 1 => connecting
  | 2 => connecting.passTo 1000000
  | _ + 3 => givenUp

theorem punctual_connecting :
    Punctual connecting.world connecting.progress (connecting.passTo 1000000).world := by
  refine .inr ⟨idle_connecting, ?_, fun instant htimer => ?_⟩
  · rw [now_connecting]
    exact Nat.zero_le _
  · rw [timer_connecting] at htimer
    obtain rfl := Option.some.inj htimer
    exact Nat.le_refl 1000000

/-- The invocation waits for the connection until the deadline. -/
def hanging : Execution Mute ping 0 where
  moment := moment
  own k := k != 1
  first := ⟨.ofNode {}, rfl, rfl⟩
  turn k hown := by
    rcases k with _ | _ | _ | k
    · rfl
    · cases hown
    · rfl
    · show givenUp = givenUp.turn
      rcases hover : givenUp with ⟨sights, w, p⟩
      have hp := over_givenUp
      rw [hover] at hp
      obtain rfl : p = _ := hp
      rfl
  others k hown := by
    rcases k with _ | _ | k
    · cases hown
    · exact ⟨_, punctual_connecting, rfl⟩
    · cases hown

theorem isOver_hanging (k : Nat) : hanging.IsOver (k + 3) := ⟨_, over_givenUp⟩

theorem fair_hanging : hanging.Fair := by
  intro k hbusy
  have hk : k ≤ 2 := by
    by_contra hlate
    obtain ⟨j, rfl⟩ : ∃ j, k = j + 3 := ⟨k - 3, by omega⟩
    exact hbusy (isOver_hanging j)
  exact ⟨2, hk, .inl ⟨rfl, idle_woken⟩⟩

theorem settles_hanging : hanging.Settles := by
  refine fun _ _ => ⟨3, fun m hm hfed => ?_⟩
  obtain ⟨j, rfl⟩ : ∃ j, m = j + 3 := ⟨m - 3, by omega⟩
  have hover : (hanging.moment (j + 3)).progress = _ := over_givenUp
  have hnext : (hanging.moment (j + 3 + 1)).progress = _ := over_givenUp
  obtain ⟨-, ⟨x, hx, -⟩ | hmoves⟩ := hfed
  · rw [hover] at hx
    cases hx
  · rw [hover, hnext] at hmoves
    exact Nat.lt_irrefl _ hmoves

/-- A connection that never opens holds an invocation up until its deadline, and no longer. -/
theorem over_by_deadline_hanging :
    ping.deadline 0 = 1000000 ∧ hanging.Fair ∧ hanging.Settles ∧
    ∃ k result, (hanging.moment k).progress = .over result ∧ (hanging.moment k).world.now ≤ 1000000 := by
  obtain ⟨-, k, result, hover, hnow⟩ := Execution.over_by_deadline hanging fair_hanging settles_hanging
  exact ⟨rfl, fair_hanging, settles_hanging, k, result, hover, hnow⟩

end Mute
end SlotRouter
