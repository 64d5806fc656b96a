import SlotRouter.Proofs.Course

/-!
# Nothing waits beyond the deadline

Whatever an invocation waits for, it gives up at its deadline: a pause ends by then
(`Invocation.InTime`), and from then on no turn of the invocation is blocked
(`Invocation.InTime.turn_ne_blocked`). So if an invocation is woken at the whole millisecond of its
timer, the clock does not go beyond the first whole millisecond at or after the deadline while the
invocation is busy, and all that it does after the deadline it does at one instant.

Not covered: a clock whose timers go off at its ticks only. A timer goes off here at any turn from its
instant on; where it goes off at the first whole millisecond at the earliest, an invocation that is
woken by something else between the deadline and that millisecond may be blocked once more, and then
what it does after the deadline is done at more instants than one, none of them after that millisecond.

Key definitions: `Invocation.InTime`, `Course.Woken`. Key theorems: `Course.busy_by_deadline`,
`Course.woken`.
-/

namespace SlotRouter

open Simulation.Timeline (wholeMillisecond)

variable {N α : Type}

namespace Simulation.Timeline

theorem le_wholeMillisecond (n : Nat) : n ≤ wholeMillisecond n := by
  unfold wholeMillisecond
  omega

theorem wholeMillisecond_mono {m n : Nat} (h : m ≤ n) :
    wholeMillisecond m ≤ wholeMillisecond n := by
  unfold wholeMillisecond
  omega

end Simulation.Timeline

namespace Invocation

/-- An invocation with the deadline `d`: it pauses no longer, and it looks for a node only while it
may make an attempt. -/
structure InTime (d : Nat) (inv : Invocation α) (stage : Stage) : Prop where
  deadline : inv.budget.deadline = d
  wake : ∀ instant, stage = .pausing instant → instant ≤ d
  left : ∀ r, stage = .resolving r → inv.budget.left ≠ 0

variable {d : Nat} {w w' : World N} {inv inv' : Invocation α} {stage stage' : Stage}
    {r : World N × Step α}

theorem NextStep.inTime (h : NextStep w inv r) (hd : inv.budget.deadline = d)
    (hr : r.2 = .running (inv', stage')) :
    inv'.InTime d stage' := by
  cases h with
  | closed | spent | late => cases hr
  | attempt =>
    cases hr
    exact ⟨hd, nofun, nofun⟩
  | resolve now left early =>
    cases hr
    exact ⟨hd, nofun, fun _ _ => left⟩

theorem Outcome.deadline_charge (outcome : Outcome α) (b : Budget) :
    (outcome.charge b).deadline = b.deadline := by
  unfold charge
  split <;> rfl

theorem AfterStep.inTime {outcome : Outcome α} (h : AfterStep w inv outcome r)
    (hd : inv.budget.deadline = d) (hr : r.2 = .running (inv', stage')) : inv'.InTime d stage' := by
  cases h with
  | stop => cases hr
  | next now budget searched h => exact h.inTime (budget ▸ (outcome.deadline_charge _).trans hd) hr
  | @pause w' inv'' budget =>
    cases hr
    have hsame : inv'.budget.deadline = d := budget ▸ (outcome.deadline_charge _).trans hd
    refine ⟨hsame, ?_, nofun⟩
    rintro _ ⟨⟩
    exact hsame ▸ Nat.min_le_right _ _
  | refresh | attempt =>
    cases hr
    exact ⟨hd, nofun, nofun⟩

variable [Network N]

/-- A turn of an invocation in time leaves it in time. -/
theorem InTime.turn (h : inv.InTime d stage) (hr : (inv.turn w stage).2 = .running (inv', stage')) :
    inv'.InTime d stage' := by
  have hstep := turn_step w inv stage
  generalize inv.turn w stage = r at hstep hr
  cases hstep with
  | waits => cases hr
  | goes w' hgoes =>
    cases hr
    cases hgoes with
    | resolving => exact ⟨h.deadline, nofun, fun _ _ => h.left _ rfl⟩
    | attempting | refreshing => exact ⟨h.deadline, nofun, nofun⟩
  | ends kind hafter => exact hafter.inTime h.deadline hr

/-! ### At the deadline -/

/-- **At its deadline an invocation waits for nothing.** -/
theorem InTime.turn_ne_blocked (h : inv.InTime d stage) (hlate : d ≤ w.now) :
    (inv.turn w stage).2 ≠ .blocked := by
  intro hblocked
  have hd := h.deadline
  cases turn_waits hblocked with
  | resolving hr early | refreshing hr early => omega
  | attempting id asking ha early => omega
  | pausing early =>
    have hwake := h.wake _ rfl
    omega

omit [Network N]

theorem earlier?_some (a? : Option Nat) (b : Nat) : ∃ a, earlier? a? (some b) = some a ∧ a ≤ b := by
  cases a? with
  | none => exact ⟨b, rfl, Nat.le_refl b⟩
  | some a => exact ⟨min a b, rfl, Nat.min_le_right a b⟩

/-- An invocation that is busy has a timer, and it is set no later than the deadline. -/
theorem InTime.timer? (h : inv.InTime d stage) :
    ∃ instant, inv.timer? stage = some instant ∧ instant ≤ d := by
  rw [← h.deadline]
  cases stage with
  | resolving r | refreshing r => exact earlier?_some r.timer? _
  | attempting id asking a => exact earlier?_some a.timer? _
  | pausing wake =>
    refine ⟨wake, rfl, ?_⟩
    rw [h.deadline]
    exact h.wake wake rfl

end Invocation

/-! ### Courses -/

variable [Network N] {between : Surroundings N α} {job : Job α} {begun : Nat}
    {sights : List (Sight α)} {w : World N}
  {p : Progress α} {inv : Invocation α} {stage : Invocation.Stage}

theorem Progress.isIdle_busy :
    (Progress.busy inv stage).isIdle w = true ↔ (inv.turn w stage).2 = .blocked := by
  unfold isIdle Turn.isProgress
  rcases ht : (inv.turn w stage).2 with _ | state | result <;> simp [ht]

/-- All that is seen in a turn is seen at the instant of the turn. -/
theorem Sight.now_of_mem_ofTurn {s : Sight α} (h : s ∈ Sight.ofTurn w inv stage) :
    s.now = w.now := by
  have hnow := inv.now_stageTurn w stage
  unfold ofTurn at h
  rcases hs : inv.stageTurn w stage with ⟨v, _ | stage' | outcome⟩ <;> rw [hs] at hnow <;> simp only [hs] at h
  · cases h
  · split at h
    · rw [List.mem_singleton.1 h]
      exact hnow
    · cases h
  · have hafter := (Invocation.now_after v inv outcome).trans hnow
    rcases List.mem_append.1 h with hstep | hended
    · unfold ofStep at hstep
      split at hstep
      · rw [List.mem_singleton.1 hstep]
        exact hafter
      · cases hstep
    · rcases List.mem_cons.1 hended with rfl | hstart
      · exact hnow
      · split at hstart
        · rw [List.mem_singleton.1 hstart]
          exact hnow
        · cases hstart

namespace Course

/-- An invocation that is busy was begun before its deadline, and it is in time. -/
theorem inTime (h : Course between job begun sights w p) :
    ∀ inv stage, p = .busy inv stage → begun < job.deadline begun ∧ inv.InTime (job.deadline begun) stage := by
  induction h with
  | @start w w' inv stage now hstart =>
    rintro _ _ ⟨⟩
    have hd := job.deadline_fresh w.now
    have hstep := job.start_step w
    rw [hstart] at hstep
    subst now
    refine ⟨?_, hstep.inTime hd rfl⟩
    rw [← hd]
    cases hstep with
    | attempt now left early => exact early
    | resolve now left early => exact early
  | refused => rintro _ _ ⟨⟩
  | @turn sights w inv stage h ih =>
    obtain ⟨hbegun, hin⟩ := ih inv stage rfl
    intro inv' stage' hp
    refine ⟨hbegun, ?_⟩
    rcases ht : (inv.turn w stage).2 with _ | ⟨inv'', stage''⟩ | result <;> rw [ht] at hp
    · cases hp
      exact hin
    · cases hp
      exact hin.turn ht
    · cases hp
  | wait h others ih => exact ih

/-- The invocation was waiting before its deadline, and was woken at the instant `now`, at which all
that has been seen since was seen. -/
structure Woken (job : Job α) (begun : Nat) (before : List (Sight α)) (waiting : World N)
    (p : Progress α) (sights : List (Sight α)) (now : Nat) : Prop where
  course : Course Punctual job begun before waiting p
  early : waiting.now < job.deadline begun
  idle : p.isIdle waiting = true
  timer : ∀ instant, p.timer? = some instant → now ≤ wholeMillisecond instant
  since : ∃ later, sights = later ++ before ∧ ∀ s ∈ later, s.now = now

/-- **All that an invocation does after its deadline it does at one instant, at which it was woken
from a wait.** -/
theorem woken (h : Course Punctual job begun sights w p) (hlate : job.deadline begun ≤ w.now) :
    ∀ inv stage, p = .busy inv stage → ∃ before waiting inv' stage',
      Woken job begun before (waiting : World N) (.busy inv' stage') sights w.now := by
  induction h with
  | @start w w' inv stage now hstart =>
    intro _ _ _
    have hnow : w'.now = w.now := by
      have := Invocation.now_next w (job.fresh w.now) none
      change (job.start w).1.now = w.now at this
      rwa [hstart] at this
    have hcourse : Course Punctual job begun _ w' (.busy inv stage) := .start now hstart
    obtain ⟨hbegun, -⟩ := hcourse.inTime inv stage rfl
    omega
  | refused => rintro _ _ ⟨⟩
  | @turn sights w inv stage h ih =>
    intro _ _ _
    have hnow := inv.now_turn w stage
    rw [hnow] at hlate ⊢
    obtain ⟨before, waiting, inv', stage', hwoken⟩ := ih hlate inv stage rfl
    obtain ⟨later, rfl, hlater⟩ := hwoken.since
    refine ⟨before, waiting, inv', stage', hwoken.course, hwoken.early, hwoken.idle, hwoken.timer,
      Sight.ofTurn w inv stage ++ later, (List.append_assoc ..).symm, fun s hs => ?_⟩
    rcases List.mem_append.1 hs with hturn | hbefore
    · exact Sight.now_of_mem_ofTurn hturn
    · exact hlater s hbefore
  | @wait sights w w' p h others ih =>
    rintro inv stage rfl
    by_cases hbefore : job.deadline begun ≤ w.now
    · have hsame : w'.now = w.now := by
        rcases others with hsame | ⟨hidle, -⟩
        · exact hsame
        · exact absurd (Progress.isIdle_busy.1 hidle) ((h.inTime inv stage rfl).2.turn_ne_blocked hbefore)
      rw [hsame]
      exact ih hbefore inv stage rfl
    · rcases others with hsame | ⟨hidle, -, htimer⟩
      · omega
      · exact ⟨sights, w, inv, stage, h, by omega, hidle, htimer, [], rfl, nofun⟩

/-- **While an invocation is busy, the clock does not go beyond the first whole millisecond at or
after its deadline.** -/
theorem busy_by_deadline (h : Course Punctual job begun sights w (.busy inv stage)) :
    w.now ≤ wholeMillisecond (job.deadline begun) := by
  by_cases hlate : job.deadline begun ≤ w.now
  · obtain ⟨before, waiting, inv', stage', hwoken⟩ := h.woken hlate inv stage rfl
    obtain ⟨instant, htimer, hle⟩ := (hwoken.course.inTime inv' stage' rfl).2.timer?
    calc w.now ≤ wholeMillisecond instant := hwoken.timer instant htimer
      _ ≤ wholeMillisecond (job.deadline begun) := Simulation.Timeline.wholeMillisecond_mono hle
  · calc w.now ≤ job.deadline begun := by omega
      _ ≤ wholeMillisecond (job.deadline begun) := Simulation.Timeline.le_wholeMillisecond _

/-- Nothing is seen of an invocation after that. -/
theorem seen_by_deadline (h : Course Punctual job begun sights w p) :
    ∀ s ∈ sights, s.now ≤ wholeMillisecond (job.deadline begun) := by
  induction h with
  | @start w w' inv stage now hstart =>
    intro s hs
    have hcourse : Course Punctual job begun _ w' (.busy inv stage) := .start now hstart
    have hbusy := hcourse.busy_by_deadline
    rw [hstart] at hs
    unfold Sight.ofStep at hs
    split at hs
    · rw [List.mem_singleton.1 hs]
      exact hbusy
    · cases hs
  | refused => exact nofun
  | turn h ih =>
    intro s hs
    rcases List.mem_append.1 hs with hturn | hbefore
    · rw [Sight.now_of_mem_ofTurn hturn]
      exact h.busy_by_deadline
    · exact ih s hbefore
  | wait h others ih => exact ih

end Course
end SlotRouter
