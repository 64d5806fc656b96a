import Mathlib
import SlotRouter.Proofs.Deadline

/-!
# Attempts that begin late

The clock is looked at when an invocation has come to the head of its loop, but not again when a
search for a node has come to a good end. So an attempt begins before the deadline, or else in the
very turn in which such a search ends (`Course.dispatched_early_or_found`); and whenever a search
ends well and there is a node, an attempt begins, however late it is
(`Invocation.dispatches_late_iff`).

That all else is done at one instant after the deadline rests on timers that go off at any turn from
their instant on, and is not covered for a clock whose timers go off at its ticks only (see
`Course.woken`). When attempts begin does not depend on it.

Key theorem: `Course.late_attempts`.
-/

namespace SlotRouter

open Simulation.Timeline (wholeMillisecond)

variable {N α : Type}

namespace Sight

variable {now : Nat} {node : String} {past news old : List (Sight α)}

/-- A dispatch that is not among the news was seen before. -/
theorem dispatched_suffix (hnews : ∀ now node, .dispatched now node ∉ news)
    (h : .dispatched now node :: past <:+ news ++ old) : .dispatched now node :: past <:+ old := by
  induction news with
  | nil => exact h
  | cons s news ih =>
    rcases List.suffix_cons_iff.1 h with heq | hrest
    · obtain ⟨rfl, -⟩ := List.cons.inj heq
      exact absurd (List.mem_cons_self ..) (hnews now node)
    · exact ih (fun now node hmem => hnews now node (List.mem_cons_of_mem _ hmem)) hrest

theorem not_dispatched_start (b : Bool) (instant now : Nat) (node : String) :
    (.dispatched now node : Sight α) ∉ (if b then [.bodyStarted instant] else []) := by
  cases b <;> simp

/-- What is seen of a step is at most one dispatch. -/
theorem ofStep_cases (r : World N × Invocation.Step α) :
    ofStep r = [] ∨ ∃ node, ofStep r = [.dispatched r.1.now node] := by
  unfold ofStep
  split
  · exact .inr ⟨_, rfl⟩
  · exact .inl rfl

end Sight

namespace Invocation

variable {w : World N} {inv : Invocation α} {outcome : Outcome α} {r : World N × Step α} {now : Nat}
    {node : String}

/-- At the head of the loop an attempt begins only before the deadline. -/
theorem NextStep.early (h : NextStep w inv r) (hs : .dispatched now node ∈ Sight.ofStep r) :
    now < inv.budget.deadline := by
  cases h with
  | closed | spent | late => cases hs
  | attempt hnow left early id asking =>
    cases List.mem_singleton.1 hs
    exact hnow.symm ▸ early
  | resolve => cases hs

theorem AfterStep.early_or_found (h : AfterStep w inv outcome r)
    (hs : .dispatched now node ∈ Sight.ofStep r) :
    now < inv.budget.deadline ∨ outcome = .resolved (.ok ()) := by
  cases h with
  | stop => cases hs
  | next hnow budget searched h =>
    have hearly := h.early hs
    rw [budget, outcome.deadline_charge] at hearly
    exact .inl hearly
  | pause => cases hs
  | refresh => cases hs
  | attempt hnow searched id => exact .inr searched

end Invocation

/-- When a search for a node has come to a good end, an attempt begins if there is a node, whatever
the clock says. -/
theorem Invocation.dispatched_found (w : World N) (inv : Invocation α) :
    (∃ now node, .dispatched now node ∈ Sight.ofStep (inv.after w (.resolved (.ok ())))) ↔
      ∃ id, (choose w inv.slot).1 = some id := by
  simp only [after, resolved]
  rcases hc : choose w inv.slot with ⟨_ | id, w'⟩
  · constructor
    · rintro ⟨now, node, hmem⟩
      cases hmem
    · rintro ⟨id, hid⟩
      cases hid
  · exact ⟨fun _ => ⟨id, rfl⟩, fun _ => ⟨w'.now, (w'.pool id).address, List.mem_singleton.2 rfl⟩⟩

variable [Network N] {between : Surroundings N α} {job : Job α} {begun : Nat}
    {sights : List (Sight α)} {w : World N}
  {p : Progress α} {inv : Invocation α} {stage : Invocation.Stage}

/-- **After the deadline an attempt begins exactly where a search for a node has come to a good
end** and there is a node. -/
theorem Invocation.dispatches_late_iff (hlate : inv.budget.deadline ≤ w.now) :
    (∃ now node, .dispatched now node ∈ Sight.ofTurn w inv stage) ↔
      ∃ w' id, inv.stageTurn w stage = (w', .done (.resolved (.ok ()))) ∧ (choose w' inv.slot).1 = some id := by
  have hseen : ∀ s ∈ Sight.ofTurn w inv stage, s.now = w.now := fun s => Sight.now_of_mem_ofTurn
  unfold Sight.ofTurn at hseen ⊢
  rcases hs : inv.stageTurn w stage with ⟨v, _ | stage' | outcome⟩ <;> simp only [hs] at hseen
  · simp
  · constructor
    · rintro ⟨now, node, hmem⟩
      exact absurd hmem (Sight.not_dispatched_start _ _ _ _)
    · rintro ⟨w', id, hdone, -⟩
      cases hdone
  · constructor
    · rintro ⟨now, node, hmem⟩
      have hnow : now = w.now := hseen _ hmem
      have hstep : .dispatched now node ∈ Sight.ofStep (inv.after v outcome) := by
        rcases List.mem_append.1 hmem with hstep | hended
        · exact hstep
        · rcases List.mem_cons.1 hended with hended | hstart
          · cases hended
          · exact absurd hstart (Sight.not_dispatched_start _ _ _ _)
      obtain rfl : outcome = .resolved (.ok ()) := by
        rcases (Invocation.after_step v inv outcome).early_or_found hstep with hearly | hfound
        · omega
        · exact hfound
      obtain ⟨id, hid⟩ := (Invocation.dispatched_found v inv).1 ⟨now, node, hstep⟩
      exact ⟨v, id, rfl, hid⟩
    · rintro ⟨w', id, hdone, hid⟩
      cases hdone
      obtain ⟨now, node, hmem⟩ := (Invocation.dispatched_found v inv).2 ⟨id, hid⟩
      exact ⟨now, node, List.mem_append_left _ hmem⟩

namespace Course

/-- An attempt begins before the deadline, or else in the turn in which a search for a node comes to
a good end. -/
theorem dispatched_early_or_found (h : Course between job begun sights w p) :
    ∀ now node past, .dispatched now node :: past <:+ sights →
      now < job.deadline begun ∨ ∃ earlier, past = .ended now (.resolved (.ok ())) :: earlier := by
  induction h with
  | @start w w' inv stage now hstart =>
    intro instant node past hsuffix
    have hmem : .dispatched instant node ∈ Sight.ofStep (job.start w) :=
      hsuffix.subset (List.mem_cons_self ..)
    have hearly := (job.start_step w).early hmem
    rw [job.deadline_fresh, now] at hearly
    exact .inl hearly
  | refused =>
    intro now node past hsuffix
    cases List.suffix_nil.1 hsuffix
  | @turn sights w inv stage h ih =>
    intro now node past hsuffix
    have hd := (h.inTime inv stage rfl).2.deadline
    unfold Sight.ofTurn at hsuffix
    rcases hs : inv.stageTurn w stage with ⟨v, _ | stage' | outcome⟩ <;> simp only [hs] at hsuffix
    · exact ih now node past hsuffix
    · exact ih now node past (Sight.dispatched_suffix (Sight.not_dispatched_start _ _) hsuffix)
    · rw [List.append_assoc, List.cons_append] at hsuffix
      have hrest : ∀ {old : List (Sight α)},
          .dispatched now node :: past <:+ .ended v.now outcome :: (old ++ sights) →
          (∀ now node, .dispatched now node ∉ old) → .dispatched now node :: past <:+ sights := by
        intro old hold hnone
        rcases List.suffix_cons_iff.1 hold with heq | hold
        · cases (List.cons.inj heq).1
        · exact Sight.dispatched_suffix hnone hold
      rcases Sight.ofStep_cases (inv.after v outcome) with hnone | ⟨address, hone⟩
      · rw [hnone] at hsuffix
        exact ih now node past (hrest hsuffix (Sight.not_dispatched_start _ _))
      · rw [hone] at hsuffix
        rcases List.suffix_cons_iff.1 hsuffix with heq | hold
        · obtain ⟨hhead, rfl⟩ := List.cons.inj heq
          have hstep : .dispatched now node ∈ Sight.ofStep (inv.after v outcome) := by
            rw [hone, hhead]
            exact List.mem_singleton.2 rfl
          have hnow : now = v.now := (Sight.dispatched.inj hhead).1.trans (inv.now_after v outcome)
          rcases (inv.after_step v outcome).early_or_found hstep with hearly | rfl
          · exact .inl (hd ▸ hearly)
          · subst hnow
            exact .inr ⟨_, rfl⟩
        · exact ih now node past (hrest hold (Sight.not_dispatched_start _ _))
  | wait h others ih => exact ih

/-- **When attempts begin, and what is late.** Every attempt begins before the deadline, but for one
that begins in the very turn in which a search for a node has come to a good end: the clock is not
looked at again after the search. Such an attempt begins at the latest at the first whole
millisecond at or after the deadline. At or after the deadline it begins exactly when a search has
ended well and there is a node. All else that is done at or after the deadline, the commands of
bodies that were started in time among it, is done at the one instant at which the invocation was
woken from a wait that began before. -/
theorem late_attempts (h : Course Punctual job begun sights w p) :
    (∀ now node past, .dispatched now node :: past <:+ sights → job.deadline begun ≤ now →
      now ≤ wholeMillisecond (job.deadline begun) ∧
        ∃ earlier, past = .ended now (.resolved (.ok ())) :: earlier) ∧
    (∀ inv stage, p = .busy inv stage → job.deadline begun ≤ w.now →
      ((∃ now node, .dispatched now node ∈ Sight.ofTurn w inv stage) ↔
        ∃ w' id, inv.stageTurn w stage = (w', .done (.resolved (.ok ()))) ∧
          (Invocation.choose w' inv.slot).1 = some id) ∧
      ∃ before waiting inv' stage',
        Woken job begun before (waiting : World N) (.busy inv' stage' : Progress α) sights w.now) := by
  refine ⟨fun now node past hsuffix hlate => ⟨?_, ?_⟩, ?_⟩
  · exact h.seen_by_deadline _ (hsuffix.subset (List.mem_cons_self ..))
  · rcases h.dispatched_early_or_found now node past hsuffix with hearly | hfound
    · omega
    · exact hfound
  · rintro inv stage rfl hlate
    refine ⟨Invocation.dispatches_late_iff ?_, h.woken hlate inv stage rfl⟩
    rw [(h.inTime inv stage rfl).2.deadline]
    exact hlate

end Course

/-- A network of one node that opens connections at once and answers everything with the layout, but
not before the instant `1000000`. -/
structure Tardy where
  connections : Nat := 0

namespace Tardy

/-- The node serves the slot `0`. -/
def layout : Bytes := .ofText "*1\r\n*3\r\n:0\r\n:0\r\n*2\r\n$1\r\na\r\n:1\r\n"

instance : Network Tardy where
  connect d _ _ := ({ connections := d.connections + 1 }, d.connections)
  opening _ _ _ := .opened
  send d _ _ bs := (d, .taken bs.length)
  receive d now _ := (d, if now < 1000000 then .pending else .octets layout)
  nextEvent? _ now := if now < 1000000 then some 1000000 else none

/-- A `PING` on the slot `0`, within one millisecond. -/
def ping : Job Unit :=
  .ping { maxAttempts := 2, retryDuration := 1000000, refreshAfter := 3 } (some 0)

/-- The search for a node waits for the layout. -/
def searching : Moment Tardy Unit := .after 4 (.first ping (.ofSeed {}))

/-- The layout has come at the deadline, and the body has been started. -/
def late : Moment Tardy Unit := .after 4 (searching.passTo 1000000)

set_option maxRecDepth 100000 in
theorem idle_searching : searching.progress.isIdle searching.world = true := by cbv

set_option maxRecDepth 100000 in
theorem timer_searching : searching.progress.timer? = some 1000000 := by cbv

set_option maxRecDepth 100000 in
theorem now_searching : searching.world.now = 0 := by cbv

set_option maxRecDepth 100000 in
theorem seen_late : late.sights =
    [.bodyStarted 1000000, .dispatched 1000000 "a:1", .ended 1000000 (.resolved (.ok ()))] := by
  cbv

/-- The layout comes at the deadline, and so an attempt begins at the deadline, and its body is
started. -/
theorem late_attempts_tie :
    ping.deadline 0 = 1000000 ∧ Course Punctual ping 0 late.sights late.world late.progress ∧
    late.sights =
      [.bodyStarted 1000000, .dispatched 1000000 "a:1", .ended 1000000 (.resolved (.ok ()))] ∧
    1000000 ≤ wholeMillisecond (ping.deadline 0) := by
  have hfirst : (Moment.first ping (World.ofSeed ({} : Tardy))).IsOf Punctual ping 0 :=
    Course.first rfl
  have hsearching : Course Punctual ping 0 searching.sights searching.world searching.progress :=
    hfirst.after 4
  have hwoken : Punctual searching.world searching.progress (searching.passTo 1000000).world := by
    refine .inr ⟨idle_searching, ?_, fun instant htimer => ?_⟩
    · rw [now_searching]
      exact Nat.zero_le _
    · rw [timer_searching] at htimer
      obtain rfl := Option.some.inj htimer
      exact Nat.le_refl 1000000
  have hcourse : Course Punctual ping 0 late.sights late.world late.progress :=
    Course.after (m := searching.passTo 1000000) (hsearching.wait hwoken) 4
  have hsuffix :
      .dispatched 1000000 "a:1" :: [.ended 1000000 (.resolved (.ok ()))] <:+ late.sights := by
    rw [seen_late]
    exact List.suffix_cons ..
  have hlate := (Course.late_attempts hcourse).1 _ _ _ hsuffix (Nat.le_refl 1000000)
  exact ⟨rfl, hcourse, seen_late, hlate.1⟩

end Tardy
end SlotRouter
