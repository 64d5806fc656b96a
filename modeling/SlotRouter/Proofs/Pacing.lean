import Mathlib
import SlotRouter.Proofs.OwnPool
import SlotRouter.Proofs.Reruns

/-!
# When an invocation learns the layout again

Connection failures in a row are counted, and when there are enough of them and an attempt is left,
the invocation pauses and learns the layout. The count, the pauses and the refreshes are read off from
what can be seen of the invocation (`Sight.failures`, `Sight.forced`), and each step keeps the
invocation on schedule (`Progress.Paces`): it pauses exactly when that is due (`Due`), the pause ends in
one refresh, and there is no other refresh of this kind.

A refresh costs as many charges as it takes failures to be due, which bounds their number.

Key definitions: `Sight.failures`, `Due`, `OnSchedule`, `Progress.Paces`. Key theorems: `Course.paces`,
`Course.refreshes_on_schedule`.
-/

namespace SlotRouter

variable {N α : Type}

/-! ### The schedule -/

namespace Invocation.Outcome

/-- A connection failure that counts: of an attempt that does not ask, or of a search for a node that was cut off
by the deadline. -/
def isFailure : Outcome α → Bool
  | .attempted _ asking ⟨_, .error e⟩ => !asking && e.isConnectionError
  | .resolved (.error (.timeout .topology)) => true
  | _ => false

/-- A node has sent the invocation elsewhere. -/
def isRedirect : Outcome α → Bool
  | .attempted _ _ ⟨_, .error e⟩ => e.isRedirect
  | _ => false

end Invocation.Outcome

namespace Sight

/-- What has ended last. -/
def last? : List (Sight α) → Option (Invocation.Outcome α)
  | [] => none
  | .ended _ outcome :: _ => some outcome
  | _ :: past => last? past

/-- How many connection failures there have been since the start, the last redirect and the last forced
refresh. -/
def failures : List (Sight α) → Nat
  | [] => 0
  | .ended _ .woken :: _ => 0
  | .ended _ outcome :: past =>
    if outcome.isRedirect then 0 else failures past + if outcome.isFailure then 1 else 0
  | _ :: past => failures past

/-- How many refreshes have been forced. -/
def forced : List (Sight α) → Nat
  | [] => 0
  | .ended _ .woken :: past => forced past + 1
  | _ :: past => forced past

end Sight

/-- A connection failure has just been counted, there have been enough of them, and an attempt is left. -/
structure Due (policy : RetryPolicy) (sights : List (Sight α)) : Prop where
  failed : ∃ outcome, Sight.last? sights = some outcome ∧ outcome.isFailure = true
  enough : policy.refreshAfter.toNat ≤ Sight.failures sights
  left : (Sight.charges sights).length < policy.maxAttempts.toNat

/-- Pauses have ended where one was due and nowhere else, and after each of them, and nowhere else, the
layout was learned. -/
def OnSchedule (policy : RetryPolicy) : List (Sight α) → Prop
  | [] => True
  | .ended _ outcome :: past => (outcome = .woken ↔ Due policy past) ∧
      ((∃ result, outcome = .refreshed result) ↔ Sight.last? past = some .woken) ∧ OnSchedule policy past
  | _ :: past => OnSchedule policy past

/-- No pause is due and no refresh has been forced. -/
structure Calm (policy : RetryPolicy) (sights : List (Sight α)) : Prop where
  undue : ¬Due policy sights
  unforced : Sight.last? sights ≠ some .woken

/-- The schedule has been kept, and every refresh has been paid for; `underWay` charges are for
attempts that have not ended. -/
structure Paid (policy : RetryPolicy) (underWay : Nat) (sights : List (Sight α)) : Prop where
  schedule : OnSchedule policy sights
  tally : Sight.forced sights * policy.refreshAfter.toNat + Sight.failures sights + underWay ≤
    (Sight.charges sights).length
  bound : Sight.forced sights * policy.refreshAfter.toNat ≤ policy.maxAttempts.toNat - 1

/-- A pause lasts as long as the budget says, and not beyond the deadline. -/
def Pauses (d : Nat) (sights : List (Sight α)) (inv : Invocation α) (wake : Nat) : Prop :=
  ∃ now outcome past pause, sights = .ended now outcome :: past ∧ inv.budget.pause? now = some pause ∧
    wake = min (now + pause) d

/-- How far the invocation has come agrees with the schedule. -/
def Progress.Paces (policy : RetryPolicy) (d : Nat) (sights : List (Sight α)) : Progress α → Prop
  | .busy inv (.resolving _) => inv.failures = Sight.failures sights ∧ Calm policy sights ∧ Paid policy 0 sights
  | .busy inv (.attempting ..) => inv.failures = Sight.failures sights ∧ Calm policy sights ∧ Paid policy 1 sights
  | .busy inv (.pausing wake) => inv.failures = 0 ∧ Due policy sights ∧ Paid policy 0 sights ∧
      Pauses d sights inv wake
  | .busy inv (.refreshing _) => inv.failures = 0 ∧ Sight.last? sights = some .woken ∧ Paid policy 0 sights ∧
      (Sight.charges sights).length < policy.maxAttempts.toNat
  | .over _ => Calm policy sights ∧ Paid policy 0 sights

variable {policy : RetryPolicy} {d : Nat} {sights : List (Sight α)} {inv : Invocation α} {w : World N}

/-- What has just failed is no pause that has ended. -/
theorem not_woken_of_failed {outcome : Invocation.Outcome α} (hlast : Sight.last? sights = some outcome)
    (hfailed : outcome.isFailure = true) : Sight.last? sights ≠ some .woken := by
  rw [hlast]
  rintro ⟨⟩
  cases hfailed

theorem Due.unforced (h : Due policy sights) : Sight.last? sights ≠ some .woken := by
  obtain ⟨outcome, hlast, hfailed⟩ := h.failed
  exact not_woken_of_failed hlast hfailed

namespace Progress.Paces

variable {p : Progress α}

theorem paid (h : p.Paces policy d sights) : ∃ underWay, Paid policy underWay sights := by
  rcases p with ⟨inv, r | ⟨id, asking, a⟩ | wake | r⟩ | result
  · exact ⟨0, h.2.2⟩
  · exact ⟨1, h.2.2⟩
  · exact ⟨0, h.2.2.1⟩
  · exact ⟨0, h.2.2.1⟩
  · exact ⟨0, h.2⟩

/-- **An invocation pauses exactly when that is due.** -/
theorem pausing_iff (h : p.Paces policy d sights) :
    (∃ inv wake, p = .busy inv (.pausing wake)) ↔ Due policy sights := by
  constructor
  · rintro ⟨inv, wake, rfl⟩
    exact h.2.1
  · intro hdue
    rcases p with ⟨inv, r | ⟨id, asking, a⟩ | wake | r⟩ | result
    · exact absurd hdue h.2.1.undue
    · exact absurd hdue h.2.1.undue
    · exact ⟨inv, wake, rfl⟩
    · exact absurd h.2.1 hdue.unforced
    · exact absurd hdue h.1.undue

/-- **The layout is learned again exactly when a pause has ended.** -/
theorem refreshing_iff (h : p.Paces policy d sights) :
    (∃ inv r, p = .busy inv (.refreshing r)) ↔ Sight.last? sights = some .woken := by
  constructor
  · rintro ⟨inv, r, rfl⟩
    exact h.2.1
  · intro hwoken
    rcases p with ⟨inv, r | ⟨id, asking, a⟩ | wake | r⟩ | result
    · exact absurd hwoken h.2.1.unforced
    · exact absurd hwoken h.2.1.unforced
    · exact absurd hwoken h.2.1.unforced
    · exact ⟨inv, r, rfl⟩
    · exact absurd hwoken h.1.unforced

end Progress.Paces

/-- An invocation looks for a node or makes an attempt, and no pause is due. -/
structure Steady (policy : RetryPolicy) (d underWay : Nat) (sights : List (Sight α)) (inv : Invocation α) : Prop where
  bounds : inv.policy = policy
  deadline : inv.budget.deadline = d
  left : inv.budget.left.toNat + (Sight.charges sights).length = policy.maxAttempts.toNat
  failures : inv.failures = Sight.failures sights
  calm : Calm policy sights
  paid : Paid policy underWay sights

/-- The schedule is kept in a step that ends or begins something. -/
def KeepsPace (policy : RetryPolicy) (d : Nat) (sights : List (Sight α)) (r : World N × Invocation.Step α) : Prop :=
  ∀ before : Progress α, (before.ofStep r.2).Paces policy d (Sight.ofStep r ++ sights)

theorem Calm.nil : Calm policy ([] : List (Sight α)) := by
  refine ⟨fun hdue => ?_, nofun⟩
  obtain ⟨outcome, hlast, -⟩ := hdue.failed
  cases hlast

theorem Paid.nil : Paid policy 0 ([] : List (Sight α)) := by
  refine ⟨trivial, ?_, ?_⟩
  · simp [Sight.forced, Sight.failures]
  · simp [Sight.forced]

/-- A forced refresh starts the count afresh. -/
theorem Sight.failures_of_woken (h : Sight.last? sights = some .woken) : Sight.failures sights = 0 := by
  induction sights with
  | nil => cases h
  | cons s past ih =>
    cases s with
    | ended now outcome =>
      obtain rfl := Option.some.inj h
      rfl
    | _ => exact ih h

/-- A link that comes back unbroken to an open pool is kept. -/
theorem Pool.idle_giveBack_of_kept {p : Pool} {link : Link} (hsound : link.broken = false) (hopen : p.closed = false) :
    (p.giveBack link false).idle = link :: p.idle := by
  unfold giveBack keep
  rw [hsound, hopen]
  rfl

namespace Invocation

/-- After an attempt that has failed for the sake of a connection. -/
theorem turn_failed [Network N] {id : PoolId} {a : Attempt} {w' : World N} {started : Bool} {e : Error}
    (inv : Invocation α)
    (hends : inv.stageTurn w (.attempting id false a) = (w', .done (.attempted id false ⟨started, .error e⟩)))
    (he : e.isConnectionError = true) :
    inv.turn w (.attempting id false a) = (inv.noteStart started).recover w' (some id) e := by
  unfold turn
  rw [hends]
  exact retry_of_isConnectionError he id

/-- An attempt that begins changes nothing of what is due. -/
theorem beginAttempt_pace (h : Steady policy d 0 sights inv) (id : PoolId) (asking : Bool) :
    KeepsPace policy d sights (inv.beginAttempt w id asking) := by
  intro before
  have hpaid := h.paid
  refine ⟨h.failures, ⟨fun hdue => h.calm.undue ⟨hdue.failed, hdue.enough, ?_⟩, h.calm.unforced⟩,
    hpaid.schedule, ?_, hpaid.bound⟩
  · have hleft : (Sight.charges sights).length + 1 < policy.maxAttempts.toNat := hdue.left
    omega
  · have htally := hpaid.tally
    show Sight.forced sights * policy.refreshAfter.toNat + Sight.failures sights + 1 ≤
      (Sight.charges sights).length + 1
    omega

/-- The head of the loop keeps the schedule. -/
theorem next_pace (h : Steady policy d 0 sights inv) (target : Option String) :
    KeepsPace policy d sights (inv.next w target) := by
  have hstep := next_step w inv target
  generalize inv.next w target = r at hstep ⊢
  cases hstep with
  | attempt now left early id asking => exact beginAttempt_pace h id asking
  | resolve now left early => exact fun before => ⟨h.failures, h.calm, h.paid⟩
  | _ => exact fun before => ⟨h.calm, h.paid⟩

/-- If the client is open, the budget allows another attempt and there is time, the loop goes on. -/
theorem next_running (hopen : w.topology.closed = false) (hleft : inv.budget.left ≠ 0)
    (hearly : w.now < inv.budget.deadline) : ∃ again, (inv.next w none).2 = .running again := by
  unfold next
  rw [hopen, exhaustion?_of_early hleft hearly]
  dsimp only
  rw [if_neg Bool.false_ne_true]
  rcases choose w inv.slot with ⟨_ | id, w'⟩
  · exact ⟨_, rfl⟩
  · exact ⟨_, rfl⟩

/-- The length of a pause exists if an attempt is left and one has been made. -/
theorem exists_pause {b : Budget} {max : UInt32} {made : Nat} (h : b.left.toNat + made = max.toNat) (hmade : 0 < made)
    (now : Nat) : ∃ pause, b.pause? now = some pause := by
  have hmax := max.toNat_lt
  unfold Budget.pause?
  split_ifs with hspent
  · exact ⟨0, rfl⟩
  · have hword : b.left.toNat + 1 < UInt32.size := by
      show b.left.toNat + 1 < 4294967296
      omega
    unfold Budget.divisor?
    rw [if_pos hword]
    exact ⟨_, rfl⟩

/-- Counts a connection failure; the invocation pauses if that is due. -/
theorem recover_pace {past : List (Sight α)} {outcome : Outcome α} {e : Error} (inv : Invocation α)
    (hpolicy : inv.policy = policy) (hdeadline : inv.budget.deadline = d)
    (hsights : sights = .ended w.now outcome :: past) (hfailed : outcome.isFailure = true)
    (hleft : inv.budget.left.toNat + (Sight.charges sights).length = policy.maxAttempts.toNat)
    (hcount : inv.failures + 1 = Sight.failures sights) (hpaid : Paid policy 0 sights) (id? : Option PoolId) :
    KeepsPace policy d sights (inv.recover w id? e) := by
  have hlast : Sight.last? sights = some outcome := by
    rw [hsights]
    rfl
  have hunforced := not_woken_of_failed hlast hfailed
  subst hpolicy
  unfold recover
  dsimp only
  split_ifs with hgo
  · have hundue : ¬Due inv.policy sights := by
      intro hdue
      have henough := hdue.enough
      have hsome := hdue.left
      rcases hgo with hfew | hspent
      · omega
      · have hzero : inv.budget.left.toNat = 0 := congrArg UInt32.toNat hspent
        omega
    have hready : Steady inv.policy d 0 sights { inv with failures := inv.failures + 1, lastError := some e } :=
      ⟨rfl, hdeadline, hleft, hcount, ⟨hundue, hunforced⟩, hpaid⟩
    exact next_pace hready none
  · rw [not_or] at hgo
    obtain ⟨henough, hsome⟩ := hgo
    have hpos : inv.budget.left.toNat ≠ 0 := fun h0 => hsome (UInt32.toNat_inj.1 h0)
    have hdue : Due inv.policy sights := ⟨⟨outcome, hlast, hfailed⟩, by omega, by omega⟩
    -- A failure has been counted, so an attempt has been charged, and the pause has a length.
    have htally := hpaid.tally
    have hmade : 0 < (Sight.charges sights).length := by omega
    obtain ⟨pause, hpause⟩ := exists_pause hleft hmade w.now
    intro before
    refine ⟨rfl, hdue, hpaid, w.now, outcome, past, pause, hsights, hpause, ?_⟩
    show min ((invalidate w id?).now + (inv.budget.pause? (invalidate w id?).now).getD 0) inv.budget.deadline = _
    rw [now_invalidate, hpause, hdeadline]
    rfl

section

variable {now : Nat} {outcome : Outcome α}

theorem failures_ended (hwoken : outcome ≠ .woken) : Sight.failures (.ended now outcome :: sights) =
    if outcome.isRedirect then 0 else Sight.failures sights + if outcome.isFailure then 1 else 0 := by
  cases outcome with
  | woken => exact absurd rfl hwoken
  | _ => rfl

/-- What has ended was no failure that counts and no pause. -/
theorem calm_ended (hfine : outcome.isFailure = false) (hwoken : outcome ≠ .woken) :
    Calm policy (.ended now outcome :: sights) := by
  refine ⟨?_, fun h => hwoken (Option.some.inj h)⟩
  rintro ⟨⟨_, ⟨⟩, hfailed⟩, -, -⟩
  rw [hfine] at hfailed
  cases hfailed

/-- What has ended is paid for, and if it is a failure that counts, then by a charge of its own. -/
theorem paid_ended {underWay : Nat} (hcalm : Calm policy sights) (hpaid : Paid policy underWay sights)
    (hwoken : outcome ≠ .woken) (hrefreshed : ∀ result, outcome ≠ .refreshed result)
    (hcharged : (Sight.charges sights).length + (if outcome.isFailure then 1 else 0) ≤
      (Sight.charges (.ended now outcome :: sights)).length + underWay) :
    Paid policy 0 (.ended now outcome :: sights) := by
  have hforced : Sight.forced (.ended now outcome :: sights) = Sight.forced sights := by
    cases outcome with
    | woken => exact absurd rfl hwoken
    | _ => rfl
  refine ⟨⟨⟨fun h => absurd h hwoken, fun hdue => absurd hdue hcalm.undue⟩,
    ⟨fun ⟨result, h⟩ => absurd h (hrefreshed result), fun h => absurd h hcalm.unforced⟩, hpaid.schedule⟩, ?_, ?_⟩
  · have htally := hpaid.tally
    rw [hforced, failures_ended hwoken]
    split_ifs at hcharged ⊢ <;> omega
  · rw [hforced]
    exact hpaid.bound

/-- The pause that was due has ended. -/
theorem onSchedule_woken (hdue : Due policy sights) (h : OnSchedule policy sights) :
    OnSchedule policy (.ended now .woken :: sights) :=
  ⟨⟨fun _ => hdue, fun _ => rfl⟩, ⟨nofun, fun hwoken => absurd hwoken hdue.unforced⟩, h⟩

/-- The refresh that follows a pause has ended. -/
theorem onSchedule_refreshed (hwoken : Sight.last? sights = some .woken) (h : OnSchedule policy sights)
    (result : Except Error Unit) : OnSchedule policy (.ended now (.refreshed result) :: sights) :=
  ⟨⟨nofun, fun hdue => absurd hwoken hdue.unforced⟩, ⟨fun _ => hwoken, fun _ => ⟨result, rfl⟩⟩, h⟩

theorem calm_refreshed (now : Nat) (result : Except Error Unit) :
    Calm policy (.ended now (.refreshed result) :: sights) :=
  calm_ended rfl nofun

theorem calm_resolved {result : Except Error Unit} (hfine : (Outcome.resolved result : Outcome α).isFailure = false) :
    Calm policy (.ended now (.resolved result) :: sights) :=
  calm_ended hfine nofun

/-- A search for a node is paid for, if it counts, by a charge of its own. -/
theorem paid_resolved {result : Except Error Unit} (h : Steady policy d 0 sights inv)
    (hcharged : (Sight.charges sights).length + (if (Outcome.resolved result : Outcome α).isFailure then 1 else 0) ≤
      (Sight.charges (.ended now (.resolved result) :: sights)).length) :
    Paid policy 0 (.ended now (.resolved result) :: sights) :=
  paid_ended h.calm h.paid nofun nofun hcharged

end

/-- Goes on after a search for a node; a search that counts was cut off by the deadline. -/
theorem resolved_pace (h : Steady policy d 0 sights inv) (hleft : inv.budget.left ≠ 0) {result : Except Error Unit}
    (hcut : ∀ e, result = .error e → e.isConnectionError = true → e = .timeout .topology) :
    KeepsPace policy d (.ended w.now (.resolved result) :: sights) (inv.resolved w result) := by
  rcases result with e | ⟨⟩
  · by_cases hconn : e.isConnectionError = true
    · obtain rfl := hcut e rfl hconn
      have hconsume := Budget.toNat_left_consume hleft
      have hbefore := h.left
      have hpaid : Paid policy 0 (.ended w.now (.resolved (.error (.timeout .topology))) :: sights) :=
        paid_resolved h (Nat.le_refl _)
      refine recover_pace { inv with budget := inv.budget.consume } h.bounds h.deadline rfl rfl ?_ ?_ hpaid none
      · show inv.budget.consume.left.toNat + ((Sight.charges sights).length + 1) = _
        omega
      · exact congrArg (· + 1) h.failures
    · have hfine : (Outcome.resolved (.error e) : Outcome α).isFailure = false := by
        cases e <;> first | rfl | exact absurd rfl hconn
      have hcharges : Sight.charges (.ended w.now (.resolved (.error e)) :: sights) = Sight.charges sights := by
        simp [Sight.charges, hconn]
      have hpaid : Paid policy 0 (.ended w.now (.resolved (.error e)) :: sights) := by
        refine paid_resolved h ?_
        rw [hfine, hcharges]
        exact Nat.le_refl _
      unfold resolved
      dsimp only
      rw [if_neg hconn]
      exact fun before => ⟨calm_resolved hfine, hpaid⟩
  · have hcalm : Calm policy (.ended w.now (.resolved (.ok ())) :: sights) := calm_resolved rfl
    have hpaid : Paid policy 0 (.ended w.now (.resolved (.ok ())) :: sights) := paid_resolved h (Nat.le_refl _)
    have hready : Steady policy d 0 (.ended w.now (.resolved (.ok ())) :: sights) inv :=
      ⟨h.bounds, h.deadline, h.left, h.failures, hcalm, hpaid⟩
    unfold resolved
    dsimp only
    rcases choose w inv.slot with ⟨_ | id, w'⟩
    · exact fun before => ⟨hcalm, hpaid⟩
    · exact beginAttempt_pace hready id false

section

variable {id : PoolId} {asking started : Bool} {e : Error}

/-- An attempt that fails has been charged already. -/
theorem length_charges_failed (now : Nat) (id : PoolId) (asking started : Bool) (e : Error)
    (sights : List (Sight α)) :
    (Sight.charges (.ended now (.attempted id asking ⟨started, .error e⟩) :: sights)).length =
      (Sight.charges sights).length := Charge.length_fail e _

/-- The failure of an attempt is paid for by the charge of that attempt. -/
theorem paid_failed (h : Steady policy d 1 sights inv) (now : Nat) :
    Paid policy 0 (.ended now (.attempted id asking ⟨started, .error e⟩) :: sights) := by
  refine paid_ended h.calm h.paid nofun nofun ?_
  rw [length_charges_failed]
  split_ifs <;> omega

/-- A redirect starts the count afresh. -/
theorem steady_redirected (h : Steady policy d 1 sights inv) (he : e.isRedirect = true) (now : Nat) :
    Steady policy d 0 (.ended now (.attempted id asking ⟨started, .error e⟩) :: sights)
      { inv with failures := 0, lastError := some e } := by
  have hfine : (!asking && e.isConnectionError) = false := by
    cases e with
    | moved | ask => exact Bool.and_false _
    | _ => cases he
  refine ⟨h.bounds, h.deadline, ?_, (if_pos he).symm, calm_ended hfine nofun, paid_failed h now⟩
  rw [length_charges_failed]
  exact h.left

/-- Goes on after an attempt that has failed for the sake of a connection. -/
theorem failed_pace (h : Steady policy d 1 sights inv) (he : e.isConnectionError = true) (id : PoolId)
    (started : Bool) :
    KeepsPace policy d (.ended w.now (.attempted id false ⟨started, .error e⟩) :: sights)
      (inv.recover w (some id) e) := by
  have hcount : Sight.failures (.ended w.now (.attempted id false ⟨started, .error e⟩) :: sights) =
      if e.isRedirect then 0 else Sight.failures sights + if e.isConnectionError then 1 else 0 := rfl
  have hfailed : (Outcome.attempted id false ⟨started, .error e⟩ : Outcome α).isFailure = true := he
  refine recover_pace inv h.bounds h.deadline rfl hfailed ?_ ?_ (paid_failed h w.now) (some id)
  · rw [length_charges_failed]
    exact h.left
  · rw [hcount, Error.isRedirect_of_isConnectionError he, he, h.failures]
    rfl

/-- Goes on after an attempt. -/
theorem attempted_pace (h : Steady policy d 1 sights inv) (id : PoolId) (asking : Bool) (ended : Attempt.Ended α) :
    KeepsPace policy d (.ended w.now (.attempted id asking ended) :: sights)
      (inv.attempted w id asking ended.result) := by
  obtain ⟨started, e | value⟩ := ended
  · have hsettle : (!asking && e.isConnectionError) = false →
        KeepsPace policy d (.ended w.now (.attempted id asking ⟨started, .error e⟩) :: sights) (inv.settle w e) :=
      fun hfine before => ⟨calm_ended hfine nofun, paid_failed h w.now⟩
    unfold attempted
    dsimp only
    split_ifs with hasking
    · exact hsettle (by rw [hasking]; rfl)
    · obtain rfl := Bool.eq_false_iff.2 hasking
      unfold retry
      split
      · exact next_pace (steady_redirected h rfl w.now) none
      · exact next_pace (steady_redirected h rfl w.now) _
      · split_ifs with hconn
        · exact failed_pace h hconn id started
        · exact hsettle (Bool.eq_false_iff.2 hconn)
  · have hpaid : Paid policy 0 (.ended w.now (.attempted id asking ⟨started, .ok value⟩) :: sights) :=
      paid_ended h.calm h.paid nofun nofun (Nat.le_succ _)
    exact fun before => ⟨calm_ended rfl nofun, hpaid⟩

end

/-! ### Turns and courses -/

/-- The start of a body is not what the schedule is about. -/
theorem steady_start {underWay : Nat} (h : Steady policy d underWay sights inv) (now : Nat) (b : Bool) :
    Steady policy d underWay ((if b then [.bodyStarted now] else []) ++ sights) inv := by
  cases b with
  | false => exact h
  | true =>
    have hcalm := h.calm
    have hpaid := h.paid
    exact ⟨h.bounds, h.deadline, h.left, h.failures,
      ⟨fun hdue => hcalm.undue ⟨hdue.failed, hdue.enough, hdue.left⟩, hcalm.unforced⟩,
      ⟨hpaid.schedule, hpaid.tally, hpaid.bound⟩⟩

theorem steady_noteStart {underWay : Nat} (h : Steady policy d underWay sights inv) (b : Bool) :
    Steady policy d underWay sights (inv.noteStart b) := by
  cases b with
  | false => exact h
  | true => exact ⟨h.bounds, h.deadline, h.left, h.failures, h.calm, h.paid⟩

variable [Network N] {job : Job α}

theorem attempting_pace {id : PoolId} {asking : Bool} {a : Attempt}
    (haccounts : (Progress.busy inv (.attempting id asking a)).Accounts job d sights w.now)
    (h : (Progress.busy inv (.attempting id asking a)).Paces job.policy d sights) :
    ((Progress.busy inv (.attempting id asking a)).ofStep
      (inv.turn w (.attempting id asking a)).2).Paces job.policy d
      (Sight.ofTurn w inv (.attempting id asking a) ++ sights) := by
  obtain ⟨hledger, -, -, -⟩ := haccounts
  obtain ⟨hcount, hcalm, hpaid⟩ := h
  have hsteady : Steady job.policy d 1 sights inv :=
    ⟨hledger.policy, hledger.deadline, hledger.left, hcount, hcalm, hpaid⟩
  unfold turn Sight.ofTurn
  simp only [stageTurn]
  rcases attemptUntil inv.budget.deadline w inv.body inv.started a with ⟨v, _ | a' | ended⟩
  · exact ⟨hcount, hcalm, hpaid⟩
  · have hstarted := steady_start hsteady v.now (Stage.hasStarted (.attempting id asking a') && !a.hasStarted)
    exact ⟨hstarted.failures, hstarted.calm, hstarted.paid⟩
  · dsimp only
    rw [List.append_assoc, List.cons_append]
    exact attempted_pace (w := v) (steady_noteStart (steady_start hsteady v.now _) _) id asking ended _

theorem resolving_pace {r : Refresh} (haccounts : (Progress.busy inv (.resolving r)).Accounts job d sights w.now)
    (h : (Progress.busy inv (.resolving r)).Paces job.policy d sights) :
    ((Progress.busy inv (.resolving r)).ofStep (inv.turn w (.resolving r)).2).Paces job.policy d
      (Sight.ofTurn w inv (.resolving r) ++ sights) := by
  obtain ⟨hclosed, hleft, -⟩ := haccounts
  obtain ⟨hcount, hcalm, hpaid⟩ := h
  have hsteady : Steady job.policy d 0 sights inv :=
    ⟨hclosed.policy, hclosed.deadline, hclosed.left, hcount, hcalm, hpaid⟩
  unfold turn Sight.ofTurn
  simp only [stageTurn]
  rcases hr : refreshUntil inv.budget.deadline w r with ⟨v, _ | r' | result⟩
  · exact ⟨hcount, hcalm, hpaid⟩
  · exact ⟨hcount, hcalm, hpaid⟩
  · dsimp only
    rw [List.append_assoc]
    refine resolved_pace hsteady hleft (fun e he hconn => ?_) _
    exact (Refresh.refreshUntil_error (he ▸ hr) hconn).1

/-- The pause that is due ends in a forced refresh, which is paid for by the failures. -/
theorem pausing_pace {wake : Nat} (h : (Progress.busy inv (.pausing wake)).Paces job.policy d sights) :
    ((Progress.busy inv (.pausing wake)).ofStep (inv.turn w (.pausing wake)).2).Paces job.policy d
      (Sight.ofTurn w inv (.pausing wake) ++ sights) := by
  unfold turn Sight.ofTurn
  simp only [stageTurn]
  by_cases hwake : wake ≤ w.now
  · simp only [if_pos hwake]
    obtain ⟨hnone, hdue, hpaid, -⟩ := h
    -- The failures that made the pause due have charges of their own, and the refresh takes these over.
    have htally := hpaid.tally
    have henough := hdue.enough
    have hleft := hdue.left
    have hmore : (Sight.forced sights + 1) * job.policy.refreshAfter.toNat =
        Sight.forced sights * job.policy.refreshAfter.toNat + job.policy.refreshAfter.toNat := Nat.succ_mul _ _
    refine ⟨hnone, rfl, ⟨onSchedule_woken hdue hpaid.schedule, ?_, ?_⟩, hleft⟩
    · show (Sight.forced sights + 1) * job.policy.refreshAfter.toNat + 0 + 0 ≤ (Sight.charges sights).length
      omega
    · show (Sight.forced sights + 1) * job.policy.refreshAfter.toNat ≤ _
      omega
  · simp only [if_neg hwake]
    exact h

theorem refreshing_pace {r : Refresh} (haccounts : (Progress.busy inv (.refreshing r)).Accounts job d sights w.now)
    (h : (Progress.busy inv (.refreshing r)).Paces job.policy d sights) :
    ((Progress.busy inv (.refreshing r)).ofStep (inv.turn w (.refreshing r)).2).Paces job.policy d
      (Sight.ofTurn w inv (.refreshing r) ++ sights) := by
  unfold turn Sight.ofTurn
  simp only [stageTurn]
  rcases refreshUntil inv.budget.deadline w r with ⟨v, _ | r' | result⟩
  · exact h
  · exact h
  · dsimp only
    rw [List.append_assoc]
    obtain ⟨hnone, hlast, hpaid, -⟩ := h
    have hsteady : Steady job.policy d 0 (.ended v.now (.refreshed result) :: sights) inv :=
      ⟨haccounts.policy, haccounts.deadline, haccounts.left, hnone.trans (Sight.failures_of_woken hlast).symm,
        calm_refreshed v.now result, onSchedule_refreshed hlast hpaid.schedule result, hpaid.tally, hpaid.bound⟩
    exact next_pace (w := v) hsteady none _

/-- A turn keeps the schedule. -/
theorem turn_pace {stage : Stage} (haccounts : (Progress.busy inv stage).Accounts job d sights w.now)
    (h : (Progress.busy inv stage).Paces job.policy d sights) :
    ((Progress.busy inv stage).ofStep (inv.turn w stage).2).Paces job.policy d
      (Sight.ofTurn w inv stage ++ sights) := by
  cases stage with
  | resolving r => exact resolving_pace haccounts h
  | attempting id asking a => exact attempting_pace haccounts h
  | pausing wake => exact pausing_pace h
  | refreshing r => exact refreshing_pace haccounts h

end Invocation

namespace Course

variable [Network N] {job : Job α} {between : Surroundings N α} {begun : Nat} {p : Progress α}

/-- **The schedule is kept at every moment of every course.** -/
theorem paces (h : Course Later job begun sights w p) : p.Paces job.policy (job.deadline begun) sights := by
  have hcalm : Calm job.policy ([] : List (Sight α)) := .nil
  have hpaid : Paid job.policy 0 ([] : List (Sight α)) := .nil
  by_cases hnone : job.policy.maxAttempts = 0
  · obtain ⟨rfl, result, rfl⟩ := h.over_of_no_attempts hnone
    exact ⟨hcalm, hpaid⟩
  · have hmax : job.policy.maxAttempts.toNat ≠ 0 := fun h0 => hnone (UInt32.toNat_inj.1 h0)
    have hstart : ∀ w : World N, KeepsPace job.policy (job.deadline w.now) [] (job.start w) := fun w =>
      Invocation.next_pace ⟨rfl, job.deadline_fresh w.now, rfl, rfl, hcalm, hpaid⟩ none
    induction h with
    | @start w w' inv stage now h =>
      have hpaces := hstart w (.busy inv stage)
      rw [List.append_nil, h, now] at hpaces
      rw [h]
      exact hpaces
    | @refused w w' result now h =>
      have hpaces := hstart w (.over result)
      rw [List.append_nil, h, now] at hpaces
      exact hpaces
    | turn h ih => exact Invocation.turn_pace (h.accounts hmax) ih
    | wait h others ih => exact ih

/-- An invocation that is not over may make an attempt. -/
theorem maxAttempts_ne_zero {inv : Invocation α} {stage : Invocation.Stage}
    (h : Course Later job begun sights w (.busy inv stage)) : job.policy.maxAttempts.toNat ≠ 0 := by
  intro hzero
  obtain ⟨-, result, hover⟩ := h.over_of_no_attempts (UInt32.toNat_inj.1 hzero)
  cases hover

/-- **A forced refresh does not end the invocation**, whatever comes of it: the loop begins anew, and if the
client is open and there is time, it goes on. -/
theorem goes_on_after_refresh {inv : Invocation α} {r : Refresh} {w' : World N} {result : Except Error Unit}
    (h : Course Later job begun sights w (.busy inv (.refreshing r)))
    (hends : inv.stageTurn w (.refreshing r) = (w', .done (.refreshed result))) :
    inv.turn w (.refreshing r) = inv.next w' none ∧ (w'.topology.closed = false → w'.now < job.deadline begun →
      ∃ again, (inv.turn w (.refreshing r)).2 = .running again) := by
  have hnext : inv.turn w (.refreshing r) = inv.next w' none := by
    unfold Invocation.turn
    rw [hends]
    rfl
  refine ⟨hnext, fun hopen hearly => ?_⟩
  have hclosed : Closed job (job.deadline begun) sights w.now inv := h.accounts h.maxAttempts_ne_zero
  obtain ⟨-, -, -, hroom⟩ := h.paces
  have hbudget := hclosed.left
  have hleft : inv.budget.left ≠ 0 := by
    intro hspent
    have hzero : inv.budget.left.toNat = 0 := congrArg UInt32.toNat hspent
    omega
  rw [hnext]
  exact Invocation.next_running hopen hleft (hclosed.deadline ▸ hearly)

/-- **Connection failures force a refresh exactly on schedule.** At every moment the invocation pauses if
and only if its last outcome is a connection failure that counts, there have been enough of them since
the start, the last redirect and the last forced refresh, and an attempt is left; and it has been so
ever since its start. The pause is that of the budget, ends at the deadline at the latest, changes
nothing, and is followed by one refresh. The refresh is cut off at the deadline, and whatever comes of it, the
loop begins anew. There are at most as many refreshes as the number of attempts allows. A failure of an attempt
drops the idle links of its pool: the other pools are as they were before the turn, and the network is as the
attempt has left it, so that a link that is still lent is kept again when it comes back. -/
theorem refreshes_on_schedule (h : Course Later job begun sights w p) :
    OnSchedule job.policy sights ∧
    ((∃ inv wake, p = .busy inv (.pausing wake)) ↔ Due job.policy sights) ∧
    ((∃ inv r, p = .busy inv (.refreshing r)) ↔ Sight.last? sights = some .woken) ∧
    (∀ inv wake, p = .busy inv (.pausing wake) → Pauses (job.deadline begun) sights inv wake ∧
      wake ≤ job.deadline begun ∧ inv.turn w (.pausing wake) =
        if wake ≤ w.now then (w, .running (inv, .refreshing .entering)) else (w, .blocked)) ∧
    (∀ inv r, p = .busy inv (.refreshing r) →
      ((inv.turn w (.refreshing r)).2 = .blocked → w.now < job.deadline begun) ∧
      ∀ w' result, inv.stageTurn w (.refreshing r) = (w', .done (.refreshed result)) →
        inv.turn w (.refreshing r) = inv.next w' none ∧
        (w'.topology.closed = false → w'.now < job.deadline begun →
          ∃ again, (inv.turn w (.refreshing r)).2 = .running again)) ∧
    Sight.forced sights * job.policy.refreshAfter.toNat ≤ job.policy.maxAttempts.toNat - 1 ∧
    (0 < job.policy.refreshAfter.toNat →
      Sight.forced sights ≤ (job.policy.maxAttempts.toNat - 1) / job.policy.refreshAfter.toNat) ∧
    ∀ inv id a, p = .busy inv (.attempting id false a) → ∀ w' started e,
      inv.stageTurn w (.attempting id false a) = (w', .done (.attempted id false ⟨started, .error e⟩)) →
      e.isConnectionError = true →
        let r := inv.turn w (.attempting id false a)
        r.1.pool id = (w'.pool id).invalidate ∧ (r.1.pool id).idle = [] ∧ World.Within id w r.1 ∧
        r.1.net = w'.net ∧ ∀ link, link.broken = false → (r.1.pool id).closed = false →
          ((r.1.pool id).giveBack link false).idle = [link] := by
  have hpaces := h.paces
  obtain ⟨underWay, hpaid⟩ := hpaces.paid
  refine ⟨hpaid.schedule, hpaces.pausing_iff, hpaces.refreshing_iff, ?_, ?_, hpaid.bound,
    fun hpos => (Nat.le_div_iff_mul_le hpos).2 hpaid.bound, ?_⟩
  · rintro inv wake rfl
    obtain ⟨-, -, -, hpauses⟩ := hpaces
    refine ⟨hpauses, ?_, ?_⟩
    · obtain ⟨now, outcome, past, pause, -, -, rfl⟩ := hpauses
      exact Nat.min_le_right _ _
    · unfold Invocation.turn Invocation.stageTurn
      dsimp only
      split_ifs <;> rfl
  · rintro inv r rfl
    have hclosed : Closed job (job.deadline begun) sights w.now inv := h.accounts h.maxAttempts_ne_zero
    refine ⟨fun hblocked => ?_, fun w' result hends => h.goes_on_after_refresh hends⟩
    cases Invocation.turn_waits hblocked with
    | refreshing hwaits early => exact hclosed.deadline ▸ early
  · rintro inv id a rfl w' started e hends he
    have hwithin := Invocation.within_stageTurn h.attempt_on w inv
    rw [hends] at hwithin
    obtain ⟨hpool, hother, hnet⟩ := Invocation.recover_spec w' (inv.noteStart started) id e
    dsimp only
    rw [inv.turn_failed hends he]
    have hidle : (((inv.noteStart started).recover w' (some id) e).1.pool id).idle = [] := by
      rw [hpool]
      rfl
    refine ⟨hpool, hidle, hwithin.trans hother, hnet, fun link hsound hopen => ?_⟩
    exact (Pool.idle_giveBack_of_kept hsound hopen).trans (congrArg _ hidle)

end Course

namespace Deaf

/-- Three attempts, and a refresh after two failures. -/
def patient : Job Unit := .ping (.ofConfig { seeds := ["a:1"], maxAttempts := 3, refreshAfter := 2 }) none

/-- Two attempts have failed. -/
def tired : Moment Deaf Unit := .after 4 (.first patient (.ofNode {}))

/-- The pause is over, the layout could not be learned, and the third attempt has failed. -/
def spent : Moment Deaf Unit := .after 6 (tired.passTo 1000000000)

theorem last_tired : (Sight.last? tired.sights).map Invocation.Outcome.isFailure = some true := by decide +kernel

theorem failures_tired : Sight.failures tired.sights = 2 := by decide +kernel

theorem charges_tired : (Sight.charges tired.sights).length = 2 := by decide +kernel

theorem now_tired : tired.world.now ≤ 1000000000 := by decide +kernel

theorem forced_spent : Sight.forced spent.sights = 1 := by decide +kernel

/-- After two failures the third attempt is put off until the layout has been asked for, and that once only. -/
theorem refreshes_on_schedule_refused :
    Course Later patient 0 tired.sights tired.world tired.progress ∧
    (∃ inv wake, tired.progress = .busy inv (.pausing wake) ∧ wake ≤ patient.deadline 0) ∧
    Course Later patient 0 spent.sights spent.world spent.progress ∧
    Sight.forced spent.sights = 1 ∧ Sight.forced spent.sights ≤ (3 - 1) / 2 := by
  have hfirst : (Moment.first patient (World.ofNode ({} : Deaf))).IsOf Later patient 0 := Course.first rfl
  have htired : Course Later patient 0 tired.sights tired.world tired.progress := hfirst.after 4
  have hwaited : (tired.passTo 1000000000).IsOf Later patient 0 := .wait htired now_tired
  have hspent : Course Later patient 0 spent.sights spent.world spent.progress := hwaited.after 6
  have hdue : Due patient.policy tired.sights := by
    refine ⟨Option.map_eq_some_iff.1 last_tired, ?_, ?_⟩
    · rw [failures_tired]
      decide
    · rw [charges_tired]
      decide
  obtain ⟨-, hpauses, -, hwake, -⟩ := Course.refreshes_on_schedule htired
  obtain ⟨inv, wake, hpausing⟩ := hpauses.2 hdue
  obtain ⟨-, -, -, -, -, -, hbound, -⟩ := Course.refreshes_on_schedule hspent
  exact ⟨htired, ⟨inv, wake, hpausing, (hwake inv wake hpausing).2.1⟩, hspent, forced_spent, hbound (by decide)⟩

end Deaf
end SlotRouter
