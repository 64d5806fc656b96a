import Mathlib
import SlotRouter.Proofs.Ledger
import SlotRouter.Proofs.Searches

/-!
# The accounts of an invocation

The ledger of an invocation is right at every moment of every course (`Course.accounts`): each step
keeps it, and others cannot touch it. So the numbers in the errors that end an invocation are true.

Key theorems: `Course.accounts`, `Course.errors_account`.
-/

namespace SlotRouter

variable {N α : Type} {job : Job α} {d now : Nat} {sights : List (Sight α)} {inv : Invocation α}
    {w : World N}

/-! ### Steps -/

/-- The accounts are kept in a step that ends or begins something. -/
def Keeps (job : Job α) (d : Nat) (sights : List (Sight α)) (r : World N × Invocation.Step α) :
    Prop :=
  ∀ before : Progress α, (before.ofStep r.2).Accounts job d (Sight.ofStep r ++ sights) r.1.now

namespace Invocation

theorem beginAttempt_keeps (h : Ledger job d sights inv) (hleft : inv.budget.left ≠ 0)
    (hcount : (Charge.nodes (Sight.charges sights)).length = (Sight.charges sights).length)
    (id : PoolId) (asking : Bool) :
    Keeps job d sights (inv.beginAttempt w id asking) := by
  intro before
  have hconsume := Budget.toNat_left_consume hleft
  have hbefore := h.left
  have hstarts := h.starts
  refine ⟨⟨h.policy, h.slot, h.deadline, h.max, ?_, rfl, ?_⟩,
    by simp [Sight.ofStep, beginAttempt, Sight.charges], ?_, ?_⟩
  · show inv.budget.consume.left.toNat + ((Sight.charges sights).length + 1) = _
    omega
  · show Sight.starts sights ≤ (Charge.nodes (Sight.charges sights)).length + 1
    omega
  · show (Charge.nodes (Sight.charges sights)).length + 1 = (Sight.charges sights).length + 1
    omega
  · show Sight.starts sights + 1 ≤ (Sight.charges sights).length + 1
    omega

theorem failure_of_ne {e : Error} (h : e ≠ .clientClosed) :
    inv.failure e = .commandFailed inv.attempts inv.slot inv.lastNode e := by
  cases e with
  | clientClosed => exact absurd rfl h
  | _ => rfl

theorem settle_keeps (h : Ledger job d sights inv)
    (hcount : (Charge.nodes (Sight.charges sights)).length = (Sight.charges sights).length) {e : Error}
    (hended : e ≠ .clientClosed → EndedBy job.slot sights e) : Keeps job d sights (inv.settle w e) := by
  intro before
  refine ⟨h.starts_le, ?_⟩
  show Accounted job d sights w.now (.error (inv.failure e))
  by_cases hclosed : e = .clientClosed
  · subst hclosed
    exact rfl
  · rw [failure_of_ne hclosed]
    exact ⟨h.standing (.inl hcount), hended hclosed⟩

/-- What has come of a search for a node is the error when nobody serves the invocation. -/
theorem endedBy_unserved (h : inv.slot = job.slot) (now : Nat) (past : List (Sight α)) :
    EndedBy job.slot (.ended now (.resolved (.ok ())) :: past) inv.unserved := by
  unfold unserved
  rw [h]
  cases hslot : job.slot with
  | some own => exact .unserved rfl
  | none => exact .deserted rfl

theorem exhausted_accounts (hmax : job.policy.maxAttempts.toNat ≠ 0)
    (h : Closed job d sights now inv) (hspent : inv.budget.left = 0) :
    Accounted job d sights now
      (.error (.retriesExhausted inv.attempts inv.slot inv.lastNode (inv.lastError.getD .noReachableNode))) := by
  have hstanding := h.toLedger.standing h.count
  have hleft := h.left
  rw [hspent] at hleft
  have hall : (Sight.charges sights).length = job.policy.maxAttempts.toNat := by simpa using hleft
  obtain ⟨e, he⟩ : ∃ e, inv.lastError = some e := by
    refine Option.ne_none_iff_exists'.1 fun hnone => hmax ?_
    rw [← hall, h.charged.1 hnone]
    rfl
  rw [he]
  exact ⟨hstanding, hstanding.charged.trans hall, h.failure.symm.trans he, h.retriable e he⟩

theorem late_accounts (h : Closed job d sights now inv) (hleft : inv.budget.left ≠ 0)
    (hlate : d ≤ now) :
    Accounted job d sights now
      (.error (.deadlineExceeded inv.attempts inv.slot inv.lastNode inv.lastError)) := by
  have hstanding := h.toLedger.standing h.count
  have hmade := hstanding.charged
  have hsum := h.left
  have hpos : inv.budget.left.toNat ≠ 0 := fun h0 => hleft (UInt32.toNat_inj.1 h0)
  refine ⟨hstanding, by omega, hlate, h.failure, ?_⟩
  rw [h.charged, hmade, List.length_eq_zero_iff]

/-- Before the deadline no search has been cut off, so all that was charged was dispatched. -/
theorem count_of_early (h : Closed job d sights now inv) (hearly : now < inv.budget.deadline) :
    (Charge.nodes (Sight.charges sights)).length = (Sight.charges sights).length := by
  rcases h.count with hsame | ⟨hpast, -⟩
  · exact hsame
  · rw [h.deadline] at hearly
    omega

/-- The head of the loop keeps the accounts. -/
theorem next_keeps (hmax : job.policy.maxAttempts.toNat ≠ 0) (h : Closed job d sights w.now inv)
    (target : Option String) : Keeps job d sights (inv.next w target) := by
  have hstep := next_step w inv target
  generalize inv.next w target = r at hstep ⊢
  cases hstep with
  | closed => exact fun before => ⟨h.starts_le, rfl⟩
  | spent left => exact fun before => ⟨h.starts_le, exhausted_accounts hmax h left⟩
  | late left late =>
    rw [h.deadline] at late
    exact fun before => ⟨h.starts_le, late_accounts h left late⟩
  | attempt now left early id asking =>
    exact beginAttempt_keeps h.toLedger left (count_of_early h early) id asking
  | @resolve w' now left early =>
    intro before
    refine ⟨?_, left, count_of_early h early⟩
    show Closed job d sights w'.now inv
    rw [now]
    exact h

/-- What happens to an invocation between two attempts does not touch its accounts. -/
theorem closed_failures (h : Closed job d sights now inv) (failures : Nat) :
    Closed job d sights now { inv with failures } := by
  have hledger : Ledger job d sights { inv with failures } :=
    ⟨h.policy, h.slot, h.deadline, h.max, h.left, h.node, h.starts⟩
  exact ⟨hledger, h.failure, h.charged, h.retriable, h.count⟩

theorem recover_keeps (hmax : job.policy.maxAttempts.toNat ≠ 0) {e : Error}
    (h : Closed job d sights w.now { inv with lastError := some e }) (id? : Option PoolId) :
    Keeps job d sights (inv.recover w id? e) := by
  have hnow := now_invalidate w id?
  have hcounted : Closed job d sights (invalidate w id?).now
      { inv with failures := inv.failures + 1, lastError := some e } := by
    rw [hnow]
    exact closed_failures h _
  unfold recover
  dsimp only
  split_ifs
  · exact next_keeps hmax hcounted none
  · exact fun before => closed_failures hcounted 0

/-- Goes on after a search for a node; a search that counts was cut off by the deadline. -/
theorem resolved_keeps (hmax : job.policy.maxAttempts.toNat ≠ 0) (h : Closed job d sights w.now inv)
    (hleft : inv.budget.left ≠ 0)
    (hcount : (Charge.nodes (Sight.charges sights)).length = (Sight.charges sights).length)
    {result : Except Error Unit}
    (hfails : ∀ e, result = .error e →
      e = .noReachableNode ∨ e = .clientClosed ∨ e = .timeout .topology ∧ d ≤ w.now) :
    Keeps job d (.ended w.now (.resolved result) :: sights) (inv.resolved w result) := by
  have hsame : ∀ r : Except Error Unit,
      Sight.charges (.ended w.now (.resolved r) :: sights) = Sight.charges sights →
      Ledger job d (.ended w.now (.resolved r) :: sights) inv := by
    intro r hcharges
    exact ⟨h.policy, h.slot, h.deadline, h.max, hcharges ▸ h.left, hcharges ▸ h.node,
      hcharges ▸ h.starts⟩
  rcases result with e | ⟨⟩
  · rcases hfails e rfl with rfl | rfl | ⟨rfl, hpast⟩
    · exact settle_keeps (hsame (.error .noReachableNode) rfl) hcount fun _ => .unreachable
    · exact settle_keeps (hsame (.error .clientClosed) rfl) hcount fun hopen => absurd rfl hopen
    · have hconsume := Budget.toNat_left_consume hleft
      have hbefore := h.left
      have hclosed : Closed job d (.ended w.now (.resolved (.error (.timeout .topology))) :: sights) w.now
          { inv with budget := inv.budget.consume, lastError := some (.timeout .topology) } := by
        refine ⟨⟨h.policy, h.slot, h.deadline, h.max, ?_, h.node, h.starts⟩, rfl, ?_, ?_,
          .inr ⟨hpast, ?_, rfl⟩⟩
        · show inv.budget.consume.left.toNat + ((Sight.charges sights).length + 1) = _
          omega
        · simp [Sight.charges, Error.isConnectionError]
        · rintro _ ⟨⟩
          exact .inl rfl
        · show (Charge.nodes (Sight.charges sights)).length + 1 = (Sight.charges sights).length + 1
          omega
      have hrecover : Keeps job d (.ended w.now (.resolved (.error (.timeout .topology))) :: sights)
          (({ inv with budget := inv.budget.consume } : Invocation α).recover w none (.timeout .topology)) :=
        recover_keeps hmax hclosed none
      exact hrecover
  · unfold resolved
    have hnow := now_choose w inv.slot
    dsimp only
    rcases hc : choose w inv.slot with ⟨_ | id, w'⟩
    · exact settle_keeps (hsame (.ok ()) rfl) hcount fun _ => endedBy_unserved h.slot _ _
    · exact beginAttempt_keeps (hsame (.ok ()) rfl) hleft hcount id false

section

variable {e : Error} {ended : Attempt.Ended α} {id : PoolId} {asking : Bool}

theorem charges_failed (now : Nat) (id : PoolId) (asking : Bool) (sights : List (Sight α))
    (hresult : ended.result = .error e) :
    Sight.charges (.ended now (.attempted id asking ended) :: sights) =
      Charge.fail e (Sight.charges sights) := by
  obtain ⟨started, result⟩ := ended
  obtain rfl : result = .error e := hresult
  rfl

theorem ledger_failed (now : Nat) (id : PoolId) (asking : Bool) (h : Ledger job d sights inv)
    (hresult : ended.result = .error e) :
    Ledger job d (.ended now (.attempted id asking ended) :: sights) inv := by
  have hcharges := charges_failed now id asking sights hresult
  refine ⟨h.policy, h.slot, h.deadline, h.max, ?_, ?_, ?_⟩
  · rw [hcharges, Charge.length_fail]
    exact h.left
  · rw [hcharges, Charge.nodes_fail]
    exact h.node
  · rw [hcharges, Charge.nodes_fail, Sight.starts_ended]
    exact h.starts

/-- The ledger of an invocation whose last attempt has failed, and which may make another. -/
theorem closed_failed (now : Nat) (id : PoolId) (asking : Bool) (h : Ledger job d sights inv)
    (hne : Sight.charges sights ≠ [])
    (hcount : (Charge.nodes (Sight.charges sights)).length = (Sight.charges sights).length)
    (hresult : ended.result = .error e) (he : e.isRetriable) :
    Closed job d (.ended now (.attempted id asking ended) :: sights) now { inv with lastError := some e } := by
  have hcharges := charges_failed now id asking sights hresult
  have hl := ledger_failed now id asking h hresult
  refine ⟨⟨hl.policy, hl.slot, hl.deadline, hl.max, hl.left, hl.node, hl.starts⟩, ?_, ?_, ?_, .inl ?_⟩
  · rw [hcharges, Charge.lastFailure?_fail e hne]
  · rw [hcharges]
    cases hc : Sight.charges sights with
    | nil => exact absurd hc hne
    | cons c cs => simp [Charge.fail]
  · rintro _ ⟨⟩
    exact he
  · rw [hcharges, Charge.nodes_fail, Charge.length_fail]
    exact hcount

/-- Goes on after an attempt. -/
theorem attempted_keeps (hmax : job.policy.maxAttempts.toNat ≠ 0) (h : Ledger job d sights inv)
    (hne : Sight.charges sights ≠ [])
    (hcount : (Charge.nodes (Sight.charges sights)).length = (Sight.charges sights).length) :
    Keeps job d (.ended w.now (.attempted id asking ended) :: sights)
      (inv.attempted w id asking ended.result) := by
  rcases hresult : ended.result with e | value
  · have hl := ledger_failed w.now id asking h hresult
    have hcharges := charges_failed w.now id asking sights hresult
    have hsettle : Keeps job d (.ended w.now (.attempted id asking ended) :: sights) (inv.settle w e) := by
      refine settle_keeps hl ?_ fun _ => .attempt hresult ?_
      · rw [hcharges, Charge.nodes_fail, Charge.length_fail]
        exact hcount
      · rw [hcharges, Charge.lastFailure?_fail e hne]
    have hclosed := closed_failed w.now id asking h hne hcount hresult
    unfold attempted
    dsimp only
    split_ifs
    · exact hsettle
    · unfold retry
      split
      · exact next_keeps (w := { w with topology := (w.topology.move _ _).2 }) hmax
          (closed_failures (hclosed (.inr rfl)) 0) none
      · exact next_keeps hmax (closed_failures (hclosed (.inr rfl)) 0) _
      · split_ifs with hconn
        · exact recover_keeps hmax (hclosed (.inl hconn)) _
        · exact hsettle
  · intro before
    refine ⟨?_, trivial⟩
    show Sight.starts (.ended w.now (.attempted id asking ended) :: sights) ≤ _
    rw [Sight.starts_ended]
    exact h.starts_le

end

end Invocation
/-! ### Turns and courses -/

/-- Nothing is charged for the rest. -/
theorem Closed.see {s : Sight α} (h : Closed job d sights now inv)
    (hcharges : Sight.charges (s :: sights) = Sight.charges sights)
    (hstarts : Sight.starts (s :: sights) = Sight.starts sights) : Closed job d (s :: sights) now inv := by
  obtain ⟨⟨hpolicy, hslot, hdeadline, hmax, hleft, hnode, hbound⟩, hfailure, hcharged, hretriable, hcount⟩ := h
  rw [← hcharges] at hleft hnode hbound hfailure hcharged hcount
  rw [← hstarts] at hbound
  exact ⟨⟨hpolicy, hslot, hdeadline, hmax, hleft, hnode, hbound⟩, hfailure, hcharged, hretriable, hcount⟩

variable [Network N]

/-- A body that has been started is not started again in the same attempt. -/
theorem Attempt.hasStarted_turn {body : Body α} {started : Nat} {a a' : Attempt} {w' : World N}
    (h : a.turn w body started = (w', .running a')) (ha : a.hasStarted = true) : a'.hasStarted = true := by
  have hproceed : ∀ {w : World N} {id link heard}, proceed w body started id link heard = (w', .running a') →
      a'.hasStarted = true := by
    intro w id link heard h
    unfold proceed at h
    split at h
    · obtain rfl := Turn.running.inj (Prod.mk.inj h).2
      rfl
    · obtain rfl := Turn.running.inj (Prod.mk.inj h).2
      rfl
    · cases (Prod.mk.inj h).2
  cases a with
  | borrowing | announcing => cases ha
  | running id heard p =>
    simp only [turn] at h
    rcases hp : p.turn w with ⟨v, _ | p' | ⟨link, answer⟩⟩ <;> rw [hp] at h
    · cases (Prod.mk.inj h).2
    · obtain rfl := Turn.running.inj (Prod.mk.inj h).2
      rfl
    · exact hproceed h
  | resting id heard link wake =>
    simp only [turn] at h
    split_ifs at h
    · exact hproceed h
    · cases (Prod.mk.inj h).2

namespace Invocation

theorem charges_start (now : Nat) (sights : List (Sight α)) (b : Bool) :
    Sight.charges ((if b then [.bodyStarted now] else []) ++ sights) = Sight.charges sights := by
  cases b <;> rfl

/-- There is room for a start of the body in an attempt that has seen none. -/
theorem ledger_start {b : Bool} (h : Ledger job d sights inv)
    (hroom : b = true → Sight.starts sights + 1 ≤ (Charge.nodes (Sight.charges sights)).length) :
    Ledger job d ((if b then [.bodyStarted now] else []) ++ sights) inv := by
  cases b with
  | false => exact h
  | true => exact ⟨h.policy, h.slot, h.deadline, h.max, h.left, h.node, hroom rfl⟩

theorem ledger_noteStart (h : Ledger job d sights inv) (b : Bool) :
    Ledger job d sights (inv.noteStart b) := by
  cases b with
  | false => exact h
  | true => exact ⟨h.policy, h.slot, h.deadline, h.max, h.left, h.node, h.starts⟩

theorem attempting_accounts (hmax : job.policy.maxAttempts.toNat ≠ 0) {id : PoolId} {asking : Bool}
    {a : Attempt} (h : (Progress.busy inv (.attempting id asking a)).Accounts job d sights w.now) :
    ((Progress.busy inv (.attempting id asking a)).ofStep (inv.turn w (.attempting id asking a)).2).Accounts job d
      (Sight.ofTurn w inv (.attempting id asking a) ++ sights) (inv.turn w (.attempting id asking a)).1.now := by
  obtain ⟨hl, hne, hcount, hstarts⟩ := h
  have hroom : ∀ b : Bool, (b && !a.hasStarted) = true →
      Sight.starts sights + 1 ≤ (Charge.nodes (Sight.charges sights)).length := by
    intro b hb
    have hno : a.hasStarted = false := by simpa using (Bool.and_eq_true_iff.1 hb).2
    rw [hno] at hstarts
    rw [hcount]
    exact hstarts
  unfold turn Sight.ofTurn
  simp only [stageTurn]
  rcases ha : attemptUntil inv.budget.deadline w inv.body inv.started a with ⟨v, _ | a' | ended⟩
  · exact ⟨hl, hne, hcount, hstarts⟩
  · have hrun : a.turn w inv.body inv.started = (v, .running a') := by
      unfold attemptUntil at ha
      rcases ht : a.turn w inv.body inv.started with ⟨u, _ | a'' | result⟩ <;> rw [ht] at ha
      · dsimp only at ha
        split_ifs at ha <;> cases (Prod.mk.inj ha).2
      · exact ha
      · cases (Prod.mk.inj ha).2
    refine ⟨ledger_start hl (hroom _), ?_, ?_, ?_⟩
    · rwa [charges_start v.now]
    · rw [charges_start v.now]
      exact hcount
    · rw [charges_start v.now]
      show Sight.starts ((if a'.hasStarted && !a.hasStarted then [.bodyStarted v.now] else []) ++ sights) + _ ≤ _
      cases hb : a.hasStarted with
      | true =>
        rw [hb] at hstarts
        simpa [Attempt.hasStarted_turn hrun hb] using hstarts
      | false =>
        rw [hb] at hstarts
        cases ha' : a'.hasStarted <;> simpa [Sight.starts] using hstarts
  · dsimp only [Outcome.hasStarted]
    rw [List.append_assoc, List.cons_append]
    have hb := charges_start v.now sights (ended.started && !a.hasStarted)
    refine attempted_keeps hmax (ledger_noteStart (ledger_start hl (hroom _)) _) ?_ ?_ _
    · exact hb ▸ hne
    · rw [hb]
      exact hcount

theorem searching_accounts (hmax : job.policy.maxAttempts.toNat ≠ 0) {r : Refresh}
    (h : (Progress.busy inv (.resolving r)).Accounts job d sights w.now) :
    ((Progress.busy inv (.resolving r)).ofStep (inv.turn w (.resolving r)).2).Accounts job d
      (Sight.ofTurn w inv (.resolving r) ++ sights) (inv.turn w (.resolving r)).1.now := by
  obtain ⟨hclosed, hleft, hcount⟩ := h
  have hnow := now_refreshUntil inv.budget.deadline w r
  unfold turn Sight.ofTurn
  simp only [stageTurn]
  rcases hr : refreshUntil inv.budget.deadline w r with ⟨v, _ | r' | result⟩ <;> rw [hr] at hnow
  · exact ⟨hnow ▸ hclosed, hleft, hcount⟩
  · exact ⟨hnow ▸ hclosed, hleft, hcount⟩
  · dsimp only
    rw [List.append_assoc]
    refine resolved_keeps hmax (hnow ▸ hclosed) hleft hcount (fun e he => ?_) _
    rw [← hclosed.deadline]
    exact Refresh.refreshUntil_cases (he ▸ hr)

theorem refreshing_accounts (hmax : job.policy.maxAttempts.toNat ≠ 0) {r : Refresh}
    (h : (Progress.busy inv (.refreshing r)).Accounts job d sights w.now) :
    ((Progress.busy inv (.refreshing r)).ofStep (inv.turn w (.refreshing r)).2).Accounts job d
      (Sight.ofTurn w inv (.refreshing r) ++ sights) (inv.turn w (.refreshing r)).1.now := by
  have hnow := now_refreshUntil inv.budget.deadline w r
  unfold turn Sight.ofTurn
  simp only [stageTurn]
  rcases hr : refreshUntil inv.budget.deadline w r with ⟨v, _ | r' | result⟩ <;> rw [hr] at hnow
  · exact hnow ▸ h
  · exact hnow ▸ h
  · dsimp only
    rw [List.append_assoc]
    exact next_keeps hmax (Closed.see (hnow ▸ h) rfl rfl) none _

theorem pausing_accounts {wake : Nat}
    (h : (Progress.busy inv (.pausing wake)).Accounts job d sights w.now) :
    ((Progress.busy inv (.pausing wake)).ofStep (inv.turn w (.pausing wake)).2).Accounts job d
      (Sight.ofTurn w inv (.pausing wake) ++ sights) (inv.turn w (.pausing wake)).1.now := by
  unfold turn Sight.ofTurn
  simp only [stageTurn]
  by_cases hwake : wake ≤ w.now
  · simp only [if_pos hwake]
    exact Closed.see h rfl rfl
  · simp only [if_neg hwake]
    exact h

/-- A turn keeps the accounts. -/
theorem turn_accounts (hmax : job.policy.maxAttempts.toNat ≠ 0) {stage : Stage}
    (h : (Progress.busy inv stage).Accounts job d sights w.now) :
    ((Progress.busy inv stage).ofStep (inv.turn w stage).2).Accounts job d
      (Sight.ofTurn w inv stage ++ sights) (inv.turn w stage).1.now := by
  cases stage with
  | resolving r => exact searching_accounts hmax h
  | attempting id asking a => exact attempting_accounts hmax h
  | pausing wake => exact pausing_accounts h
  | refreshing r => exact refreshing_accounts hmax h

end Invocation

omit [Network N] in
/-- The first turn begins the accounts. -/
theorem Job.start_keeps (hmax : job.policy.maxAttempts.toNat ≠ 0) :
    Keeps job (job.deadline w.now) [] (job.start w) := by
  refine Invocation.next_keeps hmax
    ⟨⟨rfl, rfl, ?_, rfl, ?_, rfl, Nat.le_refl _⟩, rfl, by simp [Sight.charges], ?_, ?_⟩ none
  · exact job.deadline_fresh w.now
  · simp [Budget.ofPolicy, Budget.fresh, Sight.charges]
  · rintro _ ⟨⟩
  · exact .inl rfl

/-- **The accounts are right at every moment of every course.** -/
theorem Course.accounts {begun : Nat} {p : Progress α} (hmax : job.policy.maxAttempts.toNat ≠ 0)
    (h : Course Later job begun sights w p) : p.Accounts job (job.deadline begun) sights w.now := by
  induction h with
  | @start w w' inv stage now h =>
    have hkeeps := Job.start_keeps (w := w) hmax (.busy inv stage)
    rw [List.append_nil, h, now] at hkeeps
    rw [h]
    exact hkeeps
  | @refused w w' result now h =>
    have hkeeps := Job.start_keeps (w := w) hmax (.over result)
    rw [List.append_nil, h, now] at hkeeps
    exact hkeeps
  | turn h ih => exact Invocation.turn_accounts hmax ih
  | wait h others ih => exact ih.mono others

theorem Course.starts_le {begun : Nat} {p : Progress α} (hmax : job.policy.maxAttempts.toNat ≠ 0)
    (h : Course Later job begun sights w p) : Sight.starts sights ≤ job.policy.maxAttempts.toNat := by
  have haccounts := h.accounts hmax
  rcases p with ⟨inv, r | ⟨id, asking, a⟩ | wake | r⟩ | result
  · exact haccounts.1.starts_le
  · exact haccounts.1.starts_le
  · exact Ledger.starts_le (Closed.toLedger haccounts)
  · exact Ledger.starts_le (Closed.toLedger haccounts)
  · exact haccounts.1

/-- **The numbers in the errors that end an invocation are true.** The body is started at most as
often as the configuration allows. When the attempts are used up, the error says so and gives their
full number; when only the time is up, it says that. The number counts the attempts that were
dispatched, and perhaps one for which the deadline cut off the search for a node, and the node is the
last one to which an attempt was dispatched. If a bound ends the invocation, the source is the error of
the last attempt that was charged, and one after which another attempt may be made. If an error ends it
before, the source is that error: it is what the last attempt came to, or else what a search for a node
came to that was not charged (`EndedBy`). -/
theorem Course.errors_account {config : Config} {begun : Nat} {p : Progress α}
    (hconfig : config.check = .ok ())
    (hpolicy : job.policy = .ofConfig config) (h : Course Later job begun sights w p) :
    Sight.starts sights ≤ config.maxAttempts.toNat ∧
    (∀ attempts slot node source, p = .over (.error (.retriesExhausted attempts slot node source)) →
      attempts = config.maxAttempts.toNat ∧
      Standing job (job.deadline begun) w.now (Sight.charges sights) attempts slot node ∧
      Charge.lastFailure? (Sight.charges sights) = some source ∧ source.isRetriable) ∧
    (∀ attempts slot node source, p = .over (.error (.deadlineExceeded attempts slot node source)) →
      attempts < config.maxAttempts.toNat ∧ job.deadline begun ≤ w.now ∧
      Standing job (job.deadline begun) w.now (Sight.charges sights) attempts slot node ∧
      source = Charge.lastFailure? (Sight.charges sights) ∧ (source = none ↔ attempts = 0)) ∧
    (∀ attempts slot node source, p = .over (.error (.commandFailed attempts slot node source)) →
      Standing job (job.deadline begun) w.now (Sight.charges sights) attempts slot node ∧
      EndedBy job.slot sights source) := by
  have hsome : config.maxAttempts ≠ 0 := ((Config.check_eq_ok_iff config).1 hconfig).2.1
  have hsame : job.policy.maxAttempts = config.maxAttempts := by
    rw [hpolicy]
    exact RetryPolicy.maxAttempts_ofConfig hsome
  have hmax : job.policy.maxAttempts.toNat ≠ 0 := by
    rw [hsame]
    exact fun h0 => hsome (UInt32.toNat_inj.1 h0)
  rw [← hsame]
  have haccounts := h.accounts hmax
  refine ⟨h.starts_le hmax, ?_, ?_, ?_⟩
  · rintro attempts slot node source rfl
    obtain ⟨-, hstanding, hall, hsource⟩ := haccounts
    exact ⟨hall, hstanding, hsource⟩
  · rintro attempts slot node source rfl
    obtain ⟨-, hstanding, hfew, hlate, hsource⟩ := haccounts
    exact ⟨hfew, hlate, hstanding, hsource⟩
  · rintro attempts slot node source rfl
    exact haccounts.2

/-- A network of which every node refuses connections. -/
structure Deaf where
  connections : Nat := 0

namespace Deaf

instance : Network Deaf where
  connect d _ _ := ({ connections := d.connections + 1 }, d.connections)
  opening _ _ _ := .failed .refused
  send d _ _ _ := (d, .pending)
  receive d _ _ := (d, .pending)
  nextEvent? _ _ := none

/-- Two attempts, and then no more. -/
def config : Config := { seeds := ["a:1"], maxAttempts := 2 }

/-- A `PING` for any node. -/
def ping : Job Unit := .ping (.ofConfig config) none

/-- Both attempts have failed. -/
def failed : Moment Deaf Unit := .after 4 (.first ping (.ofNode {}))

set_option maxRecDepth 100000 in
theorem over_failed :
    failed.progress = .over (.error (.retriesExhausted 2 none (some "a:1") (.io .refused))) := by cbv

/-- Two refused connections are two attempts, and the last refusal is the source. -/
theorem errors_account_refused :
    config.check = .ok () ∧ Course Later ping 0 failed.sights failed.world failed.progress ∧
    Sight.starts failed.sights ≤ 2 ∧
    Charge.lastFailure? (Sight.charges failed.sights) = some (.io .refused) := by
  have hfirst : (Moment.first ping (World.ofNode ({} : Deaf))).IsOf Later ping 0 := Course.first rfl
  have hcourse : Course Later ping 0 failed.sights failed.world failed.progress := hfirst.after 4
  have hconfig : config.check = .ok () := rfl
  obtain ⟨hstarts, hspent, -⟩ := Course.errors_account hconfig rfl hcourse
  exact ⟨rfl, hcourse, hstarts, (hspent _ _ _ _ over_failed).2.2.1⟩

end Deaf

/-- A network on which the first connection is refused, and everybody else says that nobody serves any
slot. -/
structure Vacated where
  connections : Nat := 0

namespace Vacated

instance : Network Vacated where
  connect d _ _ := ({ connections := d.connections + 1 }, d.connections)
  opening _ _ handle := if handle = 0 then .failed .refused else .opened
  send d _ _ bs := (d, .taken bs.length)
  receive d _ _ := (d, .octets (.ofText "*0\r\n"))
  nextEvent? _ _ := none

/-- Twenty nanoseconds, and the layout is learned again after the first failure. -/
def config : Config := { seeds := ["a:1"], maxAttempts := 2, retryDuration := some 20, refreshAfter := 1 }

/-- A `PING` on the slot `0`. -/
def ping : Job Unit := .ping (.ofConfig config) (some 0)

/-- The world of a client that knows the node and takes it for the master of the slot `0`. -/
def world : World Vacated :=
  let w := World.ofSeed {}
  { w with topology := (w.topology.move 0 "a:1").2 }

/-- The first attempt has failed. -/
def pausing : Moment Vacated Unit := .after 2 (.first ping world)

/-- A layout without any node has been learned twice, and there is nobody to turn to. -/
def deserted : Moment Vacated Unit := .after 14 (pausing.passTo 10)

set_option maxRecDepth 100000 in
theorem now_pausing : pausing.world.now = 0 := by cbv

set_option maxRecDepth 100000 in
theorem over_deserted : deserted.progress =
    .over (.error (.commandFailed 1 (some 0) (some "a:1") (.clusterDown (.unserved 0)))) := by cbv

set_option maxRecDepth 100000 in
theorem lastFailure_deserted :
    Charge.lastFailure? (Sight.charges deserted.sights) = some (.io .refused) := by cbv

/-- The only attempt that was charged has been refused, but the source is that nobody serves the slot. -/
theorem source_need_not_be_charged :
    config.check = .ok () ∧ ping.policy = .ofConfig config ∧
    ¬∀ (sights : List (Sight Unit)) (w : World Vacated) (attempts : Nat) (slot : Option UInt16) (node : Option String)
      (source : Error),
      Course Later ping 0 sights w (.over (.error (.commandFailed attempts slot node source))) →
      Charge.lastFailure? (Sight.charges sights) = some source := by
  refine ⟨rfl, rfl, fun hcharged => ?_⟩
  have hpausing : pausing.IsOf Later ping 0 := (Course.first (w := world) rfl).after 2
  have hlater : Later pausing.world pausing.progress (pausing.passTo 10).world := by
    show pausing.world.now ≤ 10
    rw [now_pausing]
    exact Nat.zero_le _
  have hcourse : Course Later ping 0 deserted.sights deserted.world deserted.progress :=
    Course.after (m := pausing.passTo 10) (hpausing.wait hlater) 14
  rw [over_deserted] at hcourse
  have hlast := hcharged _ _ _ _ _ _ hcourse
  rw [lastFailure_deserted] at hlast
  cases hlast

end Vacated
end SlotRouter
