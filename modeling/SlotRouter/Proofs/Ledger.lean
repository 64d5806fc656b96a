import SlotRouter.Proofs.Course

/-!
# The ledger of an invocation

An invocation is charged for every attempt that it dispatches to a node, and for a search for a node
that was cut off by the deadline. The charges are read off from what can be seen of the invocation
(`Sight.charges`), and the budget, the last node and the last error that the invocation keeps agree
with them (`Ledger`). So the numbers in the errors that end an invocation are those of the charges
(`Standing`). An error that ends an invocation before its bounds do has its source from what was seen
last (`EndedBy`).

Key definitions: `Charge`, `Sight.charges`, `Ledger`, `Closed`, `Standing`, `EndedBy`, `Progress.Accounts`.
-/

namespace SlotRouter

variable {N α : Type}

/-- An attempt that counts: its node, none if no node was found in time, and its error once it has
failed. -/
structure Charge where
  node : Option String
  failure : Option Error := none

namespace Charge

/-- The nodes to which attempts were dispatched. -/
def nodes (charges : List Charge) : List String := charges.filterMap node

/-- The error of the last attempt that counts. -/
def lastFailure? (charges : List Charge) : Option Error := charges.head?.bind failure

/-- The last attempt that counts has failed. -/
def fail (e : Error) : List Charge → List Charge
  | [] => []
  | c :: charges => { c with failure := some e } :: charges

@[simp] theorem length_fail (e : Error) (charges : List Charge) :
    (fail e charges).length = charges.length := by
  cases charges <;> rfl

@[simp] theorem nodes_fail (e : Error) (charges : List Charge) :
    nodes (fail e charges) = nodes charges := by
  cases charges <;> rfl

theorem lastFailure?_fail (e : Error) {charges : List Charge} (h : charges ≠ []) :
    lastFailure? (fail e charges) = some e := by
  cases charges with
  | nil => exact absurd rfl h
  | cons c charges => rfl

end Charge

namespace Sight

/-- The attempts that count, the latest in front. -/
def charges : List (Sight α) → List Charge
  | [] => []
  | .dispatched _ node :: past => { node := some node } :: charges past
  | .ended _ (.attempted _ _ ⟨_, .error e⟩) :: past => Charge.fail e (charges past)
  | .ended _ (.resolved (.error e)) :: past =>
    if e.isConnectionError then { node := none, failure := some e } :: charges past else charges past
  | _ :: past => charges past

/-- How often the body was started. -/
def starts : List (Sight α) → Nat
  | [] => 0
  | .bodyStarted _ :: past => starts past + 1
  | _ :: past => starts past

@[simp] theorem starts_ended (now : Nat) (outcome : Invocation.Outcome α) (past : List (Sight α)) :
    starts (.ended now outcome :: past) = starts past := by
  simp [starts]

end Sight

theorem Budget.toNat_made {b : Budget} {n : Nat} (h : b.left.toNat + n = b.maxAttempts.toNat) :
    b.made.toNat = n := by
  have hle : b.left ≤ b.maxAttempts := UInt32.le_iff_toNat_le.2 (by omega)
  unfold made
  rw [UInt32.toNat_sub_of_le _ _ hle]
  omega

/-- The bound of a policy is the one of the configuration, if that allows an attempt at all. -/
theorem RetryPolicy.maxAttempts_ofConfig {config : Config} (h : config.maxAttempts ≠ 0) :
    (ofConfig config).maxAttempts = config.maxAttempts := by
  show (if config.maxAttempts ≤ 1 then 1 else config.maxAttempts) = config.maxAttempts
  split
  · rename_i hle
    have hne : config.maxAttempts.toNat ≠ 0 := fun h0 => h (UInt32.toNat_inj.1 h0)
    have hone : config.maxAttempts.toNat ≤ 1 := UInt32.le_iff_toNat_le.1 hle
    exact UInt32.toNat_inj.1 (show 1 = config.maxAttempts.toNat by omega)
  · rfl

/-- An error after which another attempt may be made. -/
def Error.isRetriable (e : Error) : Prop := e.isConnectionError = true ∨ e.isRedirect = true

/-- The last charge is for a search for a node that the deadline cut off, and the deadline has
passed. -/
def CutOff (d now : Nat) (charges : List Charge) : Prop :=
  d ≤ now ∧ (Charge.nodes charges).length + 1 = charges.length ∧
    charges.head? = some { node := none, failure := some (.timeout .topology) }

/-- What an invocation keeps agrees with what has been seen of it; `d` is its deadline. -/
structure Ledger (job : Job α) (d : Nat) (sights : List (Sight α)) (inv : Invocation α) : Prop where
  policy : inv.policy = job.policy
  slot : inv.slot = job.slot
  deadline : inv.budget.deadline = d
  max : inv.budget.maxAttempts = job.policy.maxAttempts
  left : inv.budget.left.toNat + (Sight.charges sights).length = job.policy.maxAttempts.toNat
  node : inv.lastNode = (Charge.nodes (Sight.charges sights)).head?
  starts : Sight.starts sights ≤ (Charge.nodes (Sight.charges sights)).length

/-- The ledger between two attempts. -/
structure Closed (job : Job α) (d : Nat) (sights : List (Sight α)) (now : Nat)
    (inv : Invocation α) : Prop
    extends Ledger job d sights inv where
  failure : inv.lastError = Charge.lastFailure? (Sight.charges sights)
  charged : inv.lastError = none ↔ Sight.charges sights = []
  retriable : ∀ e, inv.lastError = some e → e.isRetriable
  count : (Charge.nodes (Sight.charges sights)).length = (Sight.charges sights).length ∨
    CutOff d now (Sight.charges sights)

/-- What the numbers in an error that ends an invocation stand for. -/
structure Standing (job : Job α) (d now : Nat) (charges : List Charge) (attempts : Nat)
    (slot : Option UInt16) (node : Option String) : Prop where
  charged : attempts = charges.length
  bounded : attempts ≤ job.policy.maxAttempts.toNat
  /-- The attempts that were dispatched count, and at most one that was not. -/
  dispatched : (Charge.nodes charges).length ≤ attempts ∧ attempts ≤ (Charge.nodes charges).length + 1
  undispatched : attempts = (Charge.nodes charges).length + 1 → CutOff d now charges
  slot : slot = job.slot
  node : node = (Charge.nodes charges).head?

/-- The error that ends an invocation before its bounds do, by what was seen of it last; `slot` is the slot of
its keys. It is what the last attempt came to that was charged, or else what has come of a search for a node, and
that search is not charged. -/
inductive EndedBy (slot : Option UInt16) : List (Sight α) → Error → Prop where
  | attempt {now : Nat} {id : PoolId} {asking : Bool} {ended : Attempt.Ended α} {past : List (Sight α)} {e : Error}
      (failed : ended.result = .error e)
      (last : Charge.lastFailure? (Sight.charges (.ended now (.attempted id asking ended) :: past)) = some e) :
      EndedBy slot (.ended now (.attempted id asking ended) :: past) e
  /-- A layout has been learned, and nobody serves the slot. -/
  | unserved {now : Nat} {own : UInt16} {past : List (Sight α)} (keyed : slot = some own) :
      EndedBy slot (.ended now (.resolved (.ok ())) :: past) (.clusterDown (.unserved own))
  /-- A layout has been learned, and there is nobody in it. -/
  | deserted {now : Nat} {past : List (Sight α)} (unkeyed : slot = none) :
      EndedBy slot (.ended now (.resolved (.ok ())) :: past) .noReachableNode
  /-- Nobody could be asked for a layout. -/
  | unreachable {now : Nat} {past : List (Sight α)} :
      EndedBy slot (.ended now (.resolved (.error .noReachableNode)) :: past) .noReachableNode

/-- What an invocation may end with. -/
def Accounted (job : Job α) (d : Nat) (sights : List (Sight α)) (now : Nat) : Except Error α → Prop
  | .error (.retriesExhausted attempts slot node source) =>
    Standing job d now (Sight.charges sights) attempts slot node ∧ attempts = job.policy.maxAttempts.toNat ∧
      Charge.lastFailure? (Sight.charges sights) = some source ∧ source.isRetriable
  | .error (.deadlineExceeded attempts slot node source) =>
    Standing job d now (Sight.charges sights) attempts slot node ∧ attempts < job.policy.maxAttempts.toNat ∧ d ≤ now ∧
      source = Charge.lastFailure? (Sight.charges sights) ∧ (source = none ↔ attempts = 0)
  | .error (.commandFailed attempts slot node source) =>
    Standing job d now (Sight.charges sights) attempts slot node ∧ EndedBy job.slot sights source
  | .error e => e = .clientClosed
  | .ok _ => True

/-- The accounts of an invocation at a moment. -/
def Progress.Accounts (job : Job α) (d : Nat) (sights : List (Sight α)) (now : Nat) :
    Progress α → Prop
  | .busy inv (.resolving _) => Closed job d sights now inv ∧ inv.budget.left ≠ 0 ∧
      (Charge.nodes (Sight.charges sights)).length = (Sight.charges sights).length
  | .busy inv (.attempting _ _ a) => Ledger job d sights inv ∧ Sight.charges sights ≠ [] ∧
      (Charge.nodes (Sight.charges sights)).length = (Sight.charges sights).length ∧
      Sight.starts sights + (if a.hasStarted then 0 else 1) ≤ (Sight.charges sights).length
  | .busy inv (.pausing _) | .busy inv (.refreshing _) => Closed job d sights now inv
  | .over result => Sight.starts sights ≤ job.policy.maxAttempts.toNat ∧ Accounted job d sights now result

variable {job : Job α} {d now : Nat} {sights : List (Sight α)} {inv : Invocation α} {w : World N}

theorem Ledger.standing (h : Ledger job d sights inv)
    (hcount : (Charge.nodes (Sight.charges sights)).length = (Sight.charges sights).length ∨
      CutOff d now (Sight.charges sights)) :
    Standing job d now (Sight.charges sights) inv.attempts inv.slot inv.lastNode := by
  have hmade : inv.attempts = (Sight.charges sights).length := by
    refine Budget.toNat_made ?_
    rw [h.max]
    exact h.left
  have hleft := h.left
  refine ⟨hmade, by omega, ?_, fun hone => ?_, h.slot, h.node⟩
  · rcases hcount with hsame | ⟨-, hone, -⟩ <;> omega
  · rcases hcount with hsame | hcut
    · omega
    · exact hcut

theorem Ledger.starts_le (h : Ledger job d sights inv) :
    Sight.starts sights ≤ job.policy.maxAttempts.toNat := by
  have hstarts := h.starts
  have hnodes : (Charge.nodes (Sight.charges sights)).length ≤ (Sight.charges sights).length :=
    List.length_filterMap_le ..
  have hleft := h.left
  omega

/-! ### Time passes -/

theorem CutOff.mono {charges : List Charge} {now' : Nat} (h : CutOff d now charges)
    (hnow : now ≤ now') :
    CutOff d now' charges := ⟨Nat.le_trans h.1 hnow, h.2⟩

theorem Closed.mono {now' : Nat} (h : Closed job d sights now inv) (hnow : now ≤ now') :
    Closed job d sights now' inv :=
  ⟨h.toLedger, h.failure, h.charged, h.retriable, h.count.imp_right fun hcut => hcut.mono hnow⟩

theorem Standing.mono {charges : List Charge} {attempts now' : Nat} {slot : Option UInt16}
    {node : Option String} (h : Standing job d now charges attempts slot node) (hnow : now ≤ now') :
    Standing job d now' charges attempts slot node :=
  ⟨h.charged, h.bounded, h.dispatched, fun hone => (h.undispatched hone).mono hnow, h.slot, h.node⟩

theorem Accounted.mono {now' : Nat} {result : Except Error α}
    (h : Accounted job d sights now result)
    (hnow : now ≤ now') : Accounted job d sights now' result := by
  rcases result with e | value
  · cases e with
    | retriesExhausted => exact ⟨h.1.mono hnow, h.2⟩
    | deadlineExceeded => exact ⟨h.1.mono hnow, h.2.1, Nat.le_trans h.2.2.1 hnow, h.2.2.2⟩
    | commandFailed => exact ⟨h.1.mono hnow, h.2⟩
    | _ => exact h
  · trivial

/-- Accounts stay true while time passes. -/
theorem Progress.Accounts.mono {p : Progress α} {now' : Nat} (h : p.Accounts job d sights now)
    (hnow : now ≤ now') :
    p.Accounts job d sights now' := by
  rcases p with ⟨inv, r | ⟨id, asking, a⟩ | wake | r⟩ | result
  · exact ⟨h.1.mono hnow, h.2⟩
  · exact h
  · exact Closed.mono h hnow
  · exact Closed.mono h hnow
  · exact ⟨h.1, h.2.mono hnow⟩

end SlotRouter
