import Mathlib
import SlotRouter.Proofs.Accounting
import SlotRouter.Proofs.Lending
import SlotRouter.Proofs.OwnReplies

/-!
# When a command is sent again

A command may do harm if it is sent twice, so an attempt is followed by another one only if it has
failed in one of a few ways (`Error.Retried`): a connection error always, a redirect if the
invocation has a slot. An attempt follows an `ASK` exactly when it is an asking one, and an asking one
is followed by none. An attempt that is not to be followed settles the invocation, in the very turn in
which it ends.

The attempts are read off from what can be seen of the invocation (`Progress.tries`), and each step
keeps them in order (`Progress.Tried`).

Key definitions: `Error.Retried`, `Try.Follows`, `Try.Settles`, `Progress.tries`. Key theorems:
`Course.tried`, `Course.only_retried_are_rerun`.
-/

namespace SlotRouter

variable {N α : Type}

/-- An error after which the command is sent again: a connection error, and a redirect if there is a
slot. -/
inductive Error.Retried (slot : Option UInt16) : Error → Prop where
  | io (failure : IoError) : Retried slot (.io failure)
  | timeout (wait : Wait) : Retried slot (.timeout wait)
  | poolExhausted (address : String) (waited : Nat) : Retried slot (.poolExhausted address waited)
  | moved (keyed : slot.isSome = true) (moved : UInt16) (address : String) :
      Retried slot (.moved moved address)
  | ask (keyed : slot.isSome = true) (asked : UInt16) (address : String) : Retried slot (.ask asked address)

namespace Error

/-- Whether a node asks for one attempt elsewhere. -/
def isAsk : Error → Bool
  | .ask .. => true
  | _ => false

variable {slot : Option UInt16} {e : Error}

theorem retried_of_isConnectionError (h : e.isConnectionError = true) : e.Retried slot := by
  cases e with
  | io failure => exact .io failure
  | timeout wait => exact .timeout wait
  | poolExhausted address waited => exact .poolExhausted address waited
  | _ => cases h

theorem Retried.not_isAsk (h : e.Retried none) : e.isAsk = false := by
  cases h with
  | ask keyed => cases keyed
  | _ => rfl

end Error

/-- An attempt, and what it has come to if it has ended. -/
structure Try (α : Type) where
  asking : Bool
  result? : Option (Except Error α) := none

namespace Try

variable {slot : Option UInt16} {t : Try α} {tries : List (Try α)} {asking : Bool}
    {result : Except Error α} {e : Error}

/-- An attempt may follow another one. -/
structure Follows (slot : Option UInt16) (later earlier : Try α) : Prop where
  plain : earlier.asking = false
  cause : ∃ e, earlier.result? = some (.error e) ∧ e.Retried slot ∧ later.asking = e.isAsk

/-- An attempt has ended and is not to be followed by another one. -/
structure Settles (slot : Option UInt16) (t : Try α) (result : Except Error α) : Prop where
  ended : t.result? = some result
  final : t.asking = true ∨ ∀ e, result = .error e → ¬e.Retried slot

/-- What an invocation comes to that an attempt settles, its last one. -/
def settlement (attempts : Nat) (slot : Option UInt16) (node : Option String) :
    Except Error α → Except Error α
  | .ok value => .ok value
  | .error .clientClosed => .error .clientClosed
  | .error e => .error (.commandFailed attempts slot node e)

/-- The attempts of an invocation, the latest in front. -/
structure InOrder (slot : Option UInt16) (tries : List (Try α)) : Prop where
  chain : tries.IsChain (Follows slot)
  first : ∀ t, tries.getLast? = some t → t.asking = false

namespace InOrder

theorem tail (h : InOrder slot (t :: tries)) : InOrder slot tries := by
  refine ⟨h.chain.tail, fun t' ht' => h.first t' ?_⟩
  rw [List.getLast?_cons, ht', Option.getD_some]

/-- An attempt comes to an end. -/
theorem finish (h : InOrder slot ({ asking } :: tries)) (result : Except Error α) :
    InOrder slot (⟨asking, some result⟩ :: tries) := by
  cases tries with
  | nil =>
    refine ⟨.singleton _, ?_⟩
    rintro _ ⟨⟩
    exact h.first { asking } rfl
  | cons earlier tries =>
    obtain ⟨⟨hplain, e, hended, hretried, hasking⟩, hchain⟩ := List.isChain_cons_cons.1 h.chain
    refine ⟨List.isChain_cons_cons.2 ⟨⟨hplain, e, hended, hretried, hasking⟩, hchain⟩,
      fun t ht => h.first t ?_⟩
    rwa [List.getLast?_cons_cons] at ht ⊢

/-- Another attempt is made. -/
theorem again (h : InOrder slot (⟨false, some (.error e)⟩ :: tries)) (he : e.Retried slot) :
    InOrder slot ({ asking := e.isAsk } :: ⟨false, some (.error e)⟩ :: tries) := by
  refine ⟨List.isChain_cons_cons.2 ⟨⟨rfl, e, rfl, he, rfl⟩, h.chain⟩, fun t ht => h.first t ?_⟩
  rwa [List.getLast?_cons_cons] at ht

/-- What is followed by another attempt has settled nothing. -/
theorem not_settles (h : InOrder slot (t :: tries)) {earlier : Try α}
    (hhead : tries.head? = some earlier) : ¬earlier.Settles slot result := by
  obtain ⟨rest, rfl⟩ := List.head?_eq_some_iff.1 hhead
  obtain ⟨⟨hplain, e, hended, hretried, -⟩, -⟩ := List.isChain_cons_cons.1 h.chain
  rintro ⟨hresult, hasking | hfinal⟩
  · rw [hplain] at hasking
    cases hasking
  · rw [hended] at hresult
    exact hfinal e (Option.some.inj hresult).symm hretried

/-- Without a slot no attempt asks. -/
theorem plain (h : InOrder none (t :: tries)) : t.asking = false := by
  cases tries with
  | nil => exact h.first t rfl
  | cons earlier tries =>
    obtain ⟨⟨-, e, -, hretried, hasking⟩, -⟩ := List.isChain_cons_cons.1 h.chain
    exact hasking.trans hretried.not_isAsk

end InOrder

end Try

/-! ### The attempts that were seen -/

/-- The attempts that have ended, the latest in front. -/
def Sight.finished : List (Sight α) → List (Try α)
  | [] => []
  | .ended _ (.attempted _ asking ⟨_, result⟩) :: past => ⟨asking, some result⟩ :: finished past
  | _ :: past => finished past

/-- The attempts that have been made, the latest in front, which may be under way. -/
def Progress.tries (sights : List (Sight α)) : Progress α → List (Try α)
  | .busy _ (.attempting _ asking _) => { asking } :: Sight.finished sights
  | _ => Sight.finished sights

/-- The nodes at which attempts were made, the latest in front. -/
def Sight.nodes (sights : List (Sight α)) : List String := Charge.nodes (Sight.charges sights)

/-- An invocation is between two attempts, and the next one is an asking one or is not. -/
structure Pending (slot : Option UInt16) (sights : List (Sight α)) (inv : Invocation α) (asking : Bool) :
    Prop where
  routed : inv.slot = slot
  nodes : (Sight.nodes sights).length = (Sight.finished sights).length
  order : Try.InOrder slot ({ asking } :: Sight.finished sights)

/-- The attempts that have been made agree with how far the invocation has come. -/
def Progress.Tried (slot : Option UInt16) (sights : List (Sight α)) : Progress α → Prop
  | .busy inv (.attempting _ asking _) => inv.slot = slot ∧
      (Sight.nodes sights).length = (Sight.finished sights).length + 1 ∧
      Try.InOrder slot ({ asking } :: Sight.finished sights)
  | .busy inv _ => Pending slot sights inv false
  | .over result => (Sight.nodes sights).length = (Sight.finished sights).length ∧
      Try.InOrder slot (Sight.finished sights) ∧
      ∀ t r, (Sight.finished sights).head? = some t → t.Settles slot r →
        result = Try.settlement (Sight.finished sights).length slot (Sight.nodes sights).head? r

variable {slot : Option UInt16} {sights : List (Sight α)} {inv : Invocation α} {w : World N}
    {asking : Bool}

namespace Progress.Tried

variable {p : Progress α}

theorem inOrder (h : p.Tried slot sights) : Try.InOrder slot (p.tries sights) := by
  rcases p with ⟨inv, r | ⟨id, asking, a⟩ | wake | r⟩ | result
  · exact (Pending.order h).tail
  · exact h.2.2
  · exact (Pending.order h).tail
  · exact (Pending.order h).tail
  · exact h.2.1

theorem length_nodes (h : p.Tried slot sights) :
    (Sight.nodes sights).length = (p.tries sights).length := by
  rcases p with ⟨inv, r | ⟨id, asking, a⟩ | wake | r⟩ | result
  · exact Pending.nodes h
  · exact h.2.1
  · exact Pending.nodes h
  · exact Pending.nodes h
  · exact h.1

/-- An invocation that an attempt has settled is over. -/
theorem over_of_settles (h : p.Tried slot sights) {t : Try α} {result : Except Error α}
    (hhead : (p.tries sights).head? = some t) (hsettles : t.Settles slot result) :
    p = .over (Try.settlement (p.tries sights).length slot (Sight.nodes sights).head? result) := by
  rcases p with ⟨inv, r | ⟨id, asking, a⟩ | wake | r⟩ | r
  · exact absurd hsettles ((Pending.order h).not_settles hhead)
  · obtain rfl := Option.some.inj hhead
    cases hsettles.ended
  · exact absurd hsettles ((Pending.order h).not_settles hhead)
  · exact absurd hsettles ((Pending.order h).not_settles hhead)
  · exact congrArg _ (h.2.2 t result hhead hsettles)

end Progress.Tried

/-- What the attempts were is kept in a step that ends or begins something. -/
def KeepsTries (slot : Option UInt16) (sights : List (Sight α)) (r : World N × Invocation.Step α) : Prop :=
  ∀ before : Progress α, (before.ofStep r.2).Tried slot (Sight.ofStep r ++ sights)

namespace Sight

theorem nodes_attempted (sights : List (Sight α)) (now : Nat) (id : PoolId) (asking : Bool) (ended : Attempt.Ended α) :
    nodes (.ended now (.attempted id asking ended) :: sights) = nodes sights := by
  obtain ⟨started, e | value⟩ := ended
  · exact Charge.nodes_fail e _
  · rfl

theorem nodes_resolved (sights : List (Sight α)) (now : Nat) (result : Except Error Unit) :
    nodes (.ended now (.resolved result) :: sights) = nodes sights := by
  rcases result with e | ⟨⟩
  · simp only [nodes, charges]
    split_ifs <;> rfl
  · rfl

end Sight

/-- An invocation that gives up between two attempts is not settled by an attempt. -/
theorem Pending.over (h : Pending slot sights inv asking) (result : Except Error α) :
    (Progress.over result).Tried slot sights :=
  ⟨h.nodes, h.order.tail, fun _ _ hhead hsettles => absurd hsettles (h.order.not_settles hhead)⟩

/-- What an invocation keeps besides its slot does not matter here. -/
theorem Pending.congr {inv' : Invocation α} (h : Pending slot sights inv asking)
    (hslot : inv'.slot = inv.slot) : Pending slot sights inv' asking :=
  ⟨hslot.trans h.routed, h.nodes, h.order⟩

namespace Invocation

theorem failure_eq_settlement (inv : Invocation α) (e : Error) :
    (.error (inv.failure e) : Except Error α) =
      Try.settlement inv.attempts inv.slot inv.lastNode (.error e) := by
  cases e <;> rfl

/-- **An attempt that is not to be followed settles the invocation at once**, and nothing else is
done. -/
theorem attempted_of_final (id : PoolId) {result : Except Error α}
    (hfinal : asking = true ∨ ∀ e, result = .error e → ¬e.Retried inv.slot) :
    inv.attempted w id asking result =
      (w, .done (Try.settlement inv.attempts inv.slot inv.lastNode result)) := by
  unfold attempted
  rcases result with e | value
  · have hsettle : inv.settle w e =
        (w, .done (Try.settlement inv.attempts inv.slot inv.lastNode (.error e))) := by
      rw [← failure_eq_settlement]
      rfl
    dsimp only
    split_ifs with hasking
    · exact hsettle
    · have hnot := hfinal.resolve_left hasking e rfl
      unfold retry
      split
      · rename_i hslot
        exact absurd (.moved (by rw [hslot]; rfl) _ _) hnot
      · rename_i hslot
        exact absurd (.ask (by rw [hslot]; rfl) _ _) hnot
      · split_ifs with hconn
        · exact absurd (Error.retried_of_isConnectionError hconn) hnot
        · exact hsettle
  · rfl

theorem beginAttempt_tried (h : Pending slot sights inv asking) (id : PoolId) :
    KeepsTries slot sights (inv.beginAttempt w id asking) := by
  intro before
  refine ⟨h.routed, ?_, h.order⟩
  exact congrArg (· + 1) h.nodes

/-- The head of the loop makes an asking attempt exactly if `ASK` has named a node. -/
theorem next_tried (target : Option String) (h : Pending slot sights inv target.isSome) :
    KeepsTries slot sights (inv.next w target) := by
  unfold next
  split_ifs
  · exact fun before => h.over _
  · split
    · exact fun before => h.over _
    · cases target with
      | some address => exact beginAttempt_tried h _
      | none =>
        dsimp only
        rcases choose w inv.slot with ⟨_ | id, w'⟩
        · exact fun before => h
        · exact beginAttempt_tried h id

theorem recover_tried (h : Pending slot sights inv false) (id? : Option PoolId) (e : Error) :
    KeepsTries slot sights (inv.recover w id? e) := by
  unfold recover
  dsimp only
  split_ifs
  · exact next_tried none (h.congr rfl)
  · exact fun before => h.congr rfl

theorem resolved_tried (h : Pending slot sights inv false) (result : Except Error Unit) :
    KeepsTries slot sights (inv.resolved w result) := by
  unfold resolved
  split
  · rcases choose w inv.slot with ⟨_ | id, w'⟩
    · exact fun before => h.over _
    · exact beginAttempt_tried h id
  · split_ifs
    · have hcharged : Pending slot sights { inv with budget := inv.budget.consume } false := h.congr rfl
      exact recover_tried hcharged none _
    · exact fun before => h.over _

/-- Goes on after an attempt that may be followed by another one. -/
theorem retry_tried {e : Error} (he : e.Retried slot) (h : Pending slot sights inv e.isAsk) (id : PoolId) :
    KeepsTries slot sights (inv.retry w id e) := by
  cases he with
  | moved keyed moved address =>
    obtain ⟨own, hown⟩ := Option.isSome_iff_exists.1 keyed
    rw [retry_moved (h.routed.trans hown)]
    exact next_tried none (h.congr rfl)
  | ask keyed asked address =>
    obtain ⟨own, hown⟩ := Option.isSome_iff_exists.1 keyed
    rw [retry_ask (h.routed.trans hown)]
    exact next_tried (some address) (h.congr rfl)
  | io | timeout | poolExhausted =>
    rw [retry_of_isConnectionError rfl]
    exact recover_tried h _ _

/-- Goes on after an attempt; the numbers of the invocation are those of the attempts. -/
theorem attempted_tried (id : PoolId) (ended : Attempt.Ended α) (hslot : inv.slot = slot)
    (hnodes : (Sight.nodes sights).length = (Sight.finished sights).length + 1)
    (horder : Try.InOrder slot ({ asking } :: Sight.finished sights))
    (hattempts : inv.attempts = (Sight.finished sights).length + 1)
    (hnode : inv.lastNode = (Sight.nodes sights).head?) :
    KeepsTries slot (.ended w.now (.attempted id asking ended) :: sights)
      (inv.attempted w id asking ended.result) := by
  have hended := horder.finish ended.result
  have hsame := Sight.nodes_attempted sights w.now id asking ended
  by_cases hfinal : asking = true ∨ ∀ e, ended.result = .error e → ¬e.Retried inv.slot
  · rw [attempted_of_final id hfinal]
    intro before
    refine ⟨by rw [Sight.ofStep, List.nil_append, hsame]; exact hnodes, hended, ?_⟩
    rintro _ result ⟨⟩ ⟨hresult, -⟩
    obtain rfl := Option.some.inj hresult
    show _ = Try.settlement ((Sight.finished sights).length + 1) slot _ _
    rw [Sight.ofStep, List.nil_append, hsame, hattempts, hslot, hnode]
  · simp only [not_or, not_forall, not_not] at hfinal
    obtain ⟨hplain, e, hresult, hretried⟩ := hfinal
    obtain rfl := Bool.eq_false_iff.2 hplain
    rw [hslot] at hretried
    unfold attempted
    rw [hresult] at hended ⊢
    refine retry_tried hretried ⟨hslot, ?_, ?_⟩ id
    · rw [hsame]
      exact hnodes
    · obtain ⟨started, result⟩ := ended
      obtain rfl : result = .error e := hresult
      exact hended.again hretried

end Invocation

/-! ### Turns and courses -/

section

variable [Network N] {job : Job α} {d : Nat}

theorem Sight.nodes_start (now : Nat) (b : Bool) :
    nodes ((if b then [.bodyStarted now] else []) ++ sights) = nodes sights :=
  congrArg Charge.nodes (Invocation.charges_start now sights b)

theorem Sight.finished_start (now : Nat) (b : Bool) :
    finished ((if b then [.bodyStarted now] else []) ++ sights) = finished sights := by
  cases b <;> rfl

namespace Invocation

theorem attempting_tried {id : PoolId} {a : Attempt}
    (haccounts : (Progress.busy inv (.attempting id asking a)).Accounts job d sights w.now)
    (h : (Progress.busy inv (.attempting id asking a)).Tried job.slot sights) :
    ((Progress.busy inv (.attempting id asking a)).ofStep
      (inv.turn w (.attempting id asking a)).2).Tried job.slot
      (Sight.ofTurn w inv (.attempting id asking a) ++ sights) := by
  obtain ⟨hslot, hnodes, horder⟩ := h
  obtain ⟨hledger, -, hcount, -⟩ := haccounts
  have hstanding : Standing job d w.now (Sight.charges sights) inv.attempts inv.slot inv.lastNode :=
    hledger.standing (.inl hcount)
  have hattempts : inv.attempts = (Sight.finished sights).length + 1 :=
    hstanding.charged.trans (hcount.symm.trans hnodes)
  have hnode : inv.lastNode = (Sight.nodes sights).head? := hledger.node
  unfold turn Sight.ofTurn
  simp only [stageTurn]
  rcases attemptUntil inv.budget.deadline w inv.body inv.started a with ⟨v, _ | a' | ended⟩
  · exact ⟨hslot, hnodes, horder⟩
  · refine ⟨hslot, ?_, ?_⟩
    · rw [Sight.nodes_start, Sight.finished_start]
      exact hnodes
    · rw [Sight.finished_start]
      exact horder
  · dsimp only
    rw [List.append_assoc, List.cons_append]
    refine attempted_tried id ended (by simpa using hslot) ?_ ?_ ?_ ?_ _
    · rw [Sight.nodes_start, Sight.finished_start]
      exact hnodes
    · rw [Sight.finished_start]
      exact horder
    · rw [Sight.finished_start, attempts_noteStart]
      exact hattempts
    · rw [Sight.nodes_start, lastNode_noteStart]
      exact hnode

/-- A turn keeps the attempts in order. -/
theorem turn_tried {stage : Stage} (haccounts : (Progress.busy inv stage).Accounts job d sights w.now)
    (h : (Progress.busy inv stage).Tried job.slot sights) :
    ((Progress.busy inv stage).ofStep (inv.turn w stage).2).Tried job.slot
      (Sight.ofTurn w inv stage ++ sights) := by
  cases stage with
  | attempting id asking a => exact attempting_tried haccounts h
  | resolving r =>
    unfold turn Sight.ofTurn
    simp only [stageTurn]
    rcases refreshUntil inv.budget.deadline w r with ⟨v, _ | r' | result⟩
    · exact h
    · exact h
    · dsimp only
      rw [List.append_assoc]
      have hsame := Sight.nodes_resolved sights v.now result
      have hpending : Pending job.slot (.ended v.now (.resolved result) :: sights) inv false :=
        ⟨h.routed, hsame ▸ h.nodes, h.order⟩
      exact resolved_tried (w := v) hpending result _
  | pausing wake =>
    unfold turn Sight.ofTurn
    simp only [stageTurn]
    split_ifs
    · exact ⟨h.routed, h.nodes, h.order⟩
    · exact h
  | refreshing r =>
    unfold turn Sight.ofTurn
    simp only [stageTurn]
    rcases refreshUntil inv.budget.deadline w r with ⟨v, _ | r' | result⟩
    · exact h
    · exact h
    · dsimp only
      rw [List.append_assoc]
      have hpending : Pending job.slot (.ended v.now (.refreshed result) :: sights) inv false :=
        ⟨h.routed, h.nodes, h.order⟩
      exact next_tried (w := v) none hpending _

end Invocation

omit [Network N] in
theorem Job.start_tried (w : World N) : KeepsTries job.slot [] (job.start w) :=
  Invocation.next_tried none ⟨rfl, rfl, .singleton _, by rintro _ ⟨⟩; rfl⟩

namespace Course

variable {between : Surroundings N α} {begun : Nat} {p : Progress α}

/-- An invocation that may make no attempt is over at once. -/
theorem over_of_no_attempts (hnone : job.policy.maxAttempts = 0) (h : Course between job begun sights w p) :
    sights = [] ∧ ∃ result, p = .over result := by
  induction h with
  | @start w w' inv stage now h =>
    have hstep := job.start_step w
    rw [h] at hstep
    cases hstep with
    | attempt now left => exact absurd hnone left
    | resolve now left => exact absurd hnone left
  | refused => exact ⟨rfl, _, rfl⟩
  | turn h ih =>
    obtain ⟨-, result, hover⟩ := ih
    cases hover
  | wait h others ih => exact ih

/-- **The attempts are in order at every moment of every course.** -/
theorem tried (h : Course Later job begun sights w p) : p.Tried job.slot sights := by
  by_cases hnone : job.policy.maxAttempts = 0
  · obtain ⟨rfl, result, rfl⟩ := h.over_of_no_attempts hnone
    exact ⟨rfl, ⟨.nil, nofun⟩, nofun⟩
  · have hmax : job.policy.maxAttempts.toNat ≠ 0 := fun h0 => hnone (UInt32.toNat_inj.1 h0)
    induction h with
    | @start w w' inv stage now h =>
      have htried := job.start_tried w (.busy inv stage)
      rw [List.append_nil, h] at htried
      rw [h]
      exact htried
    | @refused w w' result now h =>
      have htried := job.start_tried w (.over result)
      rw [List.append_nil, h] at htried
      exact htried
    | turn h ih => exact Invocation.turn_tried (h.accounts hmax) ih
    | wait h others ih => exact ih

/-- **A command is sent again only after an outcome that allows it.** The attempts of an invocation
stand beside the nodes to which they were dispatched. Each of them but the last is a plain one and has
ended in an error that allows another attempt: a connection error, or a redirect if the invocation
has a slot; the next one asks exactly if that error is `ASK`, and the first one does not ask. An
attempt that asked, or that has ended in anything else, is the last, and the invocation is over with
what it brought: a value, or its error, with the number of the attempts, the slot and the node of the
last of them. The turn in which that happens leaves the world as the attempt has left it. An
invocation without a slot asks nowhere, and after an attempt it changes neither a table nor the
registry, whatever the attempt has brought. -/
theorem only_retried_are_rerun (h : Course Later job begun sights w p) :
    (Sight.nodes sights).length = (p.tries sights).length ∧
    (p.tries sights).IsChain (Try.Follows job.slot) ∧
    (∀ t, (p.tries sights).getLast? = some t → t.asking = false) ∧
    (∀ t result, (p.tries sights).head? = some t → t.Settles job.slot result →
      p = .over (Try.settlement (p.tries sights).length job.slot (Sight.nodes sights).head? result)) ∧
    ∀ inv id asking a, p = .busy inv (.attempting id asking a) →
      (∀ w' started result,
        inv.stageTurn w (.attempting id asking a) = (w', .done (.attempted id asking ⟨started, result⟩)) →
        (⟨asking, some result⟩ : Try α).Settles job.slot result →
        (inv.turn w (.attempting id asking a)).1 = w') ∧
      (job.slot = none →
        asking = false ∧ w.topology.Quiet (inv.turn w (.attempting id asking a)).1.topology) := by
  have htried := h.tried
  refine ⟨htried.length_nodes, htried.inOrder.chain, htried.inOrder.first,
    fun t result hhead hsettles => htried.over_of_settles hhead hsettles, ?_⟩
  rintro inv id asking a rfl
  obtain ⟨hslot, -, horder⟩ := htried
  constructor
  · intro w' started result hturn hsettles
    have hfinal := hsettles.final
    rw [← hslot, ← Invocation.slot_noteStart inv started] at hfinal
    unfold Invocation.turn
    rw [hturn]
    exact congrArg Prod.fst (Invocation.attempted_of_final id hfinal)
  · intro hnone
    rw [hnone] at hslot horder
    exact ⟨horder.plain, Invocation.quiet_turn hslot w id asking a⟩

end Course

end

namespace Prompt

/-- A command on the slot `5` that is sent elsewhere twice and then refused. -/
def redirected : Job Unit where
  policy := { maxAttempts := 4, retryDuration := 1, refreshAfter := 1 }
  body startedBefore _ := .finish (.error (match startedBefore with
    | 0 => .moved 5 "b:1"
    | 1 => .ask 5 "c:1"
    | _ => .server "ERR"))
  slot := some 5
  callerDeadline := none

/-- The invocation is over. -/
def refused : Moment Prompt Unit :=
  .after 10 (.first redirected ((World.ofNode {}).modifyTopology fun t => (t.move 5 "a:1").2))

/-- The three attempts, the latest in front. -/
def attempts : List (Try Unit) :=
  [⟨true, some (.error (.server "ERR"))⟩, ⟨false, some (.error (.ask 5 "c:1"))⟩,
    ⟨false, some (.error (.moved 5 "b:1"))⟩]

set_option maxRecDepth 100000 in
theorem tries_refused : refused.progress.tries refused.sights = attempts := by cbv

set_option maxRecDepth 100000 in
theorem nodes_refused : Sight.nodes refused.sights = ["c:1", "b:1", "a:1"] := by cbv

/-- The first attempt is followed because of `MOVED`, the second because of `ASK`, and the third one,
which asks, is the last. -/
theorem only_retried_are_rerun_refused :
    Course Later redirected 0 refused.sights refused.world refused.progress ∧
    refused.progress.tries refused.sights = attempts ∧ attempts.IsChain (Try.Follows (some 5)) ∧
    refused.progress = .over (.error (.commandFailed 3 (some 5) (some "c:1") (.server "ERR"))) := by
  have hfirst : (Moment.first redirected ((World.ofNode ({} : Prompt)).modifyTopology
      fun t => (t.move 5 "a:1").2)).IsOf Later redirected 0 := Course.first rfl
  have hcourse : Course Later redirected 0 refused.sights refused.world refused.progress := hfirst.after 10
  obtain ⟨-, hchain, -, hover, -⟩ := Course.only_retried_are_rerun hcourse
  rw [tries_refused] at hchain hover
  rw [nodes_refused] at hover
  exact ⟨hcourse, tries_refused, hchain, hover _ _ rfl ⟨rfl, .inl rfl⟩⟩

end Prompt
end SlotRouter
