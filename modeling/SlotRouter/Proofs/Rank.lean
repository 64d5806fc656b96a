import Mathlib.Data.Prod.Lex
import Mathlib.Order.Nat
import SlotRouter.Proofs.Deadline
import SlotRouter.Proofs.Steps

/-!
# What is left to do

A rank of what an activity has still to do. It goes down with every turn in which the activity comes
further (`Invocation.InTime.rank_turn`), but for two kinds of turns: those in which an exchange
takes octets that have arrived (`Exchange.Takes`), and those in which a body makes a move after the
first. The rank is one of the activity alone, so others cannot raise it.

Ranks are compared lexicographically: first come the attempts that are left, then what an attempt
consists of, down to the octets that are still to be written.

Key definitions: `Exchange.Takes`, `Invocation.rank`. Key theorem: `Invocation.InTime.rank_turn`.
-/

namespace SlotRouter

variable {N α : Type}

theorem rank_lt_left {α β : Type} [LT α] [LT β] {a a' : α} {b b' : β} (h : a < a') :
    toLex (a, b) < toLex (a', b') :=
  Prod.Lex.toLex_lt_toLex.2 (.inl h)

theorem rank_lt_right {α β : Type} [LT α] [LT β] {a : α} {b b' : β} (h : b < b') :
    toLex (a, b) < toLex (a, b') :=
  Prod.Lex.toLex_lt_toLex.2 (.inr ⟨rfl, h⟩)

/-! ### Exchanges and openings -/

/-- What is left of an exchange, but for the wait. -/
def Exchange.rank : Exchange → ℕ
  | .entering _ c => c.encode.length + 2
  | .writing _ octets _ => octets.length + 1
  | .waiting .. => 0

/-- An exchange that waits for its reply takes octets that have arrived. -/
def Exchange.Takes [Network N] (now : Nat) (net : N) (x : Exchange) : Prop :=
  ∃ link deadline x', x = .waiting link deadline ∧ (x.turn now net).2 = .running x'

/-- The stage of the opening, and what is left of it. -/
def Dial.rank : Dial → ℕ ×ₗ ℕ
  | .connecting .. => toLex (2, 0)
  | .authenticating x => toLex (1, x.rank)
  | .naming x => toLex (0, x.rank)

theorem Exchange.rank_turn [Network N] {now : Nat} {net : N} {x x' : Exchange}
    (h : (x.turn now net).2 = .running x') :
    x'.rank < x.rank ∨ x.Takes now net := by
  cases x with
  | entering link c =>
    simp only [turn, enter] at h
    split_ifs at h
    obtain rfl := Turn.running.inj h
    exact .inl (Nat.lt_succ_self _)
  | writing link octets deadline =>
    left
    simp only [turn, write] at h
    rcases hsend : Network.send net now link.handle octets with ⟨net', _ | count | failure⟩ <;>
      simp only [hsend] at h
    · split_ifs at h
    · have hlength := List.length_drop (i := count) (l := octets)
      rcases hleft : octets.drop count with _ | ⟨b, left⟩ <;> rw [hleft] at h hlength
      · obtain rfl := Turn.running.inj h
        exact Nat.succ_pos _
      · dsimp only at h
        split_ifs at h
        obtain rfl := Turn.running.inj h
        simp only [rank, List.length_cons] at hlength ⊢
        omega
    · cases h
  | waiting link deadline => exact .inr ⟨link, deadline, x', rfl, h⟩

namespace Dial

theorem afterAuth_running {config : ConnectionConfig} {link : Link} {d : Dial}
    (h : afterAuth config link = .running d) :
    ∃ x, d = .naming x := by
  unfold afterAuth at h
  split at h
  · exact ⟨_, (Turn.running.inj h).symm⟩
  · cases h

theorem afterConnect_running {config : ConnectionConfig} {link : Link} {d : Dial}
    (h : afterConnect config link = .running d) : d.rank < toLex (2, 0) := by
  unfold afterConnect at h
  split at h
  · obtain rfl := Turn.running.inj h
    exact rank_lt_left (by decide)
  · obtain ⟨x, rfl⟩ := afterAuth_running h
    exact rank_lt_left (by decide)

theorem rank_turn [Network N] {config : ConnectionConfig} {now : Nat} {net : N} {d d' : Dial}
    (h : (d.turn config now net).2 = .running d') :
    d'.rank < d.rank ∨ ∃ x ∈ d.exchange?, x.Takes now net := by
  cases d with
  | connecting address handle deadline =>
    left
    simp only [turn] at h
    split at h
    · exact afterConnect_running h
    · cases h
    · split_ifs at h
  | authenticating x =>
    simp only [turn] at h
    rcases hx : x.turn now net with ⟨net', _ | x' | ⟨link, e | f⟩⟩ <;> rw [hx] at h
    · cases h
    · obtain rfl := Turn.running.inj h
      rcases Exchange.rank_turn (congrArg Prod.snd hx) with hless | htakes
      · exact .inl (rank_lt_right hless)
      · exact .inr ⟨x, rfl, htakes⟩
    · cases h
    · obtain ⟨x', rfl⟩ := afterAuth_running h
      exact .inl (rank_lt_left (by decide))
  | naming x =>
    simp only [turn] at h
    rcases hx : x.turn now net with ⟨net', _ | x' | ⟨link, e | f⟩⟩ <;> rw [hx] at h
    · cases h
    · obtain rfl := Turn.running.inj h
      rcases Exchange.rank_turn (congrArg Prod.snd hx) with hless | htakes
      · exact .inl (rank_lt_right hless)
      · exact .inr ⟨x, rfl, htakes⟩
    · cases h
    · cases h

end Dial

/-! ### Borrowers and attempts -/

namespace Borrow

/-- The stage of the borrower, and what is left of its opening. -/
def rank : Borrow → ℕ ×ₗ ℕ ×ₗ ℕ
  | .entering _ => toLex (2, ⊥)
  | .queued .. => toLex (1, ⊥)
  | .dialling _ d => toLex (0, d.rank)

variable [Network N] {w : World N}

theorem permitted_running {id : PoolId} {b : Borrow} (h : (permitted w id).2 = .running b) :
    ∃ d, b = .dialling id d := by
  unfold permitted at h
  rcases hidle : (w.pool id).takeIdle with ⟨_ | link, p⟩ <;> simp only [hidle] at h
  · exact ⟨_, (Turn.running.inj h).symm⟩
  · cases h

theorem rank_turn {b b' : Borrow} (h : (b.turn w).2 = .running b') :
    b'.rank < b.rank ∨ ∃ x ∈ b.exchange?, x.Takes w.now w.net := by
  cases b with
  | entering id =>
    left
    simp only [turn] at h
    split_ifs at h
    split at h
    · cases h
    · obtain ⟨d, rfl⟩ := permitted_running h
      exact rank_lt_left (by decide)
    · obtain rfl := Turn.running.inj h
      exact rank_lt_left (by decide)
  | queued id ticket deadline =>
    left
    simp only [turn] at h
    split at h
    · cases h
    · obtain ⟨d, rfl⟩ := permitted_running h
      exact rank_lt_left (by decide)
    · split_ifs at h
  | dialling id d =>
    simp only [turn] at h
    rcases hd : w.dialOn d with ⟨w', _ | d' | e | link⟩ <;> simp only [hd] at h
    · cases h
    · obtain rfl := Turn.running.inj h
      have hturn : (d.turn w.connectionConfig w.now w.net).2 = .running d' := (Prod.mk.inj hd).2
      rcases Dial.rank_turn hturn with hless | htakes
      · exact .inl (rank_lt_right hless)
      · exact .inr htakes
    · cases h
    · cases h

end Borrow

namespace Attempt

/-- What the body has heard so far. -/
def heard : Attempt → List Patience.Heard
  | .borrowing .. | .announcing .. => []
  | .running _ heard _ | .resting _ heard _ _ => heard

/-- The stage of the attempt, and what is left of its borrower or of its exchange. -/
def rank : Attempt → ℕ ×ₗ ℕ ×ₗ ℕ ×ₗ ℕ
  | .borrowing _ b => toLex (2, b.rank)
  | .announcing _ x => toLex (1, toLex (0, toLex (0, x.rank)))
  | .running _ _ p => toLex (0, toLex (0, toLex (0, p.exchange.rank)))
  | .resting .. => toLex (0, ⊥)

theorem proceed_running {w : World N} {body : Body α} {started : Nat} {id : PoolId} {link : Link}
    {heard : List Patience.Heard} {a : Attempt} (h : (proceed w body started id link heard).2 = .running a) :
    a.heard = heard ∧ ∀ phase rest, 0 < phase → a.rank < toLex (phase, rest) := by
  unfold proceed at h
  split at h
  · obtain rfl := Turn.running.inj h
    exact ⟨rfl, fun _ _ hphase => rank_lt_left hphase⟩
  · obtain rfl := Turn.running.inj h
    exact ⟨rfl, fun _ _ hphase => rank_lt_left hphase⟩
  · cases h

variable [Network N] {w : World N}

theorem patience_running {p p' : Patience} (h : (p.turn w).2 = .running p') :
    ∃ x', (p.exchange.turn w.now w.net).2 = .running x' ∧ p' = { p with exchange := x' } := by
  unfold Patience.turn at h
  rcases hx : w.exchange p.exchange with ⟨w', _ | x' | ⟨link, answer⟩⟩ <;> simp only [hx] at h
  · split at h
    · split_ifs at h
    · cases h
  · exact ⟨x', (Prod.mk.inj hx).2, (Turn.running.inj h).symm⟩
  · cases h

theorem rank_turn {body : Body α} {started : Nat} {a a' : Attempt}
    (h : (a.turn w body started).2 = .running a') :
    a'.rank < a.rank ∨ (∃ x ∈ a.exchange?, x.Takes w.now w.net) ∨ a.heard.length < a'.heard.length := by
  cases a with
  | borrowing asking b =>
    simp only [turn] at h
    rcases hb : b.turn w with ⟨w', _ | b' | e | loan⟩ <;> simp only [hb] at h
    · cases h
    · obtain rfl := Turn.running.inj h
      rcases Borrow.rank_turn (congrArg Prod.snd hb) with hless | htakes
      · exact .inl (rank_lt_right hless)
      · exact .inr (.inl htakes)
    · cases h
    · left
      split_ifs at h
      · obtain rfl := Turn.running.inj h
        exact rank_lt_left (by decide)
      · exact (proceed_running h).2 _ _ (by decide)
  | announcing id x =>
    simp only [turn] at h
    rcases hx : w.exchange x with ⟨w', _ | x' | ⟨link, e | f⟩⟩ <;> simp only [hx] at h
    · cases h
    · obtain rfl := Turn.running.inj h
      have hturn : (x.turn w.now w.net).2 = .running x' := (Prod.mk.inj hx).2
      rcases Exchange.rank_turn hturn with hless | htakes
      · exact .inl (rank_lt_right (rank_lt_right (rank_lt_right hless)))
      · exact .inr (.inl ⟨x, rfl, htakes⟩)
    · cases h
    · exact .inl ((proceed_running h).2 _ _ (by decide))
  | running id heard p =>
    simp only [turn] at h
    rcases hp : p.turn w with ⟨w', _ | p' | ⟨link, answer⟩⟩ <;> simp only [hp] at h
    · cases h
    · obtain rfl := Turn.running.inj h
      obtain ⟨x', hturn, rfl⟩ := patience_running (congrArg Prod.snd hp)
      rcases Exchange.rank_turn hturn with hless | htakes
      · exact .inl (rank_lt_right (rank_lt_right (rank_lt_right hless)))
      · exact .inr (.inl ⟨p.exchange, rfl, htakes⟩)
    · right; right
      rw [(proceed_running h).1, List.length_append]
      exact Nat.lt_succ_self _
  | resting id heard link wake =>
    simp only [turn] at h
    split_ifs at h
    right; right
    rw [(proceed_running h).1, List.length_append]
    exact Nat.lt_succ_self _

end Attempt

/-! ### Searches and refreshes -/

namespace Discovery

/-- The candidates that are left, each counted twice, since it is first reached and then asked; and
what is left of reaching or asking the present one. -/
def rank : Discovery → ℕ ×ₗ ℕ ×ₗ ℕ ×ₗ ℕ
  | .borrowing _ nodes seeds b => toLex (2 * (nodes.length + seeds.length) + 1, b.rank)
  | .querying _ nodes seeds _ x => toLex (2 * (nodes.length + seeds.length), toLex (0, toLex (0, x.rank)))
  | .dialling _ seeds d => toLex (2 * seeds.length + 1, toLex (0, d.rank))
  | .asking _ seeds x => toLex (2 * seeds.length, toLex (0, toLex (0, x.rank)))

variable [Network N] {w : World N}

theorem nextSeed_running {seeds : List String} {d : Discovery}
    (h : (nextSeed w seeds).2 = .running d) :
    ∀ left rest, 2 * seeds.length ≤ left → d.rank < toLex (left, rest) := by
  cases seeds with
  | nil => cases h
  | cons seed seeds =>
    obtain rfl := Turn.running.inj h
    intro left rest hleft
    rw [List.length_cons] at hleft
    exact rank_lt_left (by omega)

theorem nextNode_running {seeds nodes : List String} {d : Discovery}
    (h : (nextNode w seeds nodes).2 = .running d) :
    ∀ left rest, 2 * (nodes.length + seeds.length) ≤ left → d.rank < toLex (left, rest) := by
  induction nodes with
  | nil =>
    intro left rest hleft
    exact nextSeed_running h left rest (by rw [List.length_nil] at hleft; omega)
  | cons node nodes ih =>
    intro left rest hleft
    rw [List.length_cons] at hleft
    unfold nextNode at h
    split at h
    · obtain rfl := Turn.running.inj h
      exact rank_lt_left (by omega)
    · exact ih h left rest (by omega)

theorem rank_turn {d d' : Discovery} (h : (d.turn w).2 = .running d') :
    d'.rank < d.rank ∨ ∃ x ∈ d.exchange?, x.Takes w.now w.net := by
  cases d with
  | borrowing node nodes seeds b =>
    simp only [turn] at h
    rcases hb : b.turn w with ⟨w', _ | b' | e | loan⟩ <;> simp only [hb] at h
    · cases h
    · obtain rfl := Turn.running.inj h
      rcases Borrow.rank_turn (congrArg Prod.snd hb) with hless | htakes
      · exact .inl (rank_lt_right hless)
      · exact .inr htakes
    · exact .inl (nextNode_running h _ _ (Nat.le_succ _))
    · obtain rfl := Turn.running.inj h
      exact .inl (rank_lt_left (Nat.lt_succ_self _))
  | querying node nodes seeds id x =>
    simp only [turn] at h
    rcases hx : w.exchange x with ⟨w', _ | x' | ⟨link, answer⟩⟩ <;> simp only [hx] at h
    · cases h
    · obtain rfl := Turn.running.inj h
      have hturn : (x.turn w.now w.net).2 = .running x' := (Prod.mk.inj hx).2
      rcases Exchange.rank_turn hturn with hless | htakes
      · exact .inl (rank_lt_right (rank_lt_right (rank_lt_right hless)))
      · exact .inr ⟨x, rfl, htakes⟩
    · split at h
      · cases h
      · exact .inl (nextNode_running h _ _ (Nat.le_refl _))
  | dialling seed seeds d =>
    simp only [turn] at h
    rcases hd : w.dialOn d with ⟨w', _ | d' | e | link⟩ <;> simp only [hd] at h
    · cases h
    · obtain rfl := Turn.running.inj h
      have hturn : (d.turn w.connectionConfig w.now w.net).2 = .running d' := (Prod.mk.inj hd).2
      rcases Dial.rank_turn hturn with hless | htakes
      · exact .inl (rank_lt_right (rank_lt_right hless))
      · exact .inr htakes
    · exact .inl (nextSeed_running h _ _ (Nat.le_succ _))
    · obtain rfl := Turn.running.inj h
      exact .inl (rank_lt_left (Nat.lt_succ_self _))
  | asking seed seeds x =>
    simp only [turn] at h
    rcases hx : w.exchange x with ⟨w', _ | x' | ⟨link, answer⟩⟩ <;> simp only [hx] at h
    · cases h
    · obtain rfl := Turn.running.inj h
      have hturn : (x.turn w.now w.net).2 = .running x' := (Prod.mk.inj hx).2
      rcases Exchange.rank_turn hturn with hless | htakes
      · exact .inl (rank_lt_right (rank_lt_right (rank_lt_right hless)))
      · exact .inr ⟨x, rfl, htakes⟩
    · split at h
      · cases h
      · exact .inl (nextSeed_running h _ _ (Nat.le_refl _))

end Discovery

namespace Refresh

/-- The stage of the refresh, and what is left of its search. -/
def rank : Refresh → ℕ ×ₗ ℕ ×ₗ ℕ ×ₗ ℕ ×ₗ ℕ
  | .entering => toLex (2, ⊥)
  | .queued .. => toLex (1, ⊥)
  | .discovering d => toLex (0, d.rank)

theorem searched_running {w : World N} {step : Discovery.Step} {r : Refresh}
    (h : (searched w step).2 = .running r) :
    ∃ d, step = .running d ∧ r = .discovering d := by
  rcases step with _ | d | found
  · cases h
  · exact ⟨d, rfl, (Turn.running.inj h).symm⟩
  · cases h

variable [Network N] {w : World N}

theorem locked_running {seen : Nat} {r : Refresh} (h : (locked w seen).2 = .running r) :
    ∃ d, r = .discovering d := by
  unfold locked at h
  split_ifs at h
  obtain ⟨d, -, rfl⟩ := searched_running h
  exact ⟨d, rfl⟩

theorem rank_turn {r r' : Refresh} (h : (r.turn w).2 = .running r') :
    r'.rank < r.rank ∨ ∃ x ∈ r.exchange?, x.Takes w.now w.net := by
  cases r with
  | entering =>
    left
    simp only [turn] at h
    split_ifs at h
    split at h
    · obtain ⟨d, rfl⟩ := locked_running h
      exact rank_lt_left (by decide)
    · obtain rfl := Turn.running.inj h
      exact rank_lt_left (by decide)
    · cases h
  | queued seen ticket =>
    left
    simp only [turn] at h
    split at h
    · obtain ⟨d, rfl⟩ := locked_running h
      exact rank_lt_left (by decide)
    · cases h
  | discovering d =>
    obtain ⟨d', hd, rfl⟩ := searched_running h
    rcases Discovery.rank_turn hd with hless | htakes
    · exact .inl (rank_lt_right hless)
    · exact .inr htakes

end Refresh

/-! ### Invocations -/

namespace Invocation

/-- What an invocation can do with the attempts that are left: run an attempt, pause after it, learn
the layout after the pause, and look for a node for the next. -/
def Kind.rank : Kind → ℕ
  | .attempting => 3
  | .pausing => 2
  | .refreshing => 1
  | .resolving => 0

/-- What is left of the thing that the invocation is busy with. -/
def Stage.rank : Stage → ℕ ×ₗ ℕ ×ₗ ℕ ×ₗ ℕ ×ₗ ℕ
  | .resolving r | .refreshing r => r.rank
  | .attempting _ _ a => toLex (0, a.rank)
  | .pausing _ => ⊥

/-- What is left to do for an invocation. -/
def rank (inv : Invocation α) (stage : Stage) : ℕ ×ₗ ℕ ×ₗ ℕ ×ₗ ℕ ×ₗ ℕ ×ₗ ℕ ×ₗ ℕ :=
  toLex (inv.budget.left.toNat, toLex (stage.kind.rank, stage.rank))

/-- What the body has heard so far in the attempt under way. -/
def Stage.heard : Stage → List Patience.Heard
  | .attempting _ _ a => a.heard
  | _ => []

/-- A step goes down if it spends an attempt, or else comes to a thing of a lower kind. -/
def Lowers (inv : Invocation α) (kind : Kind) (inv' : Invocation α) (stage' : Stage) : Prop :=
  inv'.budget.left.toNat < inv.budget.left.toNat ∨
    inv'.budget.left = inv.budget.left ∧ stage'.kind.rank < kind.rank

variable {d : Nat} {w : World N} {inv inv' : Invocation α} {stage stage' : Stage}
    {r : World N × Step α}

theorem Lowers.rank_lt (h : Lowers inv stage.kind inv' stage') :
    inv'.rank stage' < inv.rank stage := by
  unfold rank
  rcases h with hspent | ⟨hsame, hkind⟩
  · exact rank_lt_left hspent
  · rw [hsame]
    exact rank_lt_right (rank_lt_left hkind)

theorem beginAttempt_spends (hleft : inv.budget.left ≠ 0) {id : PoolId} {asking : Bool}
    (hr : (inv.beginAttempt w id asking).2 = .running (inv', stage')) :
    inv'.budget.left.toNat < inv.budget.left.toNat := by
  cases hr
  exact Nat.lt_of_succ_le (Nat.le_of_eq (Budget.toNat_left_consume hleft))

theorem NextStep.lowers (h : NextStep w inv r) {kind : Kind} (hkind : kind ≠ .resolving)
    (hr : r.2 = .running (inv', stage')) : Lowers inv kind inv' stage' := by
  cases h with
  | closed | spent | late => cases hr
  | attempt now left early => exact .inl (beginAttempt_spends left hr)
  | resolve =>
    cases hr
    refine .inr ⟨rfl, ?_⟩
    cases kind with
    | resolving => exact absurd rfl hkind
    | attempting | pausing | refreshing => decide

theorem Lowers.of_budget {inv'' : Invocation α} {kind : Kind} (h : Lowers inv'' kind inv' stage')
    (hsame : inv''.budget = inv.budget) : Lowers inv kind inv' stage' := by
  unfold Lowers at h ⊢
  rwa [hsame] at h

/-- A search that has failed is charged, so whatever follows goes down. -/
theorem Lowers.of_consume {inv'' : Invocation α} {kind kind' : Kind}
    (h : Lowers inv'' kind inv' stage')
    (hleft : inv.budget.left ≠ 0) (hspent : inv''.budget = inv.budget.consume) : Lowers inv kind' inv' stage' := by
  have hless := Budget.toNat_left_consume hleft
  left
  rcases h with hspends | ⟨hsame, -⟩
  · rw [hspent] at hspends
    omega
  · rw [hsame, hspent]
    omega

theorem AfterStep.lowers {outcome : Outcome α} (h : AfterStep w inv outcome r)
    (hleft : outcome.kind = .resolving → inv.budget.left ≠ 0) (hr : r.2 = .running (inv', stage')) :
    Lowers inv outcome.kind inv' stage' := by
  cases h with
  | stop => cases hr
  | next now budget searched h =>
    rcases outcome with (e | ⟨⟩) | ⟨id, asking, ended⟩ | _ | result
    · have hlower : Lowers _ .attempting inv' stage' := h.lowers nofun hr
      exact hlower.of_consume (hleft rfl) budget
    · exact absurd rfl searched
    · have hlower : Lowers _ .attempting inv' stage' := h.lowers nofun hr
      exact hlower.of_budget budget
    · have hlower : Lowers _ .pausing inv' stage' := h.lowers nofun hr
      exact hlower.of_budget budget
    · have hlower : Lowers _ .refreshing inv' stage' := h.lowers nofun hr
      exact hlower.of_budget budget
  | @pause w' inv'' budget failed =>
    have hpause : Lowers inv'' .attempting inv'' (.pausing (inv''.wake w'.now)) := .inr ⟨rfl, Nat.lt_succ_self 2⟩
    cases hr
    rcases outcome with (e | ⟨⟩) | ⟨id, asking, ended⟩ | _ | result
    · exact hpause.of_consume (hleft rfl) budget
    · exact failed.elim
    · exact hpause.of_budget budget
    · exact failed.elim
    · exact failed.elim
  | refresh woken =>
    cases hr
    subst woken
    exact .inr ⟨rfl, Nat.lt_succ_self 1⟩
  | attempt now searched id =>
    subst searched
    exact .inl (beginAttempt_spends (hleft rfl) hr)

variable [Network N]

/-- **In every turn in which an invocation comes further, less is left to do**, unless it has taken
octets that have arrived, or its body has heard of something and makes another move. -/
theorem InTime.rank_turn (h : inv.InTime d stage)
    (hr : (inv.turn w stage).2 = .running (inv', stage')) :
    inv'.rank stage' < inv.rank stage ∨ (∃ x ∈ stage.exchange?, x.Takes w.now w.net) ∨
      stage.heard.length < stage'.heard.length := by
  have hstep := turn_step w inv stage
  generalize inv.turn w stage = r at hstep hr
  cases hstep with
  | waits => cases hr
  | goes w' hgoes =>
    cases hr
    cases hgoes with
    | resolving hrun | refreshing hrun =>
      rcases Refresh.rank_turn hrun with hless | htakes
      · exact .inl (rank_lt_right (rank_lt_right hless))
      · exact .inr (.inl htakes)
    | attempting id asking hrun =>
      rcases Attempt.rank_turn hrun with hless | htakes | hmoves
      · exact .inl (rank_lt_right (rank_lt_right (rank_lt_right hless)))
      · exact .inr (.inl htakes)
      · exact .inr (.inr hmoves)
  | ends kind hafter =>
    have hleft : stage.kind = .resolving → inv.budget.left ≠ 0 := by
      intro hresolving
      cases stage with
      | resolving r => exact h.left r rfl
      | attempting | pausing | refreshing => cases hresolving
    have hlower := hafter.lowers (kind ▸ hleft) hr
    rw [kind] at hlower
    exact .inl hlower.rank_lt

end Invocation
end SlotRouter
