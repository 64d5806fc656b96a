import Mathlib
import SlotRouter.Proofs.Asking
import SlotRouter.Proofs.Closing
import SlotRouter.Proofs.Reruns

/-!
# `ASK` is one shot

`ASK` names a node for one attempt, and only the head of the loop is told of it, which gives up first
if the client is closed or the budget is spent. Otherwise the next attempt is an asking one, made at
the pool of that node. An asking attempt announces itself on its link and runs its body on the same
one if the announcement has been answered; whatever comes of it settles the invocation, and no entry
of a table is touched. So of an invocation that asks nothing is left but its asking attempt, until it
is over (`Meanwhile.asking`).

Key definitions: `Attempt.line?`, `Attempt.hasBegun`, `System.Meanwhile`. Key theorems:
`Invocation.ask_turn`, `Invocation.asking_turn`, `Meanwhile.asking`, `System.ask_is_one_shot`.
-/

namespace SlotRouter

open List

variable {N α : Type}

/-! ### From `ASK` to the asking attempt -/

namespace Invocation

variable {w before : World N} {inv : Invocation α} {own slot : UInt16} {address : String} {id : PoolId} {a : Attempt}
  {started : Bool} {e : Error}

theorem next_of_exhausted (hopen : w.topology.closed = false) (hspent : inv.exhaustion? w.now = some e)
    (target : Option String) : inv.next w target = (w, .done (.error e)) := by
  unfold next
  rw [hopen, hspent]
  rfl

/-- If the budget allows it, the next attempt is made at the node that has been named. -/
theorem next_of_target (hopen : w.topology.closed = false) (hgo : inv.exhaustion? w.now = none) (address : String) :
    inv.next w (some address) = inv.beginAttempt (w.obtain address).2 (w.obtain address).1 true := by
  unfold next
  rw [hopen, hgo]
  rfl

variable [Network N]

/-- The rest of a turn in which a plain attempt ends in `ASK` is the head of the loop, which is told the
node. -/
theorem turn_of_ask (hslot : inv.slot = some own)
    (hended : inv.stageTurn before (.attempting id false a) =
      (w, .done (.attempted id false ⟨started, .error (.ask slot address)⟩))) :
    inv.turn before (.attempting id false a) =
      next w ((inv.noteStart started).redirected (.ask slot address)) (some address) := by
  unfold turn
  rw [hended]
  exact retry_ask ((slot_noteStart inv started).trans hslot) id slot address

/-- **What a turn comes to in which a plain attempt ends in `ASK`.** -/
theorem ask_turn (hslot : inv.slot = some own)
    (hended : inv.stageTurn before (.attempting id false a) =
      (w, .done (.attempted id false ⟨started, .error (.ask slot address)⟩))) :
    (w.topology.closed = true →
      inv.turn before (.attempting id false a) = (w, .done (.error .clientClosed))) ∧
    (w.topology.closed = false → inv.budget.left = 0 → inv.turn before (.attempting id false a) =
      (w, .done (.error (.retriesExhausted inv.attempts (some own) inv.lastNode (.ask slot address))))) ∧
    (w.topology.closed = false → inv.budget.left ≠ 0 → inv.budget.deadline ≤ w.now →
      inv.turn before (.attempting id false a) =
        (w, .done (.error (.deadlineExceeded inv.attempts (some own) inv.lastNode (some (.ask slot address)))))) ∧
    (w.topology.closed = false → inv.budget.left ≠ 0 → w.now < inv.budget.deadline →
      ∃ inv', inv.turn before (.attempting id false a) =
          ((w.obtain address).2, .running (inv', .attempting (w.obtain address).1 true
            (.borrowing true (.entering (w.obtain address).1)))) ∧
        inv'.slot = some own ∧ inv'.body = inv.body ∧
        inv'.lastNode = some ((w.obtain address).2.pool (w.obtain address).1).address ∧
        inv'.budget = inv.budget.consume) := by
  rw [turn_of_ask hslot hended]
  obtain ⟨inv', hinv⟩ : ∃ inv', inv' = (inv.noteStart started).redirected (.ask slot address) := ⟨_, rfl⟩
  have hown : inv'.slot = some own := hinv ▸ (slot_noteStart inv started).trans hslot
  have hbudget : inv'.budget = inv.budget := hinv ▸ budget_noteStart inv started
  have hattempts : inv'.attempts = inv.attempts := hinv ▸ attempts_noteStart inv started
  have hnode : inv'.lastNode = inv.lastNode := hinv ▸ lastNode_noteStart inv started
  have hsource : inv'.lastError = some (.ask slot address) := hinv ▸ rfl
  have hbody : inv'.body = inv.body := by
    subst hinv
    cases started <;> rfl
  rw [← hinv]
  refine ⟨fun hclosed => next_of_closed hclosed _ _, fun hopen hleft => ?_, fun hopen hleft hlate => ?_,
    fun hopen hleft hearly => ?_⟩
  · have hspent : inv'.exhaustion? w.now = _ := exhaustion?_of_spent (hbudget ▸ hleft)
    rw [next_of_exhausted hopen hspent, hattempts, hown, hnode, hsource]
    rfl
  · have hspent : inv'.exhaustion? w.now = _ := exhaustion?_of_late (hbudget ▸ hleft) (hbudget ▸ hlate)
    rw [next_of_exhausted hopen hspent, hattempts, hown, hnode, hsource]
  · have hgo : inv'.exhaustion? w.now = none := exhaustion?_of_early (hbudget ▸ hleft) (hbudget ▸ hearly)
    rw [next_of_target hopen hgo]
    exact ⟨_, rfl, hown, hbody, rfl, congrArg Budget.consume hbudget⟩

/-! ### The asking attempt -/

/-- **What a turn of an asking attempt comes to**: the attempt goes on, or it settles the invocation;
and it does no more to the topology than to lend links. -/
theorem asking_turn (w : World N) (inv : Invocation α) (id : PoolId) (a : Attempt) :
    w.topology.Quiet (inv.turn w (.attempting id true a)).1.topology ∧
    ((inv.turn w (.attempting id true a)).2 = .blocked ∨
      (∃ a', (inv.turn w (.attempting id true a)).2 = .running (inv, .attempting id true a')) ∨
      ∃ ended, inv.stageTurn w (.attempting id true a) =
          ((inv.turn w (.attempting id true a)).1, .done (.attempted id true ended)) ∧
        (inv.turn w (.attempting id true a)).2 =
          .done (Try.settlement inv.attempts inv.slot inv.lastNode ended.result)) := by
  have hquiet := quiet_attemptUntil inv.budget.deadline w inv.body inv.started a
  simp only [turn, stageTurn]
  rcases ha : attemptUntil inv.budget.deadline w inv.body inv.started a with ⟨w', _ | a' | ended⟩ <;>
    rw [ha] at hquiet
  · exact ⟨hquiet, .inl rfl⟩
  · exact ⟨hquiet, .inr (.inl ⟨a', rfl⟩)⟩
  · have hsettle : inv.after w' (.attempted id true ended) =
        (w', .done (Try.settlement inv.attempts inv.slot inv.lastNode ended.result)) := by
      rw [after, attempted_of_final id (.inl rfl), attempts_noteStart, slot_noteStart, lastNode_noteStart]
    dsimp only
    rw [hsettle]
    exact ⟨hquiet, .inr (.inr ⟨ended, rfl, rfl⟩)⟩

end Invocation

namespace Attempt

/-- Whether the body has been started by the end of a turn. -/
def hasBegun : Turn Attempt (Ended α) → Bool
  | .blocked => false
  | .running a => a.hasStarted
  | .done ended => ended.started

/-- The connection on which an attempt that asks speaks, and what it has said there at least and at
most. -/
def line? (body : Body α) (started : Nat) : Attempt → Option (Handle × Bytes × Bytes)
  | .borrowing .. => none
  | .announcing _ x => some (x.link.handle, [], Command.asking.encode)
  | .running _ heard p => some (p.exchange.link.handle, Command.asking.encode, body.speech started heard)
  | .resting _ heard link _ => some (link.handle, Command.asking.encode, body.speech started heard)

variable {body : Body α} {started : Nat} {a : Attempt} {id : PoolId} {who : Nat} {record : List Traffic} {h : Handle}
  {first line : Bytes}

theorem Says.spoken (hspeaks : a.Says who record body started) (hline : a.line? body started = some (h, first, line)) :
    ∃ bs, Spoken who h record bs ∧ first <+: bs ∧ bs <+: line := by
  have hexchange : ∀ {x : Exchange}, x.Says who record first line →
      ∃ bs, Spoken who x.link.handle record bs ∧ first <+: bs ∧ bs <+: line := by
    intro x hx
    cases x with
    | entering link c =>
      obtain ⟨before, rfl, bs, hspoken, hfirst, hwithin, -⟩ := hx
      exact ⟨bs, hspoken, hfirst, hwithin.trans (prefix_append _ _)⟩
    | writing link octets deadline =>
      obtain ⟨-, bs, hspoken, hfirst, hall⟩ := hx
      exact ⟨bs, hspoken, hfirst, octets, hall⟩
    | waiting link deadline => exact ⟨line, hx.2.1, hx.2.2, prefix_rfl⟩
  cases a with
  | borrowing => cases hline
  | announcing _ x =>
    obtain ⟨rfl, rfl, rfl⟩ : x.link.handle = h ∧ [] = first ∧ Command.asking.encode = line := by
      simpa [line?] using hline
    exact hexchange hspeaks
  | running _ heard p =>
    obtain ⟨rfl, rfl, rfl⟩ : p.exchange.link.handle = h ∧ Command.asking.encode = first ∧
        body.speech started heard = line := by
      simpa [line?] using hline
    exact hexchange hspeaks
  | resting _ heard link wake =>
    obtain ⟨rfl, rfl, rfl⟩ : link.handle = h ∧ Command.asking.encode = first ∧
        body.speech started heard = line := by
      simpa [line?] using hline
    obtain ⟨bs, hspoken, hfirst, hwithin, -⟩ := hspeaks
    exact ⟨bs, hspoken, hfirst, hwithin⟩

variable [Network N] {w : World N}

/-- **The body of an attempt that asks starts when the announcement has been answered**, and not when it
was answered by an error. -/
theorem answered_of_hasBegun (hon : a.On id true) (hbefore : a.hasStarted = false)
    (hbegun : hasBegun (a.turn w body started).2 = true) :
    ∃ x w' link f, a = .announcing id x ∧ w.exchange x = (w', .done (link, .ok f)) := by
  cases a with
  | borrowing asks b =>
    obtain ⟨rfl, -⟩ := hon
    simp only [turn] at hbegun
    rcases hb : b.turn w with ⟨w', _ | b' | e | loan⟩ <;> rw [hb] at hbegun <;> cases hbegun
  | announcing pool x =>
    obtain ⟨rfl, -⟩ := hon
    simp only [turn] at hbegun
    rcases hx : w.exchange x with ⟨w', _ | x' | ⟨link, e | f⟩⟩ <;> rw [hx] at hbegun
    · cases hbegun
    · cases hbegun
    · cases hbegun
    · exact ⟨x, w', link, f, rfl, hx⟩
  | running | resting => cases hbefore

end Attempt

namespace Sight

theorem not_bodyStarted_ofStep (now : Nat) (r : World N × Invocation.Step α) : .bodyStarted now ∉ ofStep r := by
  unfold ofStep
  split <;> simp

variable [Network N] {w : World N} {inv : Invocation α} {id : PoolId} {asking : Bool} {a : Attempt} {now : Nat}

/-- A body that is seen to start in a turn of an attempt has not been started before. -/
theorem hasBegun_of_bodyStarted (h : .bodyStarted now ∈ ofTurn w inv (.attempting id asking a)) :
    a.hasStarted = false ∧ Attempt.hasBegun (a.turn w inv.body inv.started).2 = true := by
  have hof : ∀ {b : Bool} {instant : Nat},
      .bodyStarted now ∈ (if (b && !a.hasStarted) = true then [(.bodyStarted instant : Sight α)] else []) →
        a.hasStarted = false ∧ b = true := by
    intro b instant hmem
    cases b <;> cases ha : a.hasStarted <;> simp [ha] at hmem ⊢
  simp only [ofTurn, Invocation.stageTurn, Invocation.attemptUntil] at h
  rcases ha : a.turn w inv.body inv.started with ⟨w', _ | a' | ended⟩ <;> rw [ha] at h
  · dsimp only at h
    split_ifs at h
    · -- what is given up at the deadline has started its body or has not
      have hmem := (List.mem_append.1 h).resolve_left (not_bodyStarted_ofStep now _)
      obtain ⟨hbefore, hafter⟩ := hof ((List.mem_cons.1 hmem).resolve_left fun heq => by cases heq)
      rw [hbefore] at hafter
      cases hafter
    · cases h
  · exact hof h
  · have hmem := (List.mem_append.1 h).resolve_left (not_bodyStarted_ofStep now _)
    exact hof ((List.mem_cons.1 hmem).resolve_left fun heq => by cases heq)

end Sight

/-- An announcement that is answered by an error settles the invocation. -/
theorem Invocation.turn_of_refused [Network N] {w w' : World N} {inv : Invocation α} {id : PoolId} {x : Exchange}
    {link : Link} {e : Error} (hx : w.exchange x = (w', .done (link, .error e))) :
    (inv.turn w (.attempting id true (.announcing id x))).2 =
      .done (Try.settlement inv.attempts inv.slot inv.lastNode (.error e)) := by
  simp only [turn, stageTurn, attemptUntil, Attempt.turn, hx, after]
  rw [attempted_of_final id (.inl rfl), attempts_noteStart, slot_noteStart, lastNode_noteStart]

/-! ### Until it is over -/

namespace System

variable [Network N] {setup : Setup} {s s' : System N α} {who : Nat} {inv : Invocation α} {id : PoolId} {a : Attempt}

/-- What may become of a client while a caller begins nothing new: events of any other kind, and
operations on the topology. -/
inductive Meanwhile (who : Nat) (s : System N α) : System N α → Prop where
  | refl : Meanwhile who s s
  | step {s' : System N α} (e : Event N α) (he : ∀ request, e ≠ .start who request) :
      Meanwhile who s s' → Meanwhile who s (s'.step e)
  | operate {s' : System N α} (op : Topology.Operation) : Meanwhile who s s' → Meanwhile who s (s'.operate op)

theorem Meanwhile.foldl (h : s.Meanwhile who s') {events : List (Event N α)}
    (hnone : ∀ e ∈ events, ∀ request, e ≠ .start who request) :
    s.Meanwhile who (events.foldl System.step s') := by
  induction events generalizing s' with
  | nil => exact h
  | cons e events ih =>
    obtain ⟨he, hevents⟩ := List.forall_mem_cons.1 hnone
    exact ih (h.step e he) hevents

/-- The caller makes the asking attempt, or he does nothing any more. -/
def IsAsking (who : Nat) (inv : Invocation α) (id : PoolId) (s : System N α) : Prop :=
  s.active who = none ∨ ∃ a, s.active who = some (.invoking inv (.attempting id true a))

/-- **An asking attempt is followed by nothing.** -/
theorem IsAsking.step (h : s.IsAsking who inv id) {e : Event N α} (he : ∀ request, e ≠ .start who request) :
    (s.step e).IsAsking who inv id := by
  have hother : ∀ {other} {r : World (Watched N) × Option (Activity α)}, other ≠ who →
      (s.put other r).IsAsking who inv id := by
    intro other r hne
    unfold IsAsking
    rwa [active_put_of_ne hne]
  cases e with
  | start other request =>
    simp only [System.step]
    split
    · exact hother fun heq => he request (heq ▸ rfl)
    · exact h
  | turn other =>
    simp only [System.step]
    split
    · exact h
    · rename_i b hb
      by_cases heq : other = who
      · subst heq
        rcases h with hnone | ⟨a, ha⟩
        · rw [hnone] at hb
          cases hb
        · obtain rfl := Option.some.inj (ha.symm.trans hb)
          have hleft : (s.put other (Activity.turn (s.seenBy other) (.invoking inv (.attempting id true a)))).active
              other = Activity.ofStep (some (.invoking inv (.attempting id true a)))
                (inv.turn (s.seenBy other) (.attempting id true a)).2 := active_put other _
          rcases (inv.asking_turn (s.seenBy other) id a).2 with hstep | ⟨a', hstep⟩ | ⟨ended, -, hstep⟩ <;>
            rw [hstep] at hleft
          · exact .inr ⟨a, hleft⟩
          · exact .inr ⟨a', hleft⟩
          · exact .inl hleft
      · exact hother heq
  | drop other =>
    simp only [System.step]
    split
    · exact h
    · by_cases heq : other = who
      · subst heq
        exact .inl (active_put other _)
      · exact hother heq
  | elapse duration => exact h
  | stir net => exact h
  | close => exact h

/-- **Nothing but the asking attempt is left of the invocation**, until it is over. -/
theorem Meanwhile.isAsking (h : s.Meanwhile who s') (hs : s.IsAsking who inv id) : s'.IsAsking who inv id := by
  induction h with
  | refl => exact hs
  | step e he h ih => exact ih.step he
  | operate op h ih => exact ih

/-- **`ASK` is one shot.** A plain attempt of an invocation with a slot ends in `ASK`; until then the turn
has only lent links. If the client is closed, or the budget is spent, the invocation is over in the same
turn, with the redirect as the cause, and nothing else is done. Otherwise the next attempt begins, an
asking one at the pool of the node that was named, made if there was none, and costs one of those that
were left. No entry of a table changes.

An asking attempt keeps to its pool, and does no more to the topology than to lend links. Each of its
turns brings it further or settles the invocation with what the attempt has come to. Its body starts in
the turn in which its announcement is answered, and if that is by an error the invocation is over. If
connections that are opened are new ones, the latest on its connection are the announcement and, when
it has been written, the commands of the body, in order and with nothing of any other caller in
between. Whatever happens, nothing is left of the invocation but this attempt, until it is over. -/
theorem ask_is_one_shot (hs : s.Arises setup) (who : Nat) {own : UInt16} (hslot : inv.slot = some own) :
    (∀ id a w started slot address, s.active who = some (.invoking inv (.attempting id false a)) →
      inv.stageTurn (s.seenBy who) (.attempting id false a) =
        (w, .done (.attempted id false ⟨started, .error (.ask slot address)⟩)) →
      s.world.topology.Quiet w.topology ∧
      (s.world.topology.closed = true →
        inv.turn (s.seenBy who) (.attempting id false a) = (w, .done (.error .clientClosed))) ∧
      (s.world.topology.closed = false → inv.budget.left = 0 →
        inv.turn (s.seenBy who) (.attempting id false a) =
          (w, .done (.error (.retriesExhausted inv.attempts (some own) inv.lastNode (.ask slot address))))) ∧
      (s.world.topology.closed = false → inv.budget.left ≠ 0 → inv.budget.deadline ≤ s.world.now →
        inv.turn (s.seenBy who) (.attempting id false a) =
          (w, .done (.error (.deadlineExceeded inv.attempts (some own) inv.lastNode (some (.ask slot address)))))) ∧
      (s.world.topology.closed = false → inv.budget.left ≠ 0 → s.world.now < inv.budget.deadline →
        ∃ inv' w' target, inv.turn (s.seenBy who) (.attempting id false a) =
            (w', .running (inv', .attempting target true (.borrowing true (.entering target)))) ∧
          w'.topology.registered? address = some target ∧ (w'.pool target).address = address ∧
          w'.topology.tables = s.world.topology.tables ∧ w'.topology.current = s.world.topology.current ∧
          w'.net = w.net ∧ inv'.slot = some own ∧ inv'.body = inv.body ∧ inv'.lastNode = some address ∧
          inv'.budget.left.toNat + 1 = inv.budget.left.toNat ∧
          ∀ s', (s.step (.turn who)).Meanwhile who s' → s'.IsAsking who inv' target)) ∧
    ∀ id a, s.active who = some (.invoking inv (.attempting id true a)) →
      a.On id true ∧
      s.world.topology.Quiet (inv.turn (s.seenBy who) (.attempting id true a)).1.topology ∧
      ((inv.turn (s.seenBy who) (.attempting id true a)).2 = .blocked ∨
        (∃ a', (inv.turn (s.seenBy who) (.attempting id true a)).2 = .running (inv, .attempting id true a')) ∨
        ∃ ended, inv.stageTurn (s.seenBy who) (.attempting id true a) =
            ((inv.turn (s.seenBy who) (.attempting id true a)).1, .done (.attempted id true ended)) ∧
          (inv.turn (s.seenBy who) (.attempting id true a)).2 =
            .done (Try.settlement inv.attempts (some own) inv.lastNode ended.result)) ∧
      (∀ now, .bodyStarted now ∈ Sight.ofTurn (s.seenBy who) inv (.attempting id true a) →
        ∃ x w link f, a = .announcing id x ∧ (s.seenBy who).exchange x = (w, .done (link, .ok f))) ∧
      (∀ x w link e, a = .announcing id x → (s.seenBy who).exchange x = (w, .done (link, .error e)) →
        (inv.turn (s.seenBy who) (.attempting id true a)).2 =
          .done (Try.settlement inv.attempts (some own) inv.lastNode (.error e))) ∧
      ((Traffic.openings s.world.net.record).Nodup → ∀ h first line,
        a.line? inv.body inv.started = some (h, first, line) →
        ∃ bs, Spoken who h s.world.net.record bs ∧ first <+: bs ∧ bs <+: line) := by
  refine ⟨fun id a w started slot address ha hended => ?_, fun id a ha => ?_⟩
  · have hkeeps := Invocation.keeps_of_stageTurn hended
    have hquiet : s.world.topology.Quiet w.topology := hkeeps.1
    have hnow : w.now = s.world.now := hkeeps.2
    obtain ⟨hclosed, hspent, hlate, hgoes⟩ := Invocation.ask_turn hslot hended
    -- the attempt has neither closed the client nor let time pass, so the state before the turn decides
    rw [hquiet.closed] at hclosed hspent hlate hgoes
    rw [hnow] at hlate hgoes
    refine ⟨hquiet, hclosed, hspent, hlate, fun hopen hleft hearly => ?_⟩
    obtain ⟨inv', hturn, hown, hbody, hnode, hbudget⟩ := hgoes hopen hleft hearly
    have hreg := Topology.registered?_obtain w.topology address
    have hgrows := Topology.Grows.obtain w.topology address
    have hnamed := (((hquiet.agrees hs.agrees).obtain address).made_of_registered? hreg).2
    have hactive : (s.step (.turn who)).active who = some (.invoking inv' (.attempting (w.obtain address).1 true
        (.borrowing true (.entering (w.obtain address).1)))) := by
      rw [step_turn ha, active_put, Activity.turn, hturn]
      rfl
    refine ⟨inv', _, _, hturn, hreg, hnamed, hgrows.tables.trans hquiet.tables,
      hgrows.current.trans hquiet.current, rfl, hown, hbody, hnode.trans (congrArg some hnamed), ?_,
      fun s' hlater => hlater.isAsking (.inr ⟨_, hactive⟩)⟩
    rw [hbudget]
    exact Budget.toNat_left_consume hleft
  · have hon := hs.on ha
    obtain ⟨hquiet, hcases⟩ := inv.asking_turn (s.seenBy who) id a
    rw [hslot] at hcases
    refine ⟨hon, hquiet, hcases, fun now hnow => ?_, ?_, fun hfresh h first line hline => ?_⟩
    · obtain ⟨hbefore, hbegun⟩ := Sight.hasBegun_of_bodyStarted hnow
      exact Attempt.answered_of_hasBegun hon hbefore hbegun
    · rintro x w link e rfl hx
      rw [Invocation.turn_of_refused hx, hslot]
    · exact (hs.asking hfresh who inv id a ha).spoken hline

end System

namespace Prompt

/-- What the first node sends to `b:1`, where it becomes a `PING`. -/
def lodging : Body Unit
  | 0, _ => .finish (.error (.ask 5 "b:1"))
  | _, [] => .send .ping
  | _, _ => .finish (.ok ())

/-- The invocation in its first attempt. -/
def lodger : Invocation Unit where
  policy := { maxAttempts := 2, retryDuration := 1, refreshAfter := 1 }
  body := lodging
  slot := some 5
  budget := ⟨2, 1, 1⟩
  lastNode := some "a:1"

/-- The first attempt waits for its link. -/
def lodged : System Prompt Unit :=
  ((blank.operate (.move 5 "a:1")).step (.start 0 (.invoke lodger.policy lodging (some 5) none))).step (.turn 0)

/-- The other node has answered the announcement, another caller has sent something to the first node,
and then the body has sent its command. -/
def welcomed : System Prompt Unit :=
  [.turn 0, .turn 0, .turn 0, .turn 0, .turn 0, .start 1 .refresh, .turn 1, .turn 1, .turn 1, .turn 1, .turn 0,
    .turn 0, .turn 0].foldl System.step (lodged.step (.turn 0))

theorem arises_lodged : lodged.Arises Topology.bare := by
  have hblank : blank.Arises Topology.bare := .start rfl fun _ => rfl
  exact .step _ (.step _ (.operate _ hblank))

theorem ended_lodged : (lodger.stageTurn (lodged.seenBy 0) (.attempting 0 false opening)).2 =
    .done (.attempted 0 false ⟨true, .error (.ask 5 "b:1")⟩) := by rfl

/-- The invocation in its last attempt. -/
def guest : Invocation Unit :=
  { lodger with budget := ⟨2, 0, 1⟩, lastNode := some "b:1", lastError := some (.ask 5 "b:1"), started := 1 }

/-- The reply to the command is awaited. -/
def welcome : Attempt :=
  .running 1 [] ⟨.waiting { handle := 1, address := "b:1", socketTimeout := milliseconds 2000, broken := true }
    (milliseconds 2000), none⟩

set_option maxRecDepth 100000 in
theorem active_welcomed : welcomed.active 0 = some (.invoking guest (.attempting 1 true welcome)) := by cbv

set_option maxRecDepth 100000 in
theorem record_welcomed : welcomed.world.net.record = [.wrote 0 1 Command.ping.encode true,
    .wrote 1 0 Command.clusterSlots.encode true, .took 0 1 ok, .wrote 0 1 Command.asking.encode true,
    .opened 0 1, .opened 0 0] := by cbv

/-- The asking attempt is made at the node that was named, and is the only one that is left; on its
connection there are the announcement and the command, though somebody else has sent something. -/
theorem ask_is_one_shot_lodged :
    lodged.Arises Topology.bare ∧ (lodged.step (.turn 0)).Meanwhile 0 welcomed ∧
    (∃ inv' w' target, lodger.turn (lodged.seenBy 0) (.attempting 0 false opening) =
        (w', .running (inv', .attempting target true (.borrowing true (.entering target)))) ∧
      w'.topology.registered? "b:1" = some target ∧ w'.topology.tables = lodged.world.topology.tables ∧
      welcomed.IsAsking 0 inv' target) ∧
    (∃ e ∈ welcomed.world.net.record, e.who = 1) ∧
    ∃ bs, Spoken 0 1 welcomed.world.net.record bs ∧ Command.asking.encode <+: bs ∧
      bs <+: Command.asking.encode ++ Command.ping.encode := by
  have hlater : (lodged.step (.turn 0)).Meanwhile 0 welcomed := System.Meanwhile.refl.foldl (by simp)
  have hslot : lodger.slot = some 5 := rfl
  obtain ⟨hask, -⟩ := System.ask_is_one_shot arises_lodged 0 hslot
  obtain ⟨-, -, -, -, hgoes⟩ := hask 0 opening _ true 5 "b:1" rfl (Prod.ext rfl ended_lodged)
  obtain ⟨inv', w', target, hturn, hreg, -, htables, -, -, -, -, -, -, hlast⟩ :=
    hgoes rfl (by decide) (by decide)
  have harises : welcomed.Arises Topology.bare := System.Arises.foldl (.step _ arises_lodged) _
  have hstill : guest.slot = some 5 := rfl
  obtain ⟨-, hasking⟩ := System.ask_is_one_shot harises 0 hstill
  obtain ⟨-, -, -, -, -, hspoken⟩ := hasking 1 welcome active_welcomed
  have hline : welcome.line? guest.body guest.started =
      some (1, Command.asking.encode, Command.asking.encode ++ Command.ping.encode) := by
    with_unfolding_all rfl
  have hother : ∃ e ∈ welcomed.world.net.record, e.who = 1 := by
    rw [record_welcomed]
    simp [Traffic.who]
  have hfresh : (Traffic.openings welcomed.world.net.record).Nodup := by
    rw [record_welcomed]
    decide
  exact ⟨arises_lodged, hlater, ⟨inv', w', target, hturn, hreg, htables, hlast welcomed hlater⟩, hother,
    hspoken hfresh _ _ _ hline⟩

end Prompt
end SlotRouter
