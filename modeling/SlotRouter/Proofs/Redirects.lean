import Mathlib
import SlotRouter.Proofs.Agreement
import SlotRouter.Proofs.Steps

/-!
# What `MOVED` does

`MOVED` replaces one entry of the table in force and registers the node that it names, and changes
nothing else (`Topology.Repoints`). The next attempt is not told of the node: it looks the slot up
again. But it does so in the same turn, so nobody can come in between, and it goes to the node that
was named. An invocation makes attempts only if its slot is one of the cluster
(`System.Arises.served`), so the entry that it looks up is there.

Key definitions: `Topology.Repoints`, `Invocation.Stage.Served`. Key theorems: `Agrees.repoints`,
`System.moved_is_followed`.
-/

namespace SlotRouter

variable {N α : Type}

/-! ### The topology -/

namespace Topology

/-- An entry of the table in force is now the pool of an address, and nothing else has changed, but that
the pool has been made and registered if there was none. -/
structure Repoints (t t' : Topology) (slot : UInt16) (address : String) (target : PoolId) : Prop where
  entry : ∀ other, t'.poolFor? other =
    if other = slot.toNat ∧ slot.toNat < slotCount then some target else t.poolFor? other
  registered : t'.registered? address = some target
  named : (t'.pool target).address = address
  found : ∀ id, t.registered? address = some id →
    target = id ∧ t'.pools = t.pools ∧ t'.registry = t.registry
  made : t.registered? address = none →
    t'.pools = t.pools ++ [.fresh address t.setup.pool.maxConnections] ∧
      t'.registry = t.registry ++ [(address, target)]
  others : ∀ other, other ≠ address → t'.registered? other = t.registered? other
  pools : ∀ id < t.pools.length, t'.pool id = t.pool id
  /-- Earlier tables stay as they are. -/
  tables : ∀ table, table ≠ t.current → t'.tables[table]? = t.tables[table]?
  current : t'.current = t.current
  generation : t'.generation = t.generation
  closed : t'.closed = t.closed

variable {t : Topology}

/-- **A move replaces one entry.** -/
theorem Agrees.repoints (h : t.Agrees) (hopen : t.closed = false) (slot : UInt16) (address : String) :
    t.Repoints (t.move slot.toNat address).2 slot address (t.obtain address).1 := by
  have hreg := registered?_obtain t address
  have hmade := (h.obtain address).made_of_registered? hreg
  have hgrows := Grows.obtain t address
  have hlatest := (h.obtain address).latest
  rw [move_of_open hopen]
  refine ⟨fun other => ?_, hreg, hmade.2, fun id hid => ?_, fun hnone => ?_,
    fun other hother => registered?_obtain_of_ne hother, fun id hid => hgrows.pool hid,
    fun table htable => ?_, hgrows.current, hgrows.generation, hgrows.closed⟩
  · rw [poolFor?_setEntry (by omega), hgrows.poolFor?]
  · rw [obtain_of_registered hid]
    exact ⟨rfl, rfl, rfl⟩
  · rw [obtain_of_unregistered hnone]
    exact ⟨rfl, rfl⟩
  · rw [hgrows.current, Topology.setEntry, hgrows.tables]
    exact List.getElem?_modify_ne _ _ (Ne.symm htable)

end Topology

/-- The world in which a slot has moved to an address. -/
def World.moved (w : World N) (slot : UInt16) (address : String) : World N :=
  { w with topology := (w.topology.move slot.toNat address).2 }

/-! ### Who makes attempts -/

namespace Invocation

/-- If the invocation makes an attempt and has a slot, it is a slot of the cluster. -/
def Stage.Served (slot : Option UInt16) : Stage → Prop
  | .attempting .. => ∀ own, slot = some own → own.toNat < slotCount
  | _ => True

/-- What the invocation is busy with after a step suits its slot. -/
def Step.Served (step : Step α) : Prop :=
  ∀ inv stage, step = .running (inv, stage) → stage.Served inv.slot

variable {w : World N} {inv : Invocation α}

theorem served_done (result : Except Error α) : Step.Served (.done result : Step α) := by
  intro inv stage h
  cases h

theorem served_blocked : Step.Served (.blocked : Step α) := by
  intro inv stage h
  cases h

theorem served_running {stage : Stage} (h : stage.Served inv.slot) :
    Step.Served (.running (inv, stage) : Step α) := by
  rintro _ _ ⟨⟩
  exact h

theorem served_of_choose {slot : Option UInt16} {id : PoolId} {w' : World N}
    (h : choose w slot = (some id, w')) (own : UInt16) (hown : slot = some own) : own.toNat < slotCount := by
  subst hown
  exact SlotTable.lt_of_get? (Prod.mk.inj h).1

theorem served_beginAttempt (h : ∀ own, inv.slot = some own → own.toNat < slotCount) (id : PoolId)
    (asking : Bool) : (inv.beginAttempt w id asking).2.Served := served_running h

/-- An asking attempt is made only after another one, so the slot has been looked up before. -/
theorem served_next {target : Option String}
    (h : target.isSome = true → ∀ own, inv.slot = some own → own.toNat < slotCount) :
    (inv.next w target).2.Served := by
  unfold next
  split_ifs
  · exact served_done _
  · split
    · exact served_done _
    · cases target with
      | some address => exact served_beginAttempt (h rfl) _ true
      | none =>
        dsimp only
        rcases hc : choose w inv.slot with ⟨_ | id, w'⟩
        · exact served_running trivial
        · exact served_beginAttempt (served_of_choose hc) id false

theorem served_next_none (w : World N) (inv : Invocation α) : (inv.next w none).2.Served :=
  served_next fun h => absurd h Bool.false_ne_true

theorem served_recover (id? : Option PoolId) (e : Error) : (inv.recover w id? e).2.Served := by
  unfold recover
  dsimp only
  split_ifs
  · exact served_next_none _ _
  · exact served_running trivial

theorem served_resolved (result : Except Error Unit) : (inv.resolved w result).2.Served := by
  unfold resolved
  split
  · rcases hc : choose w inv.slot with ⟨_ | id, w'⟩
    · exact served_done _
    · exact served_beginAttempt (served_of_choose hc) id false
  · split_ifs
    · exact served_recover none _
    · exact served_done _

theorem served_attempted (h : ∀ own, inv.slot = some own → own.toNat < slotCount) (id : PoolId)
    (asking : Bool) (result : Except Error α) : (inv.attempted w id asking result).2.Served := by
  unfold attempted
  split
  · exact served_done _
  · split_ifs
    · exact served_done _
    · unfold retry
      split
      · exact served_next_none _ _
      · exact served_next fun _ => h
      · split_ifs
        · exact served_recover _ _
        · exact served_done _

/-- **A turn leaves the invocation busy with what suits its slot.** -/
theorem served_turn [Network N] {stage : Stage} (h : stage.Served inv.slot) (w : World N) :
    (inv.turn w stage).2.Served := by
  cases stage with
  | resolving r =>
    simp only [turn, stageTurn]
    rcases refreshUntil inv.budget.deadline w r with ⟨w', _ | r' | result⟩
    · exact served_blocked
    · exact served_running trivial
    · exact served_resolved result
  | attempting id asking a =>
    simp only [turn, stageTurn]
    rcases attemptUntil inv.budget.deadline w inv.body inv.started a with ⟨w', _ | a' | ended⟩
    · exact served_blocked
    · exact served_running h
    · exact served_attempted (by rwa [slot_noteStart]) id asking ended.result
  | pausing wake =>
    simp only [turn, stageTurn]
    split_ifs
    · exact served_running trivial
    · exact served_blocked
  | refreshing r =>
    simp only [turn, stageTurn]
    rcases refreshUntil inv.budget.deadline w r with ⟨w', _ | r' | result⟩
    · exact served_blocked
    · exact served_running trivial
    · exact served_next_none _ _

/-! ### The next attempt -/

variable {own : UInt16}

theorem choose_some (w : World N) (own : UInt16) :
    choose w (some own) = (w.topology.poolFor? own.toNat, w) := rfl

/-- A slot is looked up without a change to the world. -/
theorem world_next (hslot : inv.slot = some own) : (inv.next w none).1 = w := by
  unfold next
  rw [hslot, choose_some]
  split_ifs
  · rfl
  · split
    · rfl
    · cases w.topology.poolFor? own.toNat <;> rfl

/-- If the budget allows it and the slot is served, the next attempt begins at once. -/
theorem next_of_served (hslot : inv.slot = some own) (hopen : w.topology.closed = false)
    (hleft : inv.budget.left ≠ 0) (hearly : w.now < inv.budget.deadline) {id : PoolId}
    (hpool : w.topology.poolFor? own.toNat = some id) : inv.next w none = inv.beginAttempt w id false := by
  unfold next
  rw [hopen, exhaustion?_of_early hleft hearly, hslot, choose_some, hpool]
  rfl

/-- At the head of the loop neither the count of failures nor the deadline changes. -/
theorem NextStep.keeps {w' : World N} {inv' : Invocation α} {stage' : Stage}
    (h : NextStep w inv (w', .running (inv', stage'))) :
    inv'.failures = inv.failures ∧ inv'.budget.deadline = inv.budget.deadline := by
  generalize hr : (w', (.running (inv', stage') : Step α)) = r at h
  cases h with
  | closed | spent | late => cases (Prod.mk.inj hr).2
  | attempt | resolve =>
    obtain ⟨rfl, -⟩ := Prod.mk.inj (Turn.running.inj (Prod.mk.inj hr).2)
    exact ⟨rfl, rfl⟩

/-- What the invocation keeps when an attempt has been redirected. -/
def redirected (inv : Invocation α) (e : Error) : Invocation α :=
  { inv with failures := 0, lastError := some e }

variable [Network N] {before : World N} {id : PoolId} {a : Attempt} {started : Bool} {slot : UInt16}
    {address : String}

/-- By its end an attempt has lent links at most, and no time has passed in its turn. -/
theorem keeps_of_stageTurn {asking : Bool} {step : Turn Stage (Outcome α)}
    (h : inv.stageTurn before (.attempting id asking a) = (w, step)) :
    before.topology.Quiet w.topology ∧ w.now = before.now := by
  have hquiet := inv.quiet_stageTurn before id asking a
  have hnow := now_stageTurn before inv (.attempting id asking a)
  rw [h] at hquiet hnow
  exact ⟨hquiet, hnow⟩

/-- The rest of a turn in which a plain attempt ends in `MOVED` is the head of the loop, in the world
where the entry has been replaced. -/
theorem turn_of_moved (hslot : inv.slot = some own)
    (hended : inv.stageTurn before (.attempting id false a) =
      (w, .done (.attempted id false ⟨started, .error (.moved slot address)⟩))) :
    inv.turn before (.attempting id false a) =
      next (w.moved slot address) ((inv.noteStart started).redirected (.moved slot address)) none := by
  unfold turn
  rw [hended]
  exact retry_moved ((slot_noteStart inv started).trans hslot) id slot address

/-- What a turn comes to in which a plain attempt ends in `MOVED`. -/
theorem moved_turn (hslot : inv.slot = some own)
    (hended : inv.stageTurn before (.attempting id false a) =
      (w, .done (.attempted id false ⟨started, .error (.moved slot address)⟩)))
    (hagrees : w.topology.Agrees) (hopen : w.topology.closed = false) :
    (inv.turn before (.attempting id false a)).1 = w.moved slot address ∧
    (inv.turn before (.attempting id false a)).2 ≠ .blocked ∧
    (∀ inv' stage', (inv.turn before (.attempting id false a)).2 = .running (inv', stage') →
      inv'.failures = 0 ∧ inv'.budget.deadline = inv.budget.deadline) ∧
    (slot = own → own.toNat < slotCount → inv.budget.left ≠ 0 → w.now < inv.budget.deadline →
      ∃ inv', (inv.turn before (.attempting id false a)).2 = .running (inv', .attempting
          (w.topology.obtain address).1 false
          (.borrowing false (.entering (w.topology.obtain address).1))) ∧
        inv'.lastNode = some address ∧ inv'.budget = inv.budget.consume) := by
  rw [turn_of_moved hslot hended]
  have hrepoints := hagrees.repoints hopen slot address
  have hown : ((inv.noteStart started).redirected (.moved slot address)).slot = some own :=
    (slot_noteStart inv started).trans hslot
  have hbudget : ((inv.noteStart started).redirected (.moved slot address)).budget = inv.budget :=
    budget_noteStart inv started
  have hstep := next_step (w.moved slot address)
    ((inv.noteStart started).redirected (.moved slot address)) none
  refine ⟨world_next hown, hstep.ne_blocked, fun inv' stage' hrunning => ?_, ?_⟩
  · rcases hr : next (w.moved slot address) ((inv.noteStart started).redirected (.moved slot address)) none
      with ⟨w', step⟩
    rw [hr] at hstep hrunning
    obtain rfl := hrunning
    rw [← hbudget]
    exact hstep.keeps
  · rintro rfl hin hleft hearly
    have hserved : (w.moved slot address).topology.poolFor? slot.toNat =
        some (w.topology.obtain address).1 :=
      (hrepoints.entry slot.toNat).trans (if_pos ⟨rfl, hin⟩)
    rw [next_of_served hown (hrepoints.closed.trans hopen) (hbudget ▸ hleft) (hbudget ▸ hearly) hserved]
    exact ⟨_, rfl, congrArg some hrepoints.named, congrArg Budget.consume hbudget⟩

end Invocation

/-- If the activity makes an attempt for a slot, it is a slot of the cluster. -/
def Activity.Served : Activity α → Prop
  | .invoking inv stage => stage.Served inv.slot
  | .refreshing _ => True

theorem Activity.served_ofStep {before : Option (Activity α)} {step : Invocation.Step α} {a : Activity α}
    (hbefore : ∀ b, before = some b → b.Served) (hstep : step.Served) (h : ofStep before step = some a) :
    a.Served := by
  rcases step with _ | ⟨inv, stage⟩ | result
  · exact hbefore a h
  · obtain rfl := Option.some.inj h
    exact hstep inv stage rfl
  · cases h

theorem Activity.running_of_ofStep {before : Option (Activity α)} {step : Invocation.Step α}
    {inv : Invocation α} {stage : Invocation.Stage} (hgoes : step ≠ .blocked)
    (h : ofStep before step = some (.invoking inv stage)) : step = .running (inv, stage) := by
  rcases step with _ | ⟨inv', stage'⟩ | result
  · exact absurd rfl hgoes
  · obtain ⟨rfl, rfl⟩ := Activity.invoking.inj (Option.some.inj h)
    rfl
  · cases h

namespace System

variable [Network N] {setup : Setup} {s : System N α}

theorem Arises.served (hs : s.Arises setup) : ∀ who a, s.active who = some a → a.Served := by
  refine hs.forall_active (fun w request a ha => ?_) fun w a a' hserved ha' => ?_
  · cases request with
    | invoke policy body slot deadline =>
      have hbefore : ∀ b, (none : Option (Activity α)) = some b → b.Served := fun b hb => by cases hb
      exact Activity.served_ofStep hbefore (Invocation.served_next_none w _) ha
    | refresh =>
      obtain rfl := Option.some.inj ha
      trivial
  · cases a with
    | invoking inv stage =>
      refine Activity.served_ofStep ?_ (Invocation.served_turn hserved w) ha'
      rintro _ ⟨⟩
      exact hserved
    | refreshing r =>
      simp only [Activity.turn] at ha'
      rcases hr : r.turn w with ⟨w', _ | r' | result⟩ <;> rw [hr] at ha'
      · obtain rfl := Option.some.inj ha'
        trivial
      · obtain rfl := Option.some.inj ha'
        trivial
      · cases ha'

/-- **`MOVED` replaces one entry and is followed at once.** A plain attempt of a keyed invocation of an
open client ends in `MOVED`; until then the turn has only lent links. Then the entry of the slot that
has moved becomes the pool of the address, made if there was none, and nothing else of the topology
changes; nothing goes over the network. The invocation goes on with its failures forgotten and its
deadline as it was. If its own slot has moved and its budget allows another attempt, that attempt has
begun when the turn is over: it is a plain one at the node that was named, and costs one of those
that were left. -/
theorem moved_is_followed (hs : s.Arises setup) {who : Nat} {inv : Invocation α} {id : PoolId} {a : Attempt}
    {w : World (Watched N)} {own slot : UInt16} {address : String} {started : Bool}
    (ha : s.active who = some (.invoking inv (.attempting id false a))) (hslot : inv.slot = some own)
    (hended : inv.stageTurn (s.seenBy who) (.attempting id false a) =
      (w, .done (.attempted id false ⟨started, .error (.moved slot address)⟩)))
    (hopen : s.world.topology.closed = false) :
    s.world.topology.Quiet w.topology ∧
    ∃ target, w.topology.Repoints (s.step (.turn who)).world.topology slot address target ∧
      (s.step (.turn who)).world.net = w.net ∧
      (∀ inv' stage', (s.step (.turn who)).active who = some (.invoking inv' stage') →
        inv'.failures = 0 ∧ inv'.budget.deadline = inv.budget.deadline) ∧
      (slot = own → inv.budget.left ≠ 0 → s.world.now < inv.budget.deadline →
        ∃ inv', (s.step (.turn who)).active who =
            some (.invoking inv' (.attempting target false (.borrowing false (.entering target)))) ∧
          inv'.lastNode = some address ∧ inv'.budget.left.toNat + 1 = inv.budget.left.toNat) := by
  have hbefore := Invocation.keeps_of_stageTurn hended
  have hquiet : s.world.topology.Quiet w.topology := hbefore.1
  have hnow : w.now = s.world.now := hbefore.2
  have hrepoints := (hquiet.agrees hs.agrees).repoints (hquiet.closed.trans hopen) slot address
  have hserved : own.toNat < slotCount := hs.served who _ ha own hslot
  obtain ⟨hworld, hgoes, hkeeps, hfollowed⟩ :=
    Invocation.moved_turn hslot hended (hquiet.agrees hs.agrees) (hquiet.closed.trans hopen)
  have hstep : s.step (.turn who) = s.put who (Activity.turn (s.seenBy who)
      (.invoking inv (.attempting id false a))) := step_turn ha
  have hthen : (s.step (.turn who)).world = w.moved slot address := by
    rw [hstep]
    exact hworld
  have hactive : (s.step (.turn who)).active who = Activity.ofStep
      (some (.invoking inv (.attempting id false a))) (inv.turn (s.seenBy who) (.attempting id false a)).2 := by
    rw [hstep]
    exact active_put who _
  refine ⟨hquiet, (w.topology.obtain address).1, ?_, ?_, fun inv' stage' h => ?_, fun hown hleft hearly => ?_⟩
  · rw [hthen]
    exact hrepoints
  · rw [hthen]
    rfl
  · rw [hactive] at h
    exact hkeeps inv' stage' (Activity.running_of_ofStep hgoes h)
  · obtain ⟨inv', hrunning, hnode, hbudget⟩ := hfollowed hown hserved hleft (hnow ▸ hearly)
    refine ⟨inv', ?_, hnode, ?_⟩
    · rw [hactive, hrunning]
      rfl
    · rw [hbudget]
      exact Budget.toNat_left_consume hleft

end System

namespace Prompt

/-- A command on the slot `5` that every node sends to `b:1`. -/
def strayed : Request Unit :=
  .invoke { maxAttempts := 2, retryDuration := 1, refreshAfter := 1 }
    (fun _ _ => .finish (.error (.moved 5 "b:1"))) (some 5) none

/-- The first attempt waits for its link. -/
def led : System Prompt Unit :=
  ((blank.operate (.move 5 "a:1")).step (.start 0 strayed)).step (.turn 0)

theorem arises_led : led.Arises Topology.bare := by
  have hblank : blank.Arises Topology.bare := .start rfl fun _ => rfl
  exact .step _ (.step _ (.operate _ hblank))

/-- The invocation in its first attempt. -/
def once : Invocation Unit where
  policy := { maxAttempts := 2, retryDuration := 1, refreshAfter := 1 }
  body _ _ := .finish (.error (.moved 5 "b:1"))
  slot := some 5
  budget := ⟨2, 1, 1⟩
  lastNode := some "a:1"

/-- The link is being opened. -/
def opening : Attempt := .borrowing false (.dialling 0 (.connecting "a:1" 0 (milliseconds 2000)))

theorem active_led : led.active 0 = some (.invoking once (.attempting 0 false opening)) := by rfl

theorem ended_led : (once.stageTurn (led.seenBy 0) (.attempting 0 false opening)).2 =
    .done (.attempted 0 false ⟨true, .error (.moved 5 "b:1")⟩) := by rfl

/-- The next turn moves the slot to a node that was not known, and begins the last attempt there. -/
theorem moved_is_followed_led :
    led.Arises Topology.bare ∧ led.world.topology.registered? "b:1" = none ∧
    ∃ inv' target, (led.step (.turn 0)).world.topology.poolFor? 5 = some target ∧
      (led.step (.turn 0)).world.topology.registered? "b:1" = some target ∧
      (led.step (.turn 0)).active 0 =
        some (.invoking inv' (.attempting target false (.borrowing false (.entering target)))) ∧
      inv'.lastNode = some "b:1" ∧ inv'.budget.left.toNat + 1 = 1 := by
  obtain ⟨-, target, hrepoints, -, -, hfollowed⟩ :=
    System.moved_is_followed arises_led active_led rfl (Prod.ext rfl ended_led) rfl
  obtain ⟨inv', hactive, hnode, hleft⟩ := hfollowed rfl (by decide) (by decide)
  refine ⟨arises_led, by decide, inv', target, ?_, hrepoints.registered, hactive, hnode, hleft⟩
  exact (hrepoints.entry 5).trans (if_pos ⟨rfl, by decide⟩)

end Prompt
end SlotRouter
