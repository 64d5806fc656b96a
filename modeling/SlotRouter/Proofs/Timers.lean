import SlotRouter.Proofs.Steps

/-!
# Timers of those who wait

An activity that is blocked has not missed its timer: whenever a turn is blocked, the timer is still
to go off. So whoever wakes an activity at its timer never leaves it waiting for an instant that has
passed.

Key theorem: `Invocation.timer_blocked`.
-/

namespace SlotRouter

variable {N α : Type} [Network N] {now instant : Nat} {net : N} {w : World N}

theorem Exchange.timer_blocked {x : Exchange} (h : (x.turn now net).2 = .blocked)
    (ht : x.timer? = some instant) :
    now < instant := by
  cases x with
  | entering link c => cases ht
  | writing link octets deadline =>
    cases ht
    simp only [turn, write] at h
    rcases hsend : Network.send net now link.handle octets with ⟨net', _ | count | failure⟩ <;> simp only [hsend] at h
    · split_ifs at h with hlate
      exact Nat.lt_of_not_le hlate
    · split at h
      · cases h
      · split_ifs at h
    · cases h
  | waiting link deadline =>
    cases ht
    simp only [turn, await] at h
    split at h
    · cases h
    · cases h
    · split at h
      · cases h
      · cases h
      · cases h
      · split_ifs at h with hlate
        exact Nat.lt_of_not_le hlate

theorem Dial.timer_blocked {config : ConnectionConfig} {d : Dial}
    (h : (d.turn config now net).2 = .blocked) (ht : d.timer? = some instant) : now < instant := by
  have hconnected : ∀ link, afterConnect config link ≠ .blocked := by
    intro link
    unfold afterConnect afterAuth
    split
    · exact nofun
    · split <;> exact nofun
  have hproved : ∀ link, afterAuth config link ≠ .blocked := by
    intro link
    unfold afterAuth
    split <;> exact nofun
  cases d with
  | connecting address handle deadline =>
    cases ht
    simp only [turn] at h
    split at h
    · exact absurd h (hconnected _)
    · cases h
    · split_ifs at h with hlate
      exact Nat.lt_of_not_le hlate
  | authenticating x =>
    simp only [turn] at h
    rcases hx : x.turn now net with ⟨net', _ | x' | ⟨link, e | f⟩⟩ <;> rw [hx] at h
    · exact Exchange.timer_blocked (congrArg Prod.snd hx) ht
    · cases h
    · cases h
    · exact absurd h (hproved link)
  | naming x =>
    simp only [turn] at h
    rcases hx : x.turn now net with ⟨net', _ | x' | ⟨link, e | f⟩⟩ <;> rw [hx] at h
    · exact Exchange.timer_blocked (congrArg Prod.snd hx) ht
    · cases h
    · cases h
    · cases h

theorem Borrow.timer_blocked {b : Borrow} (h : (b.turn w).2 = .blocked)
    (ht : b.timer? = some instant) :
    w.now < instant := by
  have hpermitted : ∀ (w : World N) id, (permitted w id).2 ≠ .blocked := by
    intro w id
    unfold permitted
    rcases (w.pool id).takeIdle with ⟨_ | link, p⟩ <;> exact nofun
  cases b with
  | entering id => cases ht
  | queued id ticket deadline =>
    cases ht
    simp only [turn] at h
    split at h
    · cases h
    · exact absurd h (hpermitted _ id)
    · split_ifs at h with hlate
      exact Nat.lt_of_not_le hlate
  | dialling id d =>
    simp only [turn] at h
    rcases hd : w.dialOn d with ⟨w', _ | d' | e | link⟩ <;> simp only [hd] at h
    · exact Dial.timer_blocked (Prod.mk.inj hd).2 ht
    · cases h
    · cases h
    · cases h

/-- The earlier of two timers that are still to go off is still to go off. -/
theorem lt_earlier? {a? b? : Option Nat} (ha : ∀ a, a? = some a → now < a)
    (hb : ∀ b, b? = some b → now < b) (h : earlier? a? b? = some instant) : now < instant := by
  rcases a? with _ | a
  · exact hb instant h
  · rcases b? with _ | b
    · exact ha instant h
    · cases h
      exact Nat.lt_min.2 ⟨ha a rfl, hb b rfl⟩

theorem Patience.timer_blocked {p : Patience} (h : (p.turn w).2 = .blocked)
    (ht : p.timer? = some instant) :
    w.now < instant := by
  have hnow : ∀ w' t, w.exchange p.exchange = (w', t) → w'.now = w.now := fun _ _ => World.now_exchange
  unfold turn at h
  rcases hx : w.exchange p.exchange with ⟨w', _ | x' | ⟨link, answer⟩⟩ <;> simp only [hx] at h
  · refine lt_earlier? (fun _ => Exchange.timer_blocked (Prod.mk.inj hx).2) (fun until' huntil => ?_) ht
    rw [huntil] at h
    dsimp only at h
    split_ifs at h with hlate
    rw [hnow _ _ hx] at hlate
    exact Nat.lt_of_not_le hlate
  · cases h
  · cases h

theorem Attempt.timer_blocked {body : Body α} {started : Nat} {a : Attempt}
    (h : (a.turn w body started).2 = .blocked)
    (ht : a.timer? = some instant) : w.now < instant := by
  have hproceed : ∀ (w : World N) id link heard, (proceed w body started id link heard).2 ≠ .blocked := by
    intro w id link heard
    unfold proceed
    split <;> exact nofun
  cases a with
  | borrowing asking b =>
    simp only [turn] at h
    rcases hb : b.turn w with ⟨w', _ | b' | e | loan⟩ <;> simp only [hb] at h
    · exact Borrow.timer_blocked (congrArg Prod.snd hb) ht
    · cases h
    · cases h
    · split_ifs at h
      exact absurd h (hproceed _ _ _ _)
  | announcing id x =>
    simp only [turn] at h
    rcases hx : w.exchange x with ⟨w', _ | x' | ⟨link, e | f⟩⟩ <;> simp only [hx] at h
    · exact Exchange.timer_blocked (Prod.mk.inj hx).2 ht
    · cases h
    · cases h
    · exact absurd h (hproceed _ _ _ _)
  | running id heard p =>
    simp only [turn] at h
    rcases hp : p.turn w with ⟨w', _ | p' | ⟨link, answer⟩⟩ <;> simp only [hp] at h
    · exact Patience.timer_blocked (congrArg Prod.snd hp) ht
    · cases h
    · exact absurd h (hproceed _ _ _ _)
  | resting id heard link wake =>
    cases ht
    simp only [turn] at h
    split_ifs at h with hlate
    · exact absurd h (hproceed _ _ _ _)
    · exact Nat.lt_of_not_le hlate

namespace Discovery

theorem nextSeed_ne_blocked (w : World N) (seeds : List String) :
    (nextSeed w seeds).2 ≠ .blocked := by
  cases seeds <;> exact nofun

theorem nextNode_ne_blocked (w : World N) (seeds nodes : List String) :
    (nextNode w seeds nodes).2 ≠ .blocked := by
  induction nodes with
  | nil => exact nextSeed_ne_blocked w seeds
  | cons node nodes ih =>
    unfold nextNode
    split
    · exact nofun
    · exact ih

theorem timer_blocked {d : Discovery} (h : (d.turn w).2 = .blocked) (ht : d.timer? = some instant) :
    w.now < instant := by
  cases d with
  | borrowing node nodes seeds b =>
    simp only [turn] at h
    rcases hb : b.turn w with ⟨w', _ | b' | e | loan⟩ <;> simp only [hb] at h
    · exact Borrow.timer_blocked (congrArg Prod.snd hb) ht
    · cases h
    · exact absurd h (nextNode_ne_blocked _ _ _)
    · cases h
  | querying node nodes seeds id x =>
    simp only [turn] at h
    rcases hx : w.exchange x with ⟨w', _ | x' | ⟨link, answer⟩⟩ <;> simp only [hx] at h
    · exact Exchange.timer_blocked (Prod.mk.inj hx).2 ht
    · cases h
    · split at h
      · cases h
      · exact absurd h (nextNode_ne_blocked _ _ _)
  | dialling seed seeds d =>
    simp only [turn] at h
    rcases hd : w.dialOn d with ⟨w', _ | d' | e | link⟩ <;> simp only [hd] at h
    · exact Dial.timer_blocked (Prod.mk.inj hd).2 ht
    · cases h
    · exact absurd h (nextSeed_ne_blocked _ _)
    · cases h
  | asking seed seeds x =>
    simp only [turn] at h
    rcases hx : w.exchange x with ⟨w', _ | x' | ⟨link, answer⟩⟩ <;> simp only [hx] at h
    · exact Exchange.timer_blocked (Prod.mk.inj hx).2 ht
    · cases h
    · split at h
      · cases h
      · exact absurd h (nextSeed_ne_blocked _ _)

end Discovery

theorem Refresh.timer_blocked {r : Refresh} (h : (r.turn w).2 = .blocked)
    (ht : r.timer? = some instant) :
    w.now < instant := by
  cases r with
  | entering | queued => cases ht
  | discovering d =>
    refine Discovery.timer_blocked (d := d) ?_ ht
    rcases hd : d.turn w with ⟨w', _ | d' | found⟩
    · rfl
    · simp only [turn, hd] at h
      cases h
    · simp only [turn, hd] at h
      cases h

/-- **The timer of an invocation that waits is still to go off.** -/
theorem Invocation.timer_blocked {inv : Invocation α} {stage : Stage}
    (h : (inv.turn w stage).2 = .blocked)
    (ht : inv.timer? stage = some instant) : w.now < instant := by
  cases turn_waits h with
  | resolving hr early | refreshing hr early =>
    refine lt_earlier? (fun _ => Refresh.timer_blocked hr) ?_ ht
    rintro _ ⟨⟩
    exact early
  | attempting id asking ha early =>
    refine lt_earlier? (fun _ => Attempt.timer_blocked ha) ?_ ht
    rintro _ ⟨⟩
    exact early
  | pausing early =>
    cases ht
    exact early

end SlotRouter
