import SlotRouter.Proofs.Clock

/-!
# How searches for a node fail

A refresh fails because there is nobody left to ask, or because the client is closed, and never for
the sake of one connection (`Refresh.turn_error`). So a connection error of a search means that the
deadline has cut it off (`Refresh.refreshUntil_error`).
-/

namespace SlotRouter

variable {N α : Type} {w : World N}

namespace Discovery

variable [Network N] {e : Error}

theorem nextSeed_error {seeds : List String} (h : (nextSeed w seeds).2 = .done (.error e)) :
    e = .noReachableNode := by
  cases seeds with
  | nil =>
    cases h
    rfl
  | cons seed seeds => cases h

theorem nextNode_error {seeds nodes : List String}
    (h : (nextNode w seeds nodes).2 = .done (.error e)) :
    e = .noReachableNode := by
  induction nodes with
  | nil => exact nextSeed_error h
  | cons node nodes ih =>
    unfold nextNode at h
    split at h
    · cases h
    · exact ih h

/-- A search fails only when there is nobody left to ask. -/
theorem turn_error {d : Discovery} (h : (d.turn w).2 = .done (.error e)) :
    e = .noReachableNode := by
  cases d with
  | borrowing node nodes seeds b =>
    simp only [turn] at h
    rcases hb : b.turn w with ⟨w', _ | b' | e | loan⟩ <;> rw [hb] at h
    · cases h
    · cases h
    · exact nextNode_error h
    · cases h
  | querying node nodes seeds id x =>
    simp only [turn] at h
    rcases hx : w.exchange x with ⟨w', _ | x' | ⟨link, answer⟩⟩ <;> rw [hx] at h
    · cases h
    · cases h
    · dsimp only at h
      split at h
      · cases h
      · exact nextNode_error h
  | dialling seed seeds d =>
    simp only [turn] at h
    rcases hd : w.dialOn d with ⟨w', _ | d' | e | link⟩ <;> rw [hd] at h
    · cases h
    · cases h
    · exact nextSeed_error h
    · cases h
  | asking seed seeds x =>
    simp only [turn] at h
    rcases hx : w.exchange x with ⟨w', _ | x' | ⟨link, answer⟩⟩ <;> rw [hx] at h
    · cases h
    · cases h
    · dsimp only at h
      split at h
      · cases h
      · exact nextSeed_error h

end Discovery

namespace Refresh

variable {e : Error}

theorem install_error {t : Topology} {ranges : List SlotRange} (h : t.install ranges = .error e) :
    e = .clientClosed := by
  unfold Topology.install at h
  split_ifs at h
  exact (Except.error.inj h).symm

theorem searched_error {step : Discovery.Step}
    (hstep : ∀ e, step = .done (.error e) → e = .noReachableNode)
    (h : (searched w step).2 = .done (.error e)) : e = .noReachableNode ∨ e = .clientClosed := by
  rcases step with _ | d | found | ranges
  · cases h
  · cases h
  · obtain rfl := hstep _ rfl
    cases h
    exact .inl rfl
  · unfold searched finish at h
    dsimp only at h
    split at h
    · rename_i e' hinstall
      cases h
      exact .inr (install_error hinstall)
    · cases h

variable [Network N]

theorem locked_error {seen : Nat} (h : (locked w seen).2 = .done (.error e)) :
    e = .noReachableNode ∨ e = .clientClosed := by
  unfold locked at h
  split_ifs at h
  · cases h
    exact .inr rfl
  · cases h
  · exact searched_error (fun _ => Discovery.nextNode_error) h

/-- A refresh fails as nobody could be asked, or on a closed client. -/
theorem turn_error {r : Refresh} (h : (r.turn w).2 = .done (.error e)) :
    e = .noReachableNode ∨ e = .clientClosed := by
  cases r with
  | entering =>
    simp only [turn] at h
    split_ifs at h
    · cases h
      exact .inr rfl
    · split at h
      · exact locked_error h
      · cases h
      · cases h
  | queued seen ticket =>
    simp only [turn] at h
    split at h
    · exact locked_error h
    · cases h
  | discovering d => exact searched_error (fun _ => Discovery.turn_error) h

/-- **How a search for a node fails**: nobody could be asked, the client is closed, or the deadline has come. -/
theorem refreshUntil_cases {deadline : Nat} {w' : World N} {r : Refresh}
    (h : Invocation.refreshUntil deadline w r = (w', .done (.error e))) :
    e = .noReachableNode ∨ e = .clientClosed ∨ e = .timeout .topology ∧ deadline ≤ w'.now := by
  unfold Invocation.refreshUntil at h
  rcases hr : r.turn w with ⟨v, _ | r' | result⟩ <;> rw [hr] at h
  · dsimp only at h
    split_ifs at h with hlate
    · obtain ⟨rfl, hdone⟩ := Prod.mk.inj h
      obtain rfl := Except.error.inj (Turn.done.inj hdone)
      exact .inr (.inr ⟨rfl, by rwa [now_drop]⟩)
    · cases (Prod.mk.inj h).2
  · cases (Prod.mk.inj h).2
  · have hfailed : (r.turn w).2 = .done (.error e) := by
      rw [hr]
      exact (Prod.mk.inj h).2
    exact (turn_error hfailed).imp_right .inl

/-- It fails for the sake of a connection only when the deadline cuts it off. -/
theorem refreshUntil_error {deadline : Nat} {w' : World N} {r : Refresh}
    (h : Invocation.refreshUntil deadline w r = (w', .done (.error e))) (he : e.isConnectionError = true) :
    e = .timeout .topology ∧ deadline ≤ w'.now := by
  rcases refreshUntil_cases h with rfl | rfl | hlate
  · cases he
  · cases he
  · exact hlate

end Refresh

end SlotRouter
