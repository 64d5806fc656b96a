import Mathlib.Logic.Function.Basic
import SlotRouter.Proofs.Custody

/-!
# Every connection is in one place

A connection is idle in one pool, or one party has it, and never both. All that this takes of the
network is that a connection that is opened is a new one; how the nodes answer does not matter.
Whatever one party does, the connections of the others stay out of its reach.

Key definition: `Placed`. Key theorems: `Placed.far`, `Placed.put`.
-/

namespace SlotRouter

open List

/-- Of the connections that have been opened, each is idle at most once, or one party has it. -/
structure Placed (t : Topology) (record : List Traffic) (held : Nat → Option Holding) : Prop where
  idle : (t.idle.map Link.handle).Nodup
  opened_idle : ∀ link ∈ t.idle, link.handle ∈ Traffic.openings record
  opened : ∀ who x, held who = some x → x.handle ∈ Traffic.openings record
  away : ∀ who x, held who = some x → ∀ link ∈ t.idle, link.handle ≠ x.handle
  apart : ∀ who other x y, who ≠ other → held who = some x → held other = some y → x.handle ≠ y.handle

variable {N : Type} {t t' : Topology} {record new : List Traffic} {held : Nat → Option Holding} {who other : Nat}
  {w w' : World (Watched N)} {H' : Option Holding} {x : Holding} {replies : Replies}

/-- If all connections have been new ones, those that were opened by some time have been. -/
theorem Traffic.nodup_openings_of_suffix {earlier : List Traffic} (h : (openings record).Nodup)
    (hsuf : earlier <:+ record) : (openings earlier).Nodup := by
  obtain ⟨new, rfl⟩ := hsuf
  rw [openings_append] at h
  exact (List.nodup_append.1 h).2.1

namespace Placed

theorem nobody (hidle : t.idle = []) : Placed t record fun _ => none := by
  refine ⟨?_, ?_, nofun, nofun, nofun⟩
  · rw [hidle]
    exact List.nodup_nil
  · rw [hidle]
    exact nofun

/-- Idle links may be dropped. -/
theorem drop_idle (h : Placed t record held) (hsub : t'.idle <+ t.idle) : Placed t' record held where
  idle := h.idle.sublist (hsub.map Link.handle)
  opened_idle link hlink := h.opened_idle link (hsub.subset hlink)
  opened := h.opened
  away who x hx link hlink := h.away who x hx link (hsub.subset hlink)
  apart := h.apart

theorem nodup_owned (h : Placed w.topology w.net.record held) (who : Nat) : (owned w (held who)).Nodup := by
  unfold owned
  cases hx : held who with
  | none => simpa using h.idle
  | some x =>
    refine List.nodup_append.2 ⟨h.idle, by simp, ?_⟩
    rintro a ha _ hb rfl
    obtain ⟨link, hlink, rfl⟩ := List.mem_map.1 ha
    exact h.away who x hx link hlink (by simpa using hb)

theorem opened_owned (h : Placed w.topology w.net.record held) {g : Handle} (hg : g ∈ owned w (held who)) :
    g ∈ Traffic.openings w.net.record := by
  rcases List.mem_append.1 hg with hidle | hheld
  · obtain ⟨link, hlink, rfl⟩ := List.mem_map.1 hidle
    exact h.opened_idle link hlink
  · obtain ⟨x, hx, rfl⟩ : ∃ x, held who = some x ∧ x.handle = g := by simpa using hheld
    exact h.opened who x hx

/-- **What another party has is out of reach**: it is neither idle nor new, and this one does not have
it. -/
theorem far (h : Placed w.topology w.net.record held) (hfresh : (Traffic.openings (new ++ w.net.record)).Nodup)
    (hx : held other = some x) (hne : other ≠ who) : x.handle ∉ Traffic.openings new ++ owned w (held who) := by
  intro hmem
  rcases List.mem_append.1 hmem with hnew | howned
  · rw [Traffic.openings_append] at hfresh
    exact (List.nodup_append.1 hfresh).2.2 _ hnew _ (h.opened other x hx) rfl
  · rcases List.mem_append.1 howned with hidle | hheld
    · obtain ⟨link, hlink, heq⟩ := List.mem_map.1 hidle
      exact h.away other x hx link hlink heq
    · obtain ⟨y, hy, heq⟩ : ∃ y, held who = some y ∧ y.handle = x.handle := by simpa using hheld
      exact h.apart other who x y hne hx hy heq.symm

/-- **A piece of work of one party touches nobody else's connection.** -/
theorem exists_far (h : Placed w.topology w.net.record held) (m : Moves replies w (held who) w' H')
    (hfresh : (Traffic.openings w'.net.record).Nodup) :
    ∃ new, w'.net.record = new ++ w.net.record ∧ (∀ e ∈ new, e.who = w.net.who) ∧
      ∀ other x, other ≠ who → held other = some x → ∀ e ∈ new, e.handle ≠ x.handle := by
  obtain ⟨new, hrecord, hnew, -⟩ := m.exists_new
  rw [hrecord] at hfresh
  refine ⟨new, hrecord, fun e he => (hnew e he).1, fun other x hne hx e he heq => ?_⟩
  exact h.far hfresh hx hne (heq ▸ (hnew e he).2)

/-- **A piece of work of one party leaves every connection in one place.** -/
theorem put (h : Placed w.topology w.net.record held) (m : Moves replies w (held who) w' H')
    (hfresh : (Traffic.openings w'.net.record).Nodup) :
    Placed w'.topology w'.net.record (Function.update held who H') := by
  obtain ⟨hnodup, hopened⟩ := m.owned_apart hfresh (h.nodup_owned who) fun g => h.opened_owned
  obtain ⟨new, hrecord, -, hsub⟩ := m.exists_new
  rw [hrecord] at hfresh hopened ⊢
  have hold : ∀ g ∈ Traffic.openings w.net.record, g ∈ Traffic.openings (new ++ w.net.record) := by
    intro g hg
    rw [Traffic.openings_append]
    exact List.mem_append_right _ hg
  have hidle : ∀ link ∈ w'.topology.idle, link.handle ∈ owned w' H' := fun link hlink =>
    List.mem_append_left _ (List.mem_map_of_mem hlink)
  have hown : ∀ {x}, Function.update held who H' who = some x → x.handle ∈ owned w' H' := by
    intro x hx
    rw [Function.update_self] at hx
    exact List.mem_append_right _ (by simp [hx])
  have hother : ∀ {o x}, o ≠ who → Function.update held who H' o = some x →
      held o = some x ∧ x.handle ∉ owned w' H' := by
    intro o x hne hx
    rw [Function.update_of_ne hne] at hx
    exact ⟨hx, fun hmem => h.far hfresh hx hne (hsub.subset hmem)⟩
  refine ⟨(List.nodup_append.1 hnodup).1, fun link hlink => hopened _ (hidle link hlink), fun o x hx => ?_,
    fun o x hx link hlink => ?_, fun o o' x y hne hx hy => ?_⟩
  · by_cases ho : o = who
    · subst ho
      exact hopened _ (hown hx)
    · exact hold _ (h.opened o x (hother ho hx).1)
  · by_cases ho : o = who
    · subst ho
      rw [Function.update_self] at hx
      exact (List.nodup_append.1 hnodup).2.2 _ (List.mem_map_of_mem hlink) _ (by simp [hx])
    · exact fun heq => (hother ho hx).2 (heq ▸ hidle link hlink)
  · by_cases ho : o = who
    · subst ho
      exact fun heq => (hother hne.symm hy).2 (heq ▸ hown hx)
    · by_cases ho' : o' = who
      · subst ho'
        exact fun heq => (hother ho hx).2 (heq ▸ hown hy)
      · exact h.apart o o' x y hne (hother ho hx).1 (hother ho' hy).1

end Placed

end SlotRouter
