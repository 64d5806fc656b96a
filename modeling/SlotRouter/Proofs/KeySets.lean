import Mathlib.Tactic.ByContra
import SlotRouter.Slot

/-!
# The one slot of some keys

Keys have a common slot if there is one at least and all are in that slot. So the order of the keys does not matter,
nor how often each is named, and it is no harm if some are left out as long as one remains.

If they have none, either there are no keys, or they go astray: one of them is not in the slot of the first, and
it is the earliest such key that is reported (`Slot.Strays`). With the key that a command writes in front of
those that it reads, the slot that is reported first is that of the key that is written.

Key definition: `Slot.Strays`. Key theorems: `Slot.common_eq_error_iff`, `Slot.key_sets_are_judged_exactly`.
-/

namespace SlotRouter.Slot

/-- The first key is in the slot `first`, and the earliest key that is not is in the slot `other`. -/
inductive Strays : List Bytes → (first other : UInt16) → Prop where
  | intro {key stray : Bytes} {same rest : List Bytes} (together : ∀ k ∈ same, ofKey k = ofKey key)
      (apart : ofKey stray ≠ ofKey key) : Strays (key :: (same ++ stray :: rest)) (ofKey key) (ofKey stray)

variable {keys others : List Bytes} {slot first other : UInt16} {e : Error}

theorem Strays.ne (h : Strays keys first other) : first ≠ other := by
  obtain ⟨-, apart⟩ := h
  exact apart.symm

/-- What is found first is behind keys that are all in the slot. -/
theorem stray?_eq_some_iff : stray? slot keys = some other ↔
    ∃ same stray rest, keys = same ++ stray :: rest ∧ (∀ k ∈ same, ofKey k = slot) ∧ ofKey stray = other ∧
      ofKey stray ≠ slot := by
  unfold stray?
  rw [List.find?_map, Option.map_eq_some_iff]
  constructor
  · rintro ⟨stray, hfound, rfl⟩
    obtain ⟨hne, same, rest, rfl, hsame⟩ := List.find?_eq_some_iff_append.1 hfound
    exact ⟨same, stray, rest, rfl, by simpa using hsame, rfl, by simpa using hne⟩
  · rintro ⟨same, stray, rest, rfl, hsame, rfl, hne⟩
    exact ⟨stray, List.find?_eq_some_iff_append.2
      ⟨by simpa using hne, same, rest, rfl, by simpa using hsame⟩, rfl⟩

/-- **Keys have no common slot exactly if there are none or they go astray**, and the error says which. -/
theorem common_eq_error_iff : common keys = .error e ↔
    (keys = [] ∧ e = .invalidArgument .noKeys) ∨ ∃ first other, Strays keys first other ∧ e = .crossSlot first other := by
  constructor
  · intro h
    unfold common at h
    split at h
    · exact .inl ⟨rfl, (Except.error.inj h).symm⟩
    · rename_i key keys
      split at h
      · rename_i other hstray
        obtain ⟨same, stray, rest, rfl, hsame, rfl, hne⟩ := stray?_eq_some_iff.1 hstray
        exact .inr ⟨_, _, .intro hsame hne, (Except.error.inj h).symm⟩
      · cases h
  · rintro (⟨rfl, rfl⟩ | ⟨_, _, @⟨key, stray, same, rest, hsame, hne⟩, rfl⟩)
    · rfl
    · have hstray : stray? (ofKey key) (same ++ stray :: rest) = some (ofKey stray) :=
        stray?_eq_some_iff.2 ⟨same, stray, rest, rfl, hsame, rfl, hne⟩
      simp only [common, hstray]

theorem common_eq_crossSlot_iff : common keys = .error (.crossSlot first other) ↔ Strays keys first other := by
  rw [common_eq_error_iff]
  constructor
  · rintro (⟨-, heq⟩ | ⟨first, other, hstrays, heq⟩)
    · cases heq
    · cases heq
      exact hstrays
  · exact fun h => .inr ⟨first, other, h, rfl⟩

theorem common_eq_invalidArgument_iff {misuse : Misuse} :
    common keys = .error (.invalidArgument misuse) ↔ keys = [] ∧ misuse = .noKeys := by
  rw [common_eq_error_iff]
  constructor
  · rintro (⟨hnone, heq⟩ | ⟨_, _, -, heq⟩)
    · cases heq
      exact ⟨hnone, rfl⟩
    · cases heq
  · rintro ⟨hnone, rfl⟩
    exact .inl ⟨hnone, rfl⟩

/-- Keys go astray exactly if two of them are in different slots. -/
theorem exists_strays_iff : (∃ first other, Strays keys first other) ↔ ∃ a ∈ keys, ∃ b ∈ keys, ofKey a ≠ ofKey b := by
  constructor
  · rintro ⟨_, _, @⟨key, stray, same, rest, -, hne⟩⟩
    exact ⟨stray, by simp, key, by simp, hne⟩
  · rintro ⟨a, ha, b, hb, hne⟩
    cases hcommon : common keys with
    | ok slot =>
      obtain ⟨-, hall⟩ := common_eq_ok_iff.1 hcommon
      exact absurd ((hall a ha).trans (hall b hb).symm) hne
    | error e =>
      rcases common_eq_error_iff.1 hcommon with ⟨rfl, -⟩ | ⟨first, other, hstrays, -⟩
      · cases ha
      · exact ⟨first, other, hstrays⟩

/-- A common slot is that of any keys among these. -/
theorem common_eq_ok_of_subset (h : common keys = .ok slot) (hsome : others ≠ []) (hamong : others ⊆ keys) :
    common others = .ok slot := by
  obtain ⟨-, hall⟩ := common_eq_ok_iff.1 h
  exact common_eq_ok_iff.2 ⟨hsome, fun key hkey => hall key (hamong hkey)⟩

/-- The same keys have the same common slot, in whatever order and however often they are named. -/
theorem common_eq_ok_iff_of_same (hsame : ∀ key, key ∈ others ↔ key ∈ keys) :
    common others = .ok slot ↔ common keys = .ok slot := by
  have hnone : others = [] ↔ keys = [] := by
    rw [List.eq_nil_iff_forall_not_mem, List.eq_nil_iff_forall_not_mem]
    exact forall_congr' fun key => not_congr (hsame key)
  rw [common_eq_ok_iff, common_eq_ok_iff, ne_eq, ne_eq, hnone]
  exact and_congr_right fun _ => forall_congr' fun key => imp_congr_left (hsame key)

/-- What is written and what is read have a common slot exactly if whatever is read is in the slot of what is
written. -/
theorem common_mergeKeys_eq_ok_iff {destination : Bytes} {sources : List Bytes} :
    common (mergeKeys destination sources) = .ok slot ↔
      ofKey destination = slot ∧ ∀ source ∈ sources, ofKey source = slot := by
  rw [common_eq_ok_iff, mergeKeys, List.forall_mem_cons]
  exact and_iff_right (List.cons_ne_nil _ _)

/-- If they have none, the slot of what is written is reported first. -/
theorem common_mergeKeys_eq_error_iff {destination : Bytes} {sources : List Bytes} :
    common (mergeKeys destination sources) = .error e ↔
      ∃ other, Strays (mergeKeys destination sources) (ofKey destination) other ∧
        e = .crossSlot (ofKey destination) other := by
  rw [common_eq_error_iff]
  constructor
  · rintro (⟨hnone, -⟩ | ⟨first, other, hstrays, rfl⟩)
    · cases hnone
    · have hfirst : first = ofKey destination := by
        unfold mergeKeys at hstrays
        cases hstrays
        rfl
      subst hfirst
      exact ⟨other, hstrays, rfl⟩
  · rintro ⟨other, hstrays, rfl⟩
    exact .inr ⟨_, other, hstrays, rfl⟩

/-- **Key sets are judged exactly, and not by their order.** There is a common slot exactly if there is a key and all
keys are in that slot; it stays the common slot of the same keys in any order and number, and of any of
them as long as there is one. Otherwise the list is empty, and just then the argument is called invalid, or two
keys are in different slots, and just then the keys are called apart: the first slot reported is that of the
first key, the other that of the earliest key that is not in it. Nothing else is reported. A key that is
written and keys that are read have a common slot exactly if these are all in the slot of the one that is
written; otherwise its slot is reported first, with that of the earliest that is not in it. -/
theorem key_sets_are_judged_exactly (keys : List Bytes) :
    (∀ slot, common keys = .ok slot ↔ keys ≠ [] ∧ ∀ key ∈ keys, ofKey key = slot) ∧
    (∀ others slot, (∀ key, key ∈ others ↔ key ∈ keys) → (common others = .ok slot ↔ common keys = .ok slot)) ∧
    (∀ others slot, others ≠ [] → others ⊆ keys → common keys = .ok slot → common others = .ok slot) ∧
    (∀ first other, common keys = .error (.crossSlot first other) ↔ Strays keys first other) ∧
    ((∃ first other, common keys = .error (.crossSlot first other)) ↔ ∃ a ∈ keys, ∃ b ∈ keys, ofKey a ≠ ofKey b) ∧
    (∀ first other, common keys = .error (.crossSlot first other) → first ≠ other) ∧
    (∀ misuse, common keys = .error (.invalidArgument misuse) ↔ keys = [] ∧ misuse = .noKeys) ∧
    (∀ e, common keys = .error e → e = .invalidArgument .noKeys ∨ ∃ first other, e = .crossSlot first other) ∧
    ∀ destination sources,
      (∀ slot, common (mergeKeys destination sources) = .ok slot ↔
        ofKey destination = slot ∧ ∀ source ∈ sources, ofKey source = slot) ∧
      ((∃ e, common (mergeKeys destination sources) = .error e) ↔ ∃ source ∈ sources, ofKey source ≠ ofKey destination) ∧
      ∀ e, common (mergeKeys destination sources) = .error e ↔
        ∃ other, Strays (mergeKeys destination sources) (ofKey destination) other ∧
          e = .crossSlot (ofKey destination) other := by
  refine ⟨fun slot => common_eq_ok_iff, fun others slot => common_eq_ok_iff_of_same,
    fun others slot hsome hamong h => common_eq_ok_of_subset h hsome hamong,
    fun first other => common_eq_crossSlot_iff, ?_, fun first other h => (common_eq_crossSlot_iff.1 h).ne,
    fun misuse => common_eq_invalidArgument_iff, fun e h => ?_,
    fun destination sources => ⟨fun slot => common_mergeKeys_eq_ok_iff, ?_, fun e => common_mergeKeys_eq_error_iff⟩⟩
  · simp only [common_eq_crossSlot_iff]
    exact exists_strays_iff
  · rcases common_eq_error_iff.1 h with ⟨-, rfl⟩ | ⟨first, other, -, rfl⟩
    · exact .inl rfl
    · exact .inr ⟨first, other, rfl⟩
  · constructor
    · rintro ⟨e, h⟩
      by_contra hnone
      have hall : ∀ source ∈ sources, ofKey source = ofKey destination := by simpa using hnone
      rw [common_mergeKeys_eq_ok_iff.2 ⟨rfl, hall⟩] at h
      cases h
    · rintro ⟨source, hsource, hne⟩
      cases hcommon : common (mergeKeys destination sources) with
      | ok slot =>
        obtain ⟨rfl, hall⟩ := common_mergeKeys_eq_ok_iff.1 hcommon
        exact absurd (hall source hsource) hne
      | error e => exact ⟨e, rfl⟩

/-- Keys with one tag, one of them named twice. -/
def company : List Bytes := [.ofText "\x7bt\x7da", .ofText "b\x7bt\x7d", .ofText "\x7bt\x7da"]

/-- A key of another slot is found behind them, where only the last comparison sees it, and in front of them. -/
theorem key_sets_are_judged_exactly_strayed :
    company ≠ [] ∧ common company = .ok 15891 ∧ common [.ofText "b\x7bt\x7d"] = .ok 15891 ∧
    common (company ++ [.ofText "foo"]) = .error (.crossSlot 15891 12182) ∧
    common (mergeKeys (.ofText "foo") company) = .error (.crossSlot 12182 15891) := by
  have hcompany : ∀ key ∈ company, ofKey key = 15891 := by decide +kernel
  have hfoo : ofKey (.ofText "foo") = 12182 := by decide +kernel
  have hsome : company ≠ [] := List.cons_ne_nil _ _
  obtain ⟨hok, -, hamong, -⟩ := key_sets_are_judged_exactly company
  obtain ⟨-, -, -, hcross, -, -, -, -, hmerge⟩ := key_sets_are_judged_exactly (company ++ [.ofText "foo"])
  have hall : common company = .ok 15891 := (hok 15891).2 ⟨hsome, hcompany⟩
  have hbehind : Strays (company ++ [.ofText "foo"]) (ofKey (.ofText "\x7bt\x7da")) (ofKey (.ofText "foo")) :=
    @Strays.intro _ _ company.tail [] (by decide +kernel) (by decide +kernel)
  have hinFront : Strays (.ofText "foo" :: company) (ofKey (.ofText "foo")) (ofKey (.ofText "\x7bt\x7da")) :=
    @Strays.intro _ _ [] company.tail (List.forall_mem_nil _) (by decide +kernel)
  rw [hcompany (.ofText "\x7bt\x7da") List.mem_cons_self, hfoo] at hbehind hinFront
  refine ⟨hsome, hall, hamong _ _ (List.cons_ne_nil _ _) (by decide) hall, (hcross _ _).2 hbehind, ?_⟩
  obtain ⟨-, -, herror⟩ := hmerge (.ofText "foo") company
  rw [hfoo] at herror
  exact (herror _).2 ⟨15891, hinFront, rfl⟩

end SlotRouter.Slot
