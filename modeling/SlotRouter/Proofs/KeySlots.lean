import SlotRouter.Proofs.Checksum
import SlotRouter.Proofs.Tags

/-!
# The slot of every key

A key either has a hash tag or it has none, and there are three ways not to have one: no opening brace, no closing
brace behind the first opening one, or nothing between the two (`Slot.Untagged`). With a tag the slot is the
remainder of the tag, whatever stands around it, else that of the whole key. A tag has no tag of its own
(`Slot.Tagged.untagged`), so a key has the slot of its tag, and all keys with one tag have one slot.

Key definition: `Slot.Untagged`. Key theorems: `Slot.tagged_iff_not_untagged`, `Slot.every_key_has_its_slot`.
-/

namespace SlotRouter.Slot

variable {key before tag after : Bytes}

/-- The key has no hash tag: no brace opens one, none closes it, or it is empty. -/
inductive Untagged : Bytes → Prop where
  | unopened {key : Bytes} (h : opening ∉ key) : Untagged key
  | unclosed {before rest : Bytes} (first : opening ∉ before) (h : closing ∉ rest) :
      Untagged (before ++ opening :: rest)
  | hollow {before rest : Bytes} (first : opening ∉ before) : Untagged (before ++ opening :: closing :: rest)

theorem cutAt_of_not_mem {b : UInt8} {bs : Bytes} (h : b ∉ bs) : cutAt b bs = (bs, none) := by
  have hall : ∀ c ∈ bs, (c != b) = true := by
    intro c hc
    have hne : c ≠ b := fun heq => h (heq ▸ hc)
    simpa using hne
  have htake : bs.takeWhile (· != b) = bs := List.takeWhile_eq_self_iff.2 hall
  have hdrop : bs.dropWhile (· != b) = [] := List.dropWhile_eq_nil_iff.2 hall
  unfold cutAt
  rw [htake, hdrop]

theorem Untagged.tag?_eq_none (h : Untagged key) : tag? key = none := by
  unfold tag?
  cases h with
  | unopened h => rw [cutAt_of_not_mem h]
  | unclosed first h =>
    rw [cutAt_append first]
    dsimp only
    rw [cutAt_of_not_mem h]
    split
    · rfl
    · rfl
    · rename_i heq
      cases heq
  | @hollow before rest first =>
    rw [cutAt_append first]
    dsimp only
    rw [show closing :: rest = [] ++ closing :: rest from rfl, cutAt_append (List.not_mem_nil)]

/-- A key that has no tag lacks it in one of the three ways. -/
theorem tagged_or_untagged (key : Bytes) : (∃ before tag after, Tagged key before tag after) ∨ Untagged key := by
  by_cases hopen : opening ∈ key
  · obtain ⟨before, rest, rfl, hfirst⟩ := List.eq_append_cons_of_mem hopen
    by_cases hclose : closing ∈ rest
    · obtain ⟨tag, after, rfl, hnext⟩ := List.eq_append_cons_of_mem hclose
      rcases tag with _ | ⟨c, tag⟩
      · exact .inr (.hollow hfirst)
      · exact .inl ⟨before, c :: tag, after, rfl, hfirst, List.cons_ne_nil c tag, hnext⟩
    · exact .inr (.unclosed hfirst hclose)
  · exact .inr (.unopened hopen)

/-- **A key has a tag or it has none, and not both.** -/
theorem tagged_iff_not_untagged : (∃ before tag after, Tagged key before tag after) ↔ ¬Untagged key := by
  constructor
  · rintro ⟨before, tag, after, h⟩ huntagged
    have htag : tag? key = some tag := tag?_eq_some_iff.2 ⟨before, after, h⟩
    rw [huntagged.tag?_eq_none] at htag
    cases htag
  · intro h
    exact (tagged_or_untagged key).resolve_right h

theorem Tagged.hashed_eq (h : Tagged key before tag after) : hashed key = tag := by
  rw [hashed, tag?_eq_some_iff.2 ⟨before, after, h⟩, Option.getD_some]

theorem Untagged.hashed_eq (h : Untagged key) : hashed key = key := by
  rw [hashed, h.tag?_eq_none, Option.getD_none]

/-- A tag has no tag of its own, since nothing in it would close it. -/
theorem Tagged.untagged (h : Tagged key before tag after) : Untagged tag := by
  by_contra hnot
  obtain ⟨before', tag', after', h'⟩ := tagged_iff_not_untagged.2 hnot
  refine h.next ?_
  rw [h'.form]
  simp

theorem hashed_hashed (key : Bytes) : hashed (hashed key) = hashed key := by
  rcases tagged_or_untagged key with ⟨before, tag, after, h⟩ | h
  · rw [h.hashed_eq, h.untagged.hashed_eq]
  · rw [h.hashed_eq, h.hashed_eq]

theorem ofKey_eq_remainder (key : Bytes) : ofKey key = Crc16.remainder (hashed key) % 16384 := by
  rw [ofKey, Crc16.checksum_eq_remainder]

/-- **Every key has the slot that nodes give it.** The remainder of octets is that of the polynomial with their bits,
sixteen places up, on division by the generator. If the key is `P{T}S`, where `P` has no opening brace and
`T` is not empty and has no closing one, its slot is the remainder of `T` modulo the number of slots,
which is the slot of `T`. In every other case, and these are the keys without opening brace, those
without closing brace behind the first one, and those with nothing between the two, it is the remainder
of the whole key. So what is hashed of a key has the slot of the key, and keys with one tag have one slot. -/
theorem every_key_has_its_slot (key : Bytes) :
    (∀ bs, Crc16.poly (Crc16.remainder bs) =
      (Crc16.message (bs.flatMap Crc16.bits) * Polynomial.X ^ 16) %ₘ Crc16.generator) ∧
    (∀ before tag after, Tagged key before tag after →
      (ofKey key).toNat = (Crc16.remainder tag).toNat % slotCount ∧ ofKey key = ofKey tag) ∧
    (Untagged key → (ofKey key).toNat = (Crc16.remainder key).toNat % slotCount) ∧
    ((∃ before tag after, Tagged key before tag after) ↔ ¬Untagged key) ∧
    ofKey (hashed key) = ofKey key ∧
    ∀ other before tag after before' after',
      Tagged key before tag after → Tagged other before' tag after' → ofKey other = ofKey key := by
  have hmod (w : UInt16) : (w % 16384).toNat = w.toNat % slotCount := UInt16.toNat_mod w 16384
  refine ⟨Crc16.poly_remainder, fun before tag after h => ⟨?_, ?_⟩, fun h => ?_, tagged_iff_not_untagged, ?_, ?_⟩
  · rw [ofKey_eq_remainder, h.hashed_eq, hmod]
  · rw [ofKey_eq_remainder, ofKey_eq_remainder, h.hashed_eq, h.untagged.hashed_eq]
  · rw [ofKey_eq_remainder, h.hashed_eq, hmod]
  · rw [ofKey_eq_remainder, ofKey_eq_remainder, hashed_hashed]
  · intro other before tag after before' after' h h'
    rw [h.ofKey_eq, h'.ofKey_eq]

/-- Braces around and behind the tag do not matter, and a pair with nothing in it is no tag. -/
theorem every_key_has_its_slot_braced :
    Tagged (.ofText "a\x7d\x7bfoo\x7d\x7bbar\x7d") (.ofText "a\x7d") (.ofText "foo") (.ofText "\x7bbar\x7d") ∧
    (ofKey (.ofText "a\x7d\x7bfoo\x7d\x7bbar\x7d")).toNat = 12182 ∧
    Untagged (.ofText "foo\x7b\x7d\x7bbar\x7d") ∧
    (ofKey (.ofText "foo\x7b\x7d\x7bbar\x7d")).toNat = 8363 := by
  have htagged : Tagged (.ofText "a\x7d\x7bfoo\x7d\x7bbar\x7d") (.ofText "a\x7d") (.ofText "foo")
      (.ofText "\x7bbar\x7d") := ⟨by decide, by decide, by decide, by decide⟩
  have huntagged : Untagged (.ofText "foo\x7b\x7d\x7bbar\x7d") := by
    have hform : Bytes.ofText "foo\x7b\x7d\x7bbar\x7d" =
        Bytes.ofText "foo" ++ opening :: closing :: Bytes.ofText "\x7bbar\x7d" := by decide
    rw [hform]
    exact .hollow (by decide)
  have htag : (Crc16.remainder (.ofText "foo")).toNat % slotCount = 12182 := by decide +kernel
  have hwhole : (Crc16.remainder (.ofText "foo\x7b\x7d\x7bbar\x7d")).toNat % slotCount = 8363 := by decide +kernel
  obtain ⟨-, hslot, -⟩ := every_key_has_its_slot (.ofText "a\x7d\x7bfoo\x7d\x7bbar\x7d")
  obtain ⟨-, -, hslot', -⟩ := every_key_has_its_slot (.ofText "foo\x7b\x7d\x7bbar\x7d")
  exact ⟨htagged, (hslot _ _ _ htagged).1.trans htag, huntagged, (hslot' huntagged).trans hwhole⟩

end SlotRouter.Slot
