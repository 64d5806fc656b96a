import Mathlib.Data.List.TakeWhile
import SlotRouter.Client

/-!
# Hash tags and the patterns that keep to one

A key has a hash tag exactly if it is `P{T}S` where `P` has no opening brace and `T` is not empty and
has no closing one; then `T` is its tag, whatever `P` and `S` are (`Slot.Tagged`). A pattern is anchored
exactly if it has this form and nothing in `P` and `T` means more than itself. So, whatever a matcher
does with the rest of the pattern, a key that it accepts starts with `P{T}` and has the tag of the
pattern: the owner of that one slot has every key that matches.

Key definitions: `Slot.Tagged`, `Slot.Plain`, `Slot.Literal`, `Slot.Globs`. Key theorems:
`Slot.tag?_eq_some_iff`, `Slot.isAnchored_iff`, `Slot.ofKey_of_accepted`, `Call.pattern_misses_no_key`.
-/

namespace SlotRouter

namespace Slot

variable {key pattern before tag after : Bytes} {b : UInt8}

/-! ### Tags -/

/-- The key is `before{tag}after`, and the braces are the ones that count. -/
structure Tagged (key before tag after : Bytes) : Prop where
  form : key = before ++ opening :: (tag ++ closing :: after)
  first : opening ∉ before
  ne_nil : tag ≠ []
  next : closing ∉ tag

theorem not_mem_takeWhile_ne (b : UInt8) (bs : Bytes) : b ∉ bs.takeWhile (· != b) := by
  intro hmem
  have hne := List.mem_takeWhile_imp hmem
  simp at hne

/-- A text is cut at the first octet of the kind. -/
theorem cutAt_append (h : b ∉ before) (after : Bytes) :
    cutAt b (before ++ b :: after) = (before, some after) := by
  have hall : ∀ c ∈ before, (c != b) = true := by
    intro c hc
    have hne : c ≠ b := fun heq => h (heq ▸ hc)
    simpa using hne
  have htake : (before ++ b :: after).takeWhile (· != b) = before := by
    rw [List.takeWhile_append_of_pos hall]
    simp
  have hdrop : (before ++ b :: after).dropWhile (· != b) = b :: after := by
    rw [List.dropWhile_append_of_pos hall]
    simp
  unfold cutAt
  rw [htake, hdrop]

theorem eq_of_cutAt {bs : Bytes} (h : cutAt b bs = (before, some after)) :
    bs = before ++ b :: after ∧ b ∉ before := by
  unfold cutAt at h
  obtain ⟨rfl, hrest⟩ := Prod.mk.inj h
  refine ⟨?_, not_mem_takeWhile_ne b bs⟩
  cases hdrop : bs.dropWhile (· != b) with
  | nil =>
    rw [hdrop] at hrest
    cases hrest
  | cons c rest =>
    rw [hdrop] at hrest
    obtain rfl := Option.some.inj hrest
    -- what stopped the search is the octet itself
    have hne : bs.dropWhile (· != b) ≠ [] := by simp [hdrop]
    have hhead := List.head_dropWhile_not (· != b) hne
    have hc : c = b := by simpa [hdrop] using hhead
    rw [← hc, ← hdrop, hc]
    exact (List.takeWhile_append_dropWhile ..).symm

/-- **The tag of a key is what stands between the first opening brace and the next closing one**, if
that is something. -/
theorem tag?_eq_some_iff : tag? key = some tag ↔ ∃ before after, Tagged key before tag after := by
  constructor
  · intro h
    unfold tag? at h
    rcases hopen : cutAt opening key with ⟨before, _ | rest⟩ <;> rw [hopen] at h
    · cases h
    · obtain ⟨hkey, hfirst⟩ := eq_of_cutAt hopen
      rcases hclose : cutAt closing rest with ⟨_ | ⟨c, cs⟩, _ | after⟩ <;> simp only [hclose] at h
      · cases h
      · cases h
      · cases h
      · obtain rfl := Option.some.inj h
        obtain ⟨hrest, hnext⟩ := eq_of_cutAt hclose
        exact ⟨before, after, hkey.trans (by rw [hrest]), hfirst, List.cons_ne_nil c cs, hnext⟩
  · rintro ⟨before, after, rfl, hfirst, hne, hnext⟩
    unfold tag?
    rw [cutAt_append hfirst]
    dsimp only
    rw [cutAt_append hnext]
    cases tag with
    | nil => exact absurd rfl hne
    | cons c cs => rfl

/-- The tag alone decides the slot. -/
theorem Tagged.ofKey_eq (h : Tagged key before tag after) : ofKey key = Crc16.checksum tag % 16384 := by
  have htag : tag? key = some tag := tag?_eq_some_iff.2 ⟨before, after, h⟩
  unfold ofKey hashed
  rw [htag, Option.getD_some]

/-! ### Patterns -/

/-- Every octet stands for itself in a pattern. -/
def Plain (bs : Bytes) : Prop := ∀ b ∈ bs, isGlob b = false

/-- In what a matcher accepts, an octet that stands for itself at the front of a pattern is the first
one of the key. -/
def Literal (accepts : Bytes → Bytes → Prop) : Prop :=
  ∀ b pattern key, isGlob b = false → accepts (b :: pattern) key →
    ∃ rest, key = b :: rest ∧ accepts pattern rest

theorem any_isGlob_eq_false {bs : Bytes} : bs.any isGlob = false ↔ Plain bs := by
  unfold Plain
  simp

/-- **A pattern is anchored exactly if it is `P{T}S` with a plain start and a plain tag.** -/
theorem isAnchored_iff : isAnchored pattern = true ↔
    ∃ before tag after, Tagged pattern before tag after ∧ Plain before ∧ Plain tag := by
  unfold isAnchored
  rw [Bool.and_eq_true, Bool.not_eq_true', any_isGlob_eq_false]
  constructor
  · rintro ⟨hbefore, htag⟩
    split at htag
    · rename_i tag hsome
      rw [Bool.not_eq_true', any_isGlob_eq_false] at htag
      obtain ⟨before, after, h⟩ := tag?_eq_some_iff.1 hsome
      rw [h.form, cutAt_append h.first] at hbefore
      exact ⟨before, tag, after, h, hbefore, htag⟩
    · cases htag
  · rintro ⟨before, tag, after, h, hbefore, htag⟩
    have hsome : tag? pattern = some tag := tag?_eq_some_iff.2 ⟨before, after, h⟩
    rw [hsome, h.form, cutAt_append h.first]
    exact ⟨hbefore, by rwa [Bool.not_eq_true', any_isGlob_eq_false]⟩

variable {accepts : Bytes → Bytes → Prop}

/-- A key that is accepted starts with the plain start of the pattern. -/
theorem Literal.append (hliteral : Literal accepts) {start : Bytes} (hplain : Plain start)
    (h : accepts (start ++ pattern) key) : ∃ rest, key = start ++ rest ∧ accepts pattern rest := by
  induction start generalizing key with
  | nil => exact ⟨key, rfl, h⟩
  | cons b start ih =>
    have hb : isGlob b = false := hplain b List.mem_cons_self
    obtain ⟨tail, rfl, htail⟩ := hliteral b (start ++ pattern) key hb h
    have hstart : Plain start := fun c hc => hplain c (List.mem_cons_of_mem b hc)
    obtain ⟨rest, rfl, hrest⟩ := ih hstart htail
    exact ⟨rest, rfl, hrest⟩

/-- What a pattern with a plain start and a plain tag accepts has that start and that tag. -/
theorem Tagged.of_accepted (h : Tagged pattern before tag after) (hbefore : Plain before) (htag : Plain tag)
    (hliteral : Literal accepts) (haccepts : accepts pattern key) : ∃ rest, Tagged key before tag rest := by
  have hplain : Plain (before ++ opening :: (tag ++ [closing])) := by
    intro b hb
    simp only [List.mem_append, List.mem_cons, List.not_mem_nil, or_false] at hb
    rcases hb with hb | rfl | hb | rfl
    · exact hbefore b hb
    · decide
    · exact htag b hb
    · decide
  have hform : pattern = (before ++ opening :: (tag ++ [closing])) ++ after := by
    rw [h.form]
    simp
  rw [hform] at haccepts
  obtain ⟨rest, hkey, -⟩ := hliteral.append hplain haccepts
  refine ⟨rest, ?_, h.first, h.ne_nil, h.next⟩
  rw [hkey]
  simp

/-- **A key that matches an anchored pattern is in the slot of the pattern.** -/
theorem ofKey_of_accepted (hanchored : isAnchored pattern = true) (hliteral : Literal accepts)
    (haccepts : accepts pattern key) : ofKey key = ofKey pattern := by
  obtain ⟨before, tag, after, h, hbefore, htag⟩ := isAnchored_iff.1 hanchored
  obtain ⟨rest, hkey⟩ := h.of_accepted hbefore htag hliteral haccepts
  rw [hkey.ofKey_eq, h.ofKey_eq]

/-! ### Glob patterns -/

/-- Reads a class to its closing bracket: whether the octet is in it, and what follows it. -/
def readClass (b : UInt8) : Bytes → Bool → Bool × Bytes
  | 92 :: c :: rest, found => readClass b rest (found || c == b)
  | 93 :: rest, found => (found, rest)
  | low :: 45 :: high :: rest, found => readClass b rest (found || (min low high ≤ b && b ≤ max low high))
  | c :: rest, found => readClass b rest (found || c == b)
  | [], found => (found, [])

/-- The keys that match a pattern at a node: `*` stands for any octets, `?` for one, `[…]` for one of
those in the class, `[^…]` for one that is not, and `\` takes its meaning from the next octet. -/
inductive Globs : Bytes → Bytes → Prop where
  | done : Globs [] []
  | star {pattern key : Bytes} (skipped : Bytes) (h : Globs pattern key) : Globs (42 :: pattern) (skipped ++ key)
  | one {pattern key : Bytes} (b : UInt8) (h : Globs pattern key) : Globs (63 :: pattern) (b :: key)
  | listed {inside pattern key : Bytes} {b : UInt8} (plain : inside.head? ≠ some 94)
      (read : readClass b inside false = (true, pattern)) (h : Globs pattern key) :
      Globs (91 :: inside) (b :: key)
  | unlisted {inside pattern key : Bytes} {b : UInt8} (read : readClass b inside false = (false, pattern))
      (h : Globs pattern key) : Globs (91 :: 94 :: inside) (b :: key)
  | escaped {pattern key : Bytes} (b : UInt8) (h : Globs pattern key) : Globs (92 :: b :: pattern) (b :: key)
  | backslash : Globs [92] [92]
  | same {pattern key : Bytes} {b : UInt8} (plain : isGlob b = false) (h : Globs pattern key) :
      Globs (b :: pattern) (b :: key)

theorem literal_globs : Literal Globs := by
  intro b pattern key hplain h
  cases h with
  | @same _ rest _ _ h => exact ⟨rest, rfl, h⟩
  | _ => cases hplain

end Slot

/-! ### Calls with a pattern -/

namespace Call

variable {N α : Type} {pattern : Bytes} {c : Call α}

theorem start_of_anchored (hroute : c.route = .pattern pattern) (h : Slot.isAnchored pattern = true)
    (w : World N) (policy : RetryPolicy) :
    c.start w policy = Invocation.start w policy c.body (some (Slot.ofKey pattern)) none := by
  have hslot : c.route.slot? = .ok (some (Slot.ofKey pattern)) := by
    rw [hroute, Route.slot?, Slot.ofPattern_eq_ok_iff.2 ⟨h, rfl⟩]
    rfl
  exact start_of_ok hslot w policy

/-- A pattern that is not anchored is refused before anything is done. -/
theorem start_of_unanchored (hroute : c.route = .pattern pattern) (h : Slot.isAnchored pattern = false)
    (w : World N) (policy : RetryPolicy) :
    c.start w policy = (w, .done (.error (.routingUnsupported (.unanchored pattern)))) := by
  have hslot : c.route.slot? = .error (.routingUnsupported (.unanchored pattern)) := by
    rw [hroute, Route.slot?, Slot.ofPattern, if_neg (by simp [h])]
    rfl
  exact start_of_error hslot w policy

/-- **A pattern that is accepted leads to every key that matches it.** Accepted are the patterns
`P{T}S` in which `P` has no opening brace, `T` is not empty and has no closing one, and nothing in `P`
and `T` means more than itself. Then every key that any matcher accepts, if octets that stand for
themselves are for it what they are, is in the slot to which `KEYS` and `SCAN` are sent. Every other
pattern is refused before anything is sent, and the world is as it was. -/
theorem pattern_misses_no_key (pattern : Bytes) :
    (Slot.isAnchored pattern = true ↔ ∃ before tag after,
      Slot.Tagged pattern before tag after ∧ Slot.Plain before ∧ Slot.Plain tag) ∧
    (Slot.isAnchored pattern = true → ∀ accepts, Slot.Literal accepts → ∀ key, accepts pattern key →
      Slot.ofPattern pattern = .ok (Slot.ofKey key) ∧
      ∀ (N : Type) (w : World N) (policy : RetryPolicy) (cursor : UInt64) (count : Option UInt64),
        (keys pattern).start w policy =
          Invocation.start w policy (keys pattern).body (some (Slot.ofKey key)) none ∧
        (scan cursor pattern count).start w policy =
          Invocation.start w policy (scan cursor pattern count).body (some (Slot.ofKey key)) none) ∧
    (Slot.isAnchored pattern = false →
      Slot.ofPattern pattern = .error (.routingUnsupported (.unanchored pattern)) ∧
      ∀ (N : Type) (w : World N) (policy : RetryPolicy) (cursor : UInt64) (count : Option UInt64),
        (keys pattern).start w policy = (w, .done (.error (.routingUnsupported (.unanchored pattern)))) ∧
        (scan cursor pattern count).start w policy =
          (w, .done (.error (.routingUnsupported (.unanchored pattern))))) := by
  refine ⟨Slot.isAnchored_iff, ?_, ?_⟩
  · intro hanchored accepts hliteral key haccepts
    have hsame : Slot.ofKey key = Slot.ofKey pattern := Slot.ofKey_of_accepted hanchored hliteral haccepts
    rw [hsame]
    refine ⟨Slot.ofPattern_eq_ok_iff.2 ⟨hanchored, rfl⟩, ?_⟩
    intro N w policy cursor count
    exact ⟨start_of_anchored rfl hanchored w policy, start_of_anchored rfl hanchored w policy⟩
  · intro hanchored
    refine ⟨by rw [Slot.ofPattern, if_neg (by simp [hanchored])], ?_⟩
    intro N w policy cursor count
    exact ⟨start_of_unanchored rfl hanchored w policy, start_of_unanchored rfl hanchored w policy⟩

/-- A key with braces of its own in the part that the pattern leaves open is in the slot of the tag. -/
theorem pattern_misses_no_key_starred :
    Slot.isAnchored (.ofText "user:\x7ba\x7bb\x7d:*") = true ∧ Slot.Literal Slot.Globs ∧
    Slot.Globs (.ofText "user:\x7ba\x7bb\x7d:*") (.ofText "user:\x7ba\x7bb\x7d:\x7bc\x7d") ∧
    Slot.ofPattern (.ofText "user:\x7ba\x7bb\x7d:*") = .ok (Slot.ofKey (.ofText "user:\x7ba\x7bb\x7d:\x7bc\x7d")) := by
  have hanchored : Slot.isAnchored (.ofText "user:\x7ba\x7bb\x7d:*") = true := by decide
  have hkey : Slot.Globs (.ofText "user:\x7ba\x7bb\x7d:*") (.ofText "user:\x7ba\x7bb\x7d:\x7bc\x7d") :=
    .same rfl (.same rfl (.same rfl (.same rfl (.same rfl (.same rfl (.same rfl (.same rfl (.same rfl
      (.same rfl (.same rfl (.star (.ofText "\x7bc\x7d") .done)))))))))))
  obtain ⟨-, haccepted, -⟩ := pattern_misses_no_key (.ofText "user:\x7ba\x7bb\x7d:*")
  exact ⟨hanchored, Slot.literal_globs, hkey,
    (haccepted hanchored Slot.Globs Slot.literal_globs _ hkey).1⟩

end Call

end SlotRouter
