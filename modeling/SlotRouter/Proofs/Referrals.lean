import Mathlib
import SlotRouter.Proofs.Readback

/-!
# What an error line refers to

An error line sends its reader elsewhere exactly if it is a keyword, a blank and two words, of which the first
is a slot and the second has a colon (`Redirect.ofLine_eq_iff`). The keyword says of which of two kinds the
redirect is, and no line is of both (`Redirect.Kind.eq_of_start`). The word is cut at its last colon. If a
host stands before it, the word is the address as it is, whatever stands behind the colon; if none is stated,
what stands behind has to be a number of 64 bits. In neither case is it asked whether it is a port, and so
the address is one that can be reached only if what stands behind the colon is (`Redirect.proper_iff`).

A text is its words, with blanks around and between them (`Text.words_eq_iff`).

Key definitions: `Text.Worded`, `Redirect.Kind`, `Redirect.Names`, `Redirect.Target`, `Address.Proper`.
Key theorem: `Redirect.refers_where_it_says`.
-/

namespace SlotRouter

/-! ### Words -/

namespace Text

/-- The text is these words: no character of a word is blank, and only blanks stand around and between them. -/
inductive Worded : List Char → List (List Char) → Prop where
  | blank {gap : List Char} (h : ∀ c ∈ gap, isBlank c = true) : Worded gap []
  | word {gap word rest : List Char} {ws : List (List Char)} (hgap : ∀ c ∈ gap, isBlank c = true) (hne : word ≠ [])
      (hword : ∀ c ∈ word, isBlank c = false) (hend : ∀ c ∈ rest.head?, isBlank c = true) (h : Worded rest ws) :
      Worded (gap ++ word ++ rest) (word :: ws)

variable {cs gap word rest : List Char} {ws : List (List Char)}

/-- Words that were found before are kept as they are. -/
theorem collectWords_found (cs word : List Char) (found : List (List Char)) :
    collectWords cs word found = collectWords cs word [] ++ found := by
  have hclose (word : List Char) (found : List (List Char)) : closeWord word found = closeWord word [] ++ found := by
    unfold closeWord
    split
    · rfl
    · rfl
  induction cs generalizing word found with
  | nil => exact hclose word found
  | cons c cs ih =>
    unfold collectWords
    split
    · rw [ih [] (closeWord word found), ih [] (closeWord word []), hclose word found, List.append_assoc]
    · exact ih (c :: word) found

theorem words_blank {c : Char} (hc : isBlank c = true) (cs : List Char) : words (c :: cs) = words cs := by
  rw [words, collectWords, if_pos hc]
  rfl

theorem words_gap (h : ∀ c ∈ gap, isBlank c = true) (cs : List Char) : words (gap ++ cs) = words cs := by
  induction gap with
  | nil => rfl
  | cons c gap ih =>
    obtain ⟨hc, hgap⟩ := List.forall_mem_cons.1 h
    rw [List.cons_append, words_blank hc, ih hgap]

theorem words_word (hne : word ≠ []) (hword : ∀ c ∈ word, isBlank c = false)
    (hend : ∀ c ∈ rest.head?, isBlank c = true) : words (word ++ rest) = word :: words rest := by
  have hclose : closeWord word.reverse [] = [word] := by
    rw [closeWord, if_neg (by simpa using hne), List.reverse_reverse]
  rw [words, collectWords_append hword, List.append_nil]
  cases rest with
  | nil =>
    rw [collectWords, hclose]
    rfl
  | cons c rest =>
    have hc : isBlank c = true := hend c rfl
    rw [collectWords, if_pos hc, hclose, collectWords_found, List.reverse_append, words_blank hc]
    rfl

theorem Worded.cons_blank {c : Char} (h : Worded cs ws) (hc : isBlank c = true) : Worded (c :: cs) ws := by
  cases h with
  | blank h => exact .blank (List.forall_mem_cons.2 ⟨hc, h⟩)
  | word hgap hne hword hend h => exact .word (List.forall_mem_cons.2 ⟨hc, hgap⟩) hne hword hend h

/-- What is read on from the end of `word` is a word that begins with it, and the words behind. -/
theorem worded_collectWords (cs word : List Char) (hword : ∀ c ∈ word, isBlank c = false) :
    Worded (word.reverse ++ cs) (collectWords cs word []).reverse := by
  have hreverse : ∀ c ∈ word.reverse, isBlank c = false := fun c hc => hword c (List.mem_reverse.1 hc)
  have hnone : ∀ c ∈ ([] : List Char), isBlank c = true := List.forall_mem_nil _
  induction cs generalizing word with
  | nil =>
    rw [collectWords, closeWord]
    split_ifs with hempty
    · rw [List.isEmpty_iff.1 hempty]
      exact .blank hnone
    · have hne : word.reverse ≠ [] := by simpa using hempty
      exact .word hnone hne hreverse (by simp) (.blank hnone)
  | cons c cs ih =>
    unfold collectWords
    split_ifs with hc
    · have hrest : Worded (c :: cs) (collectWords cs [] []).reverse :=
        (ih [] (List.forall_mem_nil _) (List.forall_mem_nil _)).cons_blank hc
      rw [collectWords_found, List.reverse_append, closeWord]
      split_ifs with hempty
      · rw [List.isEmpty_iff.1 hempty]
        exact hrest
      · have hne : word.reverse ≠ [] := by simpa using hempty
        have hend : ∀ d ∈ (c :: cs).head?, isBlank d = true := by
          intro d hd
          obtain rfl : c = d := Option.some.inj hd
          exact hc
        exact .word hnone hne hreverse hend hrest
    · have hlonger : ∀ d ∈ c :: word, isBlank d = false := List.forall_mem_cons.2 ⟨by simpa using hc, hword⟩
      have hread := ih (c :: word) hlonger fun d hd => hlonger d (List.mem_reverse.1 hd)
      rwa [List.reverse_cons, List.append_assoc] at hread

/-- **The words of a text are the only ones that it is.** -/
theorem words_eq_iff : words cs = ws ↔ Worded cs ws := by
  constructor
  · rintro rfl
    exact worded_collectWords cs [] (List.forall_mem_nil _)
  · intro h
    induction h with
    | blank h =>
      have hnone := words_gap h []
      rwa [List.append_nil] at hnone
    | word hgap hne hword hend _ ih => rw [List.append_assoc, words_gap hgap, words_word hne hword hend, ih]

end Text

/-! ### Numbers and addresses -/

namespace Decimal

/-- Digits after a plus sign, or without one, and the number that they stand for. -/
inductive Unsigned : Bytes → Nat → Prop where
  | plain {bs : Bytes} {n : Nat} (h : Digits bs n) : Unsigned bs n
  | plus {bs : Bytes} {n : Nat} (h : Digits bs n) : Unsigned (43 :: bs) n

variable {bs : Bytes} {n bound : Nat}

theorem Unsigned.signed (h : Unsigned bs n) : Signed bs n := by
  cases h with
  | plain h => exact .plain h
  | plus h => exact .plus h

/-- A number that is not negative has no minus sign, unless it is zero. -/
theorem Signed.unsigned {z : Int} (h : Signed bs z) (hz : 0 < z) : ∃ n : Nat, z = n ∧ Unsigned bs n := by
  cases h with
  | plain h => exact ⟨_, rfl, .plain h⟩
  | plus h => exact ⟨_, rfl, .plus h⟩
  | minus h => omega

theorem Signed.unique {z z' : Int} (h : Signed bs z) (h' : Signed bs z') : z = z' := by
  rw [← signed?_eq_some_iff] at h h'
  exact Option.some.inj (h.symm.trans h')

/-- **A number below a bound is read from its digits, with a plus sign or without.** -/
theorem below?_eq_some_iff : below? bound bs = some n ↔ Unsigned bs n ∧ n < bound := by
  constructor
  · intro h
    unfold below? at h
    split at h <;> dsimp only at h
    · split at h
      · rename_i m hm
        split_ifs at h with hlt
        obtain rfl := Option.some.inj h
        exact ⟨.plus (natural?_eq_some_iff.1 hm), hlt⟩
      · cases h
    · split at h
      · rename_i m hm
        split_ifs at h with hlt
        obtain rfl := Option.some.inj h
        exact ⟨.plain (natural?_eq_some_iff.1 hm), hlt⟩
      · cases h
  · rintro ⟨hunsigned, hlt⟩
    unfold below?
    cases hunsigned with
    | plain h =>
      split
      · exact absurd rfl h.not_sign.1
      · simp only [natural?_eq_some_iff.2 h, if_pos hlt]
    | plus h => simp only [natural?_eq_some_iff.2 h, if_pos hlt]

/-- The octets of a whole number in decimal. -/
theorem ofChars_toString_int (z : Int) : Bytes.ofChars (toString z).toList = ofInt z := by
  cases z with
  | ofNat n => exact ofChars_toString n
  | negSucc n =>
    have htext : toString (Int.negSucc n) = "-" ++ toString (n + 1) := rfl
    rw [htext, String.toList_append, Bytes.ofChars_append, ofChars_toString]
    rfl

theorem colon_not_mem_int (z : Int) : ':' ∉ (toString z).toList := by
  cases z with
  | ofNat n => exact colon_not_mem n
  | negSucc n =>
    have htext : toString (Int.negSucc n) = "-" ++ toString (n + 1) := rfl
    rw [htext, String.toList_append, List.mem_append]
    rintro (h | h)
    · exact absurd h (by decide)
    · exact colon_not_mem (n + 1) h

theorem signed_ofInt (z : Int) : Signed (ofInt z) z := by
  cases z with
  | ofNat n => exact .plain (.written n)
  | negSucc n => exact .minus (.written (n + 1))

end Decimal

namespace Address

/-- The text is a number that a port can have. -/
def IsPort (port : List Char) : Prop := ∃ n, Decimal.Unsigned (Bytes.ofChars port) n ∧ 1 ≤ n ∧ n ≤ 65535

/-- The address is a host and a port. -/
def Proper (address : String) : Prop :=
  ∃ host port, address.toList = host ++ ':' :: port ∧ ':' ∉ port ∧ IsPort port

variable {cs host port : List Char}

theorem splitLast?_of_no_colon (h : ':' ∉ cs) : splitLast? cs = none := by
  have hnone : cs.reverse.dropWhile (· != ':') = [] := by
    rw [List.dropWhile_eq_nil_iff]
    intro c hc
    rw [bne_iff_ne]
    rintro rfl
    exact h (List.mem_reverse.1 hc)
  unfold splitLast?
  rw [hnone]

/-- **The last colon divides, and nothing else does.** -/
theorem splitLast?_eq_some_iff : splitLast? cs = some (host, port) ↔ cs = host ++ ':' :: port ∧ ':' ∉ port := by
  constructor
  · intro h
    by_cases hcolon : ':' ∈ cs
    · obtain ⟨behind, before, hreverse, hlast⟩ := List.eq_append_cons_of_mem (List.mem_reverse.2 hcolon)
      have hlast' : ':' ∉ behind.reverse := fun hmem => hlast (List.mem_reverse.1 hmem)
      obtain rfl : cs = before.reverse ++ ':' :: behind.reverse := by
        rw [← List.reverse_inj, hreverse]
        simp
      rw [splitLast?_colon _ hlast', Option.some.injEq, Prod.mk.injEq] at h
      obtain ⟨rfl, rfl⟩ := h
      exact ⟨rfl, hlast'⟩
    · rw [splitLast?_of_no_colon hcolon] at h
      cases h
  · rintro ⟨rfl, hport⟩
    exact splitLast?_colon host hport

/-- Whatever a text begins with, it is its end that makes it an address. -/
theorem proper_iff_isPort {address : String} (haddress : address.toList = host ++ ':' :: port) (hcolon : ':' ∉ port) :
    Proper address ↔ IsPort port := by
  constructor
  · rintro ⟨host', port', haddress', hcolon', hport'⟩
    have hsplit := splitLast?_eq_some_iff.2 ⟨haddress, hcolon⟩
    rw [splitLast?_eq_some_iff.2 ⟨haddress', hcolon'⟩, Option.some.injEq, Prod.mk.injEq] at hsplit
    rwa [← hsplit.2]
  · intro hport
    exact ⟨host, port, haddress, hcolon, hport⟩

/-- A number is one that a port can have if it is between the first and the last. -/
theorem isPort_iff {z : Int} (h : Decimal.Signed (Bytes.ofChars port) z) : IsPort port ↔ 1 ≤ z ∧ z ≤ 65535 := by
  constructor
  · rintro ⟨n, hn, hlow, hhigh⟩
    obtain rfl := h.unique hn.signed
    omega
  · rintro ⟨hlow, hhigh⟩
    obtain ⟨n, rfl, hn⟩ := h.unsigned (by omega)
    exact ⟨n, hn, by omega, by omega⟩

/-- An address that was put together ends in its port. -/
theorem exists_toList_join (host : List Char) (z : Int) :
    ∃ shown, join host z = shown ++ ':' :: (toString z).toList := ⟨_, rfl⟩

/-- **The host that was put into an address is found in it**, if it has no brackets of its own. -/
theorem host_join (hplain : ∀ c ∈ host, c ≠ '[' ∧ c ≠ ']') (z : Int) : Address.host (join host z) = host := by
  have hstart (cs : List Char) (h : ∀ c ∈ cs, c ≠ '[') : cs.dropWhile (· == '[') = cs := by
    refine List.dropWhile_eq_self_iff.2 fun hne heq => ?_
    exact h _ (List.getElem_mem hne) (by simpa using heq)
  have hend (cs : List Char) (h : ∀ c ∈ cs, c ≠ ']') : cs.reverse.dropWhile (· == ']') = cs.reverse := by
    refine List.dropWhile_eq_self_iff.2 fun hne heq => ?_
    exact h _ (List.mem_reverse.1 (List.getElem_mem hne)) (by simpa using heq)
  have hopening : ∀ c ∈ host, c ≠ '[' := fun c hc => (hplain c hc).1
  have hclosing : ∀ c ∈ host, c ≠ ']' := fun c hc => (hplain c hc).2
  unfold join Address.host
  dsimp only
  rw [splitLast?_colon _ (Decimal.colon_not_mem_int z)]
  dsimp only
  split_ifs with hshown
  · -- the brackets that were put around it go, and no others
    have hfirst : ∀ c ∈ host ++ [']'], c ≠ '[' := by
      intro c hc
      rcases List.mem_append.1 hc with hc | hc
      · exact hopening c hc
      · rw [List.mem_singleton.1 hc]
        decide
    rw [List.cons_append, List.dropWhile_cons_of_pos rfl, hstart _ hfirst, List.reverse_append, List.reverse_singleton,
      List.singleton_append, List.dropWhile_cons_of_pos rfl, hend host hclosing, List.reverse_reverse]
  · rw [hstart host hopening, hend host hclosing, List.reverse_reverse]

end Address

/-! ### Redirects -/

namespace Redirect

/-- The kinds of redirects. -/
inductive Kind where
  /-- The slot has another node from now on. -/
  | moved
  /-- The slot has another node for this one command. -/
  | ask
  deriving DecidableEq

namespace Kind

/-- The word with which a redirect of the kind begins. -/
def keyword : Kind → String
  | moved => "MOVED"
  | ask => "ASK"

/-- The keyword with the blank behind it. -/
def opening : Kind → String
  | moved => "MOVED "
  | ask => "ASK "

/-- The error as which a redirect of the kind is read. -/
def error : Kind → UInt16 → String → Error
  | moved => .moved
  | ask => .ask

theorem opening_toList (kind : Kind) : kind.opening.toList = kind.keyword.toList ++ [' '] := by
  cases kind <;> rfl

/-- A text begins as a redirect of one kind only. -/
theorem eq_of_start {kind other : Kind} {text : List Char} (h : kind.keyword.toList <+: text)
    (hother : other.keyword.toList <+: text) : kind = other := by
  obtain ⟨rest, rfl⟩ := h
  obtain ⟨rest', heq⟩ := hother
  cases kind <;> cases other
  · rfl
  · cases heq
  · cases heq
  · rfl

end Kind

/-- The text is the keyword, a blank and two words, a slot and another. -/
def Names (keyword : String) (text : List Char) (slot : UInt16) (word : List Char) : Prop :=
  ∃ rest first, text = keyword.toList ++ ' ' :: rest ∧ Text.Worded rest [first, word] ∧
    Decimal.Unsigned (Bytes.ofChars first) slot.toNat ∧ slot.toNat < 16384

/-- The address for which a word stands in a redirect from `origin`. -/
inductive Target (origin : String) : List Char → String → Prop where
  | stated {host port : List Char} (hcolon : ':' ∉ port) (hhost : ¬Unstated (String.ofList host)) :
      Target origin (host ++ ':' :: port) (String.ofList (host ++ ':' :: port))
  | unstated {host port : List Char} {p : Int64} (hcolon : ':' ∉ port) (hhost : Unstated (String.ofList host))
      (hport : Decimal.Signed (Bytes.ofChars port) p.toInt) :
      Target origin (host ++ ':' :: port) (String.ofList (Address.join (Address.host origin.toList) p.toInt))

variable {keyword origin address : String} {text word host port : List Char} {slot : UInt16} {line : Bytes}
  {kind : Kind}

theorem Names.isPrefix (h : Names keyword text slot word) : keyword.toList <+: text := by
  obtain ⟨rest, first, rfl, -⟩ := h
  exact List.prefix_append _ _

theorem slot?_eq_some_iff :
    slot? word = some slot ↔ Decimal.Unsigned (Bytes.ofChars word) slot.toNat ∧ slot.toNat < 16384 := by
  unfold slot?
  rw [Option.map_eq_some_iff]
  constructor
  · rintro ⟨n, hn, rfl⟩
    obtain ⟨hunsigned, hlt⟩ := Decimal.below?_eq_some_iff.1 hn
    have hvalue : (UInt16.ofNat n).toNat = n :=
      UInt16.toNat_ofNat_of_lt' (Nat.lt_trans hlt (by decide : slot?.slotBound < UInt16.size))
    rw [hvalue]
    exact ⟨hunsigned, hlt⟩
  · intro h
    exact ⟨slot.toNat, Decimal.below?_eq_some_iff.2 h, UInt16.ofNat_toNat⟩

theorem unstated_ofList : host = [] ∨ host = ['?'] ↔ Unstated (String.ofList host) := by
  rw [← unstated_iff, String.toList_ofList]

theorem address?_eq_some_iff : address? word origin = some address ↔ Target origin word address := by
  constructor
  · intro h
    unfold address? at h
    split at h
    · cases h
    · rename_i host port hsplit
      obtain ⟨rfl, hcolon⟩ := Address.splitLast?_eq_some_iff.1 hsplit
      split_ifs at h with hhost
      · obtain ⟨p, hp, rfl⟩ := Option.map_eq_some_iff.1 h
        exact .unstated hcolon (unstated_ofList.1 hhost) (Decimal.int64?_eq_some_iff.1 hp)
      · obtain rfl := Option.some.inj h
        exact .stated hcolon (unstated_ofList.not.1 hhost)
  · intro h
    unfold address?
    cases h with
    | @stated host port hcolon hhost =>
      rw [Address.splitLast?_colon host hcolon]
      exact if_neg (unstated_ofList.not.2 hhost)
    | @unstated host port p hcolon hhost hport =>
      rw [Address.splitLast?_colon host hcolon]
      dsimp only
      rw [if_pos (unstated_ofList.2 hhost), Decimal.int64?_eq_some_iff.2 hport]
      rfl

theorem arguments?_eq_some_iff : arguments? text origin = some (slot, address) ↔
    ∃ first word, Text.Worded text [first, word] ∧ slot? first = some slot ∧ address? word origin = some address := by
  simp only [← Text.words_eq_iff]
  unfold arguments?
  constructor
  · intro h
    split at h
    · rename_i first word hwords
      split at h
      · rename_i s a hs ha
        cases h
        exact ⟨first, word, hwords, hs, ha⟩
      · cases h
    · cases h
  · rintro ⟨first, word, hwords, hslot, haddress⟩
    simp only [hwords, hslot, haddress]

/-- **A redirect is read exactly from what names a slot and a word that stands for an address.** -/
theorem read?_eq_some_iff {opening : String} (hopening : opening.toList = keyword.toList ++ [' ']) :
    read? opening text origin = some (slot, address) ↔
      ∃ word, Names keyword text slot word ∧ Target origin word address := by
  have hafter (rest : List Char) : after? opening text = some rest ↔ text = keyword.toList ++ ' ' :: rest := by
    rw [after?, List.isPrefixOf?_eq_some_iff_append_eq, hopening, List.append_assoc]
    exact eq_comm
  constructor
  · intro h
    unfold read? at h
    split at h
    · rename_i rest hrest
      obtain ⟨first, word, hwords, hslot, haddress⟩ := arguments?_eq_some_iff.1 h
      exact ⟨word, ⟨rest, first, (hafter rest).1 hrest, hwords, slot?_eq_some_iff.1 hslot⟩,
        address?_eq_some_iff.1 haddress⟩
    · cases h
  · rintro ⟨word, ⟨rest, first, htext, hwords, hslot⟩, haddress⟩
    unfold read?
    rw [(hafter rest).2 htext]
    exact arguments?_eq_some_iff.2
      ⟨first, word, hwords, slot?_eq_some_iff.2 hslot, address?_eq_some_iff.2 haddress⟩

/-- What a word stands for is settled by its last colon. -/
theorem Target.of_cut (h : Target origin (host ++ ':' :: port) address) (hcolon : ':' ∉ port) :
    (¬Unstated (String.ofList host) ∧ address = String.ofList (host ++ ':' :: port)) ∨
      (Unstated (String.ofList host) ∧ ∃ p : Int64, Decimal.Signed (Bytes.ofChars port) p.toInt ∧
        address = String.ofList (Address.join (Address.host origin.toList) p.toInt)) := by
  have hcut := Address.splitLast?_colon host hcolon
  generalize host ++ ':' :: port = word at h hcut
  cases h with
  | stated hcolon' hhost =>
    rw [Address.splitLast?_colon _ hcolon', Option.some.injEq, Prod.mk.injEq] at hcut
    obtain ⟨rfl, rfl⟩ := hcut
    exact .inl ⟨hhost, rfl⟩
  | unstated hcolon' hhost hport =>
    rw [Address.splitLast?_colon _ hcolon', Option.some.injEq, Prod.mk.injEq] at hcut
    obtain ⟨rfl, rfl⟩ := hcut
    exact .inr ⟨hhost, _, hport, rfl⟩

/-- **What a word stands for is an address only if the word ends in a port.** -/
theorem Target.proper_iff (h : Target origin (host ++ ':' :: port) address) (hcolon : ':' ∉ port) :
    Address.Proper address ↔ Address.IsPort port := by
  rcases h.of_cut hcolon with ⟨-, rfl⟩ | ⟨-, p, hport, rfl⟩
  · exact Address.proper_iff_isPort String.toList_ofList hcolon
  · obtain ⟨shown, hshown⟩ := Address.exists_toList_join (Address.host origin.toList) p.toInt
    have hnumber : Decimal.Signed (Bytes.ofChars (toString p.toInt).toList) p.toInt := by
      rw [Decimal.ofChars_toString_int]
      exact Decimal.signed_ofInt _
    rw [Address.proper_iff_isPort (by rw [String.toList_ofList, hshown]) (Decimal.colon_not_mem_int _),
      Address.isPort_iff hnumber, Address.isPort_iff hport]

/-- What the line says, as a text without blanks at its ends. -/
def said (line : Bytes) : List Char := Text.trim (Utf8.lossy line)

theorem read?_opening_iff (kind : Kind) : read? kind.opening text origin = some (slot, address) ↔
    ∃ word, Names kind.keyword text slot word ∧ Target origin word address := read?_eq_some_iff kind.opening_toList

theorem read?_of_ofLine (h : ofLine line origin = kind.error slot address) :
    read? kind.opening (said line) origin = some (slot, address) := by
  unfold ofLine at h
  dsimp only at h
  split at h
  · rename_i s a hread
    cases kind with
    | moved =>
      cases h
      exact hread
    | ask => cases h
  · split at h
    · rename_i s a hread
      cases kind with
      | moved => cases h
      | ask =>
        cases h
        exact hread
    · split at h <;> cases kind <;> cases h

theorem ofLine_of_read? (h : read? kind.opening (said line) origin = some (slot, address)) :
    ofLine line origin = kind.error slot address := by
  cases kind with
  | moved =>
    have hread : read? "MOVED " (Text.trim (Utf8.lossy line)) origin = some (slot, address) := h
    unfold ofLine
    simp only [hread]
    rfl
  | ask =>
    -- what begins as one kind is not read as the other, which is tried first
    have hother : read? "MOVED " (Text.trim (Utf8.lossy line)) origin = none := by
      rw [Option.eq_none_iff_forall_ne_some]
      rintro ⟨slot', address'⟩ hmoved
      obtain ⟨_, hnames, -⟩ := (read?_opening_iff .moved).1 hmoved
      obtain ⟨_, hnames', -⟩ := (read?_opening_iff .ask).1 h
      cases Kind.eq_of_start hnames.isPrefix hnames'.isPrefix
    have hread : read? "ASK " (Text.trim (Utf8.lossy line)) origin = some (slot, address) := h
    unfold ofLine
    simp only [hother, hread]
    rfl

/-- **A line is a redirect of a kind exactly where it says so.** -/
theorem ofLine_eq_iff (kind : Kind) : ofLine line origin = kind.error slot address ↔
    ∃ word, Names kind.keyword (said line) slot word ∧ Target origin word address :=
  ⟨fun h => (read?_opening_iff kind).1 (read?_of_ofLine h), fun h => ofLine_of_read? ((read?_opening_iff kind).2 h)⟩

/-- Every other line is the report of an outage or an error of the command. -/
theorem ofLine_of_nowhere (hnowhere : ∀ slot word address,
      Names "MOVED" (said line) slot word ∨ Names "ASK" (said line) slot word → ¬Target origin word address) :
    (∀ rest, said line = "CLUSTERDOWN".toList ++ rest →
      ofLine line origin = .clusterDown (.reported (String.ofList (Text.trim rest)))) ∧
    (¬"CLUSTERDOWN".toList <+: said line → ofLine line origin = .server (String.ofList (said line))) := by
  have hnone (kind : Kind) : read? kind.opening (said line) origin = none := by
    rw [Option.eq_none_iff_forall_ne_some]
    rintro ⟨slot, address⟩ hread
    obtain ⟨word, hnames, htarget⟩ := (read?_opening_iff kind).1 hread
    refine hnowhere slot word address ?_ htarget
    cases kind with
    | moved => exact .inl hnames
    | ask => exact .inr hnames
  have hmoved : read? "MOVED " (said line) origin = none := hnone .moved
  have hask : read? "ASK " (said line) origin = none := hnone .ask
  constructor
  · intro rest hdown
    have hafter : after? "CLUSTERDOWN" (said line) = some rest :=
      List.isPrefixOf?_eq_some_iff_append_eq.2 hdown.symm
    unfold said at hmoved hask hafter
    unfold ofLine
    simp only [hmoved, hask, hafter]
  · intro hother
    have hafter : after? "CLUSTERDOWN" (said line) = none := by
      rw [Option.eq_none_iff_forall_ne_some]
      intro rest hrest
      exact hother ⟨rest, List.isPrefixOf?_eq_some_iff_append_eq.1 hrest⟩
    unfold said at hmoved hask hafter
    unfold ofLine
    simp only [hmoved, hask, hafter]
    rfl

/-- **A redirect is followed to where it says.** A line is a redirect exactly if it is the keyword, a blank and two
words, a slot and a word that stands for an address; every other line is the report of an outage or an error of
the command, with all that was said. The address that a word stands for is an address only if the word ends in a
port: if a host is stated the address is the word, whatever stands behind its last colon, and if none
is stated it ends in the number that stands there, whatever number of 64 bits this is. -/
theorem refers_where_it_says (line : Bytes) (origin : String) :
    (∀ slot address, ofLine line origin = .moved slot address ↔
      ∃ word, Names "MOVED" (said line) slot word ∧ Target origin word address) ∧
    (∀ slot address, ofLine line origin = .ask slot address ↔
      ∃ word, Names "ASK" (said line) slot word ∧ Target origin word address) ∧
    ((∀ slot word address,
        Names "MOVED" (said line) slot word ∨ Names "ASK" (said line) slot word → ¬Target origin word address) →
      (∀ rest, said line = "CLUSTERDOWN".toList ++ rest →
        ofLine line origin = .clusterDown (.reported (String.ofList (Text.trim rest)))) ∧
      (¬"CLUSTERDOWN".toList <+: said line → ofLine line origin = .server (String.ofList (said line)))) ∧
    ∀ host port address, ':' ∉ port → Target origin (host ++ ':' :: port) address →
      (Address.Proper address ↔ Address.IsPort port) ∧
      (¬Unstated (String.ofList host) → address = String.ofList (host ++ ':' :: port)) ∧
      (Unstated (String.ofList host) → ∃ p : Int64, Decimal.Signed (Bytes.ofChars port) p.toInt ∧
        address = String.ofList (Address.join (Address.host origin.toList) p.toInt)) := by
  refine ⟨fun slot address => ofLine_eq_iff .moved, fun slot address => ofLine_eq_iff .ask, ofLine_of_nowhere,
    fun host port address hcolon htarget => ⟨htarget.proper_iff hcolon, fun hstated => ?_, fun hunstated => ?_⟩⟩
  · rcases htarget.of_cut hcolon with ⟨-, haddress⟩ | ⟨hunstated, -⟩
    · exact haddress
    · exact absurd hunstated hstated
  · rcases htarget.of_cut hcolon with ⟨hstated, -⟩ | ⟨-, hnumber⟩
    · exact absurd hunstated hstated
    · exact hnumber

/-- A line that refers to a node at a port that is none. -/
def astray : Bytes := Bytes.ofText "MOVED 3999 127.0.0.1:http"

/-- A line that refers to a port of the sender that is none. -/
def below : Bytes := Bytes.ofText "ASK +5 ?:-7"

/-- Both lines are followed, to what is no address; a line whose port is no number, without a host, is not. -/
theorem refers_where_it_says_astray :
    ofLine astray "10.0.0.5:7000" = .moved 3999 "127.0.0.1:http" ∧ ¬Address.Proper "127.0.0.1:http" ∧
    ofLine below "10.0.0.5:7000" = .ask 5 "10.0.0.5:-7" ∧ ¬Address.Proper "10.0.0.5:-7" ∧
    ofLine (Bytes.ofText "MOVED 5 :port") "10.0.0.5:7000" = .server "MOVED 5 :port" := by
  obtain ⟨hmoved, -, -, hstated⟩ := refers_where_it_says astray "10.0.0.5:7000"
  obtain ⟨-, hask, -, hunstated⟩ := refers_where_it_says below "10.0.0.5:7000"
  obtain ⟨-, -, hnowhere, -⟩ := refers_where_it_says (Bytes.ofText "MOVED 5 :port") "10.0.0.5:7000"
  have hnoPort (port : List Char) (h : Decimal.below? 65536 (Bytes.ofChars port) = none) : ¬Address.IsPort port := by
    rintro ⟨n, hn, -, hhigh⟩
    rw [Decimal.below?_eq_some_iff.2 ⟨hn, Nat.lt_succ_of_le hhigh⟩] at h
    cases h
  have htarget : Target "10.0.0.5:7000" "127.0.0.1:http".toList "127.0.0.1:http" :=
    address?_eq_some_iff.1 (by cbv)
  have htarget' : Target "10.0.0.5:7000" "?:-7".toList "10.0.0.5:-7" := address?_eq_some_iff.1 (by cbv)
  have hnames : Names "MOVED" (said astray) 3999 "127.0.0.1:http".toList :=
    ⟨"3999 127.0.0.1:http".toList, "3999".toList, by cbv, Text.words_eq_iff.1 (by cbv), slot?_eq_some_iff.1 (by cbv)⟩
  have hnames' : Names "ASK" (said below) 5 "?:-7".toList :=
    ⟨"+5 ?:-7".toList, "+5".toList, by cbv, Text.words_eq_iff.1 (by cbv), slot?_eq_some_iff.1 (by cbv)⟩
  have hproper := (hstated "127.0.0.1".toList "http".toList _ (by decide) htarget).1
  have hproper' := (hunstated "?".toList "-7".toList _ (by decide) htarget').1
  have hsaid : said (Bytes.ofText "MOVED 5 :port") = "MOVED 5 :port".toList := by cbv
  rw [hsaid] at hnowhere
  have hserver := (hnowhere ?_).2 (by decide)
  · rw [String.ofList_toList] at hserver
    exact ⟨(hmoved _ _).2 ⟨_, hnames, htarget⟩, hproper.not.2 (hnoPort _ (by cbv)),
      (hask _ _).2 ⟨_, hnames', htarget'⟩, hproper'.not.2 (hnoPort _ (by cbv)), hserver⟩
  · have hmovedNot : read? "MOVED " "MOVED 5 :port".toList "10.0.0.5:7000" = none := by cbv
    have haskNot : read? "ASK " "MOVED 5 :port".toList "10.0.0.5:7000" = none := by cbv
    rintro slot word address (hnamed | hnamed) htargeted
    · cases hmovedNot.symm.trans ((read?_opening_iff .moved).2 ⟨word, hnamed, htargeted⟩)
    · cases haskNot.symm.trans ((read?_opening_iff .ask).2 ⟨word, hnamed, htargeted⟩)

end Redirect
end SlotRouter
