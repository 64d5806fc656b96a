import SlotRouter.Layout.Render
import SlotRouter.Link
import SlotRouter.Proofs.Referrals

/-!
# Redirects as nodes write them

A node may leave any blanks around and between what it says. Whatever they are, a keyword, a slot and a word with
a host and a port are read as the redirect that they spell: it is of the kind of the keyword, for that slot, and to
that host and port as they stand (`Redirect.ofLine_spelt`). If no host is stated, it is to the port on the host of
the address that has answered, with or without colons of its own, since the host that was put into an address
is found in it again (`Address.host_join`).

Key definitions: `Redirect.Blanks`, `Redirect.named`. Key theorem: `Redirect.reads_every_spelling`.
-/

namespace SlotRouter

namespace Text

variable {cs before after : List Char}

/-- Blanks around a text that has none at its ends count for nothing. -/
theorem trim_surrounded (hbefore : ∀ c ∈ before, isBlank c = true) (hafter : ∀ c ∈ after, isBlank c = true)
    (hfirst : ∀ c ∈ cs.head?, isBlank c = false) (hlast : ∀ c ∈ cs.getLast?, isBlank c = false) (hne : cs ≠ []) :
    trim (before ++ (cs ++ after)) = cs := by
  have hstart : (cs ++ after).dropWhile isBlank = cs ++ after := by
    refine dropWhile_isBlank ?_
    rwa [List.head?_append_of_ne_nil _ hne]
  have hend : cs.reverse.dropWhile isBlank = cs.reverse := by
    refine dropWhile_isBlank ?_
    rwa [List.head?_reverse]
  have hafter' : ∀ c ∈ after.reverse, isBlank c = true := fun c hc => hafter c (List.mem_reverse.1 hc)
  rw [trim, trimStartBy, List.dropWhile_append_of_pos hbefore, hstart, trimEndBy, List.reverse_append,
    List.dropWhile_append_of_pos hafter', hend, List.reverse_reverse]

end Text

namespace Redirect

/-- The address that a redirect from `origin` gives the node. -/
def named (host : String) (port : Nat) (origin : String) : String :=
  if Unstated host then Layout.listed host port (Address.host origin.toList) else host ++ ":" ++ toString port

/-- The word of a redirect that names the node. -/
def word (host : String) (port : Nat) : List Char := host.toList ++ ':' :: (toString port).toList

/-- The blanks around and between the parts of a redirect. One of its own follows the keyword in any case. -/
structure Blanks where
  before : List Char := []
  lead : List Char := []
  between : List Char := [' ']
  after : List Char := []
  between_ne_nil : between ≠ []
  blank : ∀ c ∈ before ++ lead ++ between ++ after, Text.isBlank c = true

namespace Blanks

/-- The line with which a node sends the caller of a slot to a host and port, with these blanks. -/
def line (gaps : Blanks) (keyword : String) (slot : UInt16) (host : String) (port : Nat) : Bytes :=
  Bytes.ofChars (gaps.before ++ (keyword.toList ++
    ' ' :: (gaps.lead ++ (toString slot.toNat).toList ++ (gaps.between ++ word host port)) ++ gaps.after))

variable (gaps : Blanks)

theorem blank_before : ∀ c ∈ gaps.before, Text.isBlank c = true := fun c hc => gaps.blank c (by simp [hc])

theorem blank_lead : ∀ c ∈ gaps.lead, Text.isBlank c = true := fun c hc => gaps.blank c (by simp [hc])

theorem blank_between : ∀ c ∈ gaps.between, Text.isBlank c = true := fun c hc => gaps.blank c (by simp [hc])

theorem blank_after : ∀ c ∈ gaps.after, Text.isBlank c = true := fun c hc => gaps.blank c (by simp [hc])

end Blanks

variable {origin host : String} {slot : UInt16} {port : Nat}

theorem Kind.exists_keyword (kind : Kind) : ∃ c cs, kind.keyword.toList = c :: cs ∧ Text.isBlank c = false := by
  cases kind with
  | moved => exact ⟨'M', "OVED".toList, rfl, by decide⟩
  | ask => exact ⟨'A', "SK".toList, rfl, by decide⟩

theorem address?_word (hport : port ≤ 65535) : address? (word host port) origin = some (named host port origin) := by
  unfold address? word named
  rw [Address.splitLast?_colon _ (Decimal.colon_not_mem port)]
  dsimp only
  by_cases h : Unstated host
  · rw [if_pos (unstated_iff.2 h), if_pos h, Decimal.ofChars_toString, Decimal.int64?_digits (by omega), Layout.listed,
      if_pos h]
    have hvalue : (Int64.ofNat port).toInt = port := Int64.toInt_ofNat_of_lt (by omega)
    rw [Option.map_some, hvalue]
  · rw [if_neg (unstated_iff.not.2 h), if_neg h, Option.some.injEq, ← String.toList_inj]
    simp

/-- What a redirect says does not depend on the blanks around it. -/
theorem said_line (gaps : Blanks) (kind : Kind) (slot : UInt16) (host : String) (port : Nat) :
    said (gaps.line kind.keyword slot host port) = kind.keyword.toList ++
      ' ' :: (gaps.lead ++ (toString slot.toNat).toList ++ (gaps.between ++ word host port)) := by
  rw [said, Blanks.line, Utf8.lossy_ofChars]
  refine Text.trim_surrounded gaps.blank_before gaps.blank_after (fun d hd => ?_) (fun d hd => ?_) (by simp)
  · obtain ⟨c, cs, hkeyword, hc⟩ := kind.exists_keyword
    rw [hkeyword] at hd
    cases hd
    exact hc
  · -- the last character is one of the port
    have hsplit : kind.keyword.toList ++
          ' ' :: (gaps.lead ++ (toString slot.toNat).toList ++ (gaps.between ++ word host port)) =
        (kind.keyword.toList ++ ' ' :: (gaps.lead ++ (toString slot.toNat).toList ++
          (gaps.between ++ host.toList ++ [':']))) ++ (toString port).toList := by simp [word]
    rw [hsplit, List.getLast?_append_of_ne_nil _ (Decimal.toString_ne_nil port)] at hd
    exact Decimal.not_blank (List.mem_of_getLast? hd)

theorem not_blank_of_mem_word (hhost : ∀ c ∈ host.toList, Text.isBlank c = false) {c : Char}
    (h : c ∈ word host port) : Text.isBlank c = false := by
  rcases List.mem_append.1 h with h | h
  · exact hhost c h
  · rcases List.mem_cons.1 h with rfl | h
    · decide
    · exact Decimal.not_blank h

/-- A redirect names its slot and the word with its host and port, whatever blanks it has. -/
theorem names_line (gaps : Blanks) (kind : Kind) (hslot : slot.toNat < 16384)
    (hhost : ∀ c ∈ host.toList, Text.isBlank c = false) :
    Names kind.keyword (said (gaps.line kind.keyword slot host port)) slot (word host port) := by
  have hsecond : Text.Worded (gaps.between ++ word host port ++ []) [word host port] :=
    .word gaps.blank_between (by simp [word]) (fun c hc => not_blank_of_mem_word hhost hc) (by simp)
      (.blank (List.forall_mem_nil _))
  have hend : ∀ c ∈ (gaps.between ++ word host port ++ []).head?, Text.isBlank c = true := by
    obtain ⟨b, rest, hbetween⟩ := List.exists_cons_of_ne_nil gaps.between_ne_nil
    intro c hc
    rw [hbetween] at hc
    cases hc
    exact gaps.blank_between b (by rw [hbetween]; exact List.mem_cons_self)
  have hwords := Text.Worded.word gaps.blank_lead (Decimal.toString_ne_nil slot.toNat)
    (fun c hc => Decimal.not_blank hc) hend hsecond
  rw [List.append_nil] at hwords
  refine ⟨_, _, said_line gaps kind slot host port, hwords, ?_, hslot⟩
  rw [Decimal.ofChars_toString]
  exact .plain (.written _)

theorem target_word (hport : port ≤ 65535) : Target origin (word host port) (named host port origin) :=
  address?_eq_some_iff.1 (address?_word hport)

/-- **A redirect of either kind, however it is spelt.** -/
theorem ofLine_spelt (kind : Kind) (gaps : Blanks) (hslot : slot.toNat < 16384) (hport : port ≤ 65535)
    (hhost : ∀ c ∈ host.toList, Text.isBlank c = false) (origin : String) :
    ofLine (gaps.line kind.keyword slot host port) origin = kind.error slot (named host port origin) :=
  (ofLine_eq_iff kind).2 ⟨_, names_line gaps kind hslot hhost, target_word hport⟩

/-- On the host of an address is the address with another port. -/
theorem named_unstated (hunstated : Unstated host) {own : List Char} (hown : ∀ c ∈ own, c ≠ '[' ∧ c ≠ ']')
    (ownPort : Int) (port : Nat) :
    named host port (String.ofList (Address.join own ownPort)) = String.ofList (Address.join own port) := by
  rw [named, if_pos hunstated, Layout.listed, if_pos hunstated, String.toList_ofList, Address.host_join hown]

/-- A line that begins as one kind is read as no other. -/
theorem kind_eq_of_start (kind other : Kind) {line : Bytes} {address : String}
    (h : kind.keyword.toList <+: said line) (hread : ofLine line origin = other.error slot address) : kind = other := by
  obtain ⟨_, hnames, -⟩ := (ofLine_eq_iff other).1 hread
  exact Kind.eq_of_start h hnames.isPrefix

/-- **Every redirect is read as it is meant.** Whatever blanks stand around it, after the keyword and between its
two words, and whatever the host is, as long as it has no blanks: the redirect is of the kind that the keyword
says and for the slot that is written. If a host is stated the address is `host:port` as it stands; if none is,
or `?`, and the line came from a port on the host `own`, without brackets, it is the other port on that host.
No line that starts as one kind is read as the other. The caller of a command to which a node sends
the line is told the error that it is read as. -/
theorem reads_every_spelling (gaps : Blanks) (slot : UInt16) (host : String) (port : Nat) (hslot : slot.toNat < 16384)
    (hport : port ≤ 65535) (hhost : ∀ c ∈ host.toList, Text.isBlank c = false) :
    (¬Unstated host → ∀ origin,
      ofLine (gaps.line "MOVED" slot host port) origin = .moved slot (host ++ ":" ++ toString port) ∧
      ofLine (gaps.line "ASK" slot host port) origin = .ask slot (host ++ ":" ++ toString port)) ∧
    (Unstated host → ∀ own ownPort, (∀ c ∈ own, c ≠ '[' ∧ c ≠ ']') → ∀ origin,
      origin = String.ofList (Address.join own ownPort) →
      ofLine (gaps.line "MOVED" slot host port) origin = .moved slot (String.ofList (Address.join own port)) ∧
      ofLine (gaps.line "ASK" slot host port) origin = .ask slot (String.ofList (Address.join own port))) ∧
    (∀ line origin other address,
      ("MOVED".toList <+: said line → ofLine line origin ≠ .ask other address) ∧
      ("ASK".toList <+: said line → ofLine line origin ≠ .moved other address)) ∧
    ∀ (N : Type) [Network N] (net : N) (now deadline : Nat) (link : Link) (line : Bytes),
      link.decoder.decode.1 = .frame (.error line) → ∃ link',
        (Exchange.turn now net (.waiting link deadline)).2 = .done (link', .error (ofLine line link.address)) := by
  refine ⟨fun hstated origin => ?_, fun hunstated own ownPort hown origin horigin => ?_,
    fun line origin other address => ⟨fun h hread => ?_, fun h hread => ?_⟩, ?_⟩
  · have hnamed : named host port origin = host ++ ":" ++ toString port := if_neg hstated
    rw [← hnamed]
    exact ⟨ofLine_spelt .moved gaps hslot hport hhost origin, ofLine_spelt .ask gaps hslot hport hhost origin⟩
  · rw [← named_unstated hunstated hown ownPort port, ← horigin]
    exact ⟨ofLine_spelt .moved gaps hslot hport hhost origin, ofLine_spelt .ask gaps hslot hport hhost origin⟩
  · cases kind_eq_of_start .moved .ask h hread
  · cases kind_eq_of_start .ask .moved h hread
  · intro N _ net now deadline link line hline
    obtain ⟨decoder, hdecode⟩ : ∃ decoder, link.decoder.decode = (.frame (.error line), decoder) :=
      ⟨_, Prod.ext hline rfl⟩
    refine ⟨{ link with decoder, broken := false }, ?_⟩
    simp only [Exchange.turn, Exchange.await, hdecode, Exchange.reply]

/-- Blanks of several kinds. -/
def scattered : Blanks where
  before := ['\t']
  lead := [' ', '\u2003']
  between := ['\u00A0', ' ']
  after := [' ', '\u0085']
  between_ne_nil := by simp
  blank := by simp [Text.isBlank]

/-- A host with colons and brackets stands as it is written; one that is left out is that of a loopback address. -/
theorem reads_every_spelling_scattered :
    ofLine (scattered.line "MOVED" 16383 "[fe80::1%lo]:x" 65535) "10.0.0.1:7000" =
      .moved 16383 "[fe80::1%lo]:x:65535" ∧
    ofLine (scattered.line "ASK" 0 "?" 7001) "[::1]:7000" = .ask 0 "[::1]:7001" := by
  have hblank : ∀ c ∈ "[fe80::1%lo]:x".toList, Text.isBlank c = false := by simp [Text.isBlank]
  have hmark : ∀ c ∈ "?".toList, Text.isBlank c = false := by simp [Text.isBlank]
  obtain ⟨hstated, -⟩ := reads_every_spelling scattered 16383 "[fe80::1%lo]:x" 65535 (by decide) (by decide) hblank
  obtain ⟨-, hunstated, -⟩ := reads_every_spelling scattered 0 "?" 7001 (by decide) (by decide) hmark
  exact ⟨(hstated (by decide) "10.0.0.1:7000").1,
    (hunstated (by decide) "::1".toList 7000 (by simp) "[::1]:7000" rfl).2⟩

end Redirect
end SlotRouter
