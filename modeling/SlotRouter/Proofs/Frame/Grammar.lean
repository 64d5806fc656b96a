import SlotRouter.Proofs.Frame.Parse
import SlotRouter.Proofs.Numerals

/-!
# The reader and its grammar

What is read as a frame is a form of that frame, and what is left is what stands behind the form
(`wire_of_parse`). With `parse_of_wire` this says that the reader accepts exactly the grammar `Wire`,
and that octets have one form in front at most (`wire_unique`): whoever knows the grammar knows where a
frame ends.

The numbers in the grammar are the numerals that fit 64 bits (`Decimal.int64?_eq_some_iff`).

Key theorems: `of_splitLine`, `wire_of_parse`, `wire_unique`, `Decoder.accepts_the_grammar`.
-/

namespace SlotRouter.Frame

variable {size depth : Nat} {bs rest body w w' : Bytes} {f f' : Frame}

instance (bs : Bytes) (n : Int64) : Decidable (Numeral bs n) :=
  inferInstanceAs (Decidable (Decimal.int64? bs = some n))

instance (bs : Bytes) : Decidable (NoLineEnd bs) :=
  inferInstanceAs (Decidable (¬Bytes.crlf <:+: bs))

/-! ### Lines -/

theorem noLineEnd_nil : NoLineEnd [] := by
  rintro ⟨before, behind, h⟩
  simp [Bytes.crlf] at h

/-- A line end in a longer line begins with its first octet, or stands in what follows. -/
theorem NoLineEnd.cons {b : UInt8} (h : NoLineEnd bs) (hfirst : ∀ r, b = 13 → bs ≠ 10 :: r) :
    NoLineEnd (b :: bs) := by
  intro hin
  rcases List.infix_cons_iff.1 hin with hprefix | hlater
  · obtain ⟨r, hr⟩ := hprefix
    obtain ⟨rfl, htail⟩ := List.cons.inj hr
    exact hfirst r rfl htail.symm
  · exact h hlater

theorem of_splitLineFrom {before : Bytes} (h : splitLineFrom before bs = some (body, rest)) :
    ∃ line, body = before.reverse ++ line ∧ NoLineEnd line ∧ bs = line ++ Bytes.crlf ++ rest := by
  fun_induction splitLineFrom before bs with
  | case1 before rest' =>
    obtain ⟨rfl, rfl⟩ : before.reverse = body ∧ rest' = rest := by simpa using h
    exact ⟨[], by simp, noLineEnd_nil, rfl⟩
  | case2 before b rest' hne ih =>
    obtain ⟨line, rfl, hline, rfl⟩ := ih h
    refine ⟨b :: line, by simp, hline.cons fun r hb hr => ?_, rfl⟩
    subst hr
    exact hne (r ++ Bytes.crlf ++ rest) hb rfl
  | case3 => simp at h

/-- A line is split at its first line end. -/
theorem of_splitLine (h : splitLine bs = some (body, rest)) :
    NoLineEnd body ∧ bs = body ++ Bytes.crlf ++ rest := by
  obtain ⟨line, rfl, hline, hbs⟩ := of_splitLineFrom h
  exact ⟨hline, hbs⟩

/-! ### What is read is a form -/

theorem parse_nil (size depth : Nat) : parse size depth [] = .incomplete := by
  cases depth <;> rfl

theorem of_parsePayload {length : Nat} (h : parsePayload length bs = .done f rest) :
    ∃ payload, f = .bulk payload ∧ payload.length = length ∧ bs = payload ++ Bytes.crlf ++ rest := by
  unfold parsePayload at h
  split at h
  · rename_i r hdrop
    obtain ⟨rfl, rfl⟩ := Parsed.done.inj h
    refine ⟨bs.take length, rfl, List.length_take_of_le (le_length_of_drop hdrop), ?_⟩
    have hboth := List.take_append_drop length bs
    rw [hdrop] at hboth
    rw [List.append_assoc]
    exact hboth.symm
  · cases h
  · cases h

theorem wireItems_of_parseItems {item : Bytes → Parsed Frame}
    (hitem : ∀ bs f rest, item bs = .done f rest → ∃ w, bs = w ++ rest ∧ Wire size depth w f)
    {count : Nat} {fs : List Frame} (h : parseItems item count bs = .done fs rest) :
    ∃ w, bs = w ++ rest ∧ fs.length = count ∧ WireItems size depth w fs := by
  induction count generalizing bs fs with
  | zero =>
    obtain ⟨rfl, rfl⟩ := Parsed.done.inj h
    exact ⟨[], rfl, rfl, .nil⟩
  | succ count ih =>
    unfold parseItems at h
    split at h
    · rename_i f r hf
      split at h
      · rename_i fs' r' hfs
        obtain ⟨rfl, rfl⟩ := Parsed.done.inj h
        obtain ⟨v, rfl, hv⟩ := hitem _ _ _ hf
        obtain ⟨w, rfl, rfl, hw⟩ := ih hfs
        exact ⟨v ++ w, (List.append_assoc ..).symm, rfl, .cons hv hw⟩
      · cases h
      · cases h
    · cases h
    · cases h

/-- A length that is not negative and was found to fit is the length of what has been read. -/
theorem toInt_eq_of_toNat {n : Int64} (hneg : ¬n < 0) {m : Nat} (h : m = n.toInt.toNat) : n.toInt = m := by
  have hzero : ¬n.toInt < 0 := by
    rw [Int64.lt_iff_toInt_lt] at hneg
    simpa using hneg
  omega

/-- The first line of a form and what it says is to follow. -/
theorem wire_of_parseAfterLine {items : Option (Nat → Bytes → Parsed (List Frame))} {tag : UInt8}
    (hline : NoLineEnd body)
    (hitems : ∀ read, items = some read → ∃ inner, depth = inner + 1 ∧ ∀ count bs fs rest,
      read count bs = .done fs rest → ∃ w, bs = w ++ rest ∧ fs.length = count ∧ WireItems size inner w fs)
    (h : parseAfterLine size items tag body bs = .done f rest) :
    ∃ w, tag :: body ++ Bytes.crlf ++ bs = w ++ rest ∧ Wire size depth w f := by
  unfold parseAfterLine at h
  split_ifs at h with h43 h45 h58 h36 h42
  · obtain ⟨rfl, rfl⟩ := Parsed.done.inj h
    subst h43
    exact ⟨_, rfl, .simple hline⟩
  · obtain ⟨rfl, rfl⟩ := Parsed.done.inj h
    subst h45
    exact ⟨_, rfl, .error hline⟩
  · subst h58
    split at h
    · rename_i n hn
      obtain ⟨rfl, rfl⟩ := Parsed.done.inj h
      exact ⟨_, rfl, .integer hn⟩
    · cases h
  · subst h36
    split at h
    · rename_i n hn
      split_ifs at h with hneg hbig
      · obtain ⟨rfl, rfl⟩ := Parsed.done.inj h
        exact ⟨_, rfl, .nilBulk hn hneg⟩
      · obtain ⟨payload, rfl, hlength, rfl⟩ := of_parsePayload h
        refine ⟨_, ?_, .bulk hn (toInt_eq_of_toNat hneg hlength) (by omega)⟩
        simp only [List.cons_append, List.append_assoc]
    · cases h
  · subst h42
    split at h
    · rename_i n hn
      split_ifs at h with hneg hbig
      · obtain ⟨rfl, rfl⟩ := Parsed.done.inj h
        exact ⟨_, rfl, .nilArray hn hneg⟩
      · split at h
        · cases h
        · rename_i read
          obtain ⟨inner, rfl, hread⟩ := hitems read rfl
          split at h
          · rename_i fs r hfs
            obtain ⟨rfl, rfl⟩ := Parsed.done.inj h
            obtain ⟨w, rfl, hlength, hw⟩ := hread _ _ _ _ hfs
            refine ⟨_, ?_, .array hn (toInt_eq_of_toNat hneg hlength) (by omega) hw⟩
            simp only [List.cons_append, List.append_assoc]
          · cases h
          · cases h
    · cases h

/-- **What is read as a frame is a form of that frame**, and what is left stood behind it. -/
theorem wire_of_parse (h : parse size depth bs = .done f rest) : ∃ w, bs = w ++ rest ∧ Wire size depth w f := by
  induction depth generalizing bs f rest with
  | zero =>
    obtain ⟨tag, bs, body, r, rfl, hsplit⟩ := exists_line_of_parse h nofun
    obtain ⟨hline, rfl⟩ := of_splitLine hsplit
    rw [parse_cons tag hsplit] at h
    exact wire_of_parseAfterLine hline (by rintro _ ⟨⟩) h
  | succ depth ih =>
    obtain ⟨tag, bs, body, r, rfl, hsplit⟩ := exists_line_of_parse h nofun
    obtain ⟨hline, rfl⟩ := of_splitLine hsplit
    rw [parse_cons tag hsplit] at h
    refine wire_of_parseAfterLine hline ?_ h
    rintro _ ⟨⟩
    exact ⟨depth, rfl, fun _ _ _ _ hfs => wireItems_of_parseItems (fun _ _ _ hf => ih hf) hfs⟩

theorem parse_eq_done_iff : parse size depth bs = .done f rest ↔ ∃ w, bs = w ++ rest ∧ Wire size depth w f := by
  constructor
  · exact wire_of_parse
  · rintro ⟨w, rfl, hw⟩
    exact parse_of_wire hw rest

/-- **Octets have one form in front at most.** -/
theorem wire_unique {rest' : Bytes} (hw : Wire size depth w f) (hw' : Wire size depth w' f')
    (h : w ++ rest = w' ++ rest') : w = w' ∧ f = f' ∧ rest = rest' := by
  have hread := parse_of_wire hw rest
  rw [h, parse_of_wire hw' rest'] at hread
  obtain ⟨rfl, rfl⟩ := Parsed.done.inj hread
  exact ⟨List.append_cancel_right h, rfl, rfl⟩

/-- A form is at least a tag and a line end. -/
theorem Wire.three_le (h : Wire size depth w f) : 3 ≤ w.length := by
  cases h <;> simp [Bytes.crlf] <;> omega

end SlotRouter.Frame

namespace SlotRouter.Decoder

variable {d d' : Decoder} {f : Frame} {fault : Fault} {rest : Bytes}

/-! ### What an attempt to read comes to -/

theorem decode_of_done (fits : d.buffer.length ≤ d.limits.size)
    (h : Frame.parse d.limits.size d.limits.depth d.buffer = .done f rest) :
    d.decode = (.frame f, { d with buffer := rest }) := by
  unfold decode
  rw [if_neg (Nat.not_lt.2 fits), h]
  cases hbuffer : d.buffer with
  | nil =>
    rw [hbuffer, Frame.parse_nil] at h
    cases h
  | cons b bs => rfl

theorem decode_of_incomplete (fits : d.buffer.length ≤ d.limits.size)
    (h : Frame.parse d.limits.size d.limits.depth d.buffer = .incomplete) : d.decode = (.incomplete, d) := by
  unfold decode
  rw [if_neg (Nat.not_lt.2 fits), h]
  exact ite_self _

theorem decode_of_faulty (fits : d.buffer.length ≤ d.limits.size)
    (h : Frame.parse d.limits.size d.limits.depth d.buffer = .faulty fault) : d.decode = (.faulty fault, d) := by
  unfold decode
  rw [if_neg (Nat.not_lt.2 fits), h]
  cases hbuffer : d.buffer with
  | nil =>
    rw [hbuffer, Frame.parse_nil] at h
    cases h
  | cons b bs => rfl

/-- A frame is yielded only from a buffer that fits, and only what stands behind it is kept. -/
theorem of_decode_frame (h : d.decode = (.frame f, d')) :
    d.buffer.length ≤ d.limits.size ∧
      Frame.parse d.limits.size d.limits.depth d.buffer = .done f d'.buffer ∧
      d' = { d with buffer := d'.buffer } := by
  unfold decode at h
  split_ifs at h with hempty hlong
  · cases (Prod.mk.inj h).1
  · cases (Prod.mk.inj h).1
  · split at h
    · rename_i g rest hparse
      obtain ⟨hg, rfl⟩ := Prod.mk.inj h
      obtain rfl := Outcome.frame.inj hg
      exact ⟨Nat.not_lt.1 hlong, hparse, rfl⟩
    · cases (Prod.mk.inj h).1
    · cases (Prod.mk.inj h).1

/-- The octets that a frame takes out of the buffer are a form of it. -/
theorem wire_of_decode (h : d.decode = (.frame f, d')) :
    ∃ w, d.buffer = w ++ d'.buffer ∧ Frame.Wire d.limits.size d.limits.depth w f := by
  obtain ⟨-, hparse, -⟩ := of_decode_frame h
  exact Frame.wire_of_parse hparse

theorem decode_eq_frame_iff (fits : d.buffer.length ≤ d.limits.size) :
    d.decode = (.frame f, { d with buffer := rest }) ↔
      ∃ w, d.buffer = w ++ rest ∧ Frame.Wire d.limits.size d.limits.depth w f := by
  constructor
  · exact wire_of_decode
  · intro h
    exact decode_of_done fits (Frame.parse_eq_done_iff.2 h)

/-- **The decoder accepts exactly its grammar.** From octets that fit, a frame is read and `rest` is left
exactly if the octets are a form of the frame and then `rest`, and there is one way at most to see them so.
So a frame that has come whole is never taken for an incomplete or a faulty one, and what is no form of a
frame is never read as one. The numerals of the grammar are a sign, or none, and digits, and what these stand
for by their places fits 64 bits. -/
theorem accepts_the_grammar (fits : d.buffer.length ≤ d.limits.size) :
    (∀ f rest, d.decode = (.frame f, { d with buffer := rest }) ↔
      ∃ w, d.buffer = w ++ rest ∧ Frame.Wire d.limits.size d.limits.depth w f) ∧
    (∀ w w' f f' rest rest', d.buffer = w ++ rest → Frame.Wire d.limits.size d.limits.depth w f →
      d.buffer = w' ++ rest' → Frame.Wire d.limits.size d.limits.depth w' f' →
      w = w' ∧ f = f' ∧ rest = rest') ∧
    ((∀ f, d.decode.1 ≠ .frame f) ↔
      ∀ w f rest, d.buffer = w ++ rest → ¬Frame.Wire d.limits.size d.limits.depth w f) ∧
    ∀ body n, Frame.Numeral body n ↔ Decimal.Signed body n.toInt := by
  refine ⟨fun f rest => decode_eq_frame_iff fits, fun w w' f f' rest rest' hbuffer hw hbuffer' hw' => ?_, ?_,
    fun body n => Decimal.int64?_eq_some_iff⟩
  · exact Frame.wire_unique hw hw' (hbuffer.symm.trans hbuffer')
  · constructor
    · intro hnone w f rest hbuffer hw
      have hdecode := (decode_eq_frame_iff fits).2 ⟨w, hbuffer, hw⟩
      exact hnone f (congrArg Prod.fst hdecode)
    · intro hnone f hf
      have hdecode : d.decode = (.frame f, d.decode.2) := Prod.ext hf rfl
      obtain ⟨w, hbuffer, hw⟩ := wire_of_decode hdecode
      exact hnone w f _ hbuffer hw

/-- An array and the beginning of another frame. -/
def spelt : Decoder := { buffer := Bytes.ofText "*2\r\n$+03\r\na\r\n\r\n*-7\r\n:-0" }

/-- The array holds a payload with a line end in it, whose length has a sign and a zero in front, and a nil
array of another spelling than the one that is written. What stands behind it is kept. -/
theorem accepts_the_grammar_spelt :
    spelt.buffer.length ≤ spelt.limits.size ∧
    spelt.decode = (.frame (.array [.bulkText "a\r\n", .nilArray]), { spelt with buffer := Bytes.ofText ":-0" }) := by
  have fits : spelt.buffer.length ≤ spelt.limits.size := by decide
  have hpayload : Frame.Wire spelt.limits.size 31 (Bytes.ofText "$+03\r\na\r\n\r\n") (.bulkText "a\r\n") :=
    @Frame.Wire.bulk _ _ (Bytes.ofText "+03") (Bytes.ofText "a\r\n") 3 (by decide) (by decide) (by decide)
  have hnil : Frame.Wire spelt.limits.size 31 (Bytes.ofText "*-7\r\n") .nilArray :=
    @Frame.Wire.nilArray _ _ (Bytes.ofText "-7") (-7) (by decide) (by decide)
  have harray : Frame.Wire spelt.limits.size 32 _ (.array [.bulkText "a\r\n", .nilArray]) :=
    @Frame.Wire.array _ _ (Bytes.ofText "2") _ 2 _ (by decide) rfl (by decide) (.cons hpayload (.cons hnil .nil))
  obtain ⟨hread, -⟩ := accepts_the_grammar fits
  exact ⟨fits, (hread _ _).2 ⟨_, by decide, harray⟩⟩

end SlotRouter.Decoder
