import SlotRouter.Frame.Stream
import SlotRouter.Proofs.Frame.Grammar

/-!
# How the octets are cut

A decoder that is handed octets in chunks, and is asked for frames after each of them until it has no more,
comes to what it comes to when it has all octets at once (`Decoder.drain_append`). For a frame that was read
and a fault that was found stay what they are when more octets arrive (`Decoder.decode_append_of_frame`,
`Decoder.decode_append_of_faulty`), and as long as more octets are needed the decoder keeps what it has.

What is read from a stream is told by the same account (`Stream.readMany_eq`).

Key definitions: `Decoder.drain`, `Decoder.feed`, `Drained.answers`.
Key theorem: `Decoder.cuts_do_not_matter`.
-/

namespace SlotRouter.Frame

variable {size depth : Nat} {bs more rest body p w : Bytes} {f : Frame} {fault : Fault}

/-! ### A fault stays -/

theorem parsePayload_faulty_append {length : Nat} (h : parsePayload length bs = .faulty fault) :
    parsePayload length (bs ++ more) = .faulty fault := by
  unfold parsePayload at h ⊢
  split at h
  · cases h
  · rename_i a b r hne hdrop
    rw [List.drop_append_of_le_length (le_length_of_drop hdrop), hdrop, List.cons_append, List.cons_append]
    split
    · rename_i r' heq
      obtain ⟨rfl, htail⟩ := List.cons.inj heq
      obtain ⟨rfl, -⟩ := List.cons.inj htail
      exact (hne rfl rfl).elim
    · exact h
    · rename_i hshort
      exact absurd rfl (hshort a b (r ++ more))
  · cases h

theorem parseItems_faulty_append {item : Bytes → Parsed Frame}
    (hdone : ∀ bs f rest, item bs = .done f rest → item (bs ++ more) = .done f (rest ++ more))
    (hfaulty : ∀ bs fault, item bs = .faulty fault → item (bs ++ more) = .faulty fault)
    {count : Nat} (h : parseItems item count bs = .faulty fault) :
    parseItems item count (bs ++ more) = .faulty fault := by
  induction count generalizing bs with
  | zero => cases h
  | succ count ih =>
    unfold parseItems at h ⊢
    split at h
    · rename_i f r hf
      rw [hdone _ _ _ hf]
      split at h
      · cases h
      · cases h
      · rename_i fault' hfs
        obtain rfl := Parsed.faulty.inj h
        simp only [ih hfs]
    · cases h
    · rename_i hf
      rw [hfaulty _ _ hf]
      exact h

theorem parseAfterLine_faulty_append {items : Option (Nat → Bytes → Parsed (List Frame))} {tag : UInt8}
    (hitems : ∀ read, items = some read → ∀ count bs fault,
      read count bs = .faulty fault → read count (bs ++ more) = .faulty fault)
    (h : parseAfterLine size items tag body bs = .faulty fault) :
    parseAfterLine size items tag body (bs ++ more) = .faulty fault := by
  unfold parseAfterLine at h ⊢
  split_ifs at h ⊢ with h43 h45 h58 h36 h42
  · split at h
    · cases h
    · exact h
  · split at h
    · split_ifs at h ⊢ with hneg hbig
      · exact h
      · exact parsePayload_faulty_append h
    · exact h
  · split at h
    · split_ifs at h ⊢ with hneg hbig
      · exact h
      · split at h
        · exact h
        · rename_i read
          split at h
          · cases h
          · cases h
          · rename_i hfs
            simp only [hitems read rfl _ _ _ hfs]
            exact h
    · exact h
  · exact h

/-- **A fault that has been found stays what it is when more octets arrive.** -/
theorem parse_faulty_append (h : parse size depth bs = .faulty fault) :
    parse size depth (bs ++ more) = .faulty fault := by
  induction depth generalizing bs fault with
  | zero =>
    obtain ⟨tag, bs, body, r, rfl, hline⟩ := exists_line_of_parse h nofun
    rw [parse_cons tag hline] at h
    rw [List.cons_append, parse_cons tag (splitLine_append hline)]
    exact parseAfterLine_faulty_append (by rintro _ ⟨⟩) h
  | succ depth ih =>
    obtain ⟨tag, bs, body, r, rfl, hline⟩ := exists_line_of_parse h nofun
    rw [parse_cons tag hline] at h
    rw [List.cons_append, parse_cons tag (splitLine_append hline)]
    refine parseAfterLine_faulty_append ?_ h
    rintro _ ⟨⟩ count bs fault hfs
    exact parseItems_faulty_append (fun _ _ _ hf => parse_append hf) (fun _ _ hf => ih hf) hfs

/-- More octets are needed for a form that has not come to its end, and for nothing else is it taken. -/
theorem parse_of_wire_prefix (h : Wire size depth (p ++ more) f) (hmore : more ≠ []) :
    parse size depth p = .incomplete := by
  cases hread : parse size depth p with
  | done g rest =>
    obtain ⟨heq, -, -⟩ := eq_of_parse_prefix h (List.prefix_append p more) hread
    exact absurd (List.self_eq_append_right.1 heq) hmore
  | incomplete => rfl
  | faulty fault =>
    have hwhole := parse_of_wire h []
    rw [List.append_nil, parse_faulty_append hread] at hwhole
    cases hwhole

end SlotRouter.Frame

namespace SlotRouter

/-- What came of reading frames until there was none more. -/
structure Drained where
  frames : List Frame
  /-- Why no more can be read; nothing if more octets are needed. -/
  fault? : Option Fault
  /-- The decoder with what it has left. -/
  decoder : Decoder

namespace Drained

/-- With frames that were read before. -/
def after (earlier : List Frame) (r : Drained) : Drained := { r with frames := earlier ++ r.frames }

@[simp] theorem after_nil (r : Drained) : r.after [] = r := rfl

@[simp] theorem after_after (earlier later : List Frame) (r : Drained) :
    (r.after later).after earlier = r.after (earlier ++ later) := by
  simp [after]

@[simp] theorem after_frames (earlier : List Frame) (r : Drained) : (r.after earlier).frames = earlier ++ r.frames :=
  rfl

@[simp] theorem after_decoder (earlier : List Frame) (r : Drained) : (r.after earlier).decoder = r.decoder := rfl

/-- What the last attempt yielded. -/
def last (r : Drained) : Decoder.Outcome :=
  match r.fault? with
  | none => .incomplete
  | some fault => .faulty fault

/-- What whoever reads on is told when nothing comes any more. -/
def ending (r : Drained) : Error :=
  match r.fault? with
  | none => .closed
  | some fault => .protocol fault

/-- What `n` readers in a row are told: the frames in their order, then the ending again and again. -/
def answers (r : Drained) (n : Nat) : List (Except Error Frame) :=
  (r.frames.map Except.ok ++ List.replicate n (Except.error r.ending)).take n

theorem answers_after (earlier : List Frame) (r : Drained) (n : Nat) :
    (r.after earlier).answers (earlier.length + n) = earlier.map Except.ok ++ r.answers n := by
  have hending : (r.after earlier).ending = r.ending := rfl
  have hlength : min (n - r.frames.length) (earlier.length + n) = min (n - r.frames.length) n := by omega
  unfold answers
  rw [hending, after_frames, List.map_append, List.append_assoc, List.take_append, List.length_map,
    Nat.add_sub_cancel_left, List.take_of_length_le (by simp), List.take_append, List.take_append,
    List.take_replicate, List.take_replicate, List.length_map, hlength]

theorem answers_of_frames_eq_nil {r : Drained} (h : r.frames = []) (n : Nat) :
    r.answers n = List.replicate n (Except.error r.ending) := by
  rw [answers, h, List.map_nil, List.nil_append, List.take_replicate, Nat.min_self]

/-- What the next reader is told, and what there is to be read after it. -/
inductive Tells : Drained → Except Error Frame → Drained → Prop where
  | frame {f : Frame} {r r' : Drained} (h : r = r'.after [f]) : Tells r (.ok f) r'
  | ending {r : Drained} (h : r.frames = []) : Tells r (.error r.ending) r

theorem Tells.answers {r r' : Drained} {answer : Except Error Frame} (h : r.Tells answer r') (n : Nat) :
    r.answers (n + 1) = answer :: r'.answers n := by
  cases h with
  | frame h =>
    rw [h, Nat.add_comm]
    exact answers_after [_] r' n
  | ending h => rw [answers_of_frames_eq_nil h, answers_of_frames_eq_nil h, List.replicate_succ]

end Drained

namespace Decoder

variable {d d' : Decoder} {f : Frame} {fault : Fault} {rest more : Bytes}

@[simp] theorem append_nil (d : Decoder) : d.append [] = d := by
  simp [append]

@[simp] theorem append_append (d : Decoder) (bs cs : Bytes) : (d.append bs).append cs = d.append (bs ++ cs) := by
  simp [append]

/-- A frame takes octets out of the buffer. -/
theorem length_lt_of_decode (h : d.decode = (.frame f, d')) : d'.buffer.length < d.buffer.length := by
  obtain ⟨w, hbuffer, hw⟩ := wire_of_decode h
  have hlength := hw.three_le
  rw [hbuffer, List.length_append]
  omega

/-- Reads frames until there is none more. -/
def drain (d : Decoder) : Drained :=
  match h : d.decode with
  | (.frame f, d') =>
    have := length_lt_of_decode h
    d'.drain.after [f]
  | (.incomplete, d') => { frames := [], fault? := none, decoder := d' }
  | (.faulty fault, d') => { frames := [], fault? := some fault, decoder := d' }
termination_by d.buffer.length

theorem drain_eq {outcome : Outcome} (h : d.decode = (outcome, d')) : d.drain =
    match outcome with
    | .frame f => d'.drain.after [f]
    | .incomplete => ⟨[], none, d'⟩
    | .faulty fault => ⟨[], some fault, d'⟩ := by
  rw [drain]
  split
  all_goals
    rename_i heq
    obtain ⟨rfl, rfl⟩ := Prod.mk.inj (h.symm.trans heq)
    rfl

theorem drain_of_frame (h : d.decode = (.frame f, d')) : d.drain = d'.drain.after [f] := drain_eq h

theorem drain_of_incomplete (h : d.decode = (.incomplete, d)) : d.drain = ⟨[], none, d⟩ := drain_eq h

theorem drain_of_faulty (h : d.decode = (.faulty fault, d)) : d.drain = ⟨[], some fault, d⟩ := drain_eq h

/-- Without a frame the decoder is as it was. -/
theorem eq_of_decode {outcome : Outcome} (h : d.decode = (outcome, d')) (hnone : ∀ f, outcome ≠ .frame f) :
    d' = d := by
  have hself : d.decode.2 = d := decode_eq_self fun f => by
    rw [h]
    exact hnone f
  rwa [h] at hself

theorem decode_cases (d : Decoder) : (∃ f d', d.decode = (.frame f, d')) ∨ d.decode = (.incomplete, d) ∨
    ∃ fault, d.decode = (.faulty fault, d) := by
  rcases h : d.decode with ⟨f | _ | fault, d'⟩
  · exact .inl ⟨f, d', rfl⟩
  · obtain rfl := eq_of_decode h nofun
    exact .inr (.inl rfl)
  · obtain rfl := eq_of_decode h nofun
    exact .inr (.inr ⟨fault, rfl⟩)

/-- What is true when no frame is in front, and of a frame in front if it is true of what is behind it, is
true of all that is read. -/
theorem drain_induction {P : Decoder → Drained → Prop}
    (frame : ∀ {d d' f}, d.decode = (.frame f, d') → P d' d'.drain → P d (d'.drain.after [f]))
    (incomplete : ∀ {d}, d.decode = (.incomplete, d) → P d ⟨[], none, d⟩)
    (faulty : ∀ {d fault}, d.decode = (.faulty fault, d) → P d ⟨[], some fault, d⟩) (d : Decoder) :
    P d d.drain := by
  rcases decode_cases d with ⟨f, d', h⟩ | h | ⟨fault, h⟩
  · have hlt := length_lt_of_decode h
    rw [drain_of_frame h]
    exact frame h (drain_induction frame incomplete faulty d')
  · rw [drain_of_incomplete h]
    exact incomplete h
  · rw [drain_of_faulty h]
    exact faulty h
termination_by d.buffer.length

theorem limits_of_decode {outcome : Outcome} (h : d.decode = (outcome, d')) : d'.limits = d.limits := by
  have hlimits := decode_limits d
  rwa [h] at hlimits

/-! ### More octets -/

theorem decode_append_of_frame (fits : (d.append more).buffer.length ≤ d.limits.size)
    (h : d.decode = (.frame f, d')) : (d.append more).decode = (.frame f, d'.append more) := by
  obtain ⟨-, hparse, hrest⟩ := of_decode_frame h
  rw [hrest]
  exact decode_of_done fits (Frame.parse_append hparse)

theorem parse_of_decode_faulty (fits : d.buffer.length ≤ d.limits.size) (h : d.decode.1 = .faulty fault) :
    Frame.parse d.limits.size d.limits.depth d.buffer = .faulty fault := by
  cases hread : Frame.parse d.limits.size d.limits.depth d.buffer with
  | done f rest =>
    rw [decode_of_done fits hread] at h
    cases h
  | incomplete =>
    rw [decode_of_incomplete fits hread] at h
    cases h
  | faulty other =>
    rw [decode_of_faulty fits hread] at h
    obtain rfl := Outcome.faulty.inj h
    rfl

theorem decode_append_of_faulty (fits : (d.append more).buffer.length ≤ d.limits.size)
    (h : d.decode = (.faulty fault, d)) : (d.append more).decode = (.faulty fault, d.append more) := by
  have hfits : d.buffer.length ≤ d.limits.size := by
    rw [append, List.length_append] at fits
    omega
  have hread := parse_of_decode_faulty hfits (congrArg Prod.fst h)
  exact decode_of_faulty fits (Frame.parse_faulty_append hread)

/-- What is left fits with more octets behind it if all of it did. -/
theorem fits_append_of_frame (fits : (d.append more).buffer.length ≤ d.limits.size)
    (h : d.decode = (.frame f, d')) : (d'.append more).buffer.length ≤ d'.limits.size := by
  have hlength := length_lt_of_decode h
  rw [append, List.length_append] at fits ⊢
  rw [limits_of_decode h]
  omega

end Decoder

/-! ### Chunks -/

namespace Drained

/-- Goes on with octets that have arrived. -/
def feed (r : Drained) (chunk : Bytes) : Drained := (r.decoder.append chunk).drain.after r.frames

theorem feed_after (earlier : List Frame) (r : Drained) (chunk : Bytes) :
    (r.after earlier).feed chunk = (r.feed chunk).after earlier := by
  simp [feed]

end Drained

namespace Decoder

variable {limits : Frame.Limits} {d : Decoder} {more : Bytes} {chunks : List Bytes}

/-- **Reading what is there and then going on with more is reading all at once.** -/
theorem drain_append (fits : (d.append more).buffer.length ≤ d.limits.size) :
    (d.append more).drain = d.drain.feed more := by
  revert fits
  refine drain_induction (P := fun (d : Decoder) r => (d.append more).buffer.length ≤ d.limits.size →
    (d.append more).drain = r.feed more) ?_ (fun _ _ => rfl) (fun _ _ => rfl) d
  intro d d' f h ih fits
  rw [drain_of_frame (decode_append_of_frame fits h), Drained.feed_after, ih (fits_append_of_frame fits h)]

/-- Hands over chunks one by one, and reads after each of them until there is no frame more. -/
def feed (limits : Frame.Limits) (chunks : List Bytes) : Drained :=
  chunks.foldl Drained.feed ⟨[], none, { limits }⟩

theorem foldl_feed (fits : (d.append chunks.flatten).buffer.length ≤ d.limits.size) :
    chunks.foldl Drained.feed d.drain = (d.append chunks.flatten).drain := by
  induction chunks generalizing d with
  | nil =>
    rw [List.flatten_nil, append_nil]
    rfl
  | cons chunk chunks ih =>
    rw [List.flatten_cons, ← append_append] at fits ⊢
    have hchunk : (d.append chunk).buffer.length ≤ d.limits.size := by
      rw [append, List.length_append] at fits
      omega
    rw [List.foldl_cons, ← drain_append hchunk]
    exact ih fits

/-- **A new decoder that is handed chunks comes to what it comes to with all octets at once.** -/
theorem feed_eq (fits : chunks.flatten.length ≤ limits.size) :
    feed limits chunks = ({ limits, buffer := chunks.flatten } : Decoder).drain := by
  have hnew : ({ limits } : Decoder).drain = ⟨[], none, { limits }⟩ := drain_of_incomplete rfl
  rw [feed, ← hnew]
  exact foldl_feed fits

/-! ### What is left -/

theorem drain_limits (d : Decoder) : d.drain.decoder.limits = d.limits := by
  refine drain_induction (P := fun d r => r.decoder.limits = d.limits) ?_ (fun _ => rfl) (fun _ => rfl) d
  intro d d' f h ih
  exact ih.trans (limits_of_decode h)

/-- The frames that were read, and what is left, are all there was. -/
theorem wireItems_drain (d : Decoder) : ∃ w, d.buffer = w ++ d.drain.decoder.buffer ∧
    Frame.WireItems d.limits.size d.limits.depth w d.drain.frames := by
  refine drain_induction (P := fun d r => ∃ w, d.buffer = w ++ r.decoder.buffer ∧
    Frame.WireItems d.limits.size d.limits.depth w r.frames) ?_ (fun _ => ⟨[], rfl, .nil⟩)
    (fun _ => ⟨[], rfl, .nil⟩) d
  rintro d d' f h ⟨w, hrest, hw⟩
  obtain ⟨v, hbuffer, hv⟩ := wire_of_decode h
  rw [limits_of_decode h] at hw
  refine ⟨v ++ w, ?_, .cons hv hw⟩
  rw [hbuffer, hrest, List.append_assoc, Drained.after_decoder]

/-- The last attempt has yielded no frame, and another one would yield the same. -/
theorem decode_drain (d : Decoder) : d.drain.decoder.decode = (d.drain.last, d.drain.decoder) :=
  drain_induction (P := fun _ r => r.decoder.decode = (r.last, r.decoder)) (fun _ ih => ih) (fun h => h) (fun h => h) d

/-- **After a fault no more octets are looked at.** -/
theorem drain_append_of_fault {fault : Fault} (fits : (d.append more).buffer.length ≤ d.limits.size)
    (h : d.drain.fault? = some fault) :
    (d.append more).drain = { d.drain with decoder := d.drain.decoder.append more } := by
  have hlast : d.drain.decoder.decode = (.faulty fault, d.drain.decoder) := by
    rw [decode_drain, Drained.last, h]
  have hfits : (d.drain.decoder.append more).buffer.length ≤ d.drain.decoder.limits.size := by
    obtain ⟨w, hbuffer, -⟩ := wireItems_drain d
    simp only [append, hbuffer, List.length_append, drain_limits] at fits ⊢
    omega
  have hmore := drain_of_faulty (decode_append_of_faulty hfits hlast)
  rw [drain_append fits, Drained.feed, hmore, ← h, Drained.after, List.append_nil]

/-- Frames whose forms are in front are read, and then what stands behind them. -/
theorem drain_of_wireItems {w p : Bytes} {fs : List Frame} (fits : d.buffer.length ≤ d.limits.size)
    (hbuffer : d.buffer = w ++ p) (hw : Frame.WireItems d.limits.size d.limits.depth w fs) :
    d.drain = (drain { d with buffer := p }).after fs := by
  induction fs generalizing d w with
  | nil =>
    cases hw
    rw [Drained.after_nil, ← List.nil_append p, ← hbuffer]
  | cons f fs ih =>
    cases hw with
    | @cons _ v w _ _ hv hw =>
      rw [List.append_assoc] at hbuffer
      have hread : d.decode = (.frame f, { d with buffer := w ++ p }) :=
        (decode_eq_frame_iff fits).2 ⟨v, hbuffer, hv⟩
      have hlt := length_lt_of_decode hread
      rw [drain_of_frame hread, ih (hlt.le.trans fits) rfl hw, Drained.after_after, List.singleton_append]

end Decoder

/-! ### Streams -/

namespace Stream

variable {s : Stream}

/-- What there is to be read. -/
def all (s : Stream) : Drained := (s.decoder.append s.chunks.flatten).drain

/-- What the decoder holds and what is to come does not exceed the decoder's limit. -/
def Fits (s : Stream) : Prop := (s.decoder.append s.chunks.flatten).buffer.length ≤ s.decoder.limits.size

theorem readFrom_of_frame {d d' : Decoder} {f : Frame} (h : d.decode = (.frame f, d')) (chunks : List Bytes) :
    readFrom d chunks = (.ok f, ⟨d', chunks⟩) := by
  rw [readFrom.eq_def, h]

theorem readFrom_of_faulty {d : Decoder} {fault : Fault} (h : d.decode = (.faulty fault, d)) (chunks : List Bytes) :
    readFrom d chunks = (.error (.protocol fault), ⟨d, chunks⟩) := by
  rw [readFrom.eq_def, h]

theorem readFrom_nil {d : Decoder} (h : d.decode = (.incomplete, d)) :
    readFrom d [] = (.error .closed, ⟨d, []⟩) := by
  rw [readFrom.eq_def, h]

theorem readFrom_cons {d : Decoder} (h : d.decode = (.incomplete, d)) (chunk : Bytes) (chunks : List Bytes) :
    readFrom d (chunk :: chunks) = readFrom (d.append chunk) chunks := by
  rw [readFrom.eq_def, h]

/-- A chunk that is to come and one that has come make no difference to what there is. -/
theorem all_cons (d : Decoder) (chunk : Bytes) (chunks : List Bytes) :
    all ⟨d, chunk :: chunks⟩ = all ⟨d.append chunk, chunks⟩ := by
  unfold all
  rw [List.flatten_cons, ← Decoder.append_append]

/-- **A reader is told the first of the frames there are, or the ending if there is none.** -/
theorem readFrom_tells {d : Decoder} {chunks : List Bytes} (fits : Fits ⟨d, chunks⟩) :
    (readFrom d chunks).2.Fits ∧ (all ⟨d, chunks⟩).Tells (readFrom d chunks).1 (readFrom d chunks).2.all := by
  rcases Decoder.decode_cases d with ⟨f, d', h⟩ | h | ⟨fault, h⟩
  · have hall : all ⟨d, chunks⟩ = (all ⟨d', chunks⟩).after [f] :=
      Decoder.drain_of_frame (Decoder.decode_append_of_frame fits h)
    rw [readFrom_of_frame h]
    exact ⟨Decoder.fits_append_of_frame fits h, .frame hall⟩
  · cases chunks with
    | nil =>
      have hall : all ⟨d, []⟩ = ⟨[], none, d⟩ := by
        rw [all, List.flatten_nil, Decoder.append_nil, Decoder.drain_of_incomplete h]
      rw [readFrom_nil h, hall]
      exact ⟨fits, .ending rfl⟩
    | cons chunk chunks =>
      have hfits : Fits ⟨d.append chunk, chunks⟩ := by
        unfold Fits at fits ⊢
        rwa [List.flatten_cons, ← Decoder.append_append] at fits
      rw [readFrom_cons h, all_cons]
      exact readFrom_tells hfits
  · have hall : all ⟨d, chunks⟩ = ⟨[], some fault, d.append chunks.flatten⟩ :=
      Decoder.drain_of_faulty (Decoder.decode_append_of_faulty fits h)
    rw [readFrom_of_faulty h, hall]
    exact ⟨fits, .ending rfl⟩

/-- **What readers in a row are told depends only on what there is.** -/
theorem readMany_eq (fits : s.Fits) (n : Nat) : s.readMany n = s.all.answers n := by
  induction n generalizing s with
  | zero => rfl
  | succ n ih =>
    obtain ⟨hrest, htells⟩ := readFrom_tells fits
    rw [htells.answers]
    exact congrArg (_ :: ·) (ih hrest)

end Stream

namespace Decoder

/-- **How the octets are cut does not matter.** A new decoder that is handed octets in chunks, and is asked for
frames after each chunk until it yields none, has read the same frames as with all octets at once, is as it
then is, and yields the same in the end. The frames and what is left are all octets there were; if a fault was
found after some of the chunks, it stays, and the later ones are only kept. An attempt that yields no frame
changes nothing, and one that yields a frame takes a form of it out of the buffer. So what readers of a stream
are told depends only on the octets, and where these end inside a frame, the stream counts as closed. -/
theorem cuts_do_not_matter (limits : Frame.Limits) (chunks : List Bytes)
    (fits : chunks.flatten.length ≤ limits.size) :
    feed limits chunks = feed limits [chunks.flatten] ∧
    (feed limits chunks).decoder.decode = ((feed limits chunks).last, (feed limits chunks).decoder) ∧
    (∃ w, chunks.flatten = w ++ (feed limits chunks).decoder.buffer ∧
      Frame.WireItems limits.size limits.depth w (feed limits chunks).frames) ∧
    (∀ earlier later fault, chunks = earlier ++ later → (feed limits earlier).fault? = some fault →
      feed limits chunks =
        { feed limits earlier with decoder := (feed limits earlier).decoder.append later.flatten }) ∧
    (∀ d : Decoder, (∀ f, d.decode.1 ≠ .frame f) → d.decode.2 = d) ∧
    (∀ (d d' : Decoder) f, d.decode = (.frame f, d') → d'.limits = d.limits ∧
      ∃ w, d.buffer = w ++ d'.buffer ∧ Frame.Wire d.limits.size d.limits.depth w f) ∧
    (∀ n, Stream.readMany n ⟨{ limits }, chunks⟩ = (feed limits [chunks.flatten]).answers n) ∧
    ∀ w p more fs f, chunks.flatten = w ++ p → Frame.WireItems limits.size limits.depth w fs →
      Frame.Wire limits.size limits.depth (p ++ more) f → more ≠ [] → ∀ n,
        Stream.readMany (fs.length + n) ⟨{ limits }, chunks⟩ =
          fs.map Except.ok ++ List.replicate n (Except.error .closed) := by
  have hone : chunks.flatten = [chunks.flatten].flatten := by simp
  have heq : feed limits chunks = feed limits [chunks.flatten] := by
    rw [feed_eq fits, feed_eq (hone ▸ fits), ← hone]
  have hmany : ∀ n, Stream.readMany n ⟨{ limits }, chunks⟩ = (feed limits [chunks.flatten]).answers n := by
    intro n
    have hfits : Stream.Fits ⟨{ limits }, chunks⟩ := fits
    rw [Stream.readMany_eq hfits, ← heq, feed_eq fits]
    rfl
  refine ⟨heq, ?_, ?_, ?_, fun d => decode_eq_self, ?_, hmany, ?_⟩
  · rw [feed_eq fits]
    exact decode_drain _
  · have hall := wireItems_drain { limits, buffer := chunks.flatten }
    rw [feed_eq fits]
    exact hall
  · rintro earlier later fault rfl hfault
    rw [List.flatten_append] at fits
    have hearlier : earlier.flatten.length ≤ limits.size := by
      rw [List.length_append] at fits
      omega
    rw [feed_eq hearlier] at hfault
    rw [feed_eq hearlier, feed_eq (List.flatten_append ▸ fits), List.flatten_append]
    exact drain_append_of_fault (d := { limits, buffer := earlier.flatten }) fits hfault
  · intro d d' f h
    exact ⟨limits_of_decode h, wire_of_decode h⟩
  · intro w p more fs f hsplit hw hp hmore n
    have hlength : p.length ≤ limits.size := by
      rw [hsplit, List.length_append] at fits
      omega
    have hleft : ({ limits, buffer := p } : Decoder).drain = ⟨[], none, { limits, buffer := p }⟩ :=
      drain_of_incomplete (decode_of_incomplete hlength (Frame.parse_of_wire_prefix hp hmore))
    have hall : ({ limits, buffer := chunks.flatten } : Decoder).drain =
        (⟨[], none, { limits, buffer := p }⟩ : Drained).after fs := by
      rw [drain_of_wireItems fits hsplit hw, ← hleft]
    rw [hmany, ← heq, feed_eq fits, hall, Drained.answers_after, Drained.answers_of_frames_eq_nil rfl]
    rfl

/-- A line, a payload and the beginning of an array, torn inside line ends, inside a length and inside the
payload. -/
def torn : List Bytes := ["+O", "K\r", "\n$", "5\r\nhe", "llo\r\n*", "2\r\n:1"].map Bytes.ofText

/-- The line and the payload are read, and the array never comes. -/
theorem cuts_do_not_matter_torn :
    torn.flatten.length ≤ ({} : Frame.Limits).size ∧ feed {} torn = feed {} [torn.flatten] ∧
    Stream.readMany 4 ⟨{}, torn⟩ =
      [.ok (.ofText "OK"), .ok (.bulkText "hello"), .error .closed, .error .closed] := by
  have fits : torn.flatten.length ≤ ({} : Frame.Limits).size := by decide
  have hline : Frame.Wire ({} : Frame.Limits).size 32 _ (.ofText "OK") :=
    @Frame.Wire.simple _ _ (Bytes.ofText "OK") (by decide)
  have hpayload : Frame.Wire ({} : Frame.Limits).size 32 _ (.bulkText "hello") :=
    @Frame.Wire.bulk _ _ (Bytes.ofText "5") (Bytes.ofText "hello") 5 (by decide) (by decide) (by decide)
  have hone : Frame.Wire ({} : Frame.Limits).size 31 _ (.integer 1) :=
    @Frame.Wire.integer _ _ (Bytes.ofText "1") 1 (by decide)
  have harray : Frame.Wire ({} : Frame.Limits).size 32 _ (.array [.integer 1, .integer 1]) :=
    @Frame.Wire.array _ _ (Bytes.ofText "2") _ 2 _ (by decide) rfl (by decide)
      (.cons hone (.cons hone .nil))
  obtain ⟨hsame, -, -, -, -, -, -, hends⟩ := cuts_do_not_matter {} torn fits
  exact ⟨fits, hsame, hends _ (Bytes.ofText "*2\r\n:1") (Bytes.ofText "\r\n:1\r\n") _ _ rfl
    (.cons hline (.cons hpayload .nil)) harray (by decide) 2⟩

end Decoder
end SlotRouter
