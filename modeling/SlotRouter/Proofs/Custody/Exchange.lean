import Mathlib.Tactic.SplitIfs
import SlotRouter.Proofs.Custody

/-!
# Exchanges and custody

An exchange keeps to its connection, and a frame that it hands to its caller is the reply to the
command that it wrote. The opening of a link, and its way out of a pool, keep to one connection as
well.

Key theorems: `Exchange.answer`, `Exchange.moves`, `Dial.moves`, `Borrow.moves`.
-/

namespace SlotRouter

open List

/-- What an activity has after a turn, given what it had before. -/
def Turn.held {σ ρ : Type} (before : Option Holding) (state : σ → Option Holding)
    (result : ρ → Option Holding) :
    Turn σ ρ → Option Holding
  | .blocked => before
  | .running s => state s
  | .done r => result r

variable {N : Type} [Network N] {replies : Replies} {record : List Traffic} {link : Link}
    {who : Nat}

/-! ### The network -/

namespace Watched

variable {w net : Watched N} {now : Nat} {h : Handle} {bs : Bytes}

theorem connect_spec {address : String} (hconnect : Network.connect w now address = (net, h)) :
    net.who = w.who ∧ net.record = .opened w.who h :: w.record := by
  obtain ⟨rfl, rfl⟩ := Prod.mk.inj hconnect
  exact ⟨rfl, rfl⟩

theorem send_spec {sent : Sent} (hsend : Network.send w now h bs = (net, sent)) :
    net.who = w.who ∧ net.record = Traffic.ofSent w.who h bs sent ++ w.record := by
  obtain ⟨rfl, rfl⟩ := Prod.mk.inj hsend
  exact ⟨rfl, rfl⟩

theorem receive_spec {receipt : Receipt} (hreceive : Network.receive w now h = (net, receipt)) :
    net.who = w.who ∧ net.record = Traffic.ofReceipt w.who h receipt ++ w.record := by
  obtain ⟨rfl, rfl⟩ := Prod.mk.inj hreceive
  exact ⟨rfl, rfl⟩

end Watched

/-! ### Exchanges -/

/-- What is held while an exchange runs. -/
def Exchange.holding : Exchange → Holding
  | .entering link _ => .inHand link
  | .writing link octets _ => .writing link octets
  | .waiting link _ => .waiting link

theorem Exchange.link?_holding (x : Exchange) : x.holding.link? = some x.link := by
  cases x <;> rfl

/-- **A frame that is read is the reply to the last command, and nothing is left over.** -/
theorem frame_of_decode {f : Frame} {decoder : Decoder} (ho : Orderly replies record)
    (hx : (Holding.waiting link).Sound replies record who) (hd : link.decoder.decode = (.frame f, decoder)) :
    ∃ k, Traffic.lastCommand? who record = some (link.handle, k) ∧ f = replies.frame link.handle k ∧
      decoder.buffer = [] ∧
      Traffic.octets link.handle record = replies.upTo link.handle (Traffic.commands link.handle record) := by
  obtain ⟨-, -, k, hlast, hcommands, hoctets⟩ := hx
  have hprefix : link.decoder.buffer <+: replies.form link.handle k := by
    have h := ho.inOrder record List.suffix_rfl link.handle
    rw [hoctets, hcommands, replies.upTo_succ] at h
    exact (List.prefix_append_right_inj _).1 h
  unfold Decoder.decode at hd
  split_ifs at hd with hempty hlong
  · cases (Prod.mk.inj hd).1
  · cases (Prod.mk.inj hd).1
  · split at hd
    · rename_i g rest hparse
      obtain ⟨hg, rfl⟩ := Prod.mk.inj hd
      obtain rfl := Decoder.Outcome.frame.inj hg
      obtain ⟨size, depth, hform⟩ := replies.isForm link.handle k
      obtain ⟨hwhole, rfl, rfl⟩ := Frame.eq_of_parse_prefix hform hprefix hparse
      refine ⟨k, hlast, rfl, rfl, ?_⟩
      rw [hoctets, hcommands, hwhole, replies.upTo_succ]
    · cases (Prod.mk.inj hd).1
    · cases (Prod.mk.inj hd).1

namespace Exchange

variable {w : World (Watched N)}

/-- What is held after a turn of an exchange. -/
abbrev heldAfter (x : Exchange) : Turn Exchange Answered → Option Holding :=
  Turn.held (some x.holding) (fun x => some x.holding) fun a => some (.inHand a.1)

theorem write_moves (w : World (Watched N)) (link : Link) (octets : Bytes) (deadline : Nat) :
    Moves replies w (some (.writing link octets)) (w.withNet (write w.now w.net link octets deadline)).1
      ((.writing link octets deadline : Exchange).heldAfter (write w.now w.net link octets deadline).2) := by
  unfold write
  rcases hsend : Network.send w.net w.now link.handle octets with ⟨net, _ | count | failure⟩ <;>
    obtain ⟨hwho, hrecord⟩ := Watched.send_spec hsend
  · have hsame : Moves replies w (some (.writing link octets)) { w with net } (some (.writing link octets)) :=
      Moves.of_same hwho hrecord (List.Sublist.refl _)
    dsimp only
    split_ifs
    · exact hsame.trans (Moves.leave rfl)
    · exact hsame
  · dsimp only at hrecord ⊢
    rcases hleft : octets.drop count with _ | ⟨b, left⟩
    · refine Moves.act hwho hrecord rfl rfl rfl fun _ hx => ?_
      obtain ⟨hbroken, ⟨hbuffer, htaken⟩, hbegun⟩ := hx
      have hall : octets.take count = octets := List.take_of_length_le (List.drop_eq_nil_iff.1 hleft)
      refine ⟨hbroken, ?_, Traffic.commands link.handle w.net.record, ?_, ?_, ?_⟩
      · rw [hleft, hall]
        exact hbegun.last
      · simp [Traffic.lastCommand?, hleft]
      · simp [Traffic.commands, hleft]
      · simp [Traffic.octets, htaken, hbuffer]
    · have hnote :
          Moves replies w (some (.writing link octets)) { w with net } (some (.writing link (b :: left))) := by
        refine Moves.act hwho hrecord rfl rfl rfl fun _ hx => ?_
        obtain ⟨hbroken, ⟨hbuffer, htaken⟩, hbegun⟩ := hx
        refine ⟨hbroken, ⟨hbuffer, ?_⟩, ?_⟩
        · simpa [Traffic.commands, Traffic.octets, hleft] using htaken
        · rw [← List.take_append_drop count octets, hleft] at hbegun
          rw [hleft]
          exact hbegun.more
      dsimp only
      split_ifs
      · exact hnote.trans (Moves.leave rfl)
      · exact hnote
  · have hsame : Moves replies w (some (.writing link octets)) { w with net } (some (.writing link octets)) :=
      Moves.of_same hwho hrecord (List.Sublist.refl _)
    exact hsame.trans (Moves.leave rfl)

theorem await_moves (w : World (Watched N)) (link : Link) (deadline : Nat) :
    Moves replies w (some (.waiting link)) (w.withNet (await w.now w.net link deadline)).1
      ((.waiting link deadline : Exchange).heldAfter (await w.now w.net link deadline).2) := by
  unfold await
  rcases hdecode : link.decoder.decode with ⟨f | _ | fault, decoder⟩
  · refine Moves.turnInto rfl fun ho hx _ => ?_
    obtain ⟨k, -, -, hbuffer, htaken⟩ := frame_of_decode ho hx hdecode
    exact ⟨⟨hbuffer, htaken⟩, hx.2.1⟩
  · dsimp only
    rcases hreceive : Network.receive w.net w.now link.handle with ⟨net, _ | bs | _ | failure⟩ <;>
      obtain ⟨hwho, hrecord⟩ := Watched.receive_spec hreceive
    · have hsame : Moves replies w (some (.waiting link)) { w with net } (some (.waiting link)) :=
        Moves.of_same hwho hrecord (List.Sublist.refl _)
      dsimp only
      split_ifs
      · exact hsame.trans (Moves.leave rfl)
      · exact hsame
    · refine Moves.act hwho hrecord rfl rfl rfl fun _ hx => ?_
      obtain ⟨hbroken, hwhole, k, hlast, hcommands, hoctets⟩ := hx
      refine ⟨hbroken, hwhole.took, k, hlast, hcommands, ?_⟩
      simp [Traffic.octets, hoctets, Decoder.append]
    · have hsame : Moves replies w (some (.waiting link)) { w with net } (some (.waiting link)) :=
        Moves.of_same hwho hrecord (List.Sublist.refl _)
      exact hsame.trans (Moves.leave rfl)
    · have hsame : Moves replies w (some (.waiting link)) { w with net } (some (.waiting link)) :=
        Moves.of_same hwho hrecord (List.Sublist.refl _)
      exact hsame.trans (Moves.leave rfl)
  · exact Moves.leave rfl

/-- A turn of an exchange keeps to the connection of the exchange. -/
theorem moves (w : World (Watched N)) (x : Exchange) :
    Moves replies w (some x.holding) (w.exchange x).1 (x.heldAfter (w.exchange x).2) := by
  cases x with
  | entering link c =>
    show Moves replies w (some (.inHand link)) w (Exchange.heldAfter _ (enter w.now link c))
    unfold enter
    split_ifs with hbroken
    · exact Moves.refl
    · refine Moves.turnInto rfl fun _ hx => ?_
      obtain ⟨⟨hbuffer, htaken⟩, hwhole⟩ := hx (by simpa using hbroken)
      exact ⟨rfl, ⟨hbuffer, htaken⟩, hwhole.begin c⟩
  | writing link octets deadline => exact write_moves w link octets deadline
  | waiting link deadline => exact await_moves w link deadline

end Exchange
end SlotRouter
