import Mathlib
import SlotRouter.Proofs.Frame.RoundTrip
import SlotRouter.Proofs.Steps
import SlotRouter.Proofs.System

/-!
# Nobody gets the reply of another

If every node sends one reply to each command, in order, then whoever is told of a frame is told of
the reply to his own last command, over the very connection on which he wrote it. This holds for any
number of invocations and refreshes, in whatever order they take their turns, time out, are given up
or fail, and it rests on one fact about the links that are kept: nothing that belongs to an earlier
command is still to come on them, or waits in their buffers.

A reply is that to a command by its number on the connection. The commands that are counted are those that a
node reads: what has been written is nothing but their octets, one after the other
(`System.commands_are_read`).

Key theorems: `System.frames_are_own_replies`, `System.commands_are_read`.
-/

namespace SlotRouter

variable {N α : Type} {replies : Replies}

/-- The exchange that an activity is busy with. -/
def Activity.exchange? : Activity α → Option Exchange
  | .invoking _ stage => stage.exchange?
  | .refreshing r => r.exchange?

variable {x : Exchange}

theorem Dial.holding_of_exchange? {d : Dial} (h : d.exchange? = some x) :
    d.holding = x.holding := by
  cases d <;> simp_all [Dial.exchange?, Dial.holding]

theorem Borrow.holding_of_exchange? {b : Borrow} (h : b.exchange? = some x) :
    b.holding? = some x.holding := by
  cases b with
  | dialling id d => exact congrArg some (Dial.holding_of_exchange? h)
  | _ => cases h

theorem Attempt.holding_of_exchange? {a : Attempt} (h : a.exchange? = some x) :
    a.holding? = some x.holding := by
  cases a with
  | borrowing asking b => exact Borrow.holding_of_exchange? h
  | announcing id y | running id heard p => exact congrArg _ (congrArg _ (Option.some.inj h))
  | resting => cases h

theorem Refresh.holding_of_exchange? {r : Refresh} (h : r.exchange? = some x) :
    r.holding? = some x.holding := by
  cases r with
  | discovering d =>
    cases d with
    | borrowing node nodes seeds b => exact Borrow.holding_of_exchange? h
    | querying | asking => exact congrArg _ (congrArg _ (Option.some.inj h))
    | dialling seed seeds d => exact congrArg some (Dial.holding_of_exchange? h)
  | _ => cases h

theorem Activity.holding_of_exchange? {a : Activity α} (h : a.exchange? = some x) :
    a.holding? = some x.holding := by
  cases a with
  | refreshing r => exact Refresh.holding_of_exchange? h
  | invoking inv stage =>
    cases stage with
    | resolving r | refreshing r => exact Refresh.holding_of_exchange? h
    | attempting id asking a => exact Attempt.holding_of_exchange? h
    | pausing => cases h

/-! ### What callers are told -/

variable [Network N] {w w' : World (Watched N)} {link : Link} {answer : Except Error Frame}

/-- An exchange comes to await a reply by writing the last octets of its command. -/
theorem Exchange.written {deadline : Nat} (hx : ∀ l d, x ≠ .waiting l d)
    (h : w.exchange x = (w', .running (.waiting link deadline))) :
    Traffic.lastCommand? w.net.who w'.net.record =
      some (link.handle, Traffic.commands link.handle w.net.record) := by
  cases x with
  | entering l c =>
    simp only [World.exchange, World.withNet, turn, enter] at h
    split_ifs at h <;> cases (Prod.mk.inj h).2
  | writing l octets d =>
    simp only [World.exchange, World.withNet, turn, write] at h
    rcases hsend : Network.send w.net w.now l.handle octets with ⟨net, _ | count | failure⟩ <;> rw [hsend] at h
    · dsimp only at h
      split_ifs at h <;> cases (Prod.mk.inj h).2
    · obtain ⟨-, hrecord⟩ := Watched.send_spec hsend
      dsimp only at h
      rcases hleft : octets.drop count with _ | ⟨b, left⟩ <;> rw [hleft] at h
      · obtain ⟨rfl, hrun⟩ := Prod.mk.inj h
        obtain ⟨rfl, -⟩ := Exchange.waiting.inj (Turn.running.inj hrun)
        show Traffic.lastCommand? w.net.who net.record = _
        rw [hrecord]
        simp [Traffic.ofSent, Traffic.lastCommand?, hleft]
      · dsimp only at h
        split_ifs at h <;> cases (Prod.mk.inj h).2
    · cases (Prod.mk.inj h).2
  | waiting l d => exact absurd rfl (hx l d)

/-- A failure of the connection, or octets that are no frame. -/
def Error.isOfLink (e : Error) : Prop := e.isConnectionError = true ∨ ∃ fault, e = .protocol fault

/-- What an exchange ends with: a failure and a broken link, or the reply to the last command and a
link that can be used again. -/
theorem Exchange.answered (ho : Orderly replies w.net.record)
    (hx : x.holding.Sound replies w.net.record w.net.who)
    (h : w.exchange x = (w', .done (link, answer))) :
    (link.broken = true ∧ ∃ e, answer = .error e ∧ e.isOfLink) ∨
    (link.broken = false ∧ ∃ k, Traffic.lastCommand? w.net.who w.net.record = some (link.handle, k) ∧
      answer = reply link.address (replies.frame link.handle k)) := by
  have hfail : ∀ {l : Link} {e : Error}, (Turn.done (l, .error e) : Turn Exchange Answered) = .done (link, answer) →
      l.broken = true → e.isOfLink → link.broken = true ∧ ∃ e, answer = .error e ∧ e.isOfLink := by
    intro l e hdone hbroken he
    obtain ⟨rfl, rfl⟩ := Prod.mk.inj (Turn.done.inj hdone)
    exact ⟨hbroken, e, rfl, he⟩
  cases x with
  | entering l c =>
    simp only [World.exchange, World.withNet, turn, enter] at h
    split_ifs at h with hbroken
    · exact .inl (hfail (Prod.mk.inj h).2 hbroken (.inl rfl))
    · cases (Prod.mk.inj h).2
  | writing l octets d =>
    have hbroken : l.broken = true := hx.1
    simp only [World.exchange, World.withNet, turn, write] at h
    rcases hsend : Network.send w.net w.now l.handle octets with ⟨net, _ | count | failure⟩ <;>
      rw [hsend] at h <;> dsimp only at h
    · split_ifs at h
      · exact .inl (hfail (Prod.mk.inj h).2 hbroken (.inl rfl))
      · cases (Prod.mk.inj h).2
    · split at h
      · cases (Prod.mk.inj h).2
      · split_ifs at h
        · exact .inl (hfail (Prod.mk.inj h).2 hbroken (.inl rfl))
        · cases (Prod.mk.inj h).2
    · exact .inl (hfail (Prod.mk.inj h).2 hbroken (.inl rfl))
  | waiting l d =>
    have hbroken : l.broken = true := hx.1
    simp only [World.exchange, World.withNet, turn, await] at h
    rcases hdecode : l.decoder.decode with ⟨f | _ | fault, decoder⟩ <;> rw [hdecode] at h <;> dsimp only at h
    · obtain ⟨k, hlast, rfl, -, -⟩ := frame_of_decode ho hx hdecode
      obtain ⟨rfl, rfl⟩ := Prod.mk.inj (Turn.done.inj (Prod.mk.inj h).2)
      exact .inr ⟨rfl, k, hlast, rfl⟩
    · rcases hreceive : Network.receive w.net w.now l.handle with ⟨net, _ | bs | _ | failure⟩ <;>
        rw [hreceive] at h <;> dsimp only at h
      · split_ifs at h
        · exact .inl (hfail (Prod.mk.inj h).2 hbroken (.inl rfl))
        · cases (Prod.mk.inj h).2
      · cases (Prod.mk.inj h).2
      · exact .inl (hfail (Prod.mk.inj h).2 hbroken (.inl rfl))
      · exact .inl (hfail (Prod.mk.inj h).2 hbroken (.inl rfl))
    · exact .inl (hfail (Prod.mk.inj h).2 hbroken (.inr ⟨fault, rfl⟩))

namespace System

omit [Network N] in
theorem mem_idle {id : PoolId} (w : World N) (h : link ∈ (w.pool id).idle) :
    link ∈ w.topology.idle := by
  by_cases hid : id < w.topology.pools.length
  · have hp : w.pool id = w.topology.pools[id] := Topology.pool_eq_getElem hid
    exact List.mem_flatMap.2 ⟨_, List.getElem_mem hid, hp ▸ h⟩
  · have hp : w.pool id = default := Topology.pool_eq_default hid
    rw [hp] at h
    cases h

/-- **Whoever is told of a frame is told of the reply to his own last command**, which he wrote on
the connection that the frame came from; nothing else is ever handed out as a reply. And a link that
lies idle in a pool is unbroken, nobody has it, its buffer is empty, and all replies to what was
written on it have been taken. -/
theorem frames_are_own_replies {s : System N α} (hs : s.Reachable)
    (ho : Orderly replies s.world.net.record) :
    (∀ who a x, s.active who = some a → a.exchange? = some x →
      (∀ w link deadline, (∀ l d, x ≠ .waiting l d) →
        (s.seenBy who).exchange x = (w, .running (.waiting link deadline)) →
        Traffic.lastCommand? who w.net.record =
          some (link.handle, Traffic.commands link.handle s.world.net.record)) ∧
      (∀ w link answer, (s.seenBy who).exchange x = (w, .done (link, answer)) →
        (link.broken = true ∧ ∃ e, answer = .error e ∧ e.isOfLink) ∨
        (link.broken = false ∧ ∃ k, Traffic.lastCommand? who s.world.net.record = some (link.handle, k) ∧
          answer = Exchange.reply link.address (replies.frame link.handle k)))) ∧
    (∀ id, ∀ link ∈ (s.world.pool id).idle, link.broken = false ∧ link.decoder.buffer = [] ∧
      (∀ who y, s.held who = some y → y.handle ≠ link.handle) ∧
      Traffic.octets link.handle s.world.net.record =
        replies.upTo link.handle (Traffic.commands link.handle s.world.net.record)) ∧
    (s.world.topology.idle.map Link.handle).Nodup := by
  have hsound := hs.sound ho
  refine ⟨fun who a x ha hx => ⟨fun w link deadline hnew h => ?_, fun w link answer h => ?_⟩, fun id link hlink => ?_, ?_⟩
  · exact Exchange.written hnew h
  · have hheld : s.held who = some x.holding := by
      simpa [held, ha] using Activity.holding_of_exchange? hx
    exact Exchange.answered (w := s.seenBy who) ho ((hsound.safe who).held _ hheld) h
  · have hidle := mem_idle s.world hlink
    obtain ⟨hunbroken, ⟨hbuffer, htaken⟩, -⟩ := (hsound.safe 0).idle link hidle
    refine ⟨hunbroken, hbuffer, fun who y hy => ?_, htaken⟩
    have hsafe := hsound.safe who
    rw [hy] at hsafe
    exact (hsafe.handle_ne hidle).symm
  · exact (hsound.safe 0).distinct.sublist (List.sublist_append_left _ _)

/-- **The commands that are counted are those that a node reads.** What has been written on the connection of an
idle link, and on one on which a reply is awaited, are the octets of commands, as many as are counted. A node
that takes payloads of their size reads these commands, in their order, however the octets are cut. -/
theorem commands_are_read {s : System N α} (hs : s.Reachable) (ho : Orderly replies s.world.net.record) {link : Link}
    (hlink : link ∈ s.world.topology.idle ∨
      ∃ who a deadline, s.active who = some a ∧ a.exchange? = some (.waiting link deadline)) :
    ∃ cs : List Command, cs.length = Traffic.commands link.handle s.world.net.record ∧
      Traffic.written (Traffic.on link.handle s.world.net.record) = cs.flatMap Command.encode ∧
      ∀ (limits : Frame.Limits) (chunks : List Bytes), 0 < limits.depth →
        (cs.flatMap Command.encode).length ≤ limits.size → (cs.flatMap Command.encode).length < 2 ^ 63 →
        chunks.flatten = cs.flatMap Command.encode →
          (Decoder.feed limits chunks).frames.map Command.ofFrame? = cs.map some := by
  have hsound := hs.sound ho
  have hwhole : Traffic.Whole link.handle s.world.net.record := by
    rcases hlink with hidle | ⟨who, a, deadline, ha, hx⟩
    · exact ((hsound.safe 0).idle link hidle).2.2
    · have hheld : s.held who = some (Exchange.waiting link deadline).holding := by
        simpa [held, ha] using Activity.holding_of_exchange? hx
      exact ((hsound.safe who).held _ hheld).2.1
  obtain ⟨cs, hwritten, hcommands⟩ := hwhole
  refine ⟨cs, hcommands.symm, hwritten, fun limits chunks hdepth fits hshort hchunks => ?_⟩
  rw [Decoder.feed_commands hdepth fits hshort hchunks]
  exact Command.map_ofFrame? cs

end System

/-! ### A network that is prompt -/

/-- A network of which every node says `+OK` to every command at once. -/
structure Prompt where
  connections : Nat := 0
  due : Bool := false

namespace Prompt

/-- The octets of `+OK`. -/
def ok : Bytes := [43, 79, 75, 13, 10]

instance : Network Prompt where
  connect p _ _ := ({ p with connections := p.connections + 1 }, p.connections)
  opening _ _ _ := .opened
  send p _ _ octets := ({ p with due := true }, .taken octets.length)
  receive p _ _ := if p.due then ({ p with due := false }, .octets ok) else (p, .pending)
  nextEvent? _ _ := none

/-- Every reply is `+OK`. -/
def oks : Replies where
  frame _ _ := .simple [79, 75]
  form _ _ := ok
  isForm _ _ := by
    have hline : Frame.NoLineEnd [79, 75] := by
      unfold Frame.NoLineEnd
      decide
    exact ⟨0, 0, .simple hline⟩

/-- A client that knows one node. -/
def client : System Prompt Unit where
  world := {
    topology := ((Topology.fresh { seeds := [], connection := {}, pool := {}, chance := .settled }).obtain "a:1").2
    net := { net := {} } }
  active _ := none

/-- Sends `PING` to any node. -/
def ping : Request Unit :=
  .invoke { maxAttempts := 1, retryDuration := 1, refreshAfter := 1 }
    (fun _ heard => if heard.isEmpty then .send .ping else .finish (.ok ())) none none

/-- The client when the reply to the first `PING` has been taken and is still to be read. -/
def pinged : System Prompt Unit :=
  [.start 0 ping, .turn 0, .turn 0, .turn 0, .turn 0, .turn 0].foldl System.step client

set_option maxRecDepth 100000 in
theorem record_pinged :
    pinged.world.net.record = [.took 0 0 ok, .wrote 0 0 Command.ping.encode true, .opened 0 0] := by cbv

theorem orderly_pinged : Orderly oks pinged.world.net.record := by
  rw [record_pinged]
  refine ⟨by decide, fun earlier hearlier h => ?_⟩
  simp only [List.suffix_cons_iff, List.suffix_nil] at hearlier
  by_cases hh : 0 = h
  · subst hh
    rcases hearlier with rfl | rfl | rfl | rfl <;> decide
  · rcases hearlier with rfl | rfl | rfl | rfl <;> simp [Traffic.octets, hh]

theorem reachable_pinged : pinged.Reachable := by
  have hclient : client.Reachable := .start rfl rfl fun _ => rfl
  exact hclient.foldl _

/-- The link of the caller, with the reply in its buffer. -/
def filled : Link where
  handle := 0
  address := "a:1"
  socketTimeout := milliseconds 2000
  decoder := { buffer := ok }
  broken := true

set_option maxRecDepth 100000 in
theorem exchange_pinged :
    (pinged.active 0).bind Activity.exchange? = some (.waiting filled (milliseconds 2000)) := by cbv

/-- The caller is told of the reply to the `PING` that it sent, its first command. -/
theorem own_reply_to_ping :
    pinged.Reachable ∧ Orderly oks pinged.world.net.record ∧
    (pinged.seenBy 0).exchange (.waiting filled (milliseconds 2000)) =
      (pinged.seenBy 0, .done ({ filled with decoder := {}, broken := false }, .ok (.simple [79, 75]))) ∧
    ∃ k, Traffic.lastCommand? 0 pinged.world.net.record = some (filled.handle, k) ∧
      oks.frame filled.handle k = .simple [79, 75] := by
  refine ⟨reachable_pinged, orderly_pinged, rfl, ?_⟩
  obtain ⟨a, ha, hx⟩ := Option.bind_eq_some_iff.1 exchange_pinged
  obtain ⟨-, htold⟩ := (System.frames_are_own_replies reachable_pinged orderly_pinged).1 0 a _ ha hx
  rcases htold _ _ _ rfl with ⟨hbroken, -⟩ | ⟨-, k, hlast, hframe⟩
  · cases hbroken
  · exact ⟨k, hlast, (Except.ok.inj hframe).symm⟩

end Prompt
end SlotRouter
