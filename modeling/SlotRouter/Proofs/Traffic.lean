import Mathlib.Data.List.Basic
import SlotRouter.Command
import SlotRouter.Network
import SlotRouter.Proofs.Frame.Parse

/-!
# Traffic on a network

A network can be watched: `Watched N` does what `N` does and keeps a record of who opened which
connection, wrote to it and took octets from it. The client cannot tell the difference, since every
network will do for it.

A record is orderly if every connection that is opened is a new one and the node at its other end
sends one frame for each command, in order: at every moment the octets that have been taken from a
connection are the beginning of the replies to the commands written to it so far. Which frame a node
sends, and in which of its forms, is free (`Replies`). What counts as a command here is the writing of
the last of its octets; that these octets are commands, and that they are so many, is a property
of the client and not of the record (`Traffic.Whole`). A node that reads what was written comes to these
commands (`System.commands_are_read`).

Key definitions: `Watched`, `Traffic.commands`, `Traffic.octets`, `Traffic.lastCommand?`, `Traffic.Whole`,
`Replies`, `Orderly`.
-/

namespace SlotRouter

/-- What somebody did on the network. -/
inductive Traffic where
  | opened (who : Nat) (handle : Handle)
  /-- Octets were taken by the network; `whole` if they are the last of a command. -/
  | wrote (who : Nat) (handle : Handle) (octets : Bytes) (whole : Bool)
  | took (who : Nat) (handle : Handle) (octets : Bytes)

namespace Traffic

/-- Whoever did it. -/
def who : Traffic → Nat
  | .opened who _ | .wrote who _ _ _ | .took who _ _ => who

/-- The connection on which it was done. -/
def handle : Traffic → Handle
  | .opened _ handle | .wrote _ handle _ _ | .took _ handle _ => handle

/-- The connections that have been opened. -/
def openings : List Traffic → List Handle
  | [] => []
  | .opened _ h :: record => h :: openings record
  | _ :: record => openings record

/-- How many commands have been written to the connection, by the ends of commands in the record. -/
def commands (h : Handle) : List Traffic → Nat
  | [] => 0
  | .wrote _ g _ true :: record => if g = h then commands h record + 1 else commands h record
  | _ :: record => commands h record

/-- The octets that have been taken from the connection, in order. -/
def octets (h : Handle) : List Traffic → Bytes
  | [] => []
  | .took _ g bs :: record => if g = h then octets h record ++ bs else octets h record
  | _ :: record => octets h record

/-- What was done on a connection, the latest in front. -/
def on (h : Handle) (record : List Traffic) : List Traffic := record.filter fun e => e.handle = h

/-- The octets that were written, in order. -/
def written : List Traffic → Bytes
  | [] => []
  | .wrote _ _ bs _ :: record => written record ++ bs
  | .opened .. :: record | .took .. :: record => written record

/-- Nothing but whole commands has been written to the connection, and they are the ones that are counted. -/
def Whole (h : Handle) (record : List Traffic) : Prop :=
  ∃ cs : List Command, written (on h record) = cs.flatMap Command.encode ∧ commands h record = cs.length

/-- Behind the commands that are counted, one more has been begun; `left` is what is still to be written of it. -/
def Begun (h : Handle) (record : List Traffic) (left : Bytes) : Prop :=
  ∃ (cs : List Command) (c : Command) (bs : Bytes),
    written (on h record) = cs.flatMap Command.encode ++ bs ∧ bs ++ left = c.encode ∧ commands h record = cs.length

/-- The last command that somebody wrote: its connection, and its number among the commands on it.
-/
def lastCommand? (who : Nat) : List Traffic → Option (Handle × Nat)
  | [] => none
  | .wrote whose h _ true :: record =>
    if whose = who then some (h, commands h record) else lastCommand? who record
  | _ :: record => lastCommand? who record

variable {e : Traffic} {record new : List Traffic} {h : Handle} {who : Nat}

theorem commands_cons_of_ne (hne : e.handle ≠ h) :
    commands h (e :: record) = commands h record := by
  cases e with
  | wrote _ g _ whole => cases whole <;> simp_all [commands, handle]
  | _ => rfl

theorem octets_cons_of_ne (hne : e.handle ≠ h) : octets h (e :: record) = octets h record := by
  cases e <;> simp_all [octets, handle]

theorem lastCommand?_cons_of_ne (hne : e.who ≠ who) :
    lastCommand? who (e :: record) = lastCommand? who record := by
  cases e with
  | wrote _ _ _ whole => cases whole <;> simp_all [lastCommand?, Traffic.who]
  | _ => rfl

@[simp] theorem openings_nil : openings [] = [] := rfl

theorem openings_append : openings (new ++ record) = openings new ++ openings record := by
  induction new with
  | nil => rfl
  | cons e new ih => cases e <;> simp [openings, ih]

/-- What others do on other connections changes neither what was written to a connection nor what
was taken. -/
theorem commands_append_of_ne (hne : ∀ e ∈ new, e.handle ≠ h) :
    commands h (new ++ record) = commands h record := by
  induction new with
  | nil => rfl
  | cons e new ih =>
    rw [List.cons_append, commands_cons_of_ne (hne e (by simp)), ih fun e he => hne e (by simp [he])]

theorem octets_append_of_ne (hne : ∀ e ∈ new, e.handle ≠ h) :
    octets h (new ++ record) = octets h record := by
  induction new with
  | nil => rfl
  | cons e new ih =>
    rw [List.cons_append, octets_cons_of_ne (hne e (by simp)), ih fun e he => hne e (by simp [he])]

theorem lastCommand?_append_of_ne (hne : ∀ e ∈ new, e.who ≠ who) :
    lastCommand? who (new ++ record) = lastCommand? who record := by
  induction new with
  | nil => rfl
  | cons e new ih =>
    rw [List.cons_append, lastCommand?_cons_of_ne (hne e (by simp)), ih fun e he => hne e (by simp [he])]

/-- Nothing has been done on a connection that has not been opened, if the record tells of no such
thing. -/
theorem commands_eq_zero (hnone : ∀ e ∈ record, e.handle ≠ h) : commands h record = 0 := by
  have hsame : commands h (record ++ []) = commands h [] := commands_append_of_ne hnone
  rwa [List.append_nil] at hsame

theorem octets_eq_nil (hnone : ∀ e ∈ record, e.handle ≠ h) : octets h record = [] := by
  have hsame : octets h (record ++ []) = octets h [] := octets_append_of_ne hnone
  rwa [List.append_nil] at hsame

/-! ### What was written -/

theorem on_append (h : Handle) (new record : List Traffic) : on h (new ++ record) = on h new ++ on h record :=
  List.filter_append new record

theorem on_eq_nil (hnone : ∀ e ∈ record, e.handle ≠ h) : on h record = [] :=
  List.filter_eq_nil_iff.2 fun e he => by simpa using hnone e he

theorem on_append_of_ne (hne : ∀ e ∈ new, e.handle ≠ h) : on h (new ++ record) = on h record := by
  rw [on_append, on_eq_nil hne, List.nil_append]

theorem on_cons (hsame : e.handle = h) (record : List Traffic) : on h (e :: record) = e :: on h record :=
  List.filter_cons_of_pos (decide_eq_true hsame)

theorem written_append (new record : List Traffic) : written (new ++ record) = written record ++ written new := by
  induction new with
  | nil => exact (List.append_nil _).symm
  | cons e new ih => cases e <;> simp [written, ih]

variable {c : Command} {left bs : Bytes}

/-- What others do on other connections does not come in between. -/
theorem Whole.append (hwhole : Whole h record) (hne : ∀ e ∈ new, e.handle ≠ h) : Whole h (new ++ record) := by
  unfold Whole
  rw [on_append_of_ne hne, commands_append_of_ne hne]
  exact hwhole

theorem Begun.append (hbegun : Begun h record left) (hne : ∀ e ∈ new, e.handle ≠ h) :
    Begun h (new ++ record) left := by
  unfold Begun
  rw [on_append_of_ne hne, commands_append_of_ne hne]
  exact hbegun

/-- Nothing has been written to a connection that is new. -/
theorem whole_opened (hnone : ∀ e ∈ record, e.handle ≠ h) : Whole h (.opened who h :: record) := by
  have hon : on h (.opened who h :: record) = .opened who h :: on h record := on_cons rfl record
  have hcommands : commands h record = 0 := commands_eq_zero hnone
  refine ⟨[], ?_, hcommands⟩
  rw [hon, on_eq_nil hnone]
  rfl

/-- Octets that are taken are not written. -/
theorem Whole.took (hwhole : Whole h record) : Whole h (.took who h bs :: record) := by
  have hon : on h (.took who h bs :: record) = .took who h bs :: on h record := on_cons rfl record
  unfold Whole
  rw [hon]
  exact hwhole

/-- A command is begun. -/
theorem Whole.begin (hwhole : Whole h record) (c : Command) : Begun h record c.encode := by
  obtain ⟨cs, hwritten, hcommands⟩ := hwhole
  exact ⟨cs, c, [], hwritten.trans (List.append_nil _).symm, rfl, hcommands⟩

/-- More of the command is written. -/
theorem Begun.more (hbegun : Begun h record (bs ++ left)) : Begun h (.wrote who h bs false :: record) left := by
  have hon : on h (.wrote who h bs false :: record) = .wrote who h bs false :: on h record := on_cons rfl record
  obtain ⟨cs, c, before, hwritten, hline, hcommands⟩ := hbegun
  refine ⟨cs, c, before ++ bs, ?_, ?_, hcommands⟩
  · rw [hon, written, hwritten, List.append_assoc]
  · rw [List.append_assoc, hline]

/-- The rest of the command is written. -/
theorem Begun.last (hbegun : Begun h record bs) : Whole h (.wrote who h bs true :: record) := by
  have hon : on h (.wrote who h bs true :: record) = .wrote who h bs true :: on h record := on_cons rfl record
  obtain ⟨cs, c, before, hwritten, hline, hcommands⟩ := hbegun
  refine ⟨cs ++ [c], ?_, ?_⟩
  · rw [hon, written, hwritten, List.append_assoc, hline, List.flatMap_append, List.flatMap_singleton]
  · rw [commands, if_pos rfl, hcommands, List.length_append, List.length_singleton]

end Traffic

/-! ### Watching -/

/-- A network and the record of its traffic, the latest entry in front. -/
structure Watched (N : Type) where
  net : N
  /-- Whoever acts at present. -/
  who : Nat := 0
  record : List Traffic := []

namespace Traffic

/-- What is noted of the writing of octets. -/
def ofSent (who : Nat) (h : Handle) (bs : Bytes) : Sent → List Traffic
  | .taken count => [.wrote who h (bs.take count) (bs.drop count).isEmpty]
  | .pending | .failed _ => []

/-- What is noted of the taking of octets. -/
def ofReceipt (who : Nat) (h : Handle) : Receipt → List Traffic
  | .octets bs => [.took who h bs]
  | .pending | .ended | .failed _ => []

end Traffic

namespace Watched

variable {N : Type}

/-- The network after an operation of which entries are noted. -/
def note (w : Watched N) (net : N) (entries : List Traffic) : Watched N :=
  { w with net, record := entries ++ w.record }

variable [Network N]

/-- Opens a connection on the network, and notes it. -/
def connect (w : Watched N) (now : Nat) (address : String) : Watched N × Handle :=
  let (net, h) := Network.connect w.net now address
  (w.note net [.opened w.who h], h)

/-- Writes to the network, and notes what it takes. -/
def send (w : Watched N) (now : Nat) (h : Handle) (bs : Bytes) : Watched N × Sent :=
  let (net, sent) := Network.send w.net now h bs
  (w.note net (Traffic.ofSent w.who h bs sent), sent)

/-- Takes octets from the network, and notes them. -/
def receive (w : Watched N) (now : Nat) (h : Handle) : Watched N × Receipt :=
  let (net, receipt) := Network.receive w.net now h
  (w.note net (Traffic.ofReceipt w.who h receipt), receipt)

instance : Network (Watched N) where
  connect := connect
  opening w now h := Network.opening w.net now h
  send := send
  receive := receive
  nextEvent? w now := Network.nextEvent? w.net now

end Watched

/-! ### Nodes that answer every command once -/

/-- What the nodes send: for every connection the reply to each command on it, and the form in which
it is sent. -/
structure Replies where
  frame : Handle → (command : Nat) → Frame
  form : Handle → (command : Nat) → Bytes
  isForm : ∀ h command, ∃ size depth, Frame.Wire size depth (form h command) (frame h command)

instance : Inhabited Replies :=
  ⟨fun _ _ => .simple [], fun _ _ => _, fun _ _ => ⟨0, 0, .simple (by simp [Frame.NoLineEnd, Bytes.crlf])⟩⟩

/-- The octets of the replies to the first `n` commands on a connection. -/
def Replies.upTo (replies : Replies) (h : Handle) (n : Nat) : Bytes :=
  (List.range n).flatMap (replies.form h)

theorem Replies.upTo_succ (replies : Replies) (h : Handle) (n : Nat) :
    replies.upTo h (n + 1) = replies.upTo h n ++ replies.form h n := by
  simp [upTo, List.range_succ]

/-- Connections are not mixed up, and every node sends one reply for each command on a connection,
in order. -/
structure Orderly (replies : Replies) (record : List Traffic) : Prop where
  fresh : (Traffic.openings record).Nodup
  inOrder : ∀ earlier, earlier <:+ record → ∀ h,
    Traffic.octets h earlier <+: replies.upTo h (Traffic.commands h earlier)

theorem Orderly.of_suffix {replies : Replies} {record earlier : List Traffic}
    (h : Orderly replies record) (hsuf : earlier <:+ record) : Orderly replies earlier where
  fresh := by
    obtain ⟨new, rfl⟩ := hsuf
    have := h.fresh
    rw [Traffic.openings_append] at this
    exact (List.nodup_append.1 this).2.1
  inOrder e he := h.inOrder e (he.trans hsuf)

end SlotRouter
