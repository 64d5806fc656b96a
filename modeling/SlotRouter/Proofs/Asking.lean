import SlotRouter.Proofs.Agreement
import SlotRouter.Proofs.Frame.RoundTrip
import SlotRouter.Proofs.Steps

/-!
# What an asking attempt says

After an `ASK` redirect an attempt announces itself and then runs its body, over one link. What has
been done on the connection since it began to announce itself is the latest in the record of that
connection, and all of it was done by the one caller (`Spoken`), since a connection is in one place.
The octets that were written meanwhile are the announcement and then the commands of the body, in
order, as far as they have come: a link that can still be used has brought over all of them, and
nothing is ever written over one that is broken (`Exchange.Says`). A node reads from these octets the
announcement and these commands (`Body.feed_speech`).

Key definitions: `Spoken`, `Link.Said`, `Exchange.Says`, `Body.said`, `Attempt.Says`, `Attempt.On`. Key
theorems: `Exchange.says_turn`, `Attempt.says_turn`, `Activity.attempt_turn`, `System.Arises.asking`.
-/

namespace SlotRouter

open List

/-! ### Octets on a connection -/

/-- The latest that was done on the connection was done by one caller, and this is what he wrote
meanwhile. -/
def Spoken (who : Nat) (h : Handle) (record : List Traffic) (bs : Bytes) : Prop :=
  ∃ recent older, Traffic.on h record = recent ++ older ∧ (∀ e ∈ recent, e.who = who) ∧
    Traffic.written recent = bs

variable {who : Nat} {h : Handle} {record new : List Traffic} {first line bs : Bytes} {link : Link}

namespace Spoken

/-- Before he begins he has written nothing. -/
theorem nil (who : Nat) (h : Handle) (record : List Traffic) : Spoken who h record [] :=
  ⟨[], Traffic.on h record, rfl, nofun, rfl⟩

/-- The caller goes on. -/
theorem append (hspoken : Spoken who h record bs) (hnew : ∀ e ∈ new, e.handle = h ∧ e.who = who) :
    Spoken who h (new ++ record) (bs ++ Traffic.written new) := by
  obtain ⟨recent, older, hon, hwho, rfl⟩ := hspoken
  have hall : Traffic.on h new = new := List.filter_eq_self.2 fun e he => decide_eq_true (hnew e he).1
  refine ⟨new ++ recent, older, ?_, fun e he => ?_, Traffic.written_append new recent⟩
  · rw [Traffic.on_append, hall, hon, List.append_assoc]
  · exact (List.mem_append.1 he).elim (fun he => (hnew e he).2) (hwho e)

/-- What is done on other connections does not come in between. -/
theorem append_far (hspoken : Spoken who h record bs) (hnew : ∀ e ∈ new, e.handle ≠ h) :
    Spoken who h (new ++ record) bs := by
  obtain ⟨recent, older, hon, hwho, rfl⟩ := hspoken
  have hnone : Traffic.on h new = [] := List.filter_eq_nil_iff.2 fun e he => by simpa using hnew e he
  exact ⟨recent, older, by rw [Traffic.on_append, hnone, hon, List.nil_append], hwho, rfl⟩

end Spoken

/-! ### Exchanges -/

/-- What has been written over a link of a line of octets: all of it if the link can still be used, and
a beginning of it otherwise; at any rate the first part. -/
def Link.Said (who : Nat) (record : List Traffic) (first line : Bytes) (link : Link) : Prop :=
  ∃ bs, Spoken who link.handle record bs ∧ first <+: bs ∧ bs <+: line ∧ (link.broken = false → bs = line)

/-- An exchange writes the last command of a line of octets. -/
def Exchange.Says (who : Nat) (record : List Traffic) (first line : Bytes) : Exchange → Prop
  | .entering link c => ∃ before, line = before ++ c.encode ∧ link.Said who record first before
  | .writing link octets _ => link.broken = true ∧
    ∃ bs, Spoken who link.handle record bs ∧ first <+: bs ∧ bs ++ octets = line
  | .waiting link _ => link.broken = true ∧ Spoken who link.handle record line ∧ first <+: line

/-- What an exchange has written after a turn. -/
def Exchange.SaysAfter (who : Nat) (record : List Traffic) (first line : Bytes) (x : Exchange) :
    Turn Exchange Answered → Prop
  | .blocked => x.Says who record first line ∧ x.link.Said who record first line
  | .running x' => x'.Says who record first line
  | .done (link, answer) => link.Said who record first line ∧ ∀ f, answer = .ok f → link.broken = false

theorem Link.Said.append_far (hsaid : link.Said who record first line)
    (hnew : ∀ e ∈ new, e.handle ≠ link.handle) : link.Said who (new ++ record) first line := by
  obtain ⟨bs, hspoken, hrest⟩ := hsaid
  exact ⟨bs, hspoken.append_far hnew, hrest⟩

theorem Link.said_of_broken (hbroken : link.broken = true) (hspoken : Spoken who link.handle record bs)
    (hfirst : first <+: bs) (hline : bs <+: line) : link.Said who record first line := by
  refine ⟨bs, hspoken, hfirst, hline, fun hunbroken => ?_⟩
  rw [hbroken] at hunbroken
  cases hunbroken

namespace Exchange

theorem Says.append_far {x : Exchange} (hspeaks : x.Says who record first line)
    (hnew : ∀ e ∈ new, e.handle ≠ x.link.handle) : x.Says who (new ++ record) first line := by
  cases x with
  | entering link c =>
    obtain ⟨before, hline, hsaid⟩ := hspeaks
    exact ⟨before, hline, hsaid.append_far hnew⟩
  | writing link octets deadline =>
    obtain ⟨hbroken, bs, hspoken, hrest⟩ := hspeaks
    exact ⟨hbroken, bs, hspoken.append_far hnew, hrest⟩
  | waiting link deadline =>
    obtain ⟨hbroken, hspoken, hfirst⟩ := hspeaks
    exact ⟨hbroken, hspoken.append_far hnew, hfirst⟩

variable {N : Type} [Network N] {w : Watched N} {now deadline : Nat} {octets : Bytes}

theorem says_write (hspeaks : (writing link octets deadline).Says w.who w.record first line) :
    (writing link octets deadline).SaysAfter w.who (write now w link octets deadline).1.record first line
      (write now w link octets deadline).2 := by
  obtain ⟨hbroken, bs, hspoken, hfirst, hline⟩ := hspeaks
  unfold write
  rcases hsend : Network.send w now link.handle octets with ⟨net, _ | count | failure⟩ <;>
    obtain ⟨-, hrecord⟩ := Watched.send_spec hsend
  · rw [Traffic.ofSent, List.nil_append] at hrecord
    rw [← hrecord] at hspoken
    have hpart : link.Said w.who net.record first line := Link.said_of_broken hbroken hspoken hfirst ⟨octets, hline⟩
    dsimp only
    split_ifs
    · exact ⟨hpart, fun f hf => by cases hf⟩
    · exact ⟨⟨hbroken, bs, hspoken, hfirst, hline⟩, hpart⟩
  · have hmore : Spoken w.who link.handle net.record (bs ++ octets.take count) := by
      rw [hrecord]
      exact hspoken.append fun e he => by obtain rfl := List.mem_singleton.1 he; exact ⟨rfl, rfl⟩
    have hfirst' : first <+: bs ++ octets.take count := hfirst.trans (List.prefix_append _ _)
    have hline' : (bs ++ octets.take count) ++ octets.drop count = line := by
      rw [List.append_assoc, List.take_append_drop]
      exact hline
    dsimp only
    rcases hleft : octets.drop count with _ | ⟨b, left⟩ <;> rw [hleft] at hline'
    · rw [List.append_nil] at hline'
      exact ⟨hbroken, hline' ▸ hmore, hline' ▸ hfirst'⟩
    · dsimp only
      split_ifs
      · exact ⟨Link.said_of_broken hbroken hmore hfirst' ⟨b :: left, hline'⟩, fun f hf => by cases hf⟩
      · exact ⟨hbroken, _, hmore, hfirst', hline'⟩
  · rw [Traffic.ofSent, List.nil_append] at hrecord
    rw [← hrecord] at hspoken
    exact ⟨Link.said_of_broken hbroken hspoken hfirst ⟨octets, hline⟩, fun f hf => by cases hf⟩

theorem says_await (hspeaks : (waiting link deadline).Says w.who w.record first line) :
    (waiting link deadline).SaysAfter w.who (await now w link deadline).1.record first line
      (await now w link deadline).2 := by
  obtain ⟨hbroken, hspoken, hfirst⟩ := hspeaks
  unfold await
  rcases hdecode : link.decoder.decode with ⟨f | _ | fault, decoder⟩
  · exact ⟨⟨line, hspoken, hfirst, List.prefix_rfl, fun _ => rfl⟩, fun _ _ => rfl⟩
  · dsimp only
    rcases hreceive : Network.receive w now link.handle with ⟨net, receipt⟩
    obtain ⟨-, hrecord⟩ := Watched.receive_spec hreceive
    have hstill : Spoken w.who link.handle net.record line := by
      rw [hrecord]
      cases receipt with
      | octets bs =>
        have hown : ∀ e ∈ [Traffic.took w.who link.handle bs], e.handle = link.handle ∧ e.who = w.who := by
          intro e he
          obtain rfl := List.mem_singleton.1 he
          exact ⟨rfl, rfl⟩
        have hsame := hspoken.append hown
        rwa [Traffic.written, Traffic.written, List.append_nil] at hsame
      | pending | ended | failed => exact hspoken
    have hpart : link.Said w.who net.record first line := Link.said_of_broken hbroken hstill hfirst List.prefix_rfl
    cases receipt with
    | octets bs => exact ⟨hbroken, hstill, hfirst⟩
    | ended | failed => exact ⟨hpart, fun f hf => by cases hf⟩
    | pending =>
      dsimp only
      split_ifs
      · exact ⟨hpart, fun f hf => by cases hf⟩
      · exact ⟨⟨hbroken, hstill, hfirst⟩, hpart⟩
  · exact ⟨Link.said_of_broken hbroken hspoken hfirst List.prefix_rfl, fun f hf => by cases hf⟩

/-- **A turn of an exchange brings its line further**, and nothing else comes in between. -/
theorem says_turn {w : World (Watched N)} {x : Exchange} (hspeaks : x.Says w.net.who w.net.record first line) :
    x.SaysAfter w.net.who (w.exchange x).1.net.record first line (w.exchange x).2 := by
  cases x with
  | entering link c =>
    obtain ⟨before, hline, hsaid⟩ := hspeaks
    obtain ⟨bs, hspoken, hfirst, hwithin, hall⟩ := hsaid
    show SaysAfter _ w.net.record _ _ _ (enter w.now link c)
    unfold enter
    split_ifs with hbroken
    · exact ⟨Link.said_of_broken hbroken hspoken hfirst (hwithin.trans ⟨_, hline.symm⟩), nofun⟩
    · obtain rfl := hall (Bool.eq_false_iff.2 hbroken)
      exact ⟨rfl, bs, hspoken, hfirst, hline.symm⟩
  | writing link octets deadline => exact says_write hspeaks
  | waiting link deadline => exact says_await hspeaks

end Exchange
/-- What an exchange that may be given up has written after a turn. -/
def Patience.SaysAfter (who : Nat) (record : List Traffic) (first line : Bytes) (p : Patience) :
    Turn Patience (Link × Heard) → Prop
  | .blocked => p.exchange.Says who record first line
  | .running p' => p'.exchange.Says who record first line
  | .done (link, _) => link.Said who record first line

theorem Patience.says_turn {N : Type} [Network N] {w : World (Watched N)} {p : Patience}
    (hspeaks : p.exchange.Says w.net.who w.net.record first line) :
    p.SaysAfter w.net.who (p.turn w).1.net.record first line (p.turn w).2 := by
  have hafter := Exchange.says_turn hspeaks
  unfold Patience.turn
  rcases hx : w.exchange p.exchange with ⟨w', _ | x | ⟨link, answer⟩⟩ <;> rw [hx] at hafter
  · obtain ⟨hstill, hpart⟩ := hafter
    cases p.until? with
    | none => exact hstill
    | some instant =>
      dsimp only
      split_ifs
      · exact hpart
      · exact hstill
  · exact hafter
  · exact hafter.1

/-! ### Attempts -/

/-- The command that a move sends. -/
def Move.command? {α : Type} : Move α → Option Command
  | .send c _ => some c
  | .rest _ | .finish _ => none

namespace Body

variable {α : Type} (body : Body α) (started : Nat)

/-- The commands that a body has sent when it has heard so much, its present move included. -/
def said (heard : List Patience.Heard) : List Command :=
  heard.inits.filterMap fun past => (body started past).command?

/-- The announcement, and the commands of a body that has heard so much. -/
def speech (heard : List Patience.Heard) : Bytes :=
  Command.asking.encode ++ (body.said started heard).flatMap Command.encode

/-- **A node reads the announcement, and then the commands of the body**, however the octets are cut. -/
theorem feed_speech {limits : Frame.Limits} {chunks : List Bytes} {heard : List Patience.Heard}
    (hdepth : 0 < limits.depth) (fits : (body.speech started heard).length ≤ limits.size)
    (hshort : (body.speech started heard).length < 2 ^ 63) (hchunks : chunks.flatten = body.speech started heard) :
    (Decoder.feed limits chunks).frames.map Command.ofFrame? = (.asking :: body.said started heard).map some := by
  have hspeech : body.speech started heard = (.asking :: body.said started heard).flatMap Command.encode :=
    List.flatMap_cons.symm
  rw [hspeech] at fits hshort hchunks
  rw [Decoder.feed_commands hdepth fits hshort hchunks]
  exact Command.map_ofFrame? _

theorem said_append (heard : List Patience.Heard) (answer : Patience.Heard) :
    body.said started (heard ++ [answer]) =
      body.said started heard ++ (body started (heard ++ [answer])).command?.toList := by
  unfold said
  rw [List.inits_append, List.filterMap_append]
  cases h : (body started (heard ++ [answer])).command? <;> simp [h]

/-- What a body says next comes after what it has said. -/
theorem speech_append (heard : List Patience.Heard) (answer : Patience.Heard) :
    body.speech started (heard ++ [answer]) = body.speech started heard ++
      (body started (heard ++ [answer])).command?.toList.flatMap Command.encode := by
  unfold speech
  rw [said_append, List.flatMap_append, List.append_assoc]

theorem speech_nil : body.speech started [] =
    Command.asking.encode ++ (body started []).command?.toList.flatMap Command.encode := by
  unfold speech said
  cases h : (body started []).command? <;> simp [h]

end Body

namespace Attempt

variable {N α : Type}

/-- What an asking attempt has written: nothing before it has its link, then the announcement, and then
the commands of its body. -/
def Says (who : Nat) (record : List Traffic) (body : Body α) (started : Nat) : Attempt → Prop
  | .borrowing .. => True
  | .announcing _ x => x.Says who record [] Command.asking.encode
  | .running _ heard p => p.exchange.Says who record Command.asking.encode (body.speech started heard)
  | .resting _ heard link _ => link.Said who record Command.asking.encode (body.speech started heard)

/-- What it has written after a turn. -/
def SaysAfter (who : Nat) (record : List Traffic) (body : Body α) (started : Nat) (a : Attempt) :
    Turn Attempt (Ended α) → Prop
  | .blocked => a.Says who record body started
  | .running a' => a'.Says who record body started
  | .done _ => True

/-- The attempt keeps to a pool, and announces itself first if it asks. -/
def On (id : PoolId) (asking : Bool) : Attempt → Prop
  | .borrowing asks b => asks = asking ∧ b.pool = id
  | .announcing pool _ => pool = id ∧ asking = true
  | .running pool _ _ | .resting pool _ _ _ => pool = id

variable {w : World (Watched N)} {body : Body α} {started : Nat} {heard : List Patience.Heard} {id : PoolId}
  {asking : Bool}

/-- The body goes on when its last command has been written, or its link is broken. -/
theorem says_proceed {before : Bytes} (hsaid : link.Said who w.net.record Command.asking.encode before)
    (hspeech : body.speech started heard =
      before ++ (body started heard).command?.toList.flatMap Command.encode) (a : Attempt) :
    a.SaysAfter who (proceed w body started id link heard).1.net.record body started
      (proceed w body started id link heard).2 := by
  unfold proceed
  rcases hmove : body started heard with ⟨c, patience⟩ | duration | result <;> rw [hmove] at hspeech
  · refine ⟨before, ?_, hsaid⟩
    simpa [Move.command?] using hspeech
  · have hsame : body.speech started heard = before := by simpa [Move.command?] using hspeech
    show link.Said _ _ _ (body.speech started heard)
    rw [hsame]
    exact hsaid
  · trivial

theorem Says.append_far {a : Attempt} (hspeaks : a.Says who record body started)
    (hnew : ∀ x, a.holding? = some x → ∀ e ∈ new, e.handle ≠ x.handle) : a.Says who (new ++ record) body started := by
  cases a with
  | borrowing asks b => trivial
  | announcing id x =>
    exact Exchange.Says.append_far hspeaks fun e he => Holding.handle_of_link? x.link?_holding ▸ hnew _ rfl e he
  | running id heard p =>
    exact Exchange.Says.append_far hspeaks fun e he =>
      Holding.handle_of_link? p.exchange.link?_holding ▸ hnew _ rfl e he
  | resting id heard link wake => exact Link.Said.append_far hspeaks (hnew _ rfl)

variable [Network N]

/-- **A turn of an asking attempt says what comes next.** -/
theorem says_turn {a : Attempt} (hon : a.On id true) (hspeaks : a.Says w.net.who w.net.record body started) :
    a.SaysAfter w.net.who (a.turn w body started).1.net.record body started (a.turn w body started).2 := by
  cases a with
  | borrowing asks b =>
    obtain ⟨rfl, -⟩ := hon
    simp only [turn]
    rcases b.turn w with ⟨w', _ | b' | e | loan⟩
    · trivial
    · trivial
    · trivial
    · refine ⟨[], rfl, [], Spoken.nil _ _ _, List.prefix_rfl, List.prefix_rfl, fun _ => rfl⟩
  | announcing id x =>
    have hafter := Exchange.says_turn hspeaks
    simp only [turn]
    rcases hx : w.exchange x with ⟨w', _ | x' | ⟨link, e | f⟩⟩ <;> rw [hx] at hafter
    · exact hafter.1
    · exact hafter
    · trivial
    · -- a link that can be used again has brought over the whole announcement
      obtain ⟨⟨bs, hspoken, -, -, hall⟩, hunbroken⟩ := hafter
      obtain rfl := hall (hunbroken f rfl)
      exact says_proceed ⟨_, hspoken, List.prefix_rfl, List.prefix_rfl, fun _ => rfl⟩ (body.speech_nil started) _
  | running id heard p =>
    have hafter := Patience.says_turn hspeaks
    simp only [turn]
    rcases hp : p.turn w with ⟨w', _ | p' | ⟨link, answer⟩⟩ <;> rw [hp] at hafter
    · exact hafter
    · exact hafter
    · exact says_proceed hafter (body.speech_append started heard answer) _
  | resting id heard link wake =>
    simp only [turn]
    split_ifs
    · exact says_proceed hspeaks (body.speech_append started heard none) _
    · exact hspeaks

end Attempt

/-! ### The pool of an attempt -/

variable {N α : Type}

/-- A borrower stays at a pool, and its loan is of that pool. -/
def Borrow.Stays (id : PoolId) : Turn Borrow (Except Error Loan) → Prop
  | .running b => b.pool = id
  | .done (.ok loan) => loan.pool = id
  | .blocked | .done (.error _) => True

namespace Borrow

variable [Network N]

theorem stays_permitted (w : World N) (id : PoolId) : Stays id (permitted w id).2 := by
  unfold permitted
  rcases (w.pool id).takeIdle with ⟨_ | link, p⟩ <;> rfl

theorem stays_turn (w : World N) (b : Borrow) : Stays b.pool (b.turn w).2 := by
  cases b with
  | entering id =>
    simp only [turn]
    split_ifs
    · trivial
    · split
      · trivial
      · exact stays_permitted _ id
      · rfl
  | queued id ticket deadline =>
    simp only [turn]
    split
    · trivial
    · exact stays_permitted _ id
    · split_ifs <;> trivial
  | dialling id d =>
    simp only [turn]
    rcases w.dialOn d with ⟨w', _ | d' | e | link⟩
    · trivial
    · rfl
    · trivial
    · rfl

end Borrow

namespace Attempt

variable {w : World N} {body : Body α} {started : Nat} {heard : List Patience.Heard} {id : PoolId}
  {asking : Bool} {link : Link} {a' : Attempt}

theorem on_proceed (h : (proceed w body started id link heard).2 = .running a') : a'.On id asking := by
  unfold proceed at h
  split at h
  · obtain rfl := Turn.running.inj h
    rfl
  · obtain rfl := Turn.running.inj h
    rfl
  · cases h

/-- **An attempt keeps to its pool.** -/
theorem on_turn [Network N] {a : Attempt} (hon : a.On id asking) (h : (a.turn w body started).2 = .running a') :
    a'.On id asking := by
  cases a with
  | borrowing asks b =>
    obtain ⟨rfl, rfl⟩ := hon
    have hstays := b.stays_turn w
    simp only [turn] at h
    rcases hb : b.turn w with ⟨w', _ | b' | e | loan⟩ <;> rw [hb] at h hstays
    · cases h
    · obtain rfl := Turn.running.inj h
      exact ⟨rfl, hstays⟩
    · cases h
    · dsimp only at h
      split_ifs at h with hasks
      · obtain rfl := Turn.running.inj h
        exact ⟨hstays, hasks⟩
      · exact hstays ▸ on_proceed h
  | announcing pool x =>
    obtain ⟨rfl, hasks⟩ := hon
    simp only [turn] at h
    rcases hx : w.exchange x with ⟨w', _ | x' | ⟨link, e | f⟩⟩ <;> rw [hx] at h
    · cases h
    · obtain rfl := Turn.running.inj h
      exact ⟨rfl, hasks⟩
    · cases h
    · exact on_proceed h
  | running pool heard p =>
    obtain rfl : pool = id := hon
    simp only [turn] at h
    rcases hp : p.turn w with ⟨w', _ | p' | ⟨link, answer⟩⟩ <;> rw [hp] at h
    · cases h
    · obtain rfl := Turn.running.inj h
      rfl
    · exact on_proceed h
  | resting pool heard link wake =>
    obtain rfl : pool = id := hon
    simp only [turn] at h
    split_ifs at h
    exact on_proceed h

end Attempt

/-! ### Attempts of invocations -/

namespace Invocation

variable {w : World N} {inv inv' : Invocation α} {r : World N × Step α} {id : PoolId} {asking : Bool} {b : Attempt}

/-- At the head of the loop an attempt is at its beginning. -/
theorem NextStep.attempt_eq (h : NextStep w inv r) (hr : r.2 = .running (inv', .attempting id asking b)) :
    b = .borrowing asking (.entering id) := by
  cases h with
  | attempt =>
    obtain ⟨-, hstage⟩ := Prod.mk.inj (Turn.running.inj hr)
    obtain ⟨rfl, rfl, rfl⟩ := Stage.attempting.inj hstage
    rfl
  | _ => cases hr

theorem AfterStep.attempt_eq {outcome : Outcome α} (h : AfterStep w inv outcome r)
    (hr : r.2 = .running (inv', .attempting id asking b)) : b = .borrowing asking (.entering id) := by
  cases h with
  | next now budget searched h => exact h.attempt_eq hr
  | attempt =>
    obtain ⟨-, hstage⟩ := Prod.mk.inj (Turn.running.inj hr)
    obtain ⟨rfl, rfl, rfl⟩ := Stage.attempting.inj hstage
    rfl
  | _ => cases hr

end Invocation

namespace Activity

variable {w : World N} {inv : Invocation α} {id : PoolId} {asking : Bool} {b : Attempt}

/-- A new invocation has at most begun an attempt. -/
theorem attempt_start {request : Request α}
    (h : (start w request).2 = some (.invoking inv (.attempting id asking b))) :
    b = .borrowing asking (.entering id) := by
  cases request with
  | invoke policy body slot deadline =>
    have hnext : Invocation.NextStep w _ (Invocation.start w policy body slot deadline) :=
      Invocation.next_step w _ none
    simp only [start] at h
    rcases hs : Invocation.start w policy body slot deadline with ⟨w', _ | ⟨inv', stage⟩ | result⟩ <;>
      rw [hs] at h hnext
    · cases h
    · obtain ⟨rfl, rfl⟩ := Activity.invoking.inj (Option.some.inj h)
      exact hnext.attempt_eq rfl
    · cases h
  | refresh => cases h

/-- **An attempt goes on as its own turn says**, or it is a new one. -/
theorem attempt_turn [Network N] {a : Activity α}
    (h : (a.turn w).2 = some (.invoking inv (.attempting id asking b))) :
    b = .borrowing asking (.entering id) ∨ ∃ b₀, a = .invoking inv (.attempting id asking b₀) ∧
      (a.turn w).1 = (b₀.turn w inv.body inv.started).1 ∧
      ((b₀.turn w inv.body inv.started).2 = .running b ∨ (b₀.turn w inv.body inv.started).2 = .blocked ∧ b = b₀) := by
  cases a with
  | refreshing r =>
    simp only [turn] at h
    rcases hr : r.turn w with ⟨w', _ | r' | result⟩ <;> rw [hr] at h <;> cases h
  | invoking inv₀ stage =>
    have hends : ∀ {w' : World N} {outcome : Invocation.Outcome α},
        ofStep (some (.invoking inv₀ stage)) (inv₀.after w' outcome).2 = some (.invoking inv (.attempting id asking b)) →
          b = .borrowing asking (.entering id) := by
      intro w' outcome hleft
      have hafter := Invocation.after_step w' inv₀ outcome
      rcases hstep : inv₀.after w' outcome with ⟨w'', _ | ⟨inv', stage'⟩ | result⟩ <;> rw [hstep] at hleft hafter
      · exact absurd rfl hafter.ne_blocked
      · obtain ⟨rfl, rfl⟩ := Activity.invoking.inj (Option.some.inj hleft)
        exact hafter.attempt_eq rfl
      · cases hleft
    cases stage with
    | attempting id₀ asking₀ b₀ =>
      simp only [turn, Invocation.turn, Invocation.stageTurn, Invocation.attemptUntil] at h ⊢
      rcases hb : b₀.turn w inv₀.body inv₀.started with ⟨w', _ | b' | ended⟩ <;> rw [hb] at h <;> dsimp only at h ⊢
      · split_ifs at h ⊢ with hlate
        · exact .inl (hends h)
        · obtain ⟨rfl, hstage⟩ := Activity.invoking.inj (Option.some.inj h)
          obtain ⟨rfl, rfl, rfl⟩ := Invocation.Stage.attempting.inj hstage
          exact .inr ⟨b₀, rfl, by rw [hb], .inr ⟨by rw [hb], rfl⟩⟩
      · obtain ⟨rfl, hstage⟩ := Activity.invoking.inj (Option.some.inj h)
        obtain ⟨rfl, rfl, rfl⟩ := Invocation.Stage.attempting.inj hstage
        exact .inr ⟨b₀, rfl, by rw [hb], .inl (by rw [hb])⟩
      · exact .inl (hends h)
    | resolving r | refreshing r =>
      simp only [turn, Invocation.turn, Invocation.stageTurn] at h
      rcases hr : Invocation.refreshUntil inv₀.budget.deadline w r with ⟨w', _ | r' | result⟩ <;> rw [hr] at h
      · cases h
      · cases h
      · exact .inl (hends h)
    | pausing wake =>
      simp only [turn, Invocation.turn, Invocation.stageTurn] at h
      split_ifs at h
      · exact .inl (hends h)
      · cases h

end Activity

namespace System

variable [Network N] {setup : Setup} {s : System N α}

/-- Every attempt keeps to its pool. -/
theorem Arises.on (hs : s.Arises setup) {inv : Invocation α} {id : PoolId} {asking : Bool} {a : Attempt} {who : Nat}
    (ha : s.active who = some (.invoking inv (.attempting id asking a))) : a.On id asking := by
  have hall := hs.forall_active (P := fun a => ∀ inv id asking b,
    a = .invoking inv (.attempting id asking b) → b.On id asking) ?_ ?_
  · exact hall who _ ha inv id asking a rfl
  · rintro w request _ hstart inv id asking b rfl
    rw [Activity.attempt_start hstart]
    exact ⟨rfl, rfl⟩
  · rintro w a _ hon hturn inv id asking b rfl
    rcases Activity.attempt_turn hturn with rfl | ⟨b₀, rfl, -, hrunning | ⟨-, rfl⟩⟩
    · exact ⟨rfl, rfl⟩
    · exact Attempt.on_turn (hon inv id asking b₀ rfl) hrunning
    · exact hon inv id asking b rfl

/-- Every asking attempt has written what it says. -/
def Asking (s : System N α) : Prop :=
  ∀ who inv id a, s.active who = some (.invoking inv (.attempting id true a)) →
    a.Says who s.world.net.record inv.body inv.started

omit [Network N] in
/-- The work of one caller leaves what the others have written as it was. -/
theorem Asking.put {other : Nat} {r : World (Watched N) × Option (Activity α)} (h : s.Asking)
    (hplaced : Placed s.world.topology s.world.net.record s.held)
    (m : Moves default (s.seenBy other) (s.held other) r.1 (r.2.bind Activity.holding?))
    (hfresh : (Traffic.openings r.1.net.record).Nodup)
    (hown : ∀ inv id a, r.2 = some (.invoking inv (.attempting id true a)) →
      a.Says other r.1.net.record inv.body inv.started) : (s.put other r).Asking := by
  intro who inv id a ha
  by_cases hwho : who = other
  · subst hwho
    exact hown inv id a (by simpa [System.put] using ha)
  · have ha' : s.active who = some (.invoking inv (.attempting id true a)) := by
      simpa [System.put, hwho] using ha
    have hbefore : Placed (s.seenBy other).topology (s.seenBy other).net.record s.held := hplaced
    -- what the other caller has done is not on this connection
    obtain ⟨new, hrecord, -, hfar⟩ := hbefore.exists_far m hfresh
    show a.Says who r.1.net.record inv.body inv.started
    rw [hrecord]
    exact (h who inv id a ha').append_far fun x hx => hfar who x hwho ((held_of_active ha').trans hx)

/-- **What every asking attempt says**, as long as connections that are opened are new ones. -/
theorem Arises.asking (hs : s.Arises setup) (hfresh : (Traffic.openings s.world.net.record).Nodup) : s.Asking := by
  induction hs with
  | start topology active =>
    intro who inv id a ha
    rw [active] at ha
    cases ha
  | @step s e hs ih =>
    have hbefore := Traffic.nodup_openings_of_suffix hfresh (record_step s e)
    have hplaced := hs.placed hbefore
    have hspeaks := ih hbefore
    cases e with
    | start other request =>
      cases ha : s.active other with
      | some a => simpa [System.step, ha] using hspeaks
      | none =>
        rw [step_start ha] at hfresh ⊢
        refine hspeaks.put hplaced (held_of_idle ha ▸ Activity.start_moves (s.seenBy other) request) hfresh ?_
        intro inv id a hstart
        rw [Activity.attempt_start hstart]
        trivial
    | turn other =>
      cases ha : s.active other with
      | none => simpa [System.step, ha] using hspeaks
      | some a =>
        rw [step_turn ha] at hfresh ⊢
        refine hspeaks.put hplaced (held_of_active ha ▸ a.turn_moves (s.seenBy other)) hfresh ?_
        intro inv id b hturn
        rcases Activity.attempt_turn hturn with rfl | ⟨b₀, rfl, hworld, hgoes⟩
        · trivial
        · have hafter := Attempt.says_turn (w := s.seenBy other) (hs.on ha) (hspeaks other inv id b₀ ha)
          rw [hworld]
          rcases hgoes with hrunning | ⟨hblocked, rfl⟩
          · rw [hrunning] at hafter
            exact hafter
          · rw [hblocked] at hafter
            exact hafter
    | drop other =>
      cases ha : s.active other with
      | none => simpa [System.step, ha] using hspeaks
      | some a =>
        rw [step_drop ha] at hfresh ⊢
        exact hspeaks.put hplaced (held_of_active ha ▸ a.drop_moves (s.seenBy other)) hfresh
          fun _ _ _ h => by cases h
    | elapse duration => exact hspeaks
    | stir net => exact hspeaks
    | close => exact hspeaks
  | operate op hs ih => exact ih hfresh

end System
end SlotRouter
