import SlotRouter.Proofs.Asking
import SlotRouter.Proofs.Refreshes

/-!
# What a search learns

A search asks its candidates one after the other: nodes over their pools, and then seeds over links of
their own. A turn teaches nothing while the candidate's part goes on; or the candidate has failed, and the
search goes on with the next one; or he has sent a layout, and the search is over
(`Discovery.turn_learns`). A node that has no pool any more when its turn comes is passed over. While the
search is with a candidate it is he who is asked: over the pool of that address or a link to it, with
`CLUSTER SLOTS` (`Discovery.Contacts`).

Key definitions: `Candidate`, `Finding`, `Discovery.news`, `Discovery.Contacts`, `Discovery.Learns`. Key
theorems: `Exchange.teaches_turn`, `Discovery.continues_nextNode`, `Discovery.turn_learns`.
-/

namespace SlotRouter

variable {N : Type}

/-! ### Candidates and what comes of asking them -/

/-- Whom a search asks. -/
inductive Candidate where
  /-- A node, over its pool. -/
  | node (address : String)
  /-- A seed, over a link of its own. -/
  | seed (address : String)

namespace Candidate

def address : Candidate → String
  | .node address | .seed address => address

/-- The host for which a host that is left out stands in the reply of the candidate. -/
def host (c : Candidate) : String := .ofList (Address.host c.address.toList)

/-- Nodes and then seeds. -/
def inOrder (nodes seeds : List String) : List Candidate := nodes.map .node ++ seeds.map .seed

end Candidate

/-- What has come of asking a candidate. -/
inductive Finding where
  /-- The node had no pool any more. -/
  | gone
  /-- There was no connection to be had: no permit, no connection, or no welcome. -/
  | unreachable (e : Error)
  /-- The exchange has broken off or timed out. -/
  | brokenOff (e : Error)
  /-- The reply is an error. -/
  | refused (line : Bytes)
  /-- The reply is no layout. -/
  | malformed (f : Frame) (e : Error)
  | laidOut (f : Frame) (ranges : List SlotRange)

namespace Finding

/-- No layout has come of it. -/
def Fails : Finding → Prop
  | .gone | .unreachable _ | .brokenOff _ | .refused _ | .malformed .. => True
  | .laidOut .. => False

/-- What a reply of the candidate comes to. -/
def ofReply (asked : Candidate) : Frame → Finding
  | .error line => .refused line
  | f =>
    match Layout.ofReply asked.host f with
    | .ok ranges => .laidOut f ranges
    | .error e => .malformed f e

end Finding

/-! ### Exchanges -/

namespace Exchange

/-- The octets that are still to be written are the end of the command. -/
def Carries (c : Command) : Exchange → Prop
  | .entering _ command => command = c
  | .writing _ octets _ => octets <:+ c.encode
  | .waiting .. => True

/-- The reply, if it has come whole. -/
def replied? : Exchange → Option Frame
  | .waiting link _ =>
    match link.decoder.decode.1 with
    | .frame f => some f
    | .incomplete | .faulty _ => none
  | .entering .. | .writing .. => none

/-- The link of the exchange leads where it did, and what is left of the exchange is of the same command. -/
def Keeps (x : Exchange) : Turn Exchange Answered → Prop
  | .running x' => x'.link.address = x.link.address ∧ ∀ c, x.Carries c → x'.Carries c
  | .done (link, _) => link.address = x.link.address
  | .blocked => True

variable [Network N] {w : World N} {x : Exchange}

/-- What comes of the exchange with the candidate in this turn, if it ends. -/
def finding? (w : World N) (asked : Candidate) (x : Exchange) : Option Finding :=
  match x.replied? with
  | some f => some (.ofReply asked f)
  | none =>
    match (w.exchange x).2 with
    | .done (_, .error e) => some (.brokenOff e)
    | .done (_, .ok _) | .blocked | .running _ => none

/-- **An exchange keeps to its link and to its command.** -/
theorem keeps_turn (w : World N) (x : Exchange) : x.Keeps (w.exchange x).2 := by
  cases x with
  | entering link command =>
    show Keeps _ (enter w.now link command)
    unfold enter
    split_ifs
    · rfl
    · refine ⟨rfl, fun c hc => ?_⟩
      obtain rfl : command = c := hc
      exact List.suffix_rfl
  | writing link octets deadline =>
    show Keeps _ (write w.now w.net link octets deadline).2
    unfold write
    rcases Network.send w.net w.now link.handle octets with ⟨net, _ | count | failure⟩
    · dsimp only
      split_ifs <;> trivial
    · dsimp only
      have hsuffix : octets.drop count <:+ octets := List.drop_suffix count octets
      rcases hleft : octets.drop count with _ | ⟨b, left⟩ <;> rw [hleft] at hsuffix
      · exact ⟨rfl, fun _ _ => trivial⟩
      · dsimp only
        split_ifs
        · rfl
        · exact ⟨rfl, fun c hc => hsuffix.trans hc⟩
    · rfl
  | waiting link deadline =>
    show Keeps _ (await w.now w.net link deadline).2
    unfold await
    rcases link.decoder.decode with ⟨f | _ | fault, decoder⟩
    · rfl
    · dsimp only
      rcases Network.receive w.net w.now link.handle with ⟨net, _ | bs | _ | failure⟩
      · dsimp only
        split_ifs <;> trivial
      · exact ⟨rfl, fun _ _ => trivial⟩
      all_goals rfl
    · rfl

/-- What a turn of the exchange with the candidate teaches, as the search takes its end. -/
inductive Teaches (asked : Candidate) : Option Finding → Turn Exchange Answered → Prop where
  | waits : Teaches asked none .blocked
  | goesOn (x : Exchange) : Teaches asked none (.running x)
  | fails {finding : Finding} {e : Error} {answered : Answered} (fails : finding.Fails) (there : finding ≠ .gone)
      (h : Discovery.layout asked.address answered.2 = .error e) : Teaches asked (some finding) (.done answered)
  | lays {f : Frame} {ranges : List SlotRange} {answered : Answered}
      (reads : Layout.ofReply asked.host f = .ok ranges)
      (h : Discovery.layout asked.address answered.2 = .ok ranges) :
      Teaches asked (some (.laidOut f ranges)) (.done answered)

/-- A reply that has come whole is a layout, or it is not. -/
theorem teaches_reply (asked : Candidate) (link : Link) (address : String) (f : Frame) :
    Teaches asked (some (.ofReply asked f)) (.done (link, reply address f)) := by
  cases hlayout : Layout.ofReply asked.host f with
  | ok ranges =>
    have hframe : Finding.ofReply asked f = .laidOut f ranges ∧ reply address f = .ok f := by
      cases f with
      | error line => cases hlayout
      | _ => simp only [Finding.ofReply, hlayout, reply, and_self]
    rw [hframe.1, hframe.2]
    exact .lays hlayout hlayout
  | error e =>
    have hfails : (Finding.ofReply asked f).Fails ∧ Finding.ofReply asked f ≠ .gone := by
      cases f <;> simp [Finding.ofReply, hlayout, Finding.Fails]
    cases f with
    | error line => exact .fails hfails.1 hfails.2 rfl
    | _ => exact .fails hfails.1 hfails.2 hlayout

/-- A reply that has come whole ends the exchange. -/
theorem done_of_replied {f : Frame} (h : x.replied? = some f) :
    ∃ link address, (w.exchange x).2 = .done (link, reply address f) := by
  cases x with
  | entering | writing => cases h
  | waiting link deadline =>
    rcases hdecode : link.decoder.decode with ⟨g | _ | fault, decoder⟩ <;>
      simp only [replied?, hdecode, reduceCtorEq, Option.some.injEq] at h
    subst h
    refine ⟨{ link with decoder, broken := false }, link.address, ?_⟩
    show (await w.now w.net link deadline).2 = _
    simp only [await, hdecode]

/-- Without one the exchange does not end well. -/
theorem not_ok_of_unreplied (h : x.replied? = none) (link : Link) (f : Frame) :
    (w.exchange x).2 ≠ .done (link, .ok f) := by
  cases x with
  | entering own command =>
    show enter w.now own command ≠ _
    unfold enter
    split_ifs <;> simp
  | writing own octets deadline =>
    show (write w.now w.net own octets deadline).2 ≠ _
    unfold write
    rcases Network.send w.net w.now own.handle octets with ⟨net, _ | count | failure⟩
    · dsimp only
      split_ifs <;> simp
    · dsimp only
      split
      · simp
      · split_ifs <;> simp
    · simp
  | waiting own deadline =>
    show (await w.now w.net own deadline).2 ≠ _
    unfold await
    rcases hdecode : own.decoder.decode with ⟨g | _ | fault, decoder⟩
    · simp [replied?, hdecode] at h
    · dsimp only
      rcases Network.receive w.net w.now own.handle with ⟨net, _ | bs | _ | failure⟩
      · dsimp only
        split_ifs <;> simp
      all_goals simp
    · simp

/-- **An exchange that ends has taught whether there is a layout.** -/
theorem teaches_turn (w : World N) (asked : Candidate) (x : Exchange) :
    Teaches asked (x.finding? w asked) (w.exchange x).2 := by
  unfold finding?
  cases hreplied : x.replied? with
  | some f =>
    obtain ⟨link, address, hdone⟩ := done_of_replied (w := w) hreplied
    rw [hdone]
    exact teaches_reply asked link address f
  | none =>
    have hno := not_ok_of_unreplied (w := w) hreplied
    rcases hturn : (w.exchange x).2 with _ | x' | ⟨link, e | f⟩
    · exact .waits
    · exact .goesOn x'
    · exact .fails trivial (by simp) rfl
    · exact absurd hturn (hno link f)

end Exchange

/-! ### Openings -/

namespace Dial

/-- The address to which a link is being opened. -/
def address : Dial → String
  | .connecting address _ _ => address
  | .authenticating x | .naming x => x.link.address

/-- What is left of an opening of a link to the address. -/
def StaysAt (address : String) : Turn Dial (Except Error Link) → Prop
  | .running d => d.address = address
  | .done (.ok link) => link.address = address
  | .blocked | .done (.error _) => True

theorem staysAt_afterAuth (config : ConnectionConfig) (link : Link) :
    StaysAt link.address (afterAuth config link) := by
  unfold afterAuth
  split <;> rfl

theorem staysAt_afterConnect (config : ConnectionConfig) (link : Link) :
    StaysAt link.address (afterConnect config link) := by
  unfold afterConnect
  split
  · rfl
  · exact staysAt_afterAuth config link

variable [Network N]

/-- **A link is opened to the address that was given.** -/
theorem staysAt_turn (w : World N) (d : Dial) : StaysAt d.address (w.dialOn d).2 := by
  cases d with
  | connecting address handle deadline =>
    simp only [World.dialOn, World.withNet, turn]
    split
    · exact staysAt_afterConnect w.connectionConfig ⟨handle, address, _, _, _⟩
    · trivial
    · split_ifs <;> trivial
  | authenticating x =>
    have hlink := x.keeps_turn w
    simp only [World.dialOn, World.withNet, World.exchange, turn] at hlink ⊢
    rcases hx : x.turn w.now w.net with ⟨net, _ | x' | ⟨link, e | f⟩⟩ <;> rw [hx] at hlink
    · trivial
    · exact hlink.1
    · trivial
    · have hto : link.address = x.link.address := hlink
      have hafter := staysAt_afterAuth w.connectionConfig link
      rw [hto] at hafter
      exact hafter
  | naming x =>
    have hlink := x.keeps_turn w
    simp only [World.dialOn, World.withNet, World.exchange, turn] at hlink ⊢
    rcases hx : x.turn w.now w.net with ⟨net, _ | x' | ⟨link, e | f⟩⟩ <;> rw [hx] at hlink
    · trivial
    · exact hlink.1
    · trivial
    · dsimp only
      cases Reply.unit f with
      | ok => exact hlink
      | error e => trivial

end Dial

/-! ### Searches -/

namespace Discovery

/-- Who is being asked. -/
def current : Discovery → Candidate
  | .borrowing node .. | .querying node .. => .node node
  | .dialling seed .. | .asking seed .. => .seed seed

/-- The nodes that are still to be asked. -/
def laterNodes : Discovery → List String
  | .borrowing _ nodes _ _ | .querying _ nodes _ _ _ => nodes
  | .dialling .. | .asking .. => []

/-- The seeds that are still to be asked. -/
def laterSeeds : Discovery → List String
  | .borrowing _ _ seeds _ | .querying _ _ seeds _ _ | .dialling _ seeds _ | .asking _ seeds _ => seeds

/-- Who is being asked and who is still to be. -/
def candidates (d : Discovery) : List Candidate := d.current :: Candidate.inOrder d.laterNodes d.laterSeeds

/-- The present candidate is asked for the layout, a node over the pool of its address and a seed over a
link to it. -/
def Contacts (t : Topology) : Discovery → Prop
  | .borrowing node _ _ b => b.pool < t.pools.length ∧ (t.pool b.pool).address = node
  | .querying node _ _ id x => (id < t.pools.length ∧ (t.pool id).address = node) ∧ x.Carries .clusterSlots
  | .dialling seed _ d => d.address = seed
  | .asking seed _ x => x.link.address = seed ∧ x.Carries .clusterSlots

/-- The first of the nodes, as far as they have no pool any more. -/
def passedOver (t : Topology) (nodes : List String) : List String :=
  nodes.takeWhile fun node => (t.registered? node).isNone

/-- Those that follow. -/
def remaining (t : Topology) (nodes : List String) : List String :=
  nodes.dropWhile fun node => (t.registered? node).isNone

/-- The search goes on with the candidates, or fails for want of any. -/
inductive Continues (t : Topology) (candidates : List Candidate) : Step → Prop where
  | nobody (none : candidates = []) : Continues t candidates (.done (.error .noReachableNode))
  | somebody {d : Discovery} (order : d.candidates = candidates) (contacts : d.Contacts t) :
      Continues t candidates (.running d)

variable [Network N]

/-- What comes of the present candidate in this turn, if his part ends. -/
def finding? (w : World N) (d : Discovery) : Option Finding :=
  match d with
  | .borrowing _ _ _ b =>
    match (b.turn w).2 with
    | .done (.error e) => some (.unreachable e)
    | .done (.ok _) | .blocked | .running _ => none
  | .dialling _ _ dial =>
    match (w.dialOn dial).2 with
    | .done (.error e) => some (.unreachable e)
    | .done (.ok _) | .blocked | .running _ => none
  | .querying _ _ _ _ x | .asking _ _ x => x.finding? w d.current

/-- What is learnt in this turn: what has come of the present candidate, and who is passed over then. -/
def news (w : World N) (d : Discovery) : List (Candidate × Finding) :=
  match d.finding? w with
  | none => []
  | some (.laidOut f ranges) => [(d.current, .laidOut f ranges)]
  | some finding => (d.current, finding) :: (passedOver w.topology d.laterNodes).map fun node => (.node node, .gone)

/-- What a turn of a search teaches, and how it ends. -/
inductive Learns (t : Topology) (d : Discovery) : List (Candidate × Finding) → Step → Prop where
  | waits : Learns t d [] .blocked
  | goesOn {d' : Discovery} (order : d'.candidates = d.candidates) (contacts : d'.Contacts t) :
      Learns t d [] (.running d')
  | fails {finding : Finding} {step : Step} (fails : finding.Fails) (there : finding ≠ .gone)
      (next : Continues t (Candidate.inOrder (remaining t d.laterNodes) d.laterSeeds) step) :
      Learns t d ((d.current, finding) :: (passedOver t d.laterNodes).map fun node => (.node node, .gone)) step
  | lays {f : Frame} {ranges : List SlotRange} (reads : Layout.ofReply d.current.host f = .ok ranges) :
      Learns t d [(d.current, .laidOut f ranges)] (.done (.ok ranges))

variable {t : Topology} {w : World N}

theorem continues_nextSeed (t : Topology) (w : World N) (seeds : List String) :
    Continues t (Candidate.inOrder [] seeds) (nextSeed w seeds).2 := by
  cases seeds with
  | nil => exact .nobody rfl
  | cons seed seeds => exact .somebody rfl rfl

/-- **A search goes on with the first node that still has a pool**, or else with the first seed. -/
theorem continues_nextNode (ht : t.Agrees) (hsame : ∀ node, w.topology.registered? node = t.registered? node)
    (seeds nodes : List String) :
    Continues t (Candidate.inOrder (remaining t nodes) seeds) (nextNode w seeds nodes).2 := by
  induction nodes with
  | nil => exact continues_nextSeed t w seeds
  | cons node nodes ih =>
    unfold nextNode remaining
    rw [hsame]
    cases hid : t.registered? node with
    | none =>
      rw [List.dropWhile_cons_of_pos (by rw [hid]; rfl)]
      exact ih
    | some id =>
      rw [List.dropWhile_cons_of_neg (by rw [hid]; exact Bool.false_ne_true)]
      exact .somebody rfl (ht.made_of_registered? hid)

section

variable {d : Discovery} {finding : Finding}

theorem news_of_none (h : d.finding? w = none) : d.news w = [] := by
  unfold news
  rw [h]

theorem news_of_fails (h : d.finding? w = some finding) (hfails : finding.Fails) : d.news w =
    (d.current, finding) :: (passedOver w.topology d.laterNodes).map fun node => (.node node, .gone) := by
  unfold news
  rw [h]
  cases finding with
  | laidOut f ranges => cases hfails
  | _ => rfl

theorem news_of_unreachable (e : Error) (h : d.finding? w = some (.unreachable e)) : d.news w =
    (d.current, .unreachable e) :: (passedOver w.topology d.laterNodes).map fun node => (.node node, .gone) :=
  news_of_fails h trivial

theorem news_of_laidOut {f : Frame} {ranges : List SlotRange} (h : d.finding? w = some (.laidOut f ranges)) :
    d.news w = [(d.current, .laidOut f ranges)] := by
  unfold news
  rw [h]

/-- What the exchange with the present candidate teaches is learnt by a search that waits for its end, and that
is over with the layout or else goes on with the next candidate. -/
theorem learns_of_teaches {turned : Turn Exchange Answered} {step : Step}
    (hteaches : Exchange.Teaches d.current (d.finding? w) turned) (hwaits : turned = .blocked → step = .blocked)
    (hgoesOn : ∀ x, turned = .running x →
      ∃ d' : Discovery, step = .running d' ∧ d'.candidates = d.candidates ∧ d'.Contacts w.topology)
    (hlays : ∀ answered ranges, turned = .done answered →
      layout d.current.address answered.2 = .ok ranges → step = .done (.ok ranges))
    (hfails : ∀ answered e, turned = .done answered → layout d.current.address answered.2 = .error e →
      Continues w.topology (Candidate.inOrder (remaining w.topology d.laterNodes) d.laterSeeds) step) :
    d.Learns w.topology (d.news w) step := by
  generalize hfinding : d.finding? w = learnt at hteaches
  cases hteaches with
  | waits =>
    rw [news_of_none hfinding, hwaits rfl]
    exact .waits
  | goesOn x =>
    obtain ⟨d', rfl, horder, hcontacts⟩ := hgoesOn x rfl
    rw [news_of_none hfinding]
    exact .goesOn horder hcontacts
  | @fails finding e answered hno hthere hlayout =>
    rw [news_of_fails hfinding hno]
    exact .fails hno hthere (hfails answered e rfl hlayout)
  | @lays f ranges answered hreads hlayout =>
    rw [news_of_laidOut hfinding, hlays answered ranges rfl hlayout]
    exact .lays hreads

end

/-- **A turn of a search** teaches nothing, and the same candidate is being asked afterwards; or the
candidate has failed, and the next one is asked; or the search is over with his layout. -/
theorem turn_learns (ht : w.topology.Agrees) {d : Discovery} (hd : d.Contacts w.topology) :
    d.Learns w.topology (d.news w) (d.turn w).2 := by
  cases d with
  | borrowing node nodes seeds b =>
    obtain ⟨hmade, haddress⟩ := hd
    have hquiet := b.quiet_turn w
    have hstays := b.stays_turn w
    simp only [turn]
    rcases hb : b.turn w with ⟨w', _ | b' | e | loan⟩ <;> rw [hb] at hquiet hstays
    · rw [news_of_none (by simp only [finding?, hb])]
      exact .waits
    · rw [news_of_none (by simp only [finding?, hb])]
      have hpool : b'.pool = b.pool := hstays
      refine .goesOn rfl ?_
      show b'.pool < _ ∧ _
      rw [hpool]
      exact ⟨hmade, haddress⟩
    · rw [news_of_unreachable e (by simp only [finding?, hb])]
      exact .fails trivial (by simp) (continues_nextNode ht hquiet.registered? seeds nodes)
    · rw [news_of_none (by simp only [finding?, hb])]
      have hpool : loan.pool = b.pool := hstays
      refine .goesOn rfl ⟨?_, rfl⟩
      rw [hpool]
      exact ⟨hmade, haddress⟩
  | querying node nodes seeds id x =>
    obtain ⟨hpool, hcarries⟩ := hd
    have hteaches : Exchange.Teaches (.node node) (finding? w (.querying node nodes seeds id x)) (w.exchange x).2 :=
      x.teaches_turn w (.node node)
    have hkeeps := x.keeps_turn w
    simp only [turn]
    rcases hx : w.exchange x with ⟨w', turned⟩
    rw [hx] at hteaches hkeeps
    refine learns_of_teaches hteaches ?_ ?_ ?_ ?_
    · rintro rfl
      rfl
    · rintro x' rfl
      exact ⟨_, rfl, rfl, hpool, hkeeps.2 _ hcarries⟩
    · rintro answered ranges rfl hlayout
      have hlayout : layout node answered.2 = .ok ranges := hlayout
      dsimp only
      rw [hlayout]
    · rintro answered e rfl hlayout
      have hlayout : layout node answered.2 = .error e := hlayout
      have hquiet := Loan.quiet_giveBack w' id answered.1 false
      rw [World.topology_exchange hx] at hquiet
      dsimp only
      rw [hlayout]
      exact continues_nextNode ht hquiet.registered? seeds nodes
  | dialling seed seeds dial =>
    have hto : dial.address = seed := hd
    have hstays := dial.staysAt_turn w
    simp only [turn]
    rcases hdial : w.dialOn dial with ⟨w', _ | dial' | e | link⟩ <;> rw [hdial, hto] at hstays
    · rw [news_of_none (by simp only [finding?, hdial])]
      exact .waits
    · rw [news_of_none (by simp only [finding?, hdial])]
      exact .goesOn rfl hstays
    · rw [news_of_unreachable e (by simp only [finding?, hdial])]
      exact .fails trivial (by simp) (continues_nextSeed w.topology w' seeds)
    · rw [news_of_none (by simp only [finding?, hdial])]
      exact .goesOn rfl ⟨hstays, rfl⟩
  | asking seed seeds x =>
    obtain ⟨hlink, hcarries⟩ := hd
    have hteaches : Exchange.Teaches (.seed seed) (finding? w (.asking seed seeds x)) (w.exchange x).2 :=
      x.teaches_turn w (.seed seed)
    have hkeeps := x.keeps_turn w
    simp only [turn]
    rcases hx : w.exchange x with ⟨w', turned⟩
    rw [hx] at hteaches hkeeps
    refine learns_of_teaches hteaches ?_ ?_ ?_ ?_
    · rintro rfl
      rfl
    · rintro x' rfl
      exact ⟨_, rfl, rfl, hkeeps.1.trans hlink, hkeeps.2 _ hcarries⟩
    · rintro answered ranges rfl hlayout
      have hlayout : layout seed answered.2 = .ok ranges := hlayout
      dsimp only
      rw [hlayout]
    · rintro answered e rfl hlayout
      have hlayout : layout seed answered.2 = .error e := hlayout
      dsimp only
      rw [hlayout]
      exact continues_nextSeed w.topology w' seeds

end Discovery
end SlotRouter
