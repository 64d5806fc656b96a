import SlotRouter.Layout

/-!
# Layouts as nodes send them

The reply to `CLUSTER SLOTS` for a list of ranges, each with the hosts and ports of its nodes, the master first
(`Layout.render`).

The form of a reply that lists ranges is told here without its reader. A node is host and port, and anything after
them; a range is its two ends in order, a master and anything else; a layout is an array of ranges
(`Layout.IsNode`, `Layout.IsRange`, `Layout.IsLayout`).
-/

namespace SlotRouter

/-- The address is host and port with a colon between them, the host in brackets if it has colons of its own
and does not begin with a bracket. -/
inductive Address.Shows : List Char → Int → String → Prop where
  | plain {host : List Char} {port : Int} (h : ':' ∉ host ∨ host.head? = some '[') :
      Shows host port (String.ofList (host ++ ':' :: (toString port).toList))
  | bracketed {host : List Char} {port : Int} (hcolon : ':' ∈ host) (h : host.head? ≠ some '[') :
      Shows host port (String.ofList ('[' :: (host ++ ']' :: ':' :: (toString port).toList)))

namespace Layout

/-! ### Replies with ranges -/

/-- A range of slots and the hosts and ports of the nodes that serve it. -/
structure Row where
  first : Int64
  last : Int64
  nodes : List (Bytes × Int64)
  deriving DecidableEq, Inhabited

/-- A node in a reply. -/
def renderNode (n : Bytes × Int64) : Frame := .array [.bulk n.1, .integer n.2, .bulkText "id"]

/-- A range in a reply. -/
def renderRow (r : Row) : Frame :=
  .array (.integer r.first :: .integer r.last :: r.nodes.map renderNode)

/-- The reply with the ranges. -/
def render (rows : List Row) : Frame := .array (rows.map renderRow)

/-! ### The form of a reply -/

/-- The host that a node entry means when its host is the payload: the one that was asked if it is left out. -/
inductive Means (asked : List Char) (payload : Bytes) : List Char → Prop where
  | stated (h : ¬Unstated (Utf8.lossyText payload)) : Means asked payload (Utf8.lossy payload)
  | unstated (h : Unstated (Utf8.lossyText payload)) : Means asked payload asked

/-- The frame is a node at the address: a text for the host, a port, and anything after them. -/
inductive IsNode (asked : List Char) : Frame → String → Prop where
  | entry {h : Frame} {payload : Bytes} {port : Int64} {more : List Frame} {host : List Char} {address : String}
      (text : h = .bulk payload ∨ h = .simple payload) (first : 1 ≤ port.toInt) (last : port.toInt ≤ 65535)
      (means : Means asked payload host) (shows : Address.Shows host port.toInt address) :
      IsNode asked (.array (h :: .integer port :: more)) address

/-- The addresses of those frames that are nodes, in their order. -/
inductive Keeps (asked : List Char) : List Frame → List String → Prop where
  | nil : Keeps asked [] []
  | node {f : Frame} {fs : List Frame} {address : String} {addresses : List String} (h : IsNode asked f address)
      (hs : Keeps asked fs addresses) : Keeps asked (f :: fs) (address :: addresses)
  | other {f : Frame} {fs : List Frame} {addresses : List String} (h : ∀ address, ¬IsNode asked f address)
      (hs : Keeps asked fs addresses) : Keeps asked (f :: fs) addresses

/-- The frame is the range: its two ends, its master, and among what follows its replicas. -/
inductive IsRange (asked : List Char) : Frame → SlotRange → Prop where
  | entry {first last : Int64} {node : Frame} {others : List Frame} {r : SlotRange}
      (hfirst : first.toInt = r.first.toNat) (hlast : last.toInt = r.last.toNat) (order : r.first ≤ r.last)
      (bound : r.last.toNat < 16384) (master : IsNode asked node r.master)
      (replicas : Keeps asked others r.replicas) :
      IsRange asked (.array (.integer first :: .integer last :: node :: others)) r

/-- The frame is a range, whoever was asked. -/
def IsRow (row : Frame) : Prop :=
  ∃ (first last port : Int64) (host : Frame) (payload : Bytes) (more others : List Frame),
    row = .array (.integer first :: .integer last :: .array (host :: .integer port :: more) :: others) ∧
    0 ≤ first.toInt ∧ first.toInt ≤ last.toInt ∧ last.toInt < 16384 ∧
    (host = .bulk payload ∨ host = .simple payload) ∧ 1 ≤ port.toInt ∧ port.toInt ≤ 65535

/-- The frame is an array of ranges. -/
def IsLayout (f : Frame) : Prop := ∃ rows, f = .array rows ∧ ∀ row ∈ rows, IsRow row

/-! ### One node in a reply -/

/-- The frame describes the node at the port of the host. -/
def Describes (host : String) (port : Nat) (f : Frame) : Prop :=
  ∃ h more, f = .array (h :: .integer (Int64.ofNat port) :: more) ∧ h.payload? = some (Bytes.ofText host)

/-- The reply lists the node as the master of a range. -/
def Lists (host : String) (port : Nat) (reply : Frame) : Prop :=
  ∃ rows, reply = .array rows ∧ ∃ first last node replicas,
    .array (first :: last :: node :: replicas) ∈ rows ∧ Describes host port node

/-- The address that a layout gives the node, when `asked` is the host that was asked. -/
def listed (host : String) (port : Nat) (asked : List Char) : String :=
  String.ofList (Address.join (if Unstated host then asked else host.toList) port)

end Layout
end SlotRouter
