import SlotRouter.Error
import SlotRouter.Text.Words

/-!
# Addresses and the error replies that name them

An address is a host and a port with a colon between them. A host with colons of its own stands in brackets.

A node reports errors in free text. Two forms name another address for a slot: `MOVED slot host:port` when
the slot has moved, `ASK slot host:port` for this one command. An empty host, or `?`, stands for the host
that sent the reply. `CLUSTERDOWN` starts the report of an outage; everything else is an error of the command.
-/

namespace SlotRouter

/-! ### Addresses -/

namespace Address

/-- What stands before and after the last colon. -/
def splitLast? (cs : List Char) : Option (List Char × List Char) :=
  let after := cs.reverse.takeWhile (· != ':')
  match cs.reverse.dropWhile (· != ':') with
  | [] => none
  | _ :: before => some (before.reverse, after.reverse)

/-- The address of a port on a host. -/
def join (host : List Char) (port : Int) : List Char :=
  let shown := if host.contains ':' && host.head? != some '[' then '[' :: host ++ [']'] else host
  shown ++ ':' :: (toString port).toList

/-- The host of an address, without brackets. -/
def host (address : List Char) : List Char :=
  let host := match splitLast? address with
    | some (host, _) => host
    | none => address
  ((host.dropWhile (· == '[')).reverse.dropWhile (· == ']')).reverse

end Address

/-! ### Error replies -/

/-- The host stands for the one that sent the reply. -/
def Unstated (host : String) : Prop := host = "" ∨ host = "?"

instance (host : String) : Decidable (Unstated host) := inferInstanceAs (Decidable (_ ∨ _))

theorem unstated_iff {host : String} : host.toList = [] ∨ host.toList = ['?'] ↔ Unstated host := by
  rw [Unstated, ← String.toList_inj, ← String.toList_inj]
  exact Iff.rfl

namespace Redirect

/-- What follows the keyword at the start of the text. -/
def after? (keyword : String) (text : List Char) : Option (List Char) :=
  keyword.toList.isPrefixOf? text

/-- A slot of the cluster in decimal. -/
def slot? (word : List Char) : Option UInt16 :=
  (Decimal.below? slotBound (Bytes.ofChars word)).map UInt16.ofNat
where
  /-- Slots are numbered from zero. -/
  slotBound : Nat := 16384

/-- The address that a redirect names, when it was sent from `origin`. -/
def address? (word : List Char) (origin : String) : Option String :=
  match Address.splitLast? word with
  | none => none
  | some (host, port) =>
    if host = [] ∨ host = ['?'] then
      (Decimal.int64? (Bytes.ofChars port)).map fun p =>
        String.ofList (Address.join (Address.host origin.toList) p.toInt)
    else some (String.ofList word)

/-- The slot and the address in the arguments of a redirect. -/
def arguments? (text : List Char) (origin : String) : Option (UInt16 × String) :=
  match Text.words text with
  | [slot, address] =>
    match slot? slot, address? address origin with
    | some s, some a => some (s, a)
    | _, _ => none
  | _ => none

/-- The arguments of a redirect with the keyword. -/
def read? (keyword : String) (text : List Char) (origin : String) : Option (UInt16 × String) :=
  match after? keyword text with
  | some rest => arguments? rest origin
  | none => none

/-- The error that a node at `origin` reports with the line. -/
def ofLine (line : Bytes) (origin : String) : Error :=
  let text := Text.trim (Utf8.lossy line)
  match read? "MOVED " text origin with
  | some (slot, address) => .moved slot address
  | none =>
    match read? "ASK " text origin with
    | some (slot, address) => .ask slot address
    | none =>
      match after? "CLUSTERDOWN" text with
      | some rest => .clusterDown (.reported (String.ofList (Text.trim rest)))
      | none => .server (String.ofList text)

end Redirect
end SlotRouter
