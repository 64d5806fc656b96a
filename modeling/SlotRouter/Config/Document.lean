import SlotRouter.Config
import SlotRouter.Json

/-!
# Configuration documents

A configuration as a JSON document. A record is an object with named fields, or an array of its fields in
order. A field that is not there keeps its default; a field that the configuration does not know is passed
over; a field given twice is refused. A duration is a record of seconds and nanoseconds, and there both fields
must be given and no other.
-/

namespace SlotRouter.Config

/-- The name of a field. -/
def fieldName? : Json → Option String
  | .text s => some s
  | _ => none

/-- The values of the fields called `name`. -/
def valuesOf (name : String) (fields : List (String × Json)) : List Json :=
  (fields.filter fun f => f.1 == name).map Prod.snd

/-- The value of a field that is given at most once. -/
def atMostOnce : List Json → Option (Option Json)
  | [] => some none
  | [v] => some (some v)
  | _ => none

/-- The values of the named fields of a record, each where it is given. `strict` refuses other fields. -/
def record? (strict : Bool) (names : List String) : Json → Option (List (Option Json))
  | .array items =>
    if items.length ≤ names.length then
      some (items.map some ++ List.replicate (names.length - items.length) none)
    else none
  | .object pairs => do
    let fields ← pairs.mapM fun p => (fieldName? p.1).map fun name => (name, p.2)
    if strict && fields.any (fun f => !names.contains f.1) then none
    names.mapM fun name => atMostOnce (valuesOf name fields)
  | _ => none

/-- Reads a field, or keeps the default. -/
def orDefault {α : Type} (default : α) (read : Json → Option α) : Option Json → Option α
  | some v => read v
  | none => some default

/-- Nothing, or a value. -/
def nullable? {α : Type} (read : Json → Option α) : Json → Option (Option α)
  | .null => some none
  | v => (read v).map some

/-- A text. -/
def text? : Json → Option String
  | .text s => some s
  | _ => none

/-- A whole number below a bound. -/
def below? (bound : Nat) : Json → Option Nat
  | .natural n => if n < bound then some n else none
  | _ => none

/-- Texts. -/
def texts? : Json → Option (List String)
  | .array items => items.mapM text?
  | _ => none

/-- A duration. More than a second of nanoseconds carries over, if the seconds still fit 64 bits. -/
def duration? (v : Json) : Option Nat :=
  match record? true ["secs", "nanos"] v with
  | some [some secs, some nanos] => do
    let s ← below? UInt64.size secs
    let n ← below? UInt32.size nanos
    if s + n / 1000000000 < UInt64.size then some (s * 1000000000 + n) else none
  | _ => none

/-- The settings of connections. -/
def connection? (v : Json) : Option ConnectionConfig :=
  let default : ConnectionConfig := {}
  match record? false ["connect_timeout", "socket_timeout", "username", "password", "client_name"] v with
  | some [connect, socket, username, password, name] => do
    some {
      connectTimeout := ← orDefault default.connectTimeout duration? connect
      socketTimeout := ← orDefault default.socketTimeout duration? socket
      username := ← orDefault default.username (nullable? text?) username
      password := ← orDefault default.password (nullable? text?) password
      clientName := ← orDefault default.clientName (nullable? text?) name }
  | _ => none

/-- The settings of pools. -/
def pool? (v : Json) : Option PoolConfig :=
  let default : PoolConfig := {}
  match record? false ["max_connections_per_node", "wait_timeout"] v with
  | some [connections, wait] => do
    some {
      maxConnections := ← orDefault default.maxConnections (below? UInt64.size) connections
      waitTimeout := ← orDefault default.waitTimeout duration? wait }
  | _ => none

/-- The configuration that a JSON value describes. -/
def ofJson? (v : Json) : Option Config :=
  let default : Config := {}
  let word? (v : Json) : Option UInt32 := (below? UInt32.size v).map UInt32.ofNat
  match record? false ["seeds", "max_attempts", "max_total_retries_duration",
      "refresh_after_connection_failures", "connection", "pool"] v with
  | some [seeds, attempts, retry, failures, connection, pool] => do
    some {
      seeds := ← orDefault default.seeds texts? seeds
      maxAttempts := ← orDefault default.maxAttempts word? attempts
      retryDuration := ← orDefault default.retryDuration (nullable? duration?) retry
      refreshAfter := ← orDefault default.refreshAfter word? failures
      connection := ← orDefault default.connection connection? connection
      pool := ← orDefault default.pool pool? pool }
  | _ => none

/-- The configuration that a document describes. -/
def ofDocument? (s : String) : Option Config := (Json.ofText? s).bind ofJson?

end SlotRouter.Config
