import NextendoMatchmaking.Endpoint.Connection
import NextendoMatchmaking.Library.Runs

/-!
# Endpoints

`Endpoint` of `nextendo-nex/endpoint.go` with its registry of connections, `handlePacket`, and the ways in
which a connection is closed from outside: by its transport (`server.go`), by the reaper and by the
administrator (`reaper.go`).

A run of an endpoint is a sequence of `Label`s.  The state of the system also holds the effects so far, in
order, so that properties of runs can speak about what was called and when.  A pass of the reaper that is
interrupted by other steps is a sequence of `Label.close`s.
-/

namespace NextendoMatchmaking.Endpoint

open NextendoMatchmaking.Runs

/-! ### State -/

/-- The registry of an endpoint, and every connection that was ever made for it. -/
structure State where
  connections : GoMap UInt32 Sock
  connCounter : UInt32
  sockets : GoMap Sock Connection

/-- `NewEndpoint`. -/
def newEndpoint : State := ⟨∅, 0, ∅⟩

/-- A write through the pointer to the connection `c`. -/
def State.set (s : State) (c : Sock) (conn : Connection) : State :=
  { s with sockets := s.sockets.insert c conn }

@[simp] theorem connections_set (s : State) (c : Sock) (conn : Connection) :
    (s.set c conn).connections = s.connections := rfl

theorem lookup_set (s : State) (c c' : Sock) (conn : Connection) :
    (s.set c conn).sockets.lookup c' = if c' = c then some conn else s.sockets.lookup c' :=
  GoMap.lookup_insert_eq _ _ _ _

/-- A connection after a write is the one that was written, or another one as it was. -/
theorem lookup_set_cases {s : State} {c c' : Sock} {conn conn' : Connection}
    (h : (s.set c conn).sockets.lookup c' = some conn') :
    (c' = c ∧ conn' = conn) ∨ (c' ≠ c ∧ s.sockets.lookup c' = some conn') := by
  rw [lookup_set] at h
  split at h
  · rename_i hc
    exact .inl ⟨hc, (Option.some.inj h).symm⟩
  · rename_i hc
    exact .inr ⟨hc, h⟩

/-! ### The registry -/

/-- `registerConnection`. -/
def registerConnection (s : State) (c : Sock) (conn : Connection) : State :=
  let id := s.connCounter + 1
  { (s.set c { conn with id }) with
    connCounter := id
    connections := s.connections.insert id c }

/-- `unregisterConnection`. -/
def unregisterConnection (s : State) (conn : Connection) : State :=
  if conn.id = 0 then s else { s with connections := s.connections.erase conn.id }

theorem sockets_unregister (s : State) (conn : Connection) :
    (unregisterConnection s conn).sockets = s.sockets := by
  unfold unregisterConnection
  split <;> rfl

theorem lookup_unregister (s : State) (conn : Connection) (id : UInt32) :
    (unregisterConnection s conn).connections.lookup id =
      if conn.id ≠ 0 ∧ id = conn.id then none else s.connections.lookup id := by
  unfold unregisterConnection
  split
  · rename_i hzero
    rw [if_neg (fun h => h.1 hzero)]
  · rename_i hne
    show (s.connections.erase conn.id).lookup id = _
    rw [GoMap.lookup_erase_eq]
    simp [hne]

/-- `close`. -/
def close (s : State) (c : Sock) : State × List Effect :=
  match s.sockets.lookup c with
  | none => (s, [])
  | some conn =>
    if conn.state = .closed then
      (s, [])
    else
      (unregisterConnection (s.set c { conn with state := .closed }) conn, [.onDisconnect c conn.pid])

/-! ### Packets -/

/-- `processCONNECT`. -/
def processCONNECT (crypto : Crypto) (e : Config) (env : PacketEnv) (s : State) (c : Sock)
    (conn : Connection) (p : Packet) : State × List Effect :=
  match acceptCONNECT crypto e env conn p with
  | none => (s.set c conn, [])
  | some (conn, ack) =>
    (registerConnection s c { conn with state := .connected },
      [.send c ack.encode, .onConnect c conn.pid])

/-- `handlePacket`. -/
def handlePacket (crypto : Crypto) (e : Config) (env : PacketEnv) (s : State) (c : Sock)
    (conn : Connection) (p : Packet) : State × List Effect :=
  let conn := { conn with lastSeen := env.now }
  if p.type = PacketType.syn then
    if p.hasFlag Flag.ack then (s.set c conn, [])
    else
      let (conn, effects) := processSYN crypto e env c conn p
      (s.set c conn, effects)
  else if p.type = PacketType.connect then
    if p.hasFlag Flag.ack then (s.set c conn, [])
    else processCONNECT crypto e env s c conn p
  else if p.type = PacketType.data then
    let (conn, effects) := processData e env c conn p
    (s.set c conn, effects)
  else if p.type = PacketType.ping then
    (s.set c conn, processPing c conn p)
  else if p.type = PacketType.disconnect then
    if p.hasFlag Flag.ack then (s.set c conn, [])
    else
      let acks := if p.hasFlag Flag.needACK then [sendAck c conn p] else []
      let (s, effects) := close (s.set c conn) c
      (s, acks ++ effects)
  else
    (s.set c conn, if e.customPacketHandlers.contains p.type then [.custom c p] else [])

/-! ### The reaper and the administrator -/

/-- `snapshotConns`, in the order in which the runtime iterates over the registry. -/
def snapshotConns (s : State) (order : List UInt32) : List Sock := order.filterMap s.connections.lookup

/-- A loop over connections that closes those that satisfy a test when the loop reaches them. -/
def closeWhere (test : Sock → Connection → Bool) : List Sock → State → State × List Effect
  | [], s => (s, [])
  | c :: cs, s =>
    match s.sockets.lookup c with
    | none => closeWhere test cs s
    | some conn =>
      if test c conn then
        let (s, effects) := close s c
        let (s, rest) := closeWhere test cs s
        (s, effects ++ rest)
      else
        closeWhere test cs s

/-- `IdleFor`. -/
def idleFor (now : Int) (conn : Connection) : Int :=
  if conn.lastSeen = 0 then 0 else now - conn.lastSeen

/-- `ReapIdle`; `now` is the clock when the loop looks at a connection. -/
def reapIdle (maxIdle : Int) (now : Sock → Int) (order : List UInt32) (s : State) : State × List Effect :=
  if maxIdle ≤ 0 then
    (s, [])
  else
    closeWhere (fun c conn => 0 < idleFor (now c) conn && maxIdle ≤ idleFor (now c) conn)
      (snapshotConns s order) s

/-- `KickPID`. -/
def kickPID (pid : UInt64) (order : List UInt32) (s : State) : State × List Effect :=
  if pid = 0 then (s, [])
  else closeWhere (fun _ conn => conn.pid == pid) (snapshotConns s order) s

/-- `KickConnection`: the first connection of the snapshot with this id. -/
def kickConnection (id : UInt32) (order : List UInt32) (s : State) : State × List Effect :=
  match (snapshotConns s order).find? (fun c =>
      ((s.sockets.lookup c).map (fun conn => conn.id)) == some id) with
  | none => (s, [])
  | some c => close s c

/-! ### Runs -/

inductive Label
  /-- The transport accepts a socket. -/
  | accept (c : Sock) (remoteAddr : RemoteAddr)
  | packet (c : Sock) (p : Packet) (env : PacketEnv)
  /-- `Close`, by the transport on socket close or as one step of a longer pass. -/
  | close (c : Sock)
  | reapIdle (maxIdle : Int) (now : Sock → Int) (order : List UInt32)
  | kickPID (pid : UInt64) (order : List UInt32)
  | kickConnection (id : UInt32) (order : List UInt32)

/-- One step of an endpoint, with its effects. -/
def exec (crypto : Crypto) (e : Config) (s : State) : Label → Option (State × List Effect)
  | .accept c remoteAddr =>
    if (s.sockets.lookup c).isSome then none else some (s.set c (newConnection remoteAddr), [])
  | .packet c p env =>
    match s.sockets.lookup c with
    | none => none
    | some conn => some (handlePacket crypto e env s c conn p)
  | .close c => if (s.sockets.lookup c).isSome then some (Endpoint.close s c) else none
  | .reapIdle maxIdle now order =>
    if GoMap.Enumerates order s.connections then some (Endpoint.reapIdle maxIdle now order s) else none
  | .kickPID pid order =>
    if GoMap.Enumerates order s.connections then some (Endpoint.kickPID pid order s) else none
  | .kickConnection id order =>
    if GoMap.Enumerates order s.connections then some (Endpoint.kickConnection id order s) else none

/-- The endpoint and what it has done so far. -/
abbrev Logged := State × List Effect

/-- A step that records its effects. -/
def step (crypto : Crypto) (e : Config) (s : Logged) (l : Label) : Option Logged :=
  (exec crypto e s.1 l).map (fun (s', effects) => (s', s.2 ++ effects))

/-- A fresh endpoint that has done nothing. -/
def start : Logged := (newEndpoint, [])

end NextendoMatchmaking.Endpoint
