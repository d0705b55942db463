import Opale.Sql.Table

namespace Opale.Remote

open Sql

/-- `readyState` of a WebSocket: 1, 2 and 3. -/
inductive ReadyState where
  | open_ | closing | closed
  deriving Repr, DecidableEq

namespace WS_CLOSE

def AUTH_FAIL : Nat := 4401
def SUPERSEDED : Nat := 4000
def PROTOCOL : Nat := 4002
def HEARTBEAT : Nat := 4003
def POLICY : Nat := 4004

end WS_CLOSE

def wsReasonFromCode (code : Nat) : String :=
  if code = WS_CLOSE.SUPERSEDED then "superseded"
  else if code = WS_CLOSE.AUTH_FAIL then "auth-fail"
  else if code = WS_CLOSE.PROTOCOL then "protocol-error"
  else if code = WS_CLOSE.HEARTBEAT then "heartbeat-timeout"
  else if code = WS_CLOSE.POLICY then "policy"
  else if code = 1000 then "normal"
  else if code = 1001 then "going-away"
  else if code = 1006 then "tcp-abort"
  else if code = 1011 then "server-error"
  else "ws-code-" ++ code.repr

/-- The connection object made for the socket of an agent; its last two fields are set once. -/
structure AgentConn where
  socket : Nat
  deviceId : Nat
  tokenId : Nat
  hostname : String
  revokedReason : Option String
  auditDisconnectEmitted : Bool
  deriving DecidableEq

/-- An audit `agent_ws_disconnect`, with the connection it is about. -/
structure DisconnectAudit where
  conn : Nat
  deviceId : Nat
  code : Nat
  reason : String
  deriving DecidableEq

/-- A console session; `handler` is the run of the route that has opened it. -/
structure ConsoleSession where
  deviceId : Nat
  agentConn : Nat
  browserSocket : Nat
  handler : Nat
  deriving DecidableEq

/-- The two registries of the server, its sockets with their listeners of the close event,
and the connection objects. The last fields are bookkeeping: the events and audits emitted,
the run that each socket and each session identifier was made for, the openings that wait for
their INSERT, and the runs of a route whose await never ends. -/
structure Hub where
  ready : Nat → Option ReadyState
  agent : Nat → Option AgentConn
  conns : Table Nat
  sessions : Nat → Option ConsoleSession
  byDevice : Nat → Option Nat
  agentListener : Nat → Option Nat
  browserListener : Nat → Option Nat
  connects : List Nat
  disconnects : List Nat
  audits : List DisconnectAudit
  owner : Nat → Option Nat
  issued : Nat → Option Nat
  creating : Nat → Option Nat
  hung : List Nat

namespace Hub

def empty : Hub :=
  ⟨fun _ => none, fun _ => none, ∅, fun _ => none, fun _ => none, fun _ => none, fun _ => none, [], [], [],
    fun _ => none, fun _ => none, fun _ => none, []⟩

/-- `socket.close`, which does nothing on a socket that is not open. -/
def closeSocket (hub : Hub) (socket : Nat) : Hub :=
  if hub.ready socket = some .open_ then { hub with ready := Function.update hub.ready socket (some .closing) }
  else hub

/-- `ConsoleSessionsRegistry.close` up to its first await. -/
def closeSession (hub : Hub) (sessionId : Nat) : Hub :=
  match hub.sessions sessionId with
  | none => hub
  | some s =>
    let removed := { hub with
      sessions := Function.update hub.sessions sessionId none
      byDevice := if hub.byDevice s.deviceId = some sessionId then Function.update hub.byDevice s.deviceId none
        else hub.byDevice }
    removed.closeSocket s.browserSocket

def closeByDevice (hub : Hub) (deviceId : Nat) : Hub :=
  match hub.byDevice deviceId with
  | some sessionId => hub.closeSession sessionId
  | none => hub

/-- `_emit('disconnect')`: the audit of a disconnect with a reason, then the end of the
console session of the device. -/
def emitDisconnect (hub : Hub) (deviceId conn : Nat) (info : Option (String × Nat)) : Hub :=
  let audited := { hub with
    disconnects := conn :: hub.disconnects
    audits := (info.map fun (reason, code) => (⟨conn, deviceId, code, reason⟩ : DisconnectAudit)).toList ++ hub.audits }
  audited.closeByDevice deviceId

def setAgent (hub : Hub) (conn : Nat) (set : AgentConn → AgentConn) : Hub :=
  { hub with agent := Function.update hub.agent conn ((hub.agent conn).map set) }

/-- `conn.close` -/
def closeConn (hub : Hub) (conn : Nat) : Hub :=
  match hub.agent conn with
  | some c => hub.closeSocket c.socket
  | none => hub

/-- The previous connection of the device gives way. -/
def supersede (hub : Hub) (deviceId prev : Nat) : Hub :=
  let marked := hub.setAgent prev fun c => { c with auditDisconnectEmitted := true }
  (marked.emitDisconnect deviceId prev (some ("superseded", WS_CLOSE.SUPERSEDED))).closeConn prev

def register (hub : Hub) (deviceId conn : Nat) : Hub :=
  let alone := match hub.conns[deviceId]? with
    | some prev => if prev = conn then hub else hub.supersede deviceId prev
    | none => hub
  { alone with conns := alone.conns.put deviceId (some conn), connects := conn :: alone.connects }

def unregister (hub : Hub) (deviceId conn : Nat) : Hub :=
  if hub.conns[deviceId]? = some conn then
    { hub with conns := hub.conns.put deviceId none }.emitDisconnect deviceId conn none
  else hub

/-- A connection is evicted once; `revokedReason` remembers why. -/
def evict (hub : Hub) (conn : Nat) (reason : String) : Hub :=
  match hub.agent conn with
  | none => hub
  | some c =>
    if c.revokedReason.isSome then hub
    else
      let revoked := hub.setAgent conn fun c => { c with revokedReason := some reason }
      let gone := if revoked.conns[c.deviceId]? = some conn then
          (({ revoked with conns := revoked.conns.put c.deviceId none }.setAgent conn fun c =>
            { c with auditDisconnectEmitted := true }).emitDisconnect c.deviceId conn
              (some (reason, WS_CLOSE.AUTH_FAIL)))
        else revoked
      gone.closeSocket c.socket

def evictTokens (hub : Hub) (tokenIds : List Nat) (reason : String) : Hub :=
  hub.conns.toList.foldl (fun hub e =>
    if (hub.agent e.2).any fun c => tokenIds.contains c.tokenId then hub.evict e.2 reason else hub) hub

def evictDevice (hub : Hub) (deviceId : Nat) (reason : String) : Hub :=
  match hub.conns[deviceId]? with
  | some conn => hub.evict conn reason
  | none => hub

/-- The listener of the close event of an agent's socket. -/
def onClose (hub : Hub) (conn code : Nat) : Hub :=
  match hub.agent conn with
  | none => hub
  | some c =>
    let gone := hub.unregister c.deviceId conn
    if c.auditDisconnectEmitted then gone
    else { gone with audits := ⟨conn, c.deviceId, code, wsReasonFromCode code⟩ :: gone.audits }

def agentClosed (hub : Hub) (socket code : Nat) : Hub :=
  match hub.agentListener socket with
  | some conn => hub.onClose conn code
  | none => hub

def browserClosed (hub : Hub) (socket : Nat) : Hub :=
  match hub.browserListener socket with
  | some sessionId => hub.closeSession sessionId
  | none => hub

/-- The close event of a socket, with the listeners that it has by then. -/
def socketClosed (hub : Hub) (socket code : Nat) : Hub :=
  ({ hub with ready := Function.update hub.ready socket (some .closed) }.agentClosed socket code).browserClosed socket

end Hub

end Opale.Remote
