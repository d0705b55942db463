import Opale.Effects.Threads
import Opale.Remote.Hub

namespace Opale.Remote

/-- The row that `authToken` reads. -/
structure WsToken where
  id : Nat
  deviceId : Option Nat
  deriving DecidableEq

/-- What a nonce stands for. -/
structure Grant where
  deviceId : Nat
  takeoverOf : Option Nat
  deriving DecidableEq

/-- What the handler of a console does up to its first await: it has failed, or it waits
for the session that it takes over, or for the INSERT of its own. -/
inductive Opening where
  | refused
  | taking (grant : Grant) (agentConn : Nat)
  | creating (grant : Grant) (agentConn sessionId : Nat)
  deriving DecidableEq

/-- The stretches of code that run between two awaits, and the answers awaited: of the
database (none when it throws), of the nonce store and of the clock. -/
inductive HubOp where
  | upgrade
  | authToken
  | deviceHostname (deviceId : Nat)
  | connect (socket tokenId deviceId : Nat) (hostname : String)
  | recheckToken (tokenId deviceId : Nat)
  | evictOpen (conn : Nat) (reason : String)
  | evictTokens (tokenIds : List Nat) (reason : String)
  | evictDevice (deviceId : Nat) (reason : String)
  | closeSocket (socket : Nat)
  | socketClosed (socket code : Nat)
  | pongMissing (conn : Nat)
  | database
  | open_ (socket deviceId : Nat)
  | create (socket : Nat) (grant : Grant) (agentConn : Nat)
  | insertFailed (socket deviceId : Nat)
  | enroll (sessionId deviceId agentConn socket : Nat)
  | attach (sessionId deviceId agentConn socket : Nat)
  | closeSession (sessionId : Nat)
  deriving DecidableEq

abbrev HubOp.Res : HubOp → Type
  | .upgrade => Nat
  | .authToken => Option (Option WsToken)
  | .deviceHostname _ => Option (Option String)
  | .recheckToken .. => Option (Option String)
  | .connect .. => Option Nat
  | .pongMissing _ | .database => Bool
  | .open_ .. | .create .. => Opening
  | .evictOpen .. | .evictTokens .. | .evictDevice .. | .closeSocket _ | .socketClosed .. | .insertFailed ..
  | .enroll .. | .attach .. | .closeSession _ => Unit

namespace Hub

/-- The agent of a socket that is still open is registered. -/
def connect (hub : Hub) (socket tokenId deviceId : Nat) (hostname : String) (conn : Nat) : Option Nat × Hub :=
  if hub.ready socket = some .open_ then
    let made := { hub with
      agent := Function.update hub.agent conn (some ⟨socket, deviceId, tokenId, hostname, none, false⟩) }
    let registered := made.register deviceId conn
    (some conn, { registered with agentListener := Function.update registered.agentListener socket (some conn) })
  else (none, hub)

/-- The end of `recheckToken`, for a token that is not valid any more. -/
def evictOpen (hub : Hub) (conn : Nat) (reason : String) : Hub :=
  if (hub.agent conn).any fun c => hub.ready c.socket = some .open_ then hub.evict conn reason else hub

/-- `create` up to its INSERT, by the run `t`. -/
def create (hub : Hub) (t socket : Nat) (grant : Grant) (agentConn sessionId : Nat) : Opening × Hub :=
  if (hub.byDevice grant.deviceId).isSome then (.refused, hub.closeSocket socket)
  else (.creating grant agentConn sessionId,
    { hub with
      issued := Function.update hub.issued sessionId (some t)
      creating := Function.update hub.creating grant.deviceId (some t) })

/-- From the nonce to the first await. -/
def open_ (hub : Hub) (t socket deviceId : Nat) (grant : Option Grant) (console : Bool) (sessionId : Nat) :
    Opening × Hub :=
  match grant with
  | none => (.refused, hub.closeSocket socket)
  | some grant =>
    if grant.deviceId ≠ deviceId then (.refused, hub.closeSocket socket)
    else match hub.conns[grant.deviceId]? with
      | none => (.refused, hub.closeSocket socket)
      | some agentConn =>
        if !console then (.refused, hub.closeSocket socket)
        else match grant.takeoverOf with
          | some taken => (.taking grant agentConn, hub.closeSession taken)
          | none => hub.create t socket grant agentConn sessionId

/-- The end of `create`. -/
def enroll (hub : Hub) (t sessionId deviceId agentConn socket : Nat) : Hub :=
  { hub with
    sessions := Function.update hub.sessions sessionId (some ⟨deviceId, agentConn, socket, t⟩)
    byDevice := Function.update hub.byDevice deviceId (some sessionId)
    creating := Function.update hub.creating deviceId none }

/-- What the route does with its new session: the agent that it was opened for has to be
the registered one still. -/
def attach (hub : Hub) (sessionId deviceId agentConn socket : Nat) : Hub :=
  if hub.conns[deviceId]? ≠ some agentConn then hub.closeSession sessionId
  else { hub with browserListener := Function.update hub.browserListener socket (some sessionId) }

end Hub

/-- What the operation of the run `t` may answer, and what it makes of the hub. Sockets,
connection objects and sessions are new each time. -/
def hubExec (t : Nat) : (o : HubOp) → Hub → o.Res → Hub → Prop
  | .upgrade, hub, socket, hub₁ =>
    hub.ready socket = none ∧ hub₁ = { hub with
      ready := Function.update hub.ready socket (some .open_)
      owner := Function.update hub.owner socket (some t) }
  | .authToken, hub, _, hub₁ | .deviceHostname _, hub, _, hub₁ | .recheckToken .., hub, _, hub₁
  | .pongMissing _, hub, _, hub₁ | .database, hub, _, hub₁ => hub₁ = hub
  | .connect socket tokenId deviceId hostname, hub, answer, hub₁ =>
    ∃ conn, hub.agent conn = none ∧ (answer, hub₁) = hub.connect socket tokenId deviceId hostname conn
  | .evictOpen conn reason, hub, _, hub₁ => hub₁ = hub.evictOpen conn reason
  | .evictTokens tokenIds reason, hub, _, hub₁ => hub₁ = hub.evictTokens tokenIds reason
  | .evictDevice deviceId reason, hub, _, hub₁ => hub₁ = hub.evictDevice deviceId reason
  | .closeSocket socket, hub, _, hub₁ => hub₁ = hub.closeSocket socket
  | .socketClosed socket code, hub, _, hub₁ =>
    (hub.ready socket = some .open_ ∨ hub.ready socket = some .closing) ∧ hub₁ = hub.socketClosed socket code
  | .open_ socket deviceId, hub, answer, hub₁ => ∃ grant console sessionId, hub.issued sessionId = none ∧
    (answer, hub₁) = hub.open_ t socket deviceId grant console sessionId
  | .create socket grant agentConn, hub, answer, hub₁ => ∃ sessionId, hub.issued sessionId = none ∧
    (answer, hub₁) = hub.create t socket grant agentConn sessionId
  | .insertFailed socket deviceId, hub, _, hub₁ =>
    hub₁ = { hub with creating := Function.update hub.creating deviceId none }.closeSocket socket
  | .enroll sessionId deviceId agentConn socket, hub, _, hub₁ =>
    hub₁ = hub.enroll t sessionId deviceId agentConn socket
  | .attach sessionId deviceId agentConn socket, hub, _, hub₁ => hub₁ = hub.attach sessionId deviceId agentConn socket
  | .closeSession sessionId, hub, _, hub₁ => hub₁ = hub.closeSession sessionId

abbrev Handler := Program HubOp.Res

namespace Handler

abbrev perform (o : HubOp) : Handler o.Res := Program.perform o

/-- The state of the token is read again; its connection is evicted when it is no longer
valid. -/
def recheckToken (conn tokenId deviceId : Nat) : Handler Unit := do
  match ← perform (.recheckToken tokenId deviceId) with
  | some (some reason) => perform (.evictOpen conn reason)
  | _ => return ()

/-- GET /api/agent/ws -/
def agentRoute : Handler Unit := do
  let socket ← perform .upgrade
  match ← perform .authToken with
  | none => return ()
  | some token =>
    match token.bind fun token => token.deviceId.map fun deviceId => (token.id, deviceId) with
    | none => perform (.closeSocket socket)
    | some (tokenId, deviceId) =>
      match ← perform (.deviceHostname deviceId) with
      | none => return ()
      | some none => perform (.closeSocket socket)
      | some (some hostname) =>
        match ← perform (.connect socket tokenId deviceId hostname) with
        | some conn => recheckToken conn tokenId deviceId
        | none => return ()

/-- One tick of the interval of a connection. -/
def heartbeat (socket conn tokenId deviceId : Nat) : Handler Unit := do
  if ← perform (.pongMissing conn) then perform (.closeSocket socket)
  else recheckToken conn tokenId deviceId

/-- A route that invalidates tokens: its UPDATE, then the evictions. -/
def revokeTokens (tokenIds : List Nat) (reason : String) : Handler Unit := do
  if ← perform .database then perform (.evictTokens tokenIds reason) else return ()

def deleteDevice (deviceId : Nat) (reason : String) : Handler Unit := do
  if ← perform .database then perform (.evictDevice deviceId reason) else return ()

/-- From the INSERT of the session on. -/
def createSession (socket : Nat) (grant : Grant) (agentConn sessionId : Nat) : Handler Unit := do
  if ← perform .database then
    perform (.enroll sessionId grant.deviceId agentConn socket)
    perform (.attach sessionId grant.deviceId agentConn socket)
  else perform (.insertFailed socket grant.deviceId)

/-- GET /api/console/:deviceId -/
def consoleRoute (deviceId : Nat) : Handler Unit := do
  let socket ← perform .upgrade
  match ← perform (.open_ socket deviceId) with
  | .refused => return ()
  | .creating grant agentConn sessionId => createSession socket grant agentConn sessionId
  | .taking grant agentConn =>
    let _ ← perform .database
    match ← perform (.create socket grant agentConn) with
    | .creating grant agentConn sessionId => createSession socket grant agentConn sessionId
    | _ => return ()

end Handler

open Handler

/-- The handlers of the server: its two WebSocket routes, what may evict a connection, the
sockets that are closed by either side, and the frames that end a session. -/
inductive Entry : Handler Unit → Prop
  | agent : Entry agentRoute
  | heartbeat {socket conn tokenId deviceId} : Entry (heartbeat socket conn tokenId deviceId)
  | revokeTokens {tokenIds reason} : Entry (revokeTokens tokenIds reason)
  | deleteDevice {deviceId reason} : Entry (deleteDevice deviceId reason)
  | console {deviceId} : Entry (consoleRoute deviceId)
  | closeSocket {socket} : Entry (perform (.closeSocket socket))
  | socketClosed {socket code} : Entry (perform (.socketClosed socket code))
  | closeSession {sessionId} : Entry (perform (.closeSession sessionId))

/-- Handlers take turns at their awaits; one whose await never ends stays behind. -/
def server : Threads HubOp.Res Hub where
  exec := hubExec
  env _ _ := False
  entry := Entry
  drop t hub := { hub with hung := t :: hub.hung }

end Opale.Remote
