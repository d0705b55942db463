import Opale.Remote.Connections

namespace Opale.Remote

open Sql

variable {hub hub₁ hub₂ : Hub} {t u deviceId socket sessionId : Nat} {s : ConsoleSession}

/-- A session whose ends are looked after: its browser socket, which has not closed, has its
close listener, and its agent is the registered one. -/
structure Settled (hub : Hub) (sessionId : Nat) (s : ConsoleSession) : Prop where
  listener : hub.browserListener s.browserSocket = some sessionId
  alive : hub.ready s.browserSocket ≠ some .closed
  agent : hub.conns[s.deviceId]? = some s.agentConn

/-- The two maps of the sessions name each other, and nothing is registered for a device that
an opening waits to register a session for. -/
structure Paired (hub : Hub) : Prop where
  named : ∀ sessionId s, hub.sessions sessionId = some s → hub.byDevice s.deviceId = some sessionId
  held : ∀ deviceId sessionId, hub.byDevice deviceId = some sessionId →
    ∃ s, hub.sessions sessionId = some s ∧ s.deviceId = deviceId
  waits : ∀ deviceId t, hub.creating deviceId = some t → hub.byDevice deviceId = none
  made : ∀ sessionId s, hub.sessions sessionId = some s →
    hub.issued sessionId = some s.handler ∧ hub.owner s.browserSocket = some s.handler
  opened : ∀ socket t, hub.owner socket = some t → hub.ready socket ≠ none

theorem Paired.empty : Paired Hub.empty where
  named _ _ found := by cases found
  held _ _ found := by cases found
  waits _ _ found := by cases found
  made _ _ found := by cases found
  opened _ _ found := by cases found

/-- The hub moves on without a new session: those that stay, stay settled. -/
structure Calm (hub hub₁ : Hub) : Prop where
  paired : Paired hub → Paired hub₁
  sessions : ∀ sessionId s, hub₁.sessions sessionId = some s → hub.sessions sessionId = some s
  settled : Paired hub → ∀ sessionId s, hub₁.sessions sessionId = some s → Settled hub sessionId s →
    Settled hub₁ sessionId s
  browserListener : hub₁.browserListener = hub.browserListener
  owner : hub₁.owner = hub.owner
  issued : hub₁.issued = hub.issued
  creating : hub₁.creating = hub.creating
  hung : hub₁.hung = hub.hung

theorem Calm.refl (hub : Hub) : Calm hub hub :=
  ⟨id, fun _ _ found => found, fun _ _ _ _ settled => settled, rfl, rfl, rfl, rfl, rfl⟩

theorem Calm.trans (first : Calm hub hub₁) (second : Calm hub₁ hub₂) : Calm hub hub₂ where
  paired paired := second.paired (first.paired paired)
  sessions sessionId s found := first.sessions sessionId s (second.sessions sessionId s found)
  settled paired sessionId s found settled :=
    second.settled (first.paired paired) sessionId s found
      (first.settled paired sessionId s (second.sessions sessionId s found) settled)
  browserListener := second.browserListener.trans first.browserListener
  owner := second.owner.trans first.owner
  issued := second.issued.trans first.issued
  creating := second.creating.trans first.creating
  hung := second.hung.trans first.hung

/-- The sockets have moved on. -/
theorem calm_ready {ready : Nat → Option ReadyState} (opened : ∀ socket, hub.ready socket ≠ none → ready socket ≠ none)
    (alive : ∀ sessionId s, hub.sessions sessionId = some s → Settled hub sessionId s →
      ready s.browserSocket ≠ some .closed) : Calm hub { hub with ready := ready } where
  paired paired :=
    ⟨paired.named, paired.held, paired.waits, paired.made, fun socket t own => opened socket (paired.opened socket t own)⟩
  sessions _ _ found := found
  settled _ sessionId s found settled := ⟨settled.listener, alive sessionId s found settled, settled.agent⟩
  browserListener := rfl
  owner := rfl
  issued := rfl
  creating := rfl
  hung := rfl

theorem calm_closeSocket (hub : Hub) (socket : Nat) : Calm hub (hub.closeSocket socket) := by
  unfold Hub.closeSocket
  split
  case isFalse => exact .refl hub
  case isTrue open_ =>
    refine calm_ready (fun other before => ?_) fun sessionId s _ settled => ?_
    · by_cases same : other = socket
      · rw [same, Function.update_self]
        exact nofun
      · rw [Function.update_of_ne same]
        exact before
    · by_cases same : s.browserSocket = socket
      · rw [same, Function.update_self]
        exact nofun
      · rw [Function.update_of_ne same]
        exact settled.alive

theorem calm_closeConn (hub : Hub) (conn : Nat) : Calm hub (hub.closeConn conn) := by
  unfold Hub.closeConn
  split
  · exact calm_closeSocket hub _
  · exact .refl hub

theorem closeSocket_sessions (hub : Hub) (socket : Nat) : (hub.closeSocket socket).sessions = hub.sessions := by
  unfold Hub.closeSocket
  split
  · rfl
  · rfl

/-- The session has gone, and the others are the same. -/
theorem closeSession_sessions (hub : Hub) (sessionId : Nat) :
    (hub.closeSession sessionId).sessions = Function.update hub.sessions sessionId none := by
  unfold Hub.closeSession
  split
  case h_1 gone =>
    rw [← gone, Function.update_eq_self]
  case h_2 s found => exact closeSocket_sessions _ _

theorem calm_closeSession (hub : Hub) (sessionId : Nat) : Calm hub (hub.closeSession sessionId) := by
  unfold Hub.closeSession
  split
  case h_1 => exact .refl hub
  case h_2 s found =>
    dsimp only
    refine Calm.trans ?_ (calm_closeSocket _ _)
    have stays : ∀ other s', Function.update hub.sessions sessionId none other = some s' →
        other ≠ sessionId ∧ hub.sessions other = some s' := by
      intro other s' still
      by_cases same : other = sessionId
      · rw [same, Function.update_self] at still
        cases still
      · rw [Function.update_of_ne same] at still
        exact ⟨same, still⟩
    refine ⟨fun paired => ?_, fun other s' still => (stays other s' still).2, fun _ other s' still settled => ?_,
      rfl, rfl, rfl, rfl, rfl⟩
    case refine_2 => exact ⟨settled.listener, settled.alive, settled.agent⟩
    have mine := paired.named sessionId s found
    rw [if_pos mine]
    constructor
    case named =>
      intro other s' still
      obtain ⟨apart, before⟩ := stays other s' still
      have named := paired.named other s' before
      change Function.update hub.byDevice s.deviceId none s'.deviceId = some other
      rw [Function.update_of_ne]
      · exact named
      · intro same
        rw [same, mine] at named
        exact apart (Option.some.inj named).symm
    case held =>
      intro deviceId other named
      change Function.update hub.byDevice s.deviceId none deviceId = some other at named
      by_cases same : deviceId = s.deviceId
      · rw [same, Function.update_self] at named
        cases named
      · rw [Function.update_of_ne same] at named
        obtain ⟨s', before, own⟩ := paired.held deviceId other named
        refine ⟨s', ?_, own⟩
        change Function.update hub.sessions sessionId none other = some s'
        rw [Function.update_of_ne]
        · exact before
        · rintro rfl
          cases found.symm.trans before
          exact same own.symm
    case waits =>
      intro deviceId t waiting
      change Function.update hub.byDevice s.deviceId none deviceId = none
      by_cases same : deviceId = s.deviceId
      · rw [same, Function.update_self]
      · rw [Function.update_of_ne same]
        exact paired.waits deviceId t waiting
    case made => exact fun other s' still => paired.made other s' (stays other s' still).2
    case opened => exact paired.opened

theorem calm_closeByDevice (hub : Hub) (deviceId : Nat) : Calm hub (hub.closeByDevice deviceId) := by
  unfold Hub.closeByDevice
  split
  · exact calm_closeSession hub _
  · exact .refl hub

/-- No session of the device is left. -/
theorem closeByDevice_gone (paired : Paired hub) (found : (hub.closeByDevice deviceId).sessions sessionId = some s) :
    s.deviceId ≠ deviceId := by
  rintro rfl
  have before := (calm_closeByDevice hub s.deviceId).sessions sessionId s found
  have named := paired.named sessionId s before
  simp only [Hub.closeByDevice, named, closeSession_sessions, Function.update_self] at found
  cases found

/-- Two hubs that differ in nothing that the consoles depend on. -/
structure Beside (hub hub₁ : Hub) : Prop where
  ready : hub₁.ready = hub.ready
  conns : hub₁.conns = hub.conns
  sessions : hub₁.sessions = hub.sessions
  byDevice : hub₁.byDevice = hub.byDevice
  browserListener : hub₁.browserListener = hub.browserListener
  owner : hub₁.owner = hub.owner
  issued : hub₁.issued = hub.issued
  creating : hub₁.creating = hub.creating
  hung : hub₁.hung = hub.hung

theorem Beside.calm (beside : Beside hub hub₁) : Calm hub hub₁ := by
  obtain ⟨ready, conns, sessions, byDevice, browserListener, owner, issued, creating, hung⟩ := beside
  refine ⟨fun paired => ?_, ?_, fun _ sessionId s _ settled => ?_, browserListener, owner, issued, creating, hung⟩
  · constructor
    · rw [sessions, byDevice]
      exact paired.named
    · rw [sessions, byDevice]
      exact paired.held
    · rw [creating, byDevice]
      exact paired.waits
    · rw [sessions, issued, owner]
      exact paired.made
    · rw [owner, ready]
      exact paired.opened
  · rw [sessions]
    exact fun _ _ found => found
  · constructor
    · rw [browserListener]
      exact settled.listener
    · rw [ready]
      exact settled.alive
    · rw [conns]
      exact settled.agent

/-- The registry of the agents changes where no settled session depends on it. -/
theorem Calm.place (calm : Calm hub hub₁) {table : Table Nat}
    (same : Paired hub → ∀ sessionId s, hub₁.sessions sessionId = some s → Settled hub₁ sessionId s →
      table[s.deviceId]? = hub₁.conns[s.deviceId]?) : Calm hub { hub₁ with conns := table } where
  paired paired := by
    have paired := calm.paired paired
    exact ⟨paired.named, paired.held, paired.waits, paired.made, paired.opened⟩
  sessions := calm.sessions
  settled paired sessionId s found settled := by
    have settled := calm.settled paired sessionId s found settled
    exact ⟨settled.listener, settled.alive, (same paired sessionId s found settled).trans settled.agent⟩
  browserListener := calm.browserListener
  owner := calm.owner
  issued := calm.issued
  creating := calm.creating
  hung := calm.hung

theorem closeByDevice_place (hub : Hub) (table : Table Nat) (deviceId : Nat) :
    { hub with conns := table }.closeByDevice deviceId = { hub.closeByDevice deviceId with conns := table } := by
  unfold Hub.closeByDevice
  dsimp only
  split
  case h_2 => rfl
  case h_1 sessionId _ =>
    unfold Hub.closeSession
    dsimp only
    split
    case h_1 => rfl
    case h_2 s _ =>
      unfold Hub.closeSocket
      dsimp only
      split
      · rfl
      · rfl

/-- The connection of a device goes, and takes the session of the device with it. -/
theorem calm_leave {hub₀ : Hub} (beside : Beside hub { hub₀ with conns := hub.conns })
    (apart : ∀ other : Nat, other ≠ deviceId → hub₀.conns[other]? = hub.conns[other]?) :
    Calm hub (hub₀.closeByDevice deviceId) := by
  have closed := calm_closeByDevice { hub₀ with conns := hub.conns } deviceId
  have place := closeByDevice_place { hub₀ with conns := hub.conns } hub₀.conns deviceId
  have kept : ({ hub₀ with conns := hub.conns }.closeByDevice deviceId).conns = hub.conns :=
    (aside_closeByDevice _ deviceId).conns
  change hub₀.closeByDevice deviceId = _ at place
  rw [place]
  refine (beside.calm.trans closed).place fun paired sessionId s found _ => ?_
  rw [kept]
  exact apart s.deviceId (closeByDevice_gone (beside.calm.paired paired) found)

theorem calm_setAgent (hub : Hub) (conn : Nat) (set : AgentConn → AgentConn) : Calm hub (hub.setAgent conn set) :=
  Beside.calm ⟨rfl, rfl, rfl, rfl, rfl, rfl, rfl, rfl, rfl⟩

theorem calm_supersede (hub : Hub) (deviceId prev : Nat) : Calm hub (hub.supersede deviceId prev) := by
  unfold Hub.supersede
  refine Calm.trans ?_ (calm_closeConn _ prev)
  refine Calm.trans ?_ (calm_closeByDevice _ deviceId)
  exact Beside.calm ⟨rfl, rfl, rfl, rfl, rfl, rfl, rfl, rfl, rfl⟩

theorem supersede_gone {prev : Nat} (paired : Paired hub)
    (found : (hub.supersede deviceId prev).sessions sessionId = some s) : s.deviceId ≠ deviceId := by
  unfold Hub.supersede at found
  have found := (calm_closeConn _ prev).sessions sessionId s found
  refine closeByDevice_gone ?_ found
  exact ⟨paired.named, paired.held, paired.waits, paired.made, paired.opened⟩

/-- A new connection of a device ends the session that went through the old one. -/
theorem calm_register (hub : Hub) (deviceId conn : Nat) : Calm hub (hub.register deviceId conn) := by
  have others : ∀ table : Table Nat, ∀ d : Nat, d ≠ deviceId → (table.put deviceId (some conn))[d]? = table[d]? :=
    fun table d apart => Table.getElem?_put_of_ne table apart _
  have placed {alone : Hub} (calm : Calm hub { alone with conns := alone.conns.put deviceId (some conn) }) :
      Calm hub { alone with conns := alone.conns.put deviceId (some conn), connects := conn :: alone.connects } :=
    calm.trans (Beside.calm ⟨rfl, rfl, rfl, rfl, rfl, rfl, rfl, rfl, rfl⟩)
  unfold Hub.register
  cases held : hub.conns[deviceId]? with
  | none =>
    refine placed ((Calm.refl hub).place fun _ sessionId s _ settled => others _ _ ?_)
    rintro rfl
    cases held.symm.trans settled.agent
  | some prev =>
    dsimp only
    split
    case isTrue same =>
      subst same
      refine placed ((Calm.refl hub).place fun _ sessionId s _ settled => ?_)
      by_cases here : s.deviceId = deviceId
      · rw [here, held]
        exact Table.getElem?_put_self _ _ _
      · exact others _ _ here
    case isFalse apart =>
      refine placed ((calm_supersede hub deviceId prev).place fun paired sessionId s found _ => others _ _ ?_)
      exact supersede_gone paired found

theorem calm_connect (hub : Hub) (socket tokenId deviceId : Nat) (hostname : String) (conn : Nat) :
    Calm hub (hub.connect socket tokenId deviceId hostname conn).2 := by
  unfold Hub.connect
  split
  case isFalse => exact .refl hub
  case isTrue =>
    have made : Calm hub { hub with
        agent := Function.update hub.agent conn (some ⟨socket, deviceId, tokenId, hostname, none, false⟩) } :=
      Beside.calm ⟨rfl, rfl, rfl, rfl, rfl, rfl, rfl, rfl, rfl⟩
    have registered := made.trans (calm_register _ deviceId conn)
    exact registered.trans (Beside.calm ⟨rfl, rfl, rfl, rfl, rfl, rfl, rfl, rfl, rfl⟩)

theorem calm_unregister (hub : Hub) (deviceId conn : Nat) : Calm hub (hub.unregister deviceId conn) := by
  unfold Hub.unregister
  split
  case isFalse => exact .refl hub
  case isTrue =>
    refine calm_leave ⟨rfl, rfl, rfl, rfl, rfl, rfl, rfl, rfl, rfl⟩ fun other apart => ?_
    exact Table.getElem?_put_of_ne _ apart _

theorem calm_evict (hub : Hub) (conn : Nat) (reason : String) : Calm hub (hub.evict conn reason) := by
  unfold Hub.evict
  split
  case h_1 => exact .refl hub
  case h_2 c _ =>
    split
    case isTrue => exact .refl hub
    case isFalse =>
      dsimp only
      refine Calm.trans ?_ (calm_closeSocket _ c.socket)
      split
      case isFalse => exact calm_setAgent hub conn _
      case isTrue =>
        refine (calm_setAgent hub conn fun c => { c with revokedReason := some reason }).trans ?_
        refine calm_leave ⟨rfl, rfl, rfl, rfl, rfl, rfl, rfl, rfl, rfl⟩ fun other apart => ?_
        exact Table.getElem?_put_of_ne _ apart _

theorem calm_evictTokens (hub : Hub) (tokenIds : List Nat) (reason : String) :
    Calm hub (hub.evictTokens tokenIds reason) := by
  unfold Hub.evictTokens
  generalize hub.conns.toList = entries
  induction entries generalizing hub with
  | nil => exact .refl hub
  | cons e rest ih =>
    rw [List.foldl_cons]
    split
    · exact (calm_evict hub e.2 reason).trans (ih _)
    · exact ih hub

theorem calm_onClose (hub : Hub) (conn code : Nat) : Calm hub (hub.onClose conn code) := by
  unfold Hub.onClose
  split
  case h_1 => exact .refl hub
  case h_2 c _ =>
    dsimp only
    split
    · exact calm_unregister hub c.deviceId conn
    · exact (calm_unregister hub c.deviceId conn).trans (Beside.calm ⟨rfl, rfl, rfl, rfl, rfl, rfl, rfl, rfl, rfl⟩)

theorem calm_agentClosed (hub : Hub) (socket code : Nat) : Calm hub (hub.agentClosed socket code) := by
  unfold Hub.agentClosed
  split
  · exact calm_onClose hub _ code
  · exact .refl hub

theorem calm_browserClosed (hub : Hub) (socket : Nat) : Calm hub (hub.browserClosed socket) := by
  unfold Hub.browserClosed
  split
  · exact calm_closeSession hub _
  · exact .refl hub

/-- A session with its close listener ends with its browser socket. -/
theorem calm_socketClosed (hub : Hub) (socket code : Nat) : Calm hub (hub.socketClosed socket code) := by
  unfold Hub.socketClosed
  generalize closed_ : { hub with ready := Function.update hub.ready socket (some .closed) } = closed
  have agent := calm_agentClosed closed socket code
  have calm := agent.trans (calm_browserClosed _ socket)
  have opened : Paired hub → Paired closed := by
    rintro paired
    subst closed_
    refine ⟨paired.named, paired.held, paired.waits, paired.made, fun other t own => ?_⟩
    change Function.update hub.ready socket (some ReadyState.closed) other ≠ none
    by_cases here : other = socket
    · rw [here, Function.update_self]
      exact nofun
    · rw [Function.update_of_ne here]
      exact paired.opened other t own
  have settled : ∀ sessionId s, ((closed.agentClosed socket code).browserClosed socket).sessions sessionId = some s →
      Settled hub sessionId s → Settled closed sessionId s := by
    intro sessionId s found settled
    have elsewhere : s.browserSocket ≠ socket := by
      intro here
      have listener : (closed.agentClosed socket code).browserListener socket = some sessionId := by
        rw [agent.browserListener, ← closed_, ← here]
        exact settled.listener
      simp only [Hub.browserClosed, listener, closeSession_sessions, Function.update_self] at found
      cases found
    subst closed_
    refine ⟨settled.listener, ?_, settled.agent⟩
    change Function.update hub.ready socket (some ReadyState.closed) s.browserSocket ≠ _
    rw [Function.update_of_ne elsewhere]
    exact settled.alive
  have same : closed.sessions = hub.sessions ∧ closed.browserListener = hub.browserListener ∧
      closed.owner = hub.owner ∧ closed.issued = hub.issued ∧ closed.creating = hub.creating ∧
      closed.hung = hub.hung := by
    subst closed_
    exact ⟨rfl, rfl, rfl, rfl, rfl, rfl⟩
  obtain ⟨sessions, browserListener, owner, issued, creating, hung⟩ := same
  exact {
    paired := fun paired => calm.paired (opened paired)
    sessions := fun sessionId s found => by
      rw [← sessions]
      exact calm.sessions sessionId s found
    settled := fun paired sessionId s found before =>
      calm.settled (opened paired) sessionId s found (settled sessionId s found before)
    browserListener := calm.browserListener.trans browserListener
    owner := calm.owner.trans owner
    issued := calm.issued.trans issued
    creating := calm.creating.trans creating
    hung := calm.hung.trans hung }

/-- What the run `t` accepts of the others: they leave alone what it has made, and a session
of it goes or stays as settled as it was. -/
structure Spares (t : Nat) (hub hub₁ : Hub) : Prop where
  owner : ∀ socket, hub.owner socket = some t → hub₁.owner socket = some t
  issued : ∀ sessionId, hub.issued sessionId = some t → hub₁.issued sessionId = some t
  creating : ∀ deviceId, hub.creating deviceId = some t → hub₁.creating deviceId = some t
  own : ∀ sessionId s, hub₁.sessions sessionId = some s → s.handler = t → hub.sessions sessionId = some s
  settled : ∀ sessionId s, hub₁.sessions sessionId = some s → s.handler = t → Settled hub sessionId s →
    Settled hub₁ sessionId s
  hung : t ∈ hub.hung → t ∈ hub₁.hung

theorem Spares.refl (t : Nat) (hub : Hub) : Spares t hub hub :=
  ⟨fun _ h => h, fun _ h => h, fun _ h => h, fun _ _ h _ => h, fun _ _ _ _ h => h, id⟩

theorem Spares.trans (first : Spares t hub hub₁) (second : Spares t hub₁ hub₂) : Spares t hub hub₂ where
  owner socket own := second.owner socket (first.owner socket own)
  issued sessionId own := second.issued sessionId (first.issued sessionId own)
  creating deviceId own := second.creating deviceId (first.creating deviceId own)
  own sessionId s found mine := first.own sessionId s (second.own sessionId s found mine) mine
  settled sessionId s found mine settled :=
    second.settled sessionId s found mine
      (first.settled sessionId s (second.own sessionId s found mine) mine settled)
  hung h := second.hung (first.hung h)

theorem Calm.spares (calm : Calm hub hub₁) (paired : Paired hub) (t : Nat) : Spares t hub hub₁ where
  owner socket own := by rwa [calm.owner]
  issued sessionId own := by rwa [calm.issued]
  creating deviceId own := by rwa [calm.creating]
  own sessionId s found _ := calm.sessions sessionId s found
  settled sessionId s found _ settled := calm.settled paired sessionId s found settled
  hung h := by rwa [calm.hung]

/-- The operations that do not register a session. -/
def Quiet : HubOp → Prop
  | .open_ .. | .create .. | .insertFailed .. | .enroll .. | .attach .. => False
  | _ => True

theorem quiet_exec {o : HubOp} {answer : o.Res} (quiet : Quiet o) (run : hubExec t o hub answer hub₁)
    (paired : Paired hub) : Paired hub₁ ∧ ∀ u, Spares u hub hub₁ := by
  have calmly (calm : Calm hub hub₁) : Paired hub₁ ∧ ∀ u, Spares u hub hub₁ :=
    ⟨calm.paired paired, calm.spares paired⟩
  cases o with
  | open_ _ _ | create _ _ _ | insertFailed _ _ | enroll _ _ _ _ | attach _ _ _ _ => exact quiet.elim
  | authToken | deviceHostname _ | recheckToken _ _ | pongMissing _ | database =>
    cases run
    exact calmly (.refl hub)
  | connect socket tokenId deviceId hostname =>
    obtain ⟨conn, -, made⟩ := run
    cases congrArg Prod.snd made
    exact calmly (calm_connect hub socket tokenId deviceId hostname conn)
  | evictOpen conn reason =>
    cases run
    refine calmly ?_
    unfold Hub.evictOpen
    split
    · exact calm_evict hub conn reason
    · exact .refl hub
  | evictTokens tokenIds reason =>
    cases run
    exact calmly (calm_evictTokens hub tokenIds reason)
  | evictDevice deviceId reason =>
    cases run
    refine calmly ?_
    unfold Hub.evictDevice
    split
    · exact calm_evict hub _ reason
    · exact .refl hub
  | closeSocket socket =>
    cases run
    exact calmly (calm_closeSocket hub socket)
  | socketClosed socket code =>
    obtain ⟨-, rfl⟩ := run
    exact calmly (calm_socketClosed hub socket code)
  | closeSession sessionId =>
    cases run
    exact calmly (calm_closeSession hub sessionId)
  | upgrade =>
    obtain ⟨fresh, rfl⟩ := run
    have known : ∀ socket u, hub.owner socket = some u → socket ≠ answer := by
      rintro socket u own rfl
      exact paired.opened socket u own fresh
    have kept : ∀ socket u, hub.owner socket = some u → Function.update hub.owner answer (some t) socket = some u := by
      intro socket u own
      rw [Function.update_of_ne (known socket u own)]
      exact own
    constructor
    · refine ⟨paired.named, paired.held, paired.waits, fun sessionId s found => ?_, fun socket u own => ?_⟩
      · exact ⟨(paired.made sessionId s found).1, kept _ _ (paired.made sessionId s found).2⟩
      · change Function.update hub.ready answer (some ReadyState.open_) socket ≠ none
        change Function.update hub.owner answer (some t) socket = some u at own
        by_cases same : socket = answer
        · rw [same, Function.update_self]
          exact nofun
        · rw [Function.update_of_ne same]
          rw [Function.update_of_ne same] at own
          exact paired.opened socket u own
    · intro u
      refine ⟨fun socket own => kept socket u own, fun _ h => h, fun _ h => h, fun _ _ h _ => h, ?_, id⟩
      intro sessionId s found _ settled
      refine ⟨settled.listener, ?_, settled.agent⟩
      change Function.update hub.ready answer (some ReadyState.open_) s.browserSocket ≠ _
      rw [Function.update_of_ne (known _ _ (paired.made sessionId s found).2)]
      exact settled.alive

def Opening.Alone (hub : Hub) : Opening → Prop
  | .creating grant _ _ => hub.creating grant.deviceId = none
  | _ => True

/-- No other opening of the device waits for its INSERT when one passes the check of `create`. -/
def CheckedAlone : (o : HubOp) → Hub → o.Res → Prop
  | .open_ .., hub, answer | .create .., hub, answer => answer.Alone hub
  | _, _, _ => True

/-- The browser's socket has not closed when its close listener is registered. -/
def ListenedInTime : HubOp → Hub → Prop
  | .attach sessionId deviceId agentConn socket, hub => hub.sessions sessionId ≠ none →
    hub.conns[deviceId]? = some agentConn → hub.ready socket ≠ some .closed
  | _, _ => True

variable {strict : Prop}

/-- What a run leaves when it has ended: its sessions are settled. -/
def Idle (strict : Prop) (t : Nat) (hub : Hub) : Prop :=
  strict → t ∈ hub.hung ∨ ∀ sessionId s, hub.sessions sessionId = some s → s.handler = t → Settled hub sessionId s

theorem Idle.spared (idle : Idle strict t hub) (spares : Spares t hub hub₁) : Idle strict t hub₁ := by
  intro strictly
  rcases idle strictly with hung | settled
  · exact .inl (spares.hung hung)
  · refine .inr fun sessionId s found mine => ?_
    exact spares.settled sessionId s found mine (settled sessionId s (spares.own sessionId s found mine) mine)

/-- The consoles as a team: `strict` adds that the close listeners come in time. -/
def consoleTeam (strict : Prop) : Threads.Team HubOp.Res Hub where
  exec t o hub answer hub₁ := hubExec t o hub answer hub₁ ∧ CheckedAlone o hub answer ∧ (strict → ListenedInTime o hub)
  inv := Paired
  rely := Spares
  guarantee _ _ _ _ _ := True
  idle := Idle strict
  rely_refl := Spares.refl
  rely_trans _ _ _ _ := Spares.trans

/-- The run `t` holds a socket that no session uses. -/
structure Holds (strict : Prop) (t socket : Nat) (hub : Hub) : Prop where
  owner : hub.owner socket = some t
  unused : ∀ sessionId s, hub.sessions sessionId = some s → s.browserSocket ≠ socket
  idle : Idle strict t hub

/-- It has passed the check of `create`, and waits for its INSERT. -/
structure Opens (strict : Prop) (t socket deviceId sessionId : Nat) (hub : Hub) : Prop extends
    Holds strict t socket hub where
  creating : hub.creating deviceId = some t
  issued : hub.issued sessionId = some t
  absent : hub.sessions sessionId = none

/-- Its session is registered, if it has not been ended. -/
structure Enrolled (strict : Prop) (t sessionId deviceId agentConn socket : Nat) (hub : Hub) : Prop where
  owner : hub.owner socket = some t
  issued : hub.issued sessionId = some t
  unused : ∀ other s, hub.sessions other = some s → s.browserSocket = socket → other = sessionId
  mine : ∀ s, hub.sessions sessionId = some s → s = ⟨deviceId, agentConn, socket, t⟩
  others : strict → t ∈ hub.hung ∨ ∀ other s, hub.sessions other = some s → s.handler = t → other ≠ sessionId →
    Settled hub other s

theorem Holds.spared (holds : Holds strict t socket hub) (paired : Paired hub₁) (spares : Spares t hub hub₁) :
    Holds strict t socket hub₁ := by
  have owner := spares.owner socket holds.owner
  refine ⟨owner, fun sessionId s found same => ?_, holds.idle.spared spares⟩
  have made := (paired.made sessionId s found).2
  rw [same, owner] at made
  exact holds.unused sessionId s (spares.own sessionId s found (Option.some.inj made).symm) same

theorem Opens.spared (opens : Opens strict t socket deviceId sessionId hub) (paired : Paired hub₁)
    (spares : Spares t hub hub₁) : Opens strict t socket deviceId sessionId hub₁ := by
  have issued := spares.issued sessionId opens.issued
  refine ⟨opens.toHolds.spared paired spares, spares.creating deviceId opens.creating, issued, ?_⟩
  cases found : hub₁.sessions sessionId with
  | none => rfl
  | some s =>
    have made := (paired.made sessionId s found).1
    rw [issued] at made
    have before := spares.own sessionId s found (Option.some.inj made).symm
    rw [opens.absent] at before
    cases before

theorem Enrolled.spared {agentConn : Nat} (enrolled : Enrolled strict t sessionId deviceId agentConn socket hub)
    (paired : Paired hub₁) (spares : Spares t hub hub₁) : Enrolled strict t sessionId deviceId agentConn socket hub₁ := by
  have owner := spares.owner socket enrolled.owner
  have issued := spares.issued sessionId enrolled.issued
  refine ⟨owner, issued, fun other s found same => ?_, fun s found => ?_, fun strictly => ?_⟩
  · have made := (paired.made other s found).2
    rw [same, owner] at made
    exact enrolled.unused other s (spares.own other s found (Option.some.inj made).symm) same
  · have made := (paired.made sessionId s found).1
    rw [issued] at made
    exact enrolled.mine s (spares.own sessionId s found (Option.some.inj made).symm)
  · rcases enrolled.others strictly with hung | settled
    · exact .inl (spares.hung hung)
    · refine .inr fun other s found mine apart => ?_
      exact spares.settled other s found mine (settled other s (spares.own other s found mine) mine apart)

/-- Where a run stands after the first stretch of an opening. -/
def After (strict : Prop) (t socket : Nat) : Opening → Hub → Prop
  | .refused, hub => Idle strict t hub
  | .taking .., hub => Holds strict t socket hub
  | .creating grant _ sessionId, hub => Opens strict t socket grant.deviceId sessionId hub

theorem create_step {grant : Grant} {agentConn : Nat} {answer : Opening} (holds : Holds strict t socket hub)
    (paired : Paired hub) (fresh : hub.issued sessionId = none)
    (made : (answer, hub₁) = hub.create t socket grant agentConn sessionId) (alone : answer.Alone hub) :
    Paired hub₁ ∧ (∀ u, u ≠ t → Spares u hub hub₁) ∧ After strict t socket answer hub₁ := by
  have answered : answer = (hub.create t socket grant agentConn sessionId).1 := congrArg Prod.fst made
  have moved : hub₁ = (hub.create t socket grant agentConn sessionId).2 := congrArg Prod.snd made
  subst answered moved
  unfold Hub.create at alone ⊢
  split at alone
  case isTrue taken =>
    have calm := calm_closeSocket hub socket
    rw [if_pos taken]
    exact ⟨calm.paired paired, fun u _ => calm.spares paired u, holds.idle.spared (calm.spares paired t)⟩
  case isFalse none_ =>
    have free : hub.byDevice grant.deviceId = none := Option.not_isSome_iff_eq_none.mp none_
    have clear : hub.creating grant.deviceId = none := alone
    rw [if_neg none_]
    have issued : ∀ other u, hub.issued other = some u → Function.update hub.issued sessionId (some t) other = some u := by
      intro other u own
      rw [Function.update_of_ne]
      · exact own
      · rintro rfl
        rw [fresh] at own
        cases own
    have creating : ∀ d u, hub.creating d = some u →
        Function.update hub.creating grant.deviceId (some t) d = some u := by
      intro d u own
      rw [Function.update_of_ne]
      · exact own
      · rintro rfl
        rw [clear] at own
        cases own
    have spares : ∀ u, Spares u hub { hub with
        issued := Function.update hub.issued sessionId (some t)
        creating := Function.update hub.creating grant.deviceId (some t) } := fun u =>
      ⟨fun _ own => own, fun other own => issued other u own, fun d own => creating d u own, fun _ _ found _ => found,
        fun _ _ _ _ settled => ⟨settled.listener, settled.alive, settled.agent⟩, id⟩
    refine ⟨⟨paired.named, paired.held, fun d u waiting => ?_, fun other s found => ?_, paired.opened⟩,
      fun u _ => spares u, ⟨holds.owner, holds.unused, holds.idle.spared (spares t)⟩, ?_, ?_, ?_⟩
    · change Function.update hub.creating grant.deviceId (some t) d = some u at waiting
      by_cases same : d = grant.deviceId
      · rw [same]
        exact free
      · rw [Function.update_of_ne same] at waiting
        exact paired.waits d u waiting
    · exact ⟨issued other _ (paired.made other s found).1, (paired.made other s found).2⟩
    · exact Function.update_self _ _ _
    · exact Function.update_self _ _ _
    · change hub.sessions sessionId = none
      cases found : hub.sessions sessionId with
      | none => rfl
      | some s =>
        have made := (paired.made sessionId s found).1
        rw [fresh] at made
        cases made

theorem open_step {asked : Option Grant} {console : Bool} {answer : Opening} (holds : Holds strict t socket hub)
    (paired : Paired hub) (fresh : hub.issued sessionId = none)
    (made : (answer, hub₁) = hub.open_ t socket deviceId asked console sessionId) (alone : answer.Alone hub) :
    Paired hub₁ ∧ (∀ u, u ≠ t → Spares u hub hub₁) ∧ After strict t socket answer hub₁ := by
  obtain refused | ⟨grant, agentConn, taken, taking⟩ | ⟨grant, agentConn, creating⟩ :=
    open_cases hub t socket deviceId asked console sessionId
  · have calm := calm_closeSocket hub socket
    cases made.trans refused
    exact ⟨calm.paired paired, fun u _ => calm.spares paired u, holds.idle.spared (calm.spares paired t)⟩
  · have calm := calm_closeSession hub taken
    cases made.trans taking
    exact ⟨calm.paired paired, fun u _ => calm.spares paired u, holds.spared (calm.paired paired) (calm.spares paired t)⟩
  · exact create_step holds paired fresh (made.trans creating) alone

/-- The device of an opening has no session by then, so the two maps stay one. -/
theorem enroll_step {agentConn : Nat} (opens : Opens strict t socket deviceId sessionId hub) (paired : Paired hub) :
    Paired (hub.enroll t sessionId deviceId agentConn socket) ∧
    (∀ u, u ≠ t → Spares u hub (hub.enroll t sessionId deviceId agentConn socket)) ∧
    Enrolled strict t sessionId deviceId agentConn socket (hub.enroll t sessionId deviceId agentConn socket) := by
  have free := paired.waits deviceId t opens.creating
  have cases_ : ∀ other s, Function.update hub.sessions sessionId (some ⟨deviceId, agentConn, socket, t⟩) other = some s →
      other = sessionId ∧ s = ⟨deviceId, agentConn, socket, t⟩ ∨ other ≠ sessionId ∧ hub.sessions other = some s := by
    intro other s found
    by_cases same : other = sessionId
    · rw [same, Function.update_self] at found
      exact .inl ⟨same, (Option.some.inj found).symm⟩
    · rw [Function.update_of_ne same] at found
      exact .inr ⟨same, found⟩
  refine ⟨⟨fun other s found => ?_, fun d other named => ?_, fun d u waiting => ?_, fun other s found => ?_, paired.opened⟩,
    fun u apart => ⟨fun _ own => own, fun _ own => own, fun d own => ?_, fun other s found mine => ?_, ?_, id⟩,
    ⟨opens.owner, opens.issued, fun other s found same => ?_, fun s found => ?_, fun strictly => ?_⟩⟩
  · change Function.update hub.byDevice deviceId (some sessionId) s.deviceId = some other
    obtain ⟨rfl, rfl⟩ | ⟨_, before⟩ := cases_ other s found
    · exact Function.update_self _ _ _
    · have named := paired.named other s before
      rw [Function.update_of_ne]
      · exact named
      · intro same
        rw [same, free] at named
        cases named
  · change Function.update hub.byDevice deviceId (some sessionId) d = some other at named
    change ∃ s, Function.update hub.sessions sessionId (some ⟨deviceId, agentConn, socket, t⟩) other = some s ∧ _
    by_cases same : d = deviceId
    · rw [same, Function.update_self] at named
      cases named
      exact ⟨_, Function.update_self _ _ _, same.symm⟩
    · rw [Function.update_of_ne same] at named
      obtain ⟨s, found, own⟩ := paired.held d other named
      refine ⟨s, ?_, own⟩
      rw [Function.update_of_ne]
      · exact found
      · rintro rfl
        rw [opens.absent] at found
        cases found
  · change Function.update hub.creating deviceId none d = some u at waiting
    change Function.update hub.byDevice deviceId (some sessionId) d = none
    by_cases same : d = deviceId
    · rw [same, Function.update_self] at waiting
      cases waiting
    · rw [Function.update_of_ne same] at waiting ⊢
      exact paired.waits d u waiting
  · obtain ⟨rfl, rfl⟩ | ⟨_, before⟩ := cases_ other s found
    · exact ⟨opens.issued, opens.owner⟩
    · exact paired.made other s before
  · change Function.update hub.creating deviceId none d = some u
    rw [Function.update_of_ne]
    · exact own
    · rintro rfl
      rw [opens.creating] at own
      exact apart (Option.some.inj own).symm
  · obtain ⟨rfl, rfl⟩ | ⟨_, before⟩ := cases_ other s found
    · exact absurd mine.symm apart
    · exact before
  · exact fun _ _ _ _ settled => ⟨settled.listener, settled.alive, settled.agent⟩
  · obtain ⟨rfl, rfl⟩ | ⟨_, before⟩ := cases_ other s found
    · rfl
    · exact absurd same (opens.unused other s before)
  · obtain ⟨_, same⟩ | ⟨apart, _⟩ := cases_ sessionId s found
    · exact same
    · exact absurd rfl apart
  · rcases opens.idle strictly with hung | settled
    · exact .inl hung
    · refine .inr fun other s found mine apart => ?_
      obtain ⟨same, _⟩ | ⟨_, before⟩ := cases_ other s found
      · exact absurd same apart
      · have settled := settled other s before mine
        exact ⟨settled.listener, settled.alive, settled.agent⟩

/-- The close listener comes in time, or the session has ended. -/
theorem attach_step {agentConn : Nat} (enrolled : Enrolled strict t sessionId deviceId agentConn socket hub)
    (paired : Paired hub) (intime : strict → ListenedInTime (.attach sessionId deviceId agentConn socket) hub) :
    Paired (hub.attach sessionId deviceId agentConn socket) ∧
    (∀ u, u ≠ t → Spares u hub (hub.attach sessionId deviceId agentConn socket)) ∧
    Idle strict t (hub.attach sessionId deviceId agentConn socket) := by
  unfold Hub.attach
  split
  case isTrue =>
    have calm := calm_closeSession hub sessionId
    refine ⟨calm.paired paired, fun u _ => calm.spares paired u, fun strictly => ?_⟩
    rcases (enrolled.spared (calm.paired paired) (calm.spares paired t)).others strictly with hung | settled
    · exact .inl hung
    · refine .inr fun other s found mine => settled other s found mine ?_
      rintro rfl
      rw [closeSession_sessions, Function.update_self] at found
      cases found
  case isFalse still =>
    have agent : hub.conns[deviceId]? = some agentConn := not_not.mp still
    have elsewhere : ∀ other s, s.browserSocket ≠ socket → Settled hub other s →
        Settled { hub with browserListener := Function.update hub.browserListener socket (some sessionId) } other s := by
      intro other s apart settled
      refine ⟨?_, settled.alive, settled.agent⟩
      change Function.update hub.browserListener socket (some sessionId) s.browserSocket = some other
      rw [Function.update_of_ne apart]
      exact settled.listener
    refine ⟨⟨paired.named, paired.held, paired.waits, paired.made, paired.opened⟩,
      fun u apart => ⟨fun _ own => own, fun _ own => own, fun _ own => own, fun _ _ found _ => found, ?_, id⟩,
      fun strictly => ?_⟩
    · intro other s found mine settled
      refine elsewhere other s ?_ settled
      intro same
      have made := (paired.made other s found).2
      rw [same, enrolled.owner, mine] at made
      exact apart (Option.some.inj made).symm
    · rcases enrolled.others strictly with hung | settled
      · exact .inl hung
      · refine .inr fun other s found mine => ?_
        by_cases same : other = sessionId
        · subst same
          cases enrolled.mine s found
          refine ⟨Function.update_self _ _ _, ?_, agent⟩
          refine intime strictly ?_ agent
          change hub.sessions other = _ at found
          rw [found]
          exact nofun
        · exact elsewhere other s (fun here => same (enrolled.unused other s found here)) (settled other s found mine same)

/-- Every operation that a program may perform is quiet. -/
def AllQuiet : Handler Unit → Prop
  | .ret _ => True
  | .op o rest => Quiet o ∧ ∀ answer, AllQuiet (rest answer)

theorem safe_allQuiet {program : Handler Unit} (quiet : AllQuiet program) (idle : Idle strict t hub) :
    (consoleTeam strict).Safe t program hub := by
  induction program generalizing hub with
  | ret _ => exact fun hub₁ spares _ => idle.spared spares
  | op o rest ih =>
    intro hub₁ spares paired answer hub₂ run
    obtain ⟨paired₂, spares₂⟩ := quiet_exec quiet.1 run.1 paired
    exact ⟨paired₂, ⟨fun u _ => spares₂ u, trivial⟩, ih answer (quiet.2 answer) ((idle.spared spares).spared (spares₂ t))⟩

theorem quiet_recheckToken (conn tokenId deviceId : Nat) : AllQuiet (Handler.recheckToken conn tokenId deviceId) := by
  refine ⟨trivial, fun answer => ?_⟩
  rcases answer with _ | _ | reason
  · exact trivial
  · exact trivial
  · exact ⟨trivial, fun _ => trivial⟩

theorem quiet_agentRoute : AllQuiet Handler.agentRoute := by
  refine ⟨trivial, fun socket => ⟨trivial, fun token => ?_⟩⟩
  cases token with
  | none => exact trivial
  | some token =>
    dsimp only
    rw [Program.ret_bind]
    dsimp only
    cases token.bind fun token => token.deviceId.map fun deviceId => (token.id, deviceId) with
    | none => exact ⟨trivial, fun _ => trivial⟩
    | some bound =>
      refine ⟨trivial, fun hostname => ?_⟩
      rcases hostname with _ | _ | hostname
      · exact trivial
      · exact ⟨trivial, fun _ => trivial⟩
      · refine ⟨trivial, fun conn => ?_⟩
        cases conn with
        | none => exact trivial
        | some conn => exact quiet_recheckToken conn bound.1 bound.2

theorem safe_createSession {grant : Grant} {agentConn : Nat}
    (opens : Opens strict t socket grant.deviceId sessionId hub) :
    (consoleTeam strict).Safe t (Handler.createSession socket grant agentConn sessionId) hub := by
  intro hub₁ spares paired inserted hub₂ run
  cases run.1
  have opens := opens.spared paired spares
  refine ⟨paired, ⟨fun u _ => Spares.refl u hub₁, trivial⟩, ?_⟩
  cases inserted with
  | true =>
    intro hub₂ spares₂ paired₂ _ hub₃ run₃
    cases run₃.1
    obtain ⟨paired₃, others, enrolled⟩ := enroll_step (opens.spared paired₂ spares₂) paired₂
    refine ⟨paired₃, ⟨others, trivial⟩, fun hub₄ spares₄ paired₄ _ hub₅ run₅ => ?_⟩
    cases run₅.1
    obtain ⟨paired₅, others₅, idle⟩ := attach_step (enrolled.spared paired₄ spares₄) paired₄ run₅.2.2
    exact ⟨paired₅, ⟨others₅, trivial⟩, fun _ spares _ => idle.spared spares⟩
  | false =>
    intro hub₂ spares₂ paired₂ _ hub₃ run₃
    cases run₃.1
    have opens := opens.spared paired₂ spares₂
    have calm := calm_closeSocket { hub₂ with creating := Function.update hub₂.creating grant.deviceId none } socket
    have paired₃ : Paired { hub₂ with creating := Function.update hub₂.creating grant.deviceId none } := by
      refine ⟨paired₂.named, paired₂.held, fun d u waiting => ?_, paired₂.made, paired₂.opened⟩
      change Function.update hub₂.creating grant.deviceId none d = some u at waiting
      by_cases same : d = grant.deviceId
      · rw [same, Function.update_self] at waiting
        cases waiting
      · rw [Function.update_of_ne same] at waiting
        exact paired₂.waits d u waiting
    refine ⟨calm.paired paired₃, ⟨fun u apart => Spares.trans ?_ (calm.spares paired₃ u), trivial⟩, fun _ spares _ => ?_⟩
    · refine ⟨fun _ own => own, fun _ own => own, fun d own => ?_, fun _ _ found _ => found,
        fun _ _ _ _ settled => ⟨settled.listener, settled.alive, settled.agent⟩, id⟩
      change Function.update hub₂.creating grant.deviceId none d = some u
      rw [Function.update_of_ne]
      · exact own
      · rintro rfl
        rw [opens.creating] at own
        exact apart (Option.some.inj own).symm
    · refine Idle.spared (Idle.spared ?_ (calm.spares paired₃ t)) spares
      intro strictly
      rcases opens.idle strictly with hung | settled
      · exact .inl hung
      · refine .inr fun other s found mine => ?_
        have settled := settled other s found mine
        exact ⟨settled.listener, settled.alive, settled.agent⟩

theorem safe_consoleRoute (idle : Idle strict t hub) :
    (consoleTeam strict).Safe t (Handler.consoleRoute deviceId) hub := by
  intro hub₁ spares₁ paired₁ socket hub₂ run
  obtain ⟨paired₂, spares₂⟩ := quiet_exec (o := .upgrade) trivial run.1 paired₁
  have holds : Holds strict t socket hub₂ := by
    obtain ⟨fresh, rfl⟩ := run.1
    refine ⟨Function.update_self _ _ _, fun sessionId s found same => ?_, (idle.spared spares₁).spared (spares₂ t)⟩
    exact paired₁.opened _ _ (paired₁.made sessionId s found).2 (same ▸ fresh)
  refine ⟨paired₂, ⟨fun u _ => spares₂ u, trivial⟩, fun hub₃ spares₃ paired₃ answer hub₄ run₄ => ?_⟩
  obtain ⟨⟨asked, console, sessionId, fresh, made⟩, alone, -⟩ := run₄
  obtain ⟨paired₄, others, after⟩ := open_step (holds.spared paired₃ spares₃) paired₃ fresh made alone
  refine ⟨paired₄, ⟨others, trivial⟩, ?_⟩
  cases answer with
  | refused => exact fun _ spares _ => Idle.spared after spares
  | creating grant agentConn sessionId => exact safe_createSession after
  | taking grant agentConn =>
    intro hub₅ spares₅ paired₅ _ hub₆ run₆
    cases run₆.1
    refine ⟨paired₅, ⟨fun u _ => Spares.refl u hub₅, trivial⟩, fun hub₆ spares₆ paired₆ answer hub₇ run₇ => ?_⟩
    obtain ⟨⟨sessionId, fresh, made⟩, alone, -⟩ := run₇
    have holds := (Holds.spared after paired₅ spares₅).spared paired₆ spares₆
    obtain ⟨paired₇, others, after⟩ := create_step holds paired₆ fresh made alone
    refine ⟨paired₇, ⟨others, trivial⟩, ?_⟩
    cases answer with
    | refused => exact fun _ spares _ => Idle.spared after spares
    | taking => exact fun _ spares _ => (Holds.idle after).spared spares
    | creating grant agentConn sessionId => exact safe_createSession after

theorem console_verified {cond : Nat → (o : HubOp) → Hub → o.Res → Hub → Prop}
    (alone : ∀ {t o hub answer hub₁}, cond t o hub answer hub₁ → CheckedAlone o hub answer)
    (intime : strict → ∀ {t o hub answer hub₁}, cond t o hub answer hub₁ → ListenedInTime o hub) :
    (server.restrict cond).Verified (consoleTeam strict) where
  exec run := ⟨run.1, alone run.2, fun strictly => intime strictly run.2⟩
  env _ moves := moves.elim
  entry allowed _ idle := by
    cases allowed with
    | agent => exact safe_allQuiet quiet_agentRoute idle
    | heartbeat =>
      refine safe_allQuiet ⟨trivial, fun late => ?_⟩ idle
      cases late with
      | true => exact ⟨trivial, fun _ => trivial⟩
      | false => exact quiet_recheckToken _ _ _
    | revokeTokens | deleteDevice =>
      refine safe_allQuiet ⟨trivial, fun done => ?_⟩ idle
      cases done with
      | true => exact ⟨trivial, fun _ => trivial⟩
      | false => exact trivial
    | console => exact safe_consoleRoute idle
    | closeSocket | socketClosed | closeSession => exact safe_allQuiet ⟨trivial, fun _ => trivial⟩ idle
  drop {t hub} paired := by
    refine ⟨⟨paired.named, paired.held, paired.waits, paired.made, paired.opened⟩, fun hub₁ spares _ => ?_, fun u _ => ?_⟩
    · exact fun _ => .inl (spares.hung List.mem_cons_self)
    · exact ⟨fun _ own => own, fun _ own => own, fun _ own => own, fun _ _ found _ => found,
        fun _ _ _ _ settled => ⟨settled.listener, settled.alive, settled.agent⟩, List.mem_cons_of_mem _⟩

theorem console_initial (hub : Hub) (start : hub = Hub.empty) :
    Paired hub ∧ ∀ t hub₁, Spares t hub hub₁ → Paired hub₁ → Idle strict t hub₁ := by
  subst start
  refine ⟨.empty, fun t hub₁ spares _ _ => .inr fun sessionId s found mine => ?_⟩
  cases spares.own sessionId s found mine

/-- Along every run whose openings pass the check of `create` alone, a device has one session
at most, the one that `byDevice` names. -/
theorem one_console {c : Threads.Config HubOp.Res Hub}
    (reach : (server.restrict fun _ o hub answer _ => CheckedAlone o hub answer).Reach (· = Hub.empty) c) :
    (∀ sessionId other s s', c.world.sessions sessionId = some s → c.world.sessions other = some s' →
      s.deviceId = s'.deviceId → sessionId = other) ∧
    (∀ sessionId s, c.world.sessions sessionId = some s → c.world.byDevice s.deviceId = some sessionId) ∧
    ∀ deviceId sessionId, c.world.byDevice deviceId = some sessionId →
      ∃ s, c.world.sessions sessionId = some s ∧ s.deviceId = deviceId := by
  have verified : (server.restrict fun _ o hub answer _ => CheckedAlone o hub answer).Verified (consoleTeam False) :=
    console_verified (fun alone => alone) fun strictly => strictly.elim
  have paired : Paired c.world := reach.inv verified console_initial
  refine ⟨fun sessionId other s s' found found' same => ?_, paired.named, paired.held⟩
  have named := paired.named sessionId s found
  rw [same, paired.named other s' found'] at named
  exact (Option.some.inj named).symm

/-- The agent of the device 7 is online. -/
def online : Hub :=
  let upgraded := { Hub.empty with
    ready := Function.update Hub.empty.ready 0 (some .open_)
    owner := Function.update Hub.empty.owner 0 (some 0) }
  (upgraded.connect 0 5 7 "pc-7" 0).2

theorem online_reach {cond : Nat → (o : HubOp) → Hub → o.Res → Hub → Prop}
    (allowed : ∀ {t o hub answer hub₁}, Quiet o → cond t o hub answer hub₁) :
    ∃ runs, (server.restrict cond).Reach (· = Hub.empty) ⟨online, runs⟩ ∧ ∀ t, runs t = .ret () := by
  have r : (server.restrict cond).Reach (· = Hub.empty) ⟨Hub.empty, fun _ => .ret ()⟩ := .init rfl
  have r := r.begins 0 Handler.agentRoute rfl .agent
  have r := r.perform 0 rfl (0 : Nat) _ ⟨⟨rfl, rfl⟩, allowed trivial⟩
  have r := r.perform 0 rfl (some (some ⟨5, some 7⟩)) _ ⟨rfl, allowed trivial⟩
  have r := r.perform 0 rfl (some (some "pc-7")) _ ⟨rfl, allowed trivial⟩
  have r := r.perform 0 rfl (some 0) _ ⟨⟨0, rfl, rfl⟩, allowed trivial⟩
  have r := r.perform 0 rfl (none : Option (Option String)) _ ⟨rfl, allowed trivial⟩
  refine ⟨_, r, fun t => ?_⟩
  by_cases zero : t = 0
  · subst zero
    rfl
  · simp only [Function.update_of_ne zero]

/-- The socket of a browser, made for the run `t`. -/
def Hub.browser (hub : Hub) (t socket : Nat) : Hub :=
  { hub with
    ready := Function.update hub.ready socket (some .open_)
    owner := Function.update hub.owner socket (some t) }

/-- A console of the device 7 is opened. -/
def opened : Hub :=
  ((((online.browser 1 1).open_ 1 1 7 (some ⟨7, none⟩) true 0).2).enroll 1 0 7 0 1).attach 0 7 0 1

theorem opened_reach {cond : Nat → (o : HubOp) → Hub → o.Res → Hub → Prop}
    (allowed : ∀ {t o hub answer hub₁}, CheckedAlone o hub answer → ListenedInTime o hub → cond t o hub answer hub₁) :
    ∃ runs, (server.restrict cond).Reach (· = Hub.empty) ⟨opened, runs⟩ ∧ ∀ t, runs t = .ret () := by
  have quietly : ∀ {t o hub answer hub₁}, Quiet o → cond t o hub answer hub₁ := by
    intro t o hub answer hub₁ quiet
    refine allowed ?_ ?_
    · cases o with
      | open_ _ _ | create _ _ _ => exact quiet.elim
      | _ => exact trivial
    · cases o with
      | attach _ _ _ _ => exact quiet.elim
      | _ => exact trivial
  obtain ⟨runs, r, idle⟩ := online_reach quietly
  have r := r.begins 1 (Handler.consoleRoute 7) (idle 1) .console
  have r := r.perform 1 rfl (1 : Nat) _ ⟨⟨rfl, rfl⟩, quietly trivial⟩
  have checked : (server.restrict cond).exec 1 (.open_ 1 7) (online.browser 1 1) (.creating ⟨7, none⟩ 0 0)
      ((online.browser 1 1).open_ 1 1 7 (some ⟨7, none⟩) true 0).2 := by
    refine ⟨⟨some ⟨7, none⟩, true, 0, rfl, rfl⟩, allowed ?_ trivial⟩
    rfl
  have r := r.perform 1 rfl (.creating ⟨7, none⟩ 0 0) _ checked
  have r := r.perform 1 rfl true _ ⟨rfl, quietly trivial⟩
  have r := r.perform 1 rfl () _ ⟨rfl, allowed trivial trivial⟩
  have attached : (server.restrict cond).exec 1 (.attach 0 7 0 1)
      ((((online.browser 1 1).open_ 1 1 7 (some ⟨7, none⟩) true 0).2).enroll 1 0 7 0 1) () opened := by
    refine ⟨rfl, allowed trivial fun _ _ => ?_⟩
    decide
  have r := r.perform 1 rfl () _ attached
  refine ⟨_, r, fun t => ?_⟩
  by_cases one : t = 1
  · subst one
    rfl
  · simp only [Function.update_of_ne one]
    exact idle t

theorem one_console_opened : opened.byDevice 7 = some 0 := by
  obtain ⟨runs, reach, -⟩ := opened_reach fun alone _ => alone
  exact (one_console reach).2.1 0 ⟨7, 0, 1, 1⟩ rfl

/-- Two browsers open a console of the device 7: both pass the check of `create` before either
has registered its session. -/
theorem two_consoles : ¬∀ c, server.Reach (· = Hub.empty) c → ∀ sessionId other s s',
    c.world.sessions sessionId = some s → c.world.sessions other = some s' → s.deviceId = s'.deviceId →
    sessionId = other := by
  intro claim
  obtain ⟨runs, r, idle⟩ := @online_reach (fun _ _ _ _ _ => True) fun _ => trivial
  have r := r.of_restrict
  have r := r.begins 1 (Handler.consoleRoute 7) (idle 1) .console
  have r := r.perform 1 rfl (1 : Nat) _ ⟨rfl, rfl⟩
  have r := r.begins 2 (Handler.consoleRoute 7) (idle 2) .console
  have r := r.perform 2 rfl (2 : Nat) _ ⟨rfl, rfl⟩
  have r := r.perform 1 rfl (.creating ⟨7, none⟩ 0 0) _ ⟨some ⟨7, none⟩, true, 0, rfl, rfl⟩
  have r := r.perform 2 rfl (.creating ⟨7, none⟩ 0 1) _ ⟨some ⟨7, none⟩, true, 1, rfl, rfl⟩
  have r := r.perform 1 rfl true _ rfl
  have r := r.perform 2 rfl true _ rfl
  have r := r.perform 1 rfl () _ rfl
  have r := r.perform 2 rfl () _ rfl
  exact absurd (claim _ r 0 1 ⟨7, 0, 1, 1⟩ ⟨7, 0, 2, 2⟩ rfl rfl rfl) Nat.zero_ne_one

/-- When no handler is in progress, every session has a browser socket that is open, or about
to end the session by closing, and the agent that is registered for its device. -/
theorem consoles_settled {c : Threads.Config HubOp.Res Hub}
    (reach : (server.restrict fun _ o hub answer _ => CheckedAlone o hub answer ∧ ListenedInTime o hub).Reach
      (· = Hub.empty) c) (ended : ∀ t, c.runs t = .ret ()) (returned : c.world.hung = []) :
    ∀ sessionId s, c.world.sessions sessionId = some s →
      (c.world.ready s.browserSocket = some .open_ ∨ c.world.ready s.browserSocket = some .closing ∧
        c.world.browserListener s.browserSocket = some sessionId) ∧
      c.world.conns[s.deviceId]? = some s.agentConn := by
  intro sessionId s found
  have verified : (server.restrict fun _ o hub answer _ => CheckedAlone o hub answer ∧ ListenedInTime o hub).Verified
      (consoleTeam True) := console_verified (fun both => both.1) fun _ _ _ _ _ _ both => both.2
  obtain ⟨paired, safe⟩ := reach.safe verified console_initial
  have idle : Idle True s.handler c.world := by
    have last := safe s.handler
    rw [ended] at last
    exact last c.world (Spares.refl _ _) paired
  have settled : Settled c.world sessionId s := by
    rcases idle trivial with hung | settled
    · rw [returned] at hung
      exact absurd hung List.not_mem_nil
    · exact settled sessionId s found rfl
  refine ⟨?_, settled.agent⟩
  have known := paired.opened _ _ (paired.made sessionId s found).2
  have alive := settled.alive
  revert known alive
  rcases c.world.ready s.browserSocket with _ | _ | _ | _
  · exact fun known _ => absurd rfl known
  · exact fun _ _ => .inl rfl
  · exact fun _ _ => .inr ⟨rfl, settled.listener⟩
  · exact fun _ alive => absurd rfl alive

theorem consoles_settled_opened : opened.conns[7]? = some 0 := by
  obtain ⟨runs, reach, idle⟩ := opened_reach fun alone intime => And.intro alone intime
  exact (consoles_settled reach idle rfl 0 ⟨7, 0, 1, 1⟩ rfl).2

/-- The browser leaves during the INSERT of the session: its close event finds no listener. -/
theorem console_outlives : ¬∀ c, server.Reach (· = Hub.empty) c → (∀ t, c.runs t = .ret ()) → c.world.hung = [] →
    ∀ sessionId s, c.world.sessions sessionId = some s →
      (c.world.ready s.browserSocket = some .open_ ∨ c.world.ready s.browserSocket = some .closing ∧
        c.world.browserListener s.browserSocket = some sessionId) ∧
      c.world.conns[s.deviceId]? = some s.agentConn := by
  intro claim
  obtain ⟨runs, r, idle⟩ := @online_reach (fun _ _ _ _ _ => True) fun _ => trivial
  have r := r.of_restrict
  have r := r.begins 1 (Handler.consoleRoute 7) (idle 1) .console
  have r := r.perform 1 rfl (1 : Nat) _ ⟨rfl, rfl⟩
  have r := r.perform 1 rfl (.creating ⟨7, none⟩ 0 0) _ ⟨some ⟨7, none⟩, true, 0, rfl, rfl⟩
  have r := r.begins 2 (Handler.perform (.socketClosed 1 1001)) (idle 2) .socketClosed
  have r := r.perform 2 rfl () _ ⟨.inl rfl, rfl⟩
  have r := r.perform 1 rfl true _ rfl
  have r := r.perform 1 rfl () _ rfl
  have r := r.perform 1 rfl () _ rfl
  have ended := claim _ r ?_ rfl 0 ⟨7, 0, 1, 1⟩ rfl
  · rcases ended.1 with alive | ⟨closing, -⟩
    · cases alive
    · cases closing
  · intro t
    by_cases one : t = 1
    · subst one
      rfl
    · by_cases two : t = 2
      · subst two
        rfl
      · simp only [Function.update_of_ne one, Function.update_of_ne two]
        exact idle t

end Opale.Remote
