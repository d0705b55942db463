import Opale.Remote.Routes

namespace Opale.Remote

open Sql

variable {hub hub₁ : Hub} {conn deviceId socket : Nat}

def Hub.Registered (hub : Hub) (conn : Nat) : Prop := ∃ deviceId : Nat, hub.conns[deviceId]? = some conn

/-- Two hubs that differ in their consoles, and in sockets that have been asked to close. -/
structure Aside (hub hub₁ : Hub) : Prop where
  agent : hub₁.agent = hub.agent
  conns : hub₁.conns = hub.conns
  agentListener : hub₁.agentListener = hub.agentListener
  connects : hub₁.connects = hub.connects
  disconnects : hub₁.disconnects = hub.disconnects
  audits : hub₁.audits = hub.audits
  closed : ∀ socket, hub₁.ready socket = some .closed ↔ hub.ready socket = some .closed

theorem Aside.refl (hub : Hub) : Aside hub hub := ⟨rfl, rfl, rfl, rfl, rfl, rfl, fun _ => Iff.rfl⟩

theorem Aside.trans {a b c : Hub} (first : Aside a b) (second : Aside b c) : Aside a c where
  agent := second.agent.trans first.agent
  conns := second.conns.trans first.conns
  agentListener := second.agentListener.trans first.agentListener
  connects := second.connects.trans first.connects
  disconnects := second.disconnects.trans first.disconnects
  audits := second.audits.trans first.audits
  closed socket := (second.closed socket).trans (first.closed socket)

theorem aside_closeSocket (hub : Hub) (socket : Nat) : Aside hub (hub.closeSocket socket) := by
  unfold Hub.closeSocket
  split
  case isFalse => exact .refl hub
  case isTrue open_ =>
    refine ⟨rfl, rfl, rfl, rfl, rfl, rfl, fun other => ?_⟩
    change Function.update hub.ready socket (some ReadyState.closing) other = _ ↔ _
    by_cases same : other = socket
    · subst same
      rw [open_, Function.update_self]
      exact iff_of_false nofun nofun
    · rw [Function.update_of_ne same]

theorem aside_closeConn (hub : Hub) (conn : Nat) : Aside hub (hub.closeConn conn) := by
  unfold Hub.closeConn
  split
  · exact aside_closeSocket hub _
  · exact .refl hub

theorem aside_closeSession (hub : Hub) (sessionId : Nat) : Aside hub (hub.closeSession sessionId) := by
  unfold Hub.closeSession
  split
  case h_1 => exact .refl hub
  case h_2 s found =>
    dsimp only
    refine Aside.trans ?_ (aside_closeSocket _ _)
    exact ⟨rfl, rfl, rfl, rfl, rfl, rfl, fun _ => Iff.rfl⟩

theorem aside_closeByDevice (hub : Hub) (deviceId : Nat) : Aside hub (hub.closeByDevice deviceId) := by
  unfold Hub.closeByDevice
  split
  · exact aside_closeSession hub _
  · exact .refl hub

theorem aside_create (hub : Hub) (t socket : Nat) (grant : Grant) (agentConn sessionId : Nat) :
    Aside hub (hub.create t socket grant agentConn sessionId).2 := by
  unfold Hub.create
  split
  · exact aside_closeSocket hub socket
  · exact ⟨rfl, rfl, rfl, rfl, rfl, rfl, fun _ => Iff.rfl⟩

/-- The three ways that the first stretch of an opening ends. -/
theorem open_cases (hub : Hub) (t socket deviceId : Nat) (asked : Option Grant) (console : Bool) (sessionId : Nat) :
    hub.open_ t socket deviceId asked console sessionId = (.refused, hub.closeSocket socket) ∨
    (∃ grant agentConn taken, hub.open_ t socket deviceId asked console sessionId =
      (.taking grant agentConn, hub.closeSession taken)) ∨
    ∃ grant agentConn, hub.open_ t socket deviceId asked console sessionId =
      hub.create t socket grant agentConn sessionId := by
  unfold Hub.open_
  split
  case h_1 => exact .inl rfl
  case h_2 grant =>
    split
    case isTrue => exact .inl rfl
    case isFalse =>
      split
      case h_1 => exact .inl rfl
      case h_2 agentConn _ =>
        split
        case isTrue => exact .inl rfl
        case isFalse =>
          split
          case h_1 taken _ => exact .inr (.inl ⟨grant, agentConn, taken, rfl⟩)
          case h_2 => exact .inr (.inr ⟨grant, agentConn, rfl⟩)

theorem aside_open (hub : Hub) (t socket deviceId : Nat) (asked : Option Grant) (console : Bool) (sessionId : Nat) :
    Aside hub (hub.open_ t socket deviceId asked console sessionId).2 := by
  obtain refused | ⟨grant, agentConn, taken, taking⟩ | ⟨grant, agentConn, creating⟩ :=
    open_cases hub t socket deviceId asked console sessionId
  · rw [refused]
    exact aside_closeSocket hub socket
  · rw [taking]
    exact aside_closeSession hub taken
  · rw [creating]
    exact aside_create hub t socket grant agentConn sessionId

/-- What every connection object has got so far: nothing while it is registered, one
disconnect event and one audit when it is no longer. -/
structure Accounted (hub : Hub) : Prop where
  own : ∀ (deviceId conn : Nat), hub.conns[deviceId]? = some conn → conn ∈ hub.connects ∧
    ∃ c, hub.agent conn = some c ∧ c.deviceId = deviceId ∧ c.auditDisconnectEmitted = false
  made : ∀ conn, conn ∈ hub.connects → hub.agent conn ≠ none
  silent : ∀ conn, hub.Registered conn ∨ conn ∉ hub.connects →
    conn ∉ hub.disconnects ∧ conn ∉ hub.audits.map (·.conn)
  left : ∀ conn, conn ∈ hub.connects → ¬hub.Registered conn →
    hub.disconnects.count conn = 1 ∧ (hub.audits.map (·.conn)).count conn = 1
  listens : ∀ socket conn, hub.agentListener socket = some conn → conn ∈ hub.connects ∧
    ∃ c, hub.agent conn = some c ∧ c.socket = socket
  marked : ∀ socket conn c, hub.agentListener socket = some conn → hub.agent conn = some c →
    ¬hub.Registered conn → hub.ready socket ≠ some .closed → c.auditDisconnectEmitted = true

theorem Accounted.empty : Accounted Hub.empty where
  own deviceId _ found := by
    change (∅ : Table Nat)[deviceId]? = _ at found
    rw [Std.ExtTreeMap.getElem?_empty] at found
    cases found
  made _ listed := absurd listed List.not_mem_nil
  silent _ _ := ⟨List.not_mem_nil, List.not_mem_nil⟩
  left _ listed := absurd listed List.not_mem_nil
  listens _ _ found := by cases found
  marked _ _ _ found := by cases found

theorem Registered.congr (same : hub₁.conns = hub.conns) (conn : Nat) :
    hub₁.Registered conn ↔ hub.Registered conn := by
  unfold Hub.Registered
  rw [same]

theorem Accounted.aside (kept : Accounted hub) (aside : Aside hub hub₁) : Accounted hub₁ := by
  have registered := Registered.congr aside.conns
  constructor
  case own =>
    rw [aside.conns, aside.agent, aside.connects]
    exact kept.own
  case made =>
    rw [aside.connects, aside.agent]
    exact kept.made
  case silent =>
    intro conn
    rw [registered, aside.connects, aside.disconnects, aside.audits]
    exact kept.silent conn
  case left =>
    intro conn
    rw [registered, aside.connects, aside.disconnects, aside.audits]
    exact kept.left conn
  case listens =>
    rw [aside.agentListener, aside.agent, aside.connects]
    exact kept.listens
  case marked =>
    intro socket conn c
    rw [registered, aside.agentListener, aside.agent, Ne, aside.closed]
    exact kept.marked socket conn c

/-- A socket is closed whose listener has nothing left to do. -/
theorem Accounted.closed (kept : Accounted hub) (socket : Nat) :
    Accounted { hub with ready := Function.update hub.ready socket (some .closed) } where
  own := kept.own
  made := kept.made
  silent := kept.silent
  left := kept.left
  listens := kept.listens
  marked other conn c listener object out alive := by
    refine kept.marked other conn c listener object out fun before => alive ?_
    change Function.update hub.ready socket (some ReadyState.closed) other = _
    by_cases same : other = socket
    · rw [same, Function.update_self]
    · rw [Function.update_of_ne same]
      exact before

theorem setAgent_self (hub : Hub) (conn : Nat) (set : AgentConn → AgentConn) :
    (hub.setAgent conn set).agent conn = (hub.agent conn).map set := Function.update_self _ _ _

theorem setAgent_of_ne (hub : Hub) {conn other : Nat} (apart : other ≠ conn) (set : AgentConn → AgentConn) :
    (hub.setAgent conn set).agent other = hub.agent other := Function.update_of_ne apart _ _

/-- A connection object changes in nothing that counts here. -/
theorem Accounted.setAgent (kept : Accounted hub) (conn : Nat) (set : AgentConn → AgentConn)
    (same : ∀ c, (set c).socket = c.socket ∧ (set c).deviceId = c.deviceId ∧
      (set c).auditDisconnectEmitted = c.auditDisconnectEmitted) : Accounted (hub.setAgent conn set) := by
  have object : ∀ other c₁, (hub.setAgent conn set).agent other = some c₁ →
      ∃ c, hub.agent other = some c ∧ c₁.socket = c.socket ∧ c₁.deviceId = c.deviceId ∧
        c₁.auditDisconnectEmitted = c.auditDisconnectEmitted := by
    intro other c₁ found
    by_cases here : other = conn
    · subst here
      rw [setAgent_self] at found
      obtain ⟨c, before, rfl⟩ := Option.map_eq_some_iff.mp found
      exact ⟨c, before, same c⟩
    · rw [setAgent_of_ne hub here] at found
      exact ⟨c₁, found, rfl, rfl, rfl⟩
  have present : ∀ other c, hub.agent other = some c → ∃ c₁, (hub.setAgent conn set).agent other = some c₁ := by
    intro other c found
    by_cases here : other = conn
    · subst here
      rw [setAgent_self, found]
      exact ⟨set c, rfl⟩
    · rw [setAgent_of_ne hub here]
      exact ⟨c, found⟩
  constructor
  case own =>
    intro deviceId other found
    obtain ⟨listed, c, before, device, silent⟩ := kept.own deviceId other found
    obtain ⟨c₁, after⟩ := present other c before
    obtain ⟨c', before', -, device', marked'⟩ := object other c₁ after
    cases before.symm.trans before'
    exact ⟨listed, c₁, after, device'.trans device, marked'.trans silent⟩
  case made =>
    intro other listed
    obtain ⟨c, before⟩ := Option.ne_none_iff_exists'.mp (kept.made other listed)
    obtain ⟨c₁, after⟩ := present other c before
    rw [after]
    exact nofun
  case silent => exact kept.silent
  case left => exact kept.left
  case listens =>
    intro socket other listener
    obtain ⟨listed, c, before, socket_⟩ := kept.listens socket other listener
    obtain ⟨c₁, after⟩ := present other c before
    obtain ⟨c', before', socket', -⟩ := object other c₁ after
    cases before.symm.trans before'
    exact ⟨listed, c₁, after, socket'.trans socket_⟩
  case marked =>
    intro socket other c₁ listener after out alive
    obtain ⟨c, before, -, -, marked'⟩ := object other c₁ after
    exact marked'.trans (kept.marked socket other c listener before out alive)

/-- How a registered connection leaves: it gets its event and its audit, and it is marked
unless its socket has closed. -/
structure Leaves (deviceId conn : Nat) (hub hub₁ : Hub) : Prop where
  registered : hub.conns[deviceId]? = some conn
  conns : hub₁.conns = hub.conns.put deviceId none
  others : ∀ other, other ≠ conn → hub₁.agent other = hub.agent other
  agent : ∀ c, hub.agent conn = some c → ∃ c₁, hub₁.agent conn = some c₁ ∧ c₁.socket = c.socket ∧
    (c₁.auditDisconnectEmitted = true ∨ hub₁.ready c.socket = some .closed)
  agentListener : hub₁.agentListener = hub.agentListener
  connects : hub₁.connects = hub.connects
  disconnects : hub₁.disconnects = conn :: hub.disconnects
  audits : ∃ audit : DisconnectAudit, audit.conn = conn ∧ hub₁.audits = audit :: hub.audits
  closed : ∀ socket, hub.ready socket = some .closed → hub₁.ready socket = some .closed

theorem Leaves.here (leaves : Leaves deviceId conn hub hub₁) (d : Nat) :
    hub₁.conns[d]? = if d = deviceId then none else hub.conns[d]? := by
  rw [leaves.conns]
  split
  case isTrue same =>
    subst same
    exact Table.getElem?_put_self _ _ _
  case isFalse apart => exact Table.getElem?_put_of_ne _ apart _

theorem Leaves.gone (leaves : Leaves deviceId conn hub hub₁) (kept : Accounted hub) : ¬hub₁.Registered conn := by
  rintro ⟨d, found⟩
  rw [leaves.here] at found
  split at found
  case isTrue => cases found
  case isFalse apart =>
    obtain ⟨-, c, object, device, -⟩ := kept.own deviceId conn leaves.registered
    obtain ⟨-, c', object', device', -⟩ := kept.own d conn found
    cases object.symm.trans object'
    exact apart (device'.symm.trans device)

/-- The others stay as they were. -/
theorem Leaves.registered_iff (leaves : Leaves deviceId conn hub hub₁) {other : Nat} (apart : other ≠ conn) :
    hub₁.Registered other ↔ hub.Registered other := by
  constructor
  · rintro ⟨d, found⟩
    rw [leaves.here] at found
    split at found
    · cases found
    · exact ⟨d, found⟩
  · rintro ⟨d, found⟩
    refine ⟨d, ?_⟩
    rw [leaves.here, if_neg]
    · exact found
    · intro same
      rw [same, leaves.registered] at found
      exact apart (Option.some.inj found).symm

theorem Accounted.leaves (kept : Accounted hub) (leaves : Leaves deviceId conn hub hub₁) : Accounted hub₁ := by
  obtain ⟨audit, about, audits⟩ := leaves.audits
  obtain ⟨listed, c, object, device, -⟩ := kept.own deviceId conn leaves.registered
  obtain ⟨c₁, object₁, socket₁, marked₁⟩ := leaves.agent c object
  have gone := leaves.gone kept
  have silent := kept.silent conn (.inl ⟨deviceId, leaves.registered⟩)
  constructor
  case own =>
    intro d other found
    have apart : other ≠ conn := by
      rintro rfl
      exact gone ⟨d, found⟩
    rw [leaves.here] at found
    split at found
    · cases found
    · rw [leaves.others other apart, leaves.connects]
      exact kept.own d other found
  case made =>
    intro other known
    rw [leaves.connects] at known
    by_cases same : other = conn
    · subst same
      rw [object₁]
      exact nofun
    · rw [leaves.others other same]
      exact kept.made other known
  case silent =>
    intro other quiet
    have apart : other ≠ conn := by
      rintro rfl
      rcases quiet with stays | unknown
      · exact gone stays
      · rw [leaves.connects] at unknown
        exact unknown listed
    rw [leaves.registered_iff apart, leaves.connects] at quiet
    obtain ⟨event, audited⟩ := kept.silent other quiet
    rw [leaves.disconnects, audits, List.map_cons, about, List.mem_cons, List.mem_cons, not_or, not_or]
    exact ⟨⟨apart, event⟩, apart, audited⟩
  case left =>
    intro other known out
    rw [leaves.disconnects, audits, List.map_cons, about]
    by_cases same : other = conn
    · subst same
      rw [List.count_cons_self, List.count_cons_self, List.count_eq_zero_of_not_mem silent.1,
        List.count_eq_zero_of_not_mem silent.2]
      exact ⟨rfl, rfl⟩
    · rw [List.count_cons_of_ne (Ne.symm same), List.count_cons_of_ne (Ne.symm same)]
      rw [leaves.registered_iff same] at out
      rw [leaves.connects] at known
      exact kept.left other known out
  case listens =>
    intro socket other listener
    rw [leaves.agentListener] at listener
    rw [leaves.connects]
    obtain ⟨known, c', object', same'⟩ := kept.listens socket other listener
    by_cases same : other = conn
    · subst same
      cases object.symm.trans object'
      exact ⟨known, c₁, object₁, socket₁.trans same'⟩
    · exact ⟨known, c', (leaves.others other same).trans object', same'⟩
  case marked =>
    intro socket other c' listener object' out alive
    rw [leaves.agentListener] at listener
    by_cases same : other = conn
    · subst same
      cases object₁.symm.trans object'
      obtain ⟨-, c'', object'', same''⟩ := kept.listens socket other listener
      cases object.symm.trans object''
      rw [same''] at marked₁
      exact marked₁.resolve_right alive
    · rw [leaves.others other same] at object'
      rw [leaves.registered_iff same] at out
      exact kept.marked socket other c' listener object' out fun closed => alive (leaves.closed socket closed)

theorem Leaves.aside {hub₂ : Hub} (leaves : Leaves deviceId conn hub hub₁) (aside : Aside hub₁ hub₂) :
    Leaves deviceId conn hub hub₂ where
  registered := leaves.registered
  conns := aside.conns.trans leaves.conns
  others other apart := (congrFun aside.agent other).trans (leaves.others other apart)
  agent c object := by
    obtain ⟨c₁, object₁, socket, marked⟩ := leaves.agent c object
    refine ⟨c₁, (congrFun aside.agent conn).trans object₁, socket, ?_⟩
    rw [aside.closed]
    exact marked
  agentListener := aside.agentListener.trans leaves.agentListener
  connects := aside.connects.trans leaves.connects
  disconnects := aside.disconnects.trans leaves.disconnects
  audits := by
    rw [aside.audits]
    exact leaves.audits
  closed socket before := (aside.closed socket).mpr (leaves.closed socket before)

/-- A registered connection is removed, marked and told why. -/
theorem Leaves.marked (found : hub.conns[deviceId]? = some conn) (audit : DisconnectAudit) (about : audit.conn = conn) :
    Leaves deviceId conn hub { hub.setAgent conn (fun c => { c with auditDisconnectEmitted := true }) with
      conns := hub.conns.put deviceId none
      disconnects := conn :: hub.disconnects
      audits := audit :: hub.audits } where
  registered := found
  conns := rfl
  others other apart := setAgent_of_ne hub apart _
  agent c object := by
    refine ⟨{ c with auditDisconnectEmitted := true }, ?_, rfl, .inl rfl⟩
    change (hub.setAgent conn _).agent conn = _
    rw [setAgent_self, object]
    rfl
  agentListener := rfl
  connects := rfl
  disconnects := rfl
  audits := ⟨audit, about, rfl⟩
  closed _ before := before

/-- A connection that has not been registered yet takes the free place of its device. -/
theorem Accounted.joins (kept : Accounted hub) (free : hub.conns[deviceId]? = none) (unknown : conn ∉ hub.connects)
    {c : AgentConn} (object : hub.agent conn = some c) (own : c.deviceId = deviceId)
    (unmarked : c.auditDisconnectEmitted = false) {place : Table Nat}
    (here : ∀ d : Nat, place[d]? = if d = deviceId then some conn else hub.conns[d]?) :
    Accounted { hub with
      conns := place
      connects := conn :: hub.connects
      agentListener := Function.update hub.agentListener c.socket (some conn) } := by
  have joined : ∀ other, (∃ d : Nat, place[d]? = some other) ↔ other = conn ∨ hub.Registered other := by
    intro other
    constructor
    · rintro ⟨d, found⟩
      rw [here] at found
      split at found
      · exact .inl (Option.some.inj found).symm
      · exact .inr ⟨d, found⟩
    · rintro (rfl | ⟨d, found⟩)
      · exact ⟨deviceId, by rw [here, if_pos rfl]⟩
      · refine ⟨d, ?_⟩
        rw [here, if_neg]
        · exact found
        · rintro rfl
          rw [free] at found
          cases found
  constructor
  case own =>
    intro d other found
    change place[d]? = _ at found
    rw [here] at found
    split at found
    case isTrue same =>
      cases found
      exact ⟨List.mem_cons_self, c, object, own.trans same.symm, unmarked⟩
    case isFalse =>
      obtain ⟨listed, rest⟩ := kept.own d other found
      exact ⟨List.mem_cons_of_mem _ listed, rest⟩
  case made =>
    intro other listed
    rcases List.mem_cons.mp listed with same | before
    · subst same
      change hub.agent other ≠ none
      rw [object]
      exact nofun
    · exact kept.made other before
  case silent =>
    intro other quiet
    refine kept.silent other ?_
    rcases quiet with registered | unlisted
    · rcases (joined other).mp registered with same | before
      · subst same
        exact .inr unknown
      · exact .inl before
    · exact .inr fun before => unlisted (List.mem_cons_of_mem _ before)
  case left =>
    intro other listed out
    have apart : ¬(other = conn ∨ hub.Registered other) := fun still => out ((joined other).mpr still)
    rw [not_or] at apart
    exact kept.left other ((List.mem_cons.mp listed).resolve_left apart.1) apart.2
  case listens =>
    intro socket other listener
    change Function.update hub.agentListener c.socket (some conn) socket = _ at listener
    by_cases same : socket = c.socket
    · rw [same, Function.update_self] at listener
      cases listener
      exact ⟨List.mem_cons_self, c, object, same.symm⟩
    · rw [Function.update_of_ne same] at listener
      obtain ⟨listed, rest⟩ := kept.listens socket other listener
      exact ⟨List.mem_cons_of_mem _ listed, rest⟩
  case marked =>
    intro socket other c' listener object' out alive
    have apart : ¬(other = conn ∨ hub.Registered other) := fun still => out ((joined other).mpr still)
    rw [not_or] at apart
    change Function.update hub.agentListener c.socket (some conn) socket = _ at listener
    by_cases same : socket = c.socket
    · rw [same, Function.update_self] at listener
      exact absurd (Option.some.inj listener).symm apart.1
    · rw [Function.update_of_ne same] at listener
      exact kept.marked socket other c' listener object' apart.2 alive

theorem Aside.place (aside : Aside hub hub₁) (conns : Table Nat) :
    Aside { hub with conns := conns } { hub₁ with conns := conns } :=
  ⟨aside.agent, rfl, aside.agentListener, aside.connects, aside.disconnects, aside.audits, aside.closed⟩

theorem aside_supersede (hub : Hub) (deviceId conn : Nat) :
    Aside { hub.setAgent conn (fun c => { c with auditDisconnectEmitted := true }) with
      disconnects := conn :: hub.disconnects
      audits := ⟨conn, deviceId, WS_CLOSE.SUPERSEDED, "superseded"⟩ :: hub.audits } (hub.supersede deviceId conn) :=
  Aside.trans (aside_closeByDevice _ deviceId) (aside_closeConn _ conn)

theorem leaves_supersede (found : hub.conns[deviceId]? = some conn) :
    Leaves deviceId conn hub { hub.supersede deviceId conn with conns := hub.conns.put deviceId none } :=
  (Leaves.marked found ⟨conn, deviceId, WS_CLOSE.SUPERSEDED, "superseded"⟩ rfl).aside
    ((aside_supersede hub deviceId conn).place _)

/-- A connection object is made that nothing knows yet. -/
theorem Accounted.makes (kept : Accounted hub) (fresh : hub.agent conn = none) (c : AgentConn) :
    Accounted { hub with agent := Function.update hub.agent conn (some c) } := by
  have others : ∀ other c', hub.agent other = some c' → Function.update hub.agent conn (some c) other = some c' := by
    intro other c' object
    rw [Function.update_of_ne]
    · exact object
    · rintro rfl
      rw [fresh] at object
      cases object
  constructor
  case own =>
    intro d other found
    obtain ⟨listed, c', object, rest⟩ := kept.own d other found
    exact ⟨listed, c', others other c' object, rest⟩
  case made =>
    intro other listed
    obtain ⟨c', object⟩ := Option.ne_none_iff_exists'.mp (kept.made other listed)
    exact Option.ne_none_iff_exists'.mpr ⟨c', others other c' object⟩
  case silent => exact kept.silent
  case left => exact kept.left
  case listens =>
    intro socket other listener
    obtain ⟨listed, c', object, rest⟩ := kept.listens socket other listener
    exact ⟨listed, c', others other c' object, rest⟩
  case marked =>
    intro socket other c' listener object out alive
    obtain ⟨-, c'', before, -⟩ := kept.listens socket other listener
    have same := (others other c'' before).symm.trans object
    cases same
    exact kept.marked socket other c' listener before out alive

/-- Whoever holds the place of the device gives way, and the new connection takes it. -/
theorem Accounted.connect (kept : Accounted hub) (fresh : hub.agent conn = none) (tokenId : Nat) (hostname : String) :
    Accounted (hub.connect socket tokenId deviceId hostname conn).2 := by
  unfold Hub.connect
  split
  case isFalse => exact kept
  case isTrue =>
    have unknown : conn ∉ hub.connects := fun listed => kept.made conn listed fresh
    have made := kept.makes fresh ⟨socket, deviceId, tokenId, hostname, none, false⟩
    generalize built : { hub with
        agent := Function.update hub.agent conn (some ⟨socket, deviceId, tokenId, hostname, none, false⟩) } = made_ at made
    have object : made_.agent conn = some ⟨socket, deviceId, tokenId, hostname, none, false⟩ := by
      rw [← built]
      exact Function.update_self _ _ _
    have unlisted : conn ∉ made_.connects := by
      rw [← built]
      exact unknown
    dsimp only
    unfold Hub.register
    cases held : made_.conns[deviceId]? with
    | none =>
      refine made.joins held unlisted object rfl rfl fun d => ?_
      by_cases same : d = deviceId
      · rw [if_pos same, same]
        exact Table.getElem?_put_self _ _ _
      · rw [if_neg same]
        exact Table.getElem?_put_of_ne _ same _
    | some prev =>
      have apart : prev ≠ conn := by
        rintro rfl
        exact unlisted (made.own deviceId prev held).1
      have leaves := leaves_supersede held
      have after := made.leaves leaves
      dsimp only
      rw [if_neg apart]
      refine after.joins (c := ⟨socket, deviceId, tokenId, hostname, none, false⟩) ?_ ?_ ?_ rfl rfl fun d => ?_
      · rw [leaves.here, if_pos rfl]
      · rw [leaves.connects]
        exact unlisted
      · rw [leaves.others conn apart.symm]
        exact object
      · by_cases same : d = deviceId
        · rw [if_pos same, same]
          exact Table.getElem?_put_self _ _ _
        · rw [if_neg same, leaves.here, if_neg same]
          refine (Table.getElem?_put_of_ne _ same _).trans ?_
          rw [(aside_supersede made_ deviceId prev).conns]
          rfl

/-- An eviction is the way out of a registered connection; of another one it closes the
socket at most. -/
theorem Accounted.evict (kept : Accounted hub) (conn : Nat) (reason : String) : Accounted (hub.evict conn reason) := by
  unfold Hub.evict
  split
  case h_1 => exact kept
  case h_2 c object =>
    split
    case isTrue => exact kept
    case isFalse =>
      have revoked := kept.setAgent conn (fun c => { c with revokedReason := some reason }) fun _ => ⟨rfl, rfl, rfl⟩
      dsimp only
      refine Accounted.aside ?_ (aside_closeSocket _ c.socket)
      split
      case isFalse => exact revoked
      case isTrue found =>
        have leaves := Leaves.marked found ⟨conn, c.deviceId, WS_CLOSE.AUTH_FAIL, reason⟩ rfl
        exact revoked.leaves (leaves.aside (aside_closeByDevice _ c.deviceId))

theorem Accounted.evictTokens (kept : Accounted hub) (tokenIds : List Nat) (reason : String) :
    Accounted (hub.evictTokens tokenIds reason) := by
  unfold Hub.evictTokens
  generalize hub.conns.toList = entries
  induction entries generalizing hub with
  | nil => exact kept
  | cons e rest ih =>
    rw [List.foldl_cons]
    split
    · exact ih (kept.evict e.2 reason)
    · exact ih kept

theorem Accounted.evictDevice (kept : Accounted hub) (deviceId : Nat) (reason : String) :
    Accounted (hub.evictDevice deviceId reason) := by
  unfold Hub.evictDevice
  split
  · exact kept.evict _ reason
  · exact kept

/-- The listener of a socket that has just closed accounts for its connection, if that has
not been done. -/
theorem Accounted.onClose (kept : Accounted hub) {code : Nat} {c : AgentConn} (object : hub.agent conn = some c)
    (closed : hub.ready c.socket = some .closed)
    (marked : ¬hub.Registered conn → c.auditDisconnectEmitted = true) : Accounted (hub.onClose conn code) := by
  unfold Hub.onClose
  rw [object]
  dsimp only
  by_cases registered : hub.Registered conn
  case neg =>
    have elsewhere : hub.conns[c.deviceId]? ≠ some conn := fun found => registered ⟨_, found⟩
    rw [if_pos (marked registered), Hub.unregister, if_neg elsewhere]
    exact kept
  case pos =>
    obtain ⟨deviceId, found⟩ := registered
    obtain ⟨-, c', object', own, unmarked⟩ := kept.own deviceId conn found
    cases object.symm.trans object'
    subst own
    rw [unmarked, if_neg Bool.false_ne_true, Hub.unregister, if_pos found]
    have leaves : Leaves c.deviceId conn hub { hub with
        conns := hub.conns.put c.deviceId none
        disconnects := conn :: hub.disconnects
        audits := ⟨conn, c.deviceId, code, wsReasonFromCode code⟩ :: hub.audits } := by
      refine ⟨found, rfl, fun _ _ => rfl, fun c' object' => ?_, rfl, rfl, rfl, ⟨_, rfl, rfl⟩, fun _ h => h⟩
      cases object.symm.trans object'
      exact ⟨c, object, rfl, .inr closed⟩
    have aside := aside_closeByDevice { hub with
      conns := hub.conns.put c.deviceId none
      disconnects := conn :: hub.disconnects } c.deviceId
    refine kept.leaves (leaves.aside ?_)
    refine ⟨aside.agent, aside.conns, aside.agentListener, aside.connects, aside.disconnects, ?_, aside.closed⟩
    exact congrArg (List.cons (⟨conn, c.deviceId, code, wsReasonFromCode code⟩ : DisconnectAudit)) aside.audits

theorem aside_browserClosed (hub : Hub) (socket : Nat) : Aside hub (hub.browserClosed socket) := by
  unfold Hub.browserClosed
  split
  · exact aside_closeSession hub _
  · exact .refl hub

theorem Accounted.socketClosed (kept : Accounted hub) (alive : hub.ready socket ≠ some .closed) (code : Nat) :
    Accounted (hub.socketClosed socket code) := by
  unfold Hub.socketClosed
  refine Accounted.aside ?_ (aside_browserClosed _ socket)
  have closed := kept.closed socket
  unfold Hub.agentClosed
  split
  case h_2 => exact closed
  case h_1 conn listener =>
    obtain ⟨-, c, object, own⟩ := kept.listens socket conn listener
    refine closed.onClose object ?_ fun out => kept.marked socket conn c listener object out alive
    rw [own]
    exact Function.update_self _ _ _

theorem Accounted.exec {t : Nat} {o : HubOp} {answer : o.Res} (run : hubExec t o hub answer hub₁)
    (kept : Accounted hub) : Accounted hub₁ := by
  cases o with
  | upgrade =>
    obtain ⟨fresh, rfl⟩ := run
    refine kept.aside ⟨rfl, rfl, rfl, rfl, rfl, rfl, fun other => ?_⟩
    change Function.update hub.ready answer (some ReadyState.open_) other = _ ↔ _
    by_cases same : other = answer
    · subst same
      rw [Function.update_self, fresh]
      exact iff_of_false nofun nofun
    · rw [Function.update_of_ne same]
  | authToken | deviceHostname _ | recheckToken _ _ | pongMissing _ | database =>
    cases run
    exact kept
  | connect socket tokenId deviceId hostname =>
    obtain ⟨conn, fresh, made⟩ := run
    cases congrArg Prod.snd made
    exact kept.connect fresh tokenId hostname
  | evictOpen conn reason =>
    cases run
    unfold Hub.evictOpen
    split
    · exact kept.evict conn reason
    · exact kept
  | evictTokens tokenIds reason =>
    cases run
    exact kept.evictTokens tokenIds reason
  | evictDevice deviceId reason =>
    cases run
    exact kept.evictDevice deviceId reason
  | closeSocket socket =>
    cases run
    exact kept.aside (aside_closeSocket hub socket)
  | socketClosed socket code =>
    obtain ⟨alive, rfl⟩ := run
    refine kept.socketClosed (fun closed => ?_) code
    rw [closed] at alive
    exact alive.elim nofun nofun
  | open_ socket deviceId =>
    obtain ⟨grant, console, sessionId, -, made⟩ := run
    cases congrArg Prod.snd made
    exact kept.aside (aside_open hub t socket deviceId grant console sessionId)
  | create socket grant agentConn =>
    obtain ⟨sessionId, -, made⟩ := run
    cases congrArg Prod.snd made
    exact kept.aside (aside_create hub t socket grant agentConn sessionId)
  | insertFailed socket deviceId =>
    cases run
    refine kept.aside (Aside.trans ?_ (aside_closeSocket _ socket))
    exact ⟨rfl, rfl, rfl, rfl, rfl, rfl, fun _ => Iff.rfl⟩
  | enroll sessionId deviceId agentConn socket =>
    cases run
    exact kept.aside ⟨rfl, rfl, rfl, rfl, rfl, rfl, fun _ => Iff.rfl⟩
  | attach sessionId deviceId agentConn socket =>
    cases run
    unfold Hub.attach
    split
    · exact kept.aside (aside_closeSession hub sessionId)
    · exact kept.aside ⟨rfl, rfl, rfl, rfl, rfl, rfl, fun _ => Iff.rfl⟩
  | closeSession sessionId =>
    cases run
    exact kept.aside (aside_closeSession hub sessionId)

/-- The listener of one connection leaves the others alone. -/
theorem onClose_others {next : Nat} (apart : conn ≠ next) (found : hub.conns[deviceId]? = some next) (code : Nat) :
    (hub.onClose conn code).conns[deviceId]? = some next := by
  unfold Hub.onClose
  cases hub.agent conn with
  | none => exact found
  | some c =>
    have stays : (hub.unregister c.deviceId conn).conns[deviceId]? = some next := by
      unfold Hub.unregister
      split
      case isFalse => exact found
      case isTrue mine =>
        rw [Hub.emitDisconnect, (aside_closeByDevice _ _).conns]
        have other : deviceId ≠ c.deviceId := by
          rintro rfl
          exact apart (Option.some.inj (mine.symm.trans found))
        exact (Table.getElem?_put_of_ne _ other none).trans found
    dsimp only
    split
    · exact stays
    · exact stays

theorem socketClosed_others {next : Nat} (apart : hub.agentListener socket ≠ some next)
    (found : hub.conns[deviceId]? = some next) (code : Nat) :
    (hub.socketClosed socket code).conns[deviceId]? = some next := by
  unfold Hub.socketClosed
  rw [(aside_browserClosed _ socket).conns]
  unfold Hub.agentClosed
  dsimp only
  cases listener : hub.agentListener socket with
  | none => exact found
  | some conn =>
    have other : conn ≠ next := by
      rintro rfl
      exact apart listener
    refine onClose_others other ?_ code
    exact found

/-- Along every run: a device has one registered connection at most, a connection that is no
longer registered has got one disconnect event and one audit of it, and a socket that closes
takes no other connection than its own with it. -/
theorem connections_accounted {c : Threads.Config HubOp.Res Hub} (reach : server.Reach (· = Hub.empty) c) :
    (∀ conn other a b, c.world.Registered conn → c.world.Registered other → c.world.agent conn = some a →
      c.world.agent other = some b → a.deviceId = b.deviceId → conn = other) ∧
    (∀ conn, conn ∈ c.world.connects → ¬c.world.Registered conn →
      c.world.disconnects.count conn = 1 ∧ (c.world.audits.map (·.conn)).count conn = 1) ∧
    (∀ conn, c.world.Registered conn → conn ∉ c.world.disconnects ∧ conn ∉ c.world.audits.map (·.conn)) ∧
    ∀ (socket code deviceId next : Nat), c.world.agentListener socket ≠ some next →
      c.world.conns[deviceId]? = some next → (c.world.socketClosed socket code).conns[deviceId]? = some next := by
  have initial : ∀ hub, hub = Hub.empty → Accounted hub := fun _ start => start ▸ Accounted.empty
  have kept : Accounted c.world := reach.preserved initial
    (fun _ _ _ _ _ run kept => kept.exec run) (fun _ _ moves => moves.elim)
    (fun _ _ kept => kept.aside ⟨rfl, rfl, rfl, rfl, rfl, rfl, fun _ => Iff.rfl⟩)
  refine ⟨?_, kept.left, fun conn registered => kept.silent conn (.inl registered), ?_⟩
  · intro conn other a b registered registered' object object' same
    obtain ⟨d, found⟩ := registered
    obtain ⟨d', found'⟩ := registered'
    obtain ⟨-, a', before, own, -⟩ := kept.own d conn found
    obtain ⟨-, b', before', own', -⟩ := kept.own d' other found'
    cases object.symm.trans before
    cases object'.symm.trans before'
    rw [← own, same, own', found'] at found
    exact (Option.some.inj found).symm
  · intro socket code deviceId next apart found
    exact socketClosed_others apart found code

/-- The agent of the device 7 comes back over a second socket, and the first one closes. -/
def reconnected : Hub :=
  let first := { Hub.empty with
    ready := Function.update Hub.empty.ready 0 (some .open_)
    owner := Function.update Hub.empty.owner 0 (some 0) }
  let one := (first.connect 0 5 7 "pc-7" 0).2
  let second := { one with
    ready := Function.update one.ready 1 (some .open_)
    owner := Function.update one.owner 1 (some 0) }
  let two := (second.connect 1 5 7 "pc-7" 1).2
  two.socketClosed 0 4000

theorem reconnected_reach : ∃ runs, server.Reach (· = Hub.empty) ⟨reconnected, runs⟩ := by
  have r : server.Reach (· = Hub.empty) ⟨Hub.empty, fun _ => .ret ()⟩ := .init rfl
  have r := r.begins 0 Handler.agentRoute rfl .agent
  have r := r.perform 0 rfl (0 : Nat) _ ⟨rfl, rfl⟩
  have r := r.perform 0 rfl (some (some ⟨5, some 7⟩)) _ rfl
  have r := r.perform 0 rfl (some (some "pc-7")) _ rfl
  have r := r.perform 0 rfl (some 0) _ ⟨0, rfl, rfl⟩
  have r := r.perform 0 rfl (none : Option (Option String)) _ rfl
  have r := r.begins 0 Handler.agentRoute rfl .agent
  have r := r.perform 0 rfl (1 : Nat) _ ⟨rfl, rfl⟩
  have r := r.perform 0 rfl (some (some ⟨5, some 7⟩)) _ rfl
  have r := r.perform 0 rfl (some (some "pc-7")) _ rfl
  have r := r.perform 0 rfl (some 1) _ ⟨1, rfl, rfl⟩
  have r := r.perform 0 rfl (none : Option (Option String)) _ rfl
  have r := r.begins 0 (Handler.perform (.socketClosed 0 4000)) rfl .socketClosed
  have r := r.perform 0 rfl () _ ⟨.inr rfl, rfl⟩
  exact ⟨_, r⟩

theorem connections_accounted_reconnected :
    reconnected.disconnects.count 0 = 1 ∧ (reconnected.audits.map (·.conn)).count 0 = 1 := by
  obtain ⟨runs, reach⟩ := reconnected_reach
  refine (connections_accounted reach).2.1 0 ?_ ?_
  · change 0 ∈ reconnected.connects
    decide
  · rintro ⟨d, found⟩
    change reconnected.conns[d]? = some 0 at found
    have place : reconnected.conns = ((∅ : Table Nat).put 7 (some 0)).put 7 (some 1) := rfl
    rw [place] at found
    by_cases same : d = 7
    · rw [same, Table.getElem?_put_self] at found
      cases found
    · rw [Table.getElem?_put_of_ne _ same, Table.getElem?_put_of_ne _ same, Std.ExtTreeMap.getElem?_empty] at found
      cases found

end Opale.Remote
