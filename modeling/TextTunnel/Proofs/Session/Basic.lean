import TextTunnel.Network.Basic
import TextTunnel.Proofs.Relay.Delivery
import TextTunnel.Proofs.Tunnel.Steps

/-!
# Sessions

A session is a hub, the handles that it has given out, the tunnels that were set up on it, and a
clock. It goes on by actions, in any order: participants join and leave, anybody who has a handle
sends any text through it, tunnels send packets, and tunnels take messages off inboxes one at a
time.

A tunnel need not be honest: the participant that it takes itself for, the handle that it sends
through and the inbox that it reads can be those of three different participants.

* `Session.step`, `Session.run` -- one action and many.
* `HubStep`, `hub_step` -- what an action makes of the hub.
* `waiting_step` -- an action either puts messages behind what waits in an inbox, which takes a send
  through the handle of their author, or takes messages away.
-/

namespace TextTunnel

/-! ## 1. States and actions -/

/-- A tunnel at work. -/
structure Station where
  tunnel : Tunnel
  /-- The handle on the hub that it sends through. -/
  handle : Peer
  /-- The number of the inbox that it reads. -/
  inbox : Nat
  echo : EchoFilter

/-- A hub and all who use it. -/
structure Session where
  hub : Hub
  /-- The participants that handles were given out to, members or not. -/
  handles : List Peer
  stations : List Station
  /-- Milliseconds. -/
  now : Nat

/-- What can happen next. -/
inductive Action where
  /-- Somebody joins the hub and gets a handle and an inbox. -/
  | join (peer : Peer)
  /-- The member of that name is removed. -/
  | leave (name : String)
  /-- A tunnel starts to work on a handle and an inbox that are there. -/
  | setUp (tunnel : Tunnel) (handle : Peer) (inbox : Nat)
  /-- Somebody sends any text through a handle. -/
  | sendText (handle : Peer) (text : String)
  /-- A tunnel sends a packet. -/
  | sendPacket (station : Nat) (noise : Rsa.Noise) (packet : Packet) (recipient : Peer)
  /-- A tunnel takes the first message off its inbox and treats it. -/
  | receive (station : Nat)
  /-- Somebody takes everything out of an inbox. -/
  | drain (inbox : Nat)
  /-- The receiver of an inbox goes away. -/
  | close (inbox : Nat)
  /-- Time passes. -/
  | wait (ms : Nat)

/-- What a station's tunnel starts a step with. -/
def Station.state (st : Station) (hub : Hub) : TunnelState Backdrop :=
  ⟨st.echo, [], ⟨hub, []⟩⟩

namespace Session

/-- A hub that nobody has joined. -/
def new (maxMessageLen : Nat) (whisperCommand : String) : Session :=
  ⟨.new maxMessageLen whisperCommand, [], [], 0⟩

/-- How a station's sending of a packet ends. -/
def sent (s : Session) (i : Nat) (noise : Rsa.Noise) (packet : Packet) (recipient : Peer) :
    Option (Except TunnelError Unit × TunnelState Backdrop) :=
  s.stations[i]?.map fun st =>
    st.tunnel.sendPacket (Hub.relay st.handle) noise s.now packet recipient (st.state s.hub)

/-- The first message in a station's inbox, and how the station treats it. -/
def received (s : Session) (i : Nat) :
    Option (RelayMessage × InboundOutcome × TunnelState Backdrop) := do
  let st ← s.stations[i]?
  let (m, hub) := s.hub.takeFirst st.inbox
  let m ← m
  return (m, st.tunnel.onText s.now m.text m.sender (st.state hub))

/-- The session after a step of one station. -/
def keep (s : Session) (i : Nat) (t : TunnelState Backdrop) : Session :=
  { s with
    hub := t.world.hub
    stations := s.stations.modify i fun st => { st with echo := t.echo } }

/-- One action. -/
def step (s : Session) : Action → Session
  | .join peer => { s with hub := (s.hub.join peer).2, handles := s.handles ++ [peer] }
  | .leave name => { s with hub := s.hub.leave name }
  | .setUp tunnel handle inbox =>
    if handle ∈ s.handles ∧ inbox < s.hub.inboxes.length then
      { s with stations := s.stations ++ [⟨tunnel, handle, inbox, tunnel.newEcho⟩] }
    else s
  | .sendText handle text =>
    if handle ∈ s.handles then { s with hub := (s.hub.send handle text).2.1 } else s
  | .sendPacket i noise packet recipient =>
    match s.sent i noise packet recipient with
    | some (_, t) => s.keep i t
    | none => s
  | .receive i =>
    match s.received i with
    | some (_, _, t) => s.keep i t
    | none => s
  | .drain n => { s with hub := (s.hub.drain n).2 }
  | .close n => { s with hub := s.hub.closeInbox n }
  | .wait ms => { s with now := s.now + ms }

/-- Many actions, one after another. -/
def run (s : Session) (acts : List Action) : Session :=
  acts.foldl step s

@[simp] theorem run_nil (s : Session) : s.run [] = s := rfl

theorem run_append (s : Session) (acts acts' : List Action) :
    s.run (acts ++ acts') = (s.run acts).run acts' :=
  List.foldl_append

theorem run_concat (s : Session) (acts : List Action) (a : Action) :
    s.run (acts ++ [a]) = (s.run acts).step a := by
  rw [run_append]
  rfl

/-- The stations after a step of one of them. -/
theorem stations_keep (s : Session) (i : Nat) (t : TunnelState Backdrop) (j : Nat) :
    (s.keep i t).stations[j]?
      = s.stations[j]?.map fun st => if i = j then { st with echo := t.echo } else st :=
  List.getElem?_modify ..

/-- Only waiting takes time. -/
theorem now_step (s : Session) {a : Action} (ha : ∀ ms, a ≠ .wait ms) : (s.step a).now = s.now := by
  cases a with
  | wait ms => exact absurd rfl (ha ms)
  | join | leave | drain | close => rfl
  | setUp | sendText | sendPacket | receive =>
    rw [step]
    split <;> rfl

/-! ## 2. What a station's step does to the hub -/

/-- The message that is received waits in front, and receiving it takes it away. -/
theorem received_eq_some {s : Session} {i : Nat} {m : RelayMessage} {outcome : InboundOutcome}
    {t : TunnelState Backdrop} (h : s.received i = some (m, outcome, t)) :
    ∃ st rest, s.stations[i]? = some st ∧ s.hub.waiting st.inbox = m :: rest ∧
      st.tunnel.onText s.now m.text m.sender (st.state (s.hub.takeFirst st.inbox).2)
        = (outcome, t) := by
  obtain ⟨st, hst, h⟩ := Option.bind_eq_some_iff.mp h
  obtain ⟨m', hm, h⟩ := Option.bind_eq_some_iff.mp h
  obtain ⟨hmessage, htext⟩ := Prod.mk.inj (Option.some.inj h)
  subst hmessage
  obtain ⟨rest, hrest⟩ := List.head?_eq_some_iff.mp hm
  exact ⟨st, rest, hst, hrest, htext⟩

theorem hub_received {s : Session} {i : Nat} {m : RelayMessage} {outcome : InboundOutcome}
    {t : TunnelState Backdrop} {st : Station} (hst : s.stations[i]? = some st)
    (h : s.received i = some (m, outcome, t)) : t.world.hub = (s.hub.takeFirst st.inbox).2 := by
  obtain ⟨st', rest, hst', -, htext⟩ := received_eq_some h
  obtain rfl := Option.some.inj (hst.symm.trans hst')
  have hworld := Tunnel.world_onText st.tunnel s.now m.text m.sender
    (st.state (s.hub.takeFirst st.inbox).2)
  rw [htext] at hworld
  exact congrArg Backdrop.hub hworld

/-- A message that waits in front can be received. -/
theorem received_of_waiting {s : Session} {i : Nat} {st : Station} {m : RelayMessage}
    {rest : List RelayMessage} (hst : s.stations[i]? = some st)
    (hwaiting : s.hub.waiting st.inbox = m :: rest) :
    s.received i = some (m, st.tunnel.onText s.now m.text m.sender
      (st.state (s.hub.takeFirst st.inbox).2)) := by
  rw [received, hst]
  simp only [Option.bind_eq_bind, Option.bind_some, Hub.takeFirst, hwaiting, List.head?_cons]
  rfl

/-- What a station's handle passes on is what the hub answers. -/
theorem relay_eq {peer : Peer} {text : String} {t : TunnelState Backdrop}
    {result : Except RelayError Unit} {answer : Hub × List Event}
    (hsend : t.world.hub.send peer text = (result, answer)) :
    Hub.relay peer text t
      = (result, { t with world := { t.world with hub := answer.1 } }.emit
          (answer.2.map .log)) := by
  rw [Hub.relay]
  dsimp only
  rw [hsend]

section Sent

variable {s : Session} {i : Nat} {noise : Rsa.Noise} {packet : Packet} {recipient : Peer}
  {st : Station} {payload text : String} {answer : Hub × List Event}

/-- A packet that could not be built leaves the hub and the memory as they are. -/
theorem sent_failed {setback : Setback} (hst : s.stations[i]? = some st)
    (hprepare : st.tunnel.prepare noise packet recipient = .error setback) :
    ∃ result t, s.sent i noise packet recipient = some (result, t) ∧
      t.echo = st.echo ∧ t.world.hub = s.hub := by
  rw [sent, hst, Option.map_some]
  cases setback with
  | refused e =>
    rw [Tunnel.sendPacket_of_prepare_refused _ _ _ hprepare]
    exact ⟨_, _, rfl, rfl, rfl⟩
  | abandoned reason =>
    rw [Tunnel.sendPacket_of_prepare_abandoned _ _ _ hprepare]
    exact ⟨_, _, rfl, rfl, rfl⟩

/-- A packet that the hub refuses is remembered and forgotten again. -/
theorem sent_refused {e : RelayError} (hst : s.stations[i]? = some st)
    (hprepare : st.tunnel.prepare noise packet recipient = .ok (payload, text))
    (hsend : s.hub.send st.handle text = (.error e, answer)) :
    ∃ t, s.sent i noise packet recipient = some (.error (.relay e), t) ∧
      t.echo = (st.echo.insert s.now payload).2.forget payload ∧ t.world.hub = answer.1 := by
  rw [sent, hst, Option.map_some, Tunnel.sendPacket_of_prepare_ok _ _ _ hprepare, relay_eq hsend]
  exact ⟨_, rfl, rfl, rfl⟩

/-- A packet that the hub accepts is remembered. -/
theorem sent_accepted (hst : s.stations[i]? = some st)
    (hprepare : st.tunnel.prepare noise packet recipient = .ok (payload, text))
    (hsend : s.hub.send st.handle text = (.ok (), answer)) :
    ∃ t, s.sent i noise packet recipient = some (.ok (), t) ∧
      t.echo = (st.echo.insert s.now payload).2 ∧ t.world.hub = answer.1 := by
  rw [sent, hst, Option.map_some, Tunnel.sendPacket_of_prepare_ok _ _ _ hprepare, relay_eq hsend]
  exact ⟨_, rfl, rfl, rfl⟩

end Sent

/-! ## 3. What an action says and takes -/

/-- What an action says on the hub, and through whose handle. -/
def said? (s : Session) : Action → Option (Peer × String)
  | .sendText handle text => if handle ∈ s.handles then some (handle, text) else none
  | .sendPacket i noise packet recipient =>
    s.stations[i]?.bind fun st =>
      match st.tunnel.prepare noise packet recipient with
      | .ok (_, text) => some (st.handle, text)
      | .error _ => none
  | _ => none

/-- What an action takes off an inbox. -/
def taken (s : Session) (n : Nat) : Action → List RelayMessage
  | .receive i =>
    match s.stations[i]? with
    | some st => if st.inbox = n then (s.hub.takeFirst n).1.toList else []
    | none => []
  | .drain k => if k = n then (s.hub.drain n).1 else []
  | _ => []

/-- What an action makes of the hub. -/
inductive HubStep (s : Session) : Action → Hub → Prop
  | join (peer : Peer) : HubStep s (.join peer) (s.hub.join peer).2
  | leave (name : String) : HubStep s (.leave name) (s.hub.leave name)
  /-- A text is sent through a handle, by somebody or by a tunnel. -/
  | say {a : Action} {handle : Peer} {text : String} (hsaid : s.said? a = some (handle, text)) :
      HubStep s a (s.hub.send handle text).2.1
  /-- The first message is taken off a station's inbox, if there is one. -/
  | take {i : Nat} {st : Station} (hst : s.stations[i]? = some st) :
      HubStep s (.receive i) (s.hub.takeFirst st.inbox).2
  | drain (n : Nat) : HubStep s (.drain n) (s.hub.drain n).2
  | close (n : Nat) : HubStep s (.close n) (s.hub.closeInbox n)
  /-- The hub is not concerned. -/
  | stay {a : Action} (hsaid : s.said? a = none) (htaken : ∀ n, s.taken n a = [])
      (hclose : ∀ n, a ≠ .close n) : HubStep s a s.hub

/-- An action that says something takes nothing. -/
theorem taken_of_said {s : Session} {a : Action} {p : Peer × String} (hsaid : s.said? a = some p)
    (n : Nat) : s.taken n a = [] := by
  cases a with
  | sendText | sendPacket => rfl
  | _ => exact nomatch hsaid

/-- A packet that could be built is a text through the station's handle. -/
theorem hub_sendPacket {s : Session} {i : Nat} {noise : Rsa.Noise} {packet : Packet}
    {recipient : Peer} {st : Station} {payload text : String} (hst : s.stations[i]? = some st)
    (hprepare : st.tunnel.prepare noise packet recipient = .ok (payload, text)) :
    (s.step (.sendPacket i noise packet recipient)).hub = (s.hub.send st.handle text).2.1 := by
  rcases hsend : s.hub.send st.handle text with ⟨_ | _, answer⟩
  · obtain ⟨t, hsent, -, hhub⟩ := sent_refused hst hprepare hsend
    rw [step, hsent]
    exact hhub
  · obtain ⟨t, hsent, -, hhub⟩ := sent_accepted hst hprepare hsend
    rw [step, hsent]
    exact hhub

/-- Receiving takes the first message away, if there is one. -/
theorem hub_receive {s : Session} {i : Nat} {st : Station} (hst : s.stations[i]? = some st) :
    (s.step (.receive i)).hub = (s.hub.takeFirst st.inbox).2 := by
  rw [step]
  cases hreceived : s.received i with
  | some p => exact hub_received hst hreceived
  | none =>
    cases hwaiting : s.hub.waiting st.inbox with
    | nil => rw [Hub.takeFirst_of_waiting_eq_nil hwaiting]
    | cons m rest => exact nomatch hreceived.symm.trans (received_of_waiting hst hwaiting)

/-- Every action makes one of these steps. -/
theorem hub_step (s : Session) (a : Action) : s.HubStep a (s.step a).hub := by
  cases a with
  | join peer => exact .join peer
  | leave name => exact .leave name
  | drain n => exact .drain n
  | close n => exact .close n
  | wait ms => exact .stay rfl (fun _ => rfl) nofun
  | setUp tunnel handle inbox =>
    rw [step]
    split <;> exact .stay rfl (fun _ => rfl) nofun
  | sendText handle text =>
    rw [step]
    split
    · next hhandle => exact .say (if_pos hhandle)
    · next hhandle => exact .stay (if_neg hhandle) (fun _ => rfl) nofun
  | sendPacket i noise packet recipient =>
    cases hst : s.stations[i]? with
    | none =>
      rw [step, sent, hst]
      exact .stay (by rw [said?, hst]; rfl) (fun _ => rfl) nofun
    | some st =>
      cases hprepare : st.tunnel.prepare noise packet recipient with
      | error setback =>
        obtain ⟨result, t, hsent, -, hhub⟩ := sent_failed hst hprepare
        have hstay : (s.step (.sendPacket i noise packet recipient)).hub = s.hub := by
          rw [step, hsent]
          exact hhub
        rw [hstay]
        exact .stay (by rw [said?, hst, Option.bind_some, hprepare]) (fun _ => rfl) nofun
      | ok p =>
        rw [hub_sendPacket hst hprepare]
        exact .say (by rw [said?, hst, Option.bind_some, hprepare])
  | receive i =>
    cases hst : s.stations[i]? with
    | none =>
      rw [step, received, hst]
      exact .stay rfl (fun _ => by rw [taken, hst]) nofun
    | some st =>
      rw [hub_receive hst]
      exact .take hst

/-! ## 4. What an action does to an inbox -/

/-- The action is a sending through the given handle. -/
def sendsThrough (s : Session) (handle : Peer) : Action → Prop
  | .sendText h _ => h = handle ∧ handle ∈ s.handles
  | .sendPacket i _ _ _ => ∃ st, s.stations[i]? = some st ∧ st.handle = handle
  | _ => False

theorem sendsThrough_of_said {s : Session} {a : Action} {handle : Peer} {text : String}
    (hsaid : s.said? a = some (handle, text)) : s.sendsThrough handle a := by
  cases a with
  | sendText handle' text' =>
    rw [said?] at hsaid
    split at hsaid
    · next hhandle =>
      obtain ⟨rfl, rfl⟩ := Prod.mk.inj (Option.some.inj hsaid)
      exact ⟨rfl, hhandle⟩
    · exact nomatch hsaid
  | sendPacket i noise packet recipient =>
    obtain ⟨st, hst, hsaid⟩ := Option.bind_eq_some_iff.mp hsaid
    split at hsaid
    · exact ⟨st, hst, (Prod.mk.inj (Option.some.inj hsaid)).1⟩
    · exact nomatch hsaid
  | _ => exact nomatch hsaid

theorem waiting_receive {s : Session} {i : Nat} {st : Station} (hst : s.stations[i]? = some st)
    (n : Nat) : (s.step (.receive i)).hub.waiting n
      = if st.inbox = n then (s.hub.waiting n).drop 1 else s.hub.waiting n := by
  rw [hub_receive hst, Hub.waiting_takeFirst]

/-- **Inboxes are queues.**  An action either puts messages behind what waits in an inbox, and then
it sends through the handle of their author, or takes messages away from the front. -/
theorem waiting_step (s : Session) (a : Action) (n : Nat) :
    (∃ new, (s.step a).hub.waiting n = s.hub.waiting n ++ new ∧
        ∀ m ∈ new, s.sendsThrough m.sender a) ∨
      ∃ k, (s.step a).hub.waiting n = (s.hub.waiting n).drop k := by
  have hclear : ∀ k, (if k = n then [] else s.hub.waiting n) = (s.hub.waiting n).drop
      (if k = n then (s.hub.waiting n).length else 0) := by
    intro k
    split
    · exact List.drop_length.symm
    · rfl
  generalize hhub : (s.step a).hub = hub
  cases hhub ▸ s.hub_step a with
  | join peer => exact .inr ⟨0, Hub.waiting_join s.hub peer n⟩
  | leave name => exact .inr ⟨0, Hub.waiting_leave s.hub name n⟩
  | say hsaid =>
    obtain ⟨new, hnew, hsender⟩ := Hub.waiting_send s.hub _ _ n
    exact .inl ⟨new, hnew, fun m hm => hsender m hm ▸ sendsThrough_of_said hsaid⟩
  | @take i st hst =>
    refine .inr ⟨if st.inbox = n then 1 else 0, ?_⟩
    rw [Hub.waiting_takeFirst]
    split <;> rfl
  | drain k => exact .inr ⟨_, (Hub.waiting_drain s.hub k n).trans (hclear k)⟩
  | close k => exact .inr ⟨_, (Hub.waiting_closeInbox s.hub k n).trans (hclear k)⟩
  | stay => exact .inr ⟨0, rfl⟩

end Session

end TextTunnel
