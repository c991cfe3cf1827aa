import TextTunnel.Network.Basic
import TextTunnel.Tunnel.Loop

/-!
# Traffic

What can happen in a network: participants join and leave, send packets or plain texts, and receive
what waits for them.

* `Network.join` -- a participant joins the hub and gets a tunnel.
* `Network.send`, `Network.say` -- a packet through the node's outlet, a text through the hub.
* `Network.receiveNext` -- the first waiting message; `Network.receiveAll` is that, again and again.
* `Network.receiveToEnd` -- closes the inbox and runs the receiving loop on what is left.
-/

namespace TextTunnel

/-- What a participant brings along. -/
structure Participant where
  peer : Peer
  own : Option Rsa.Keypair
  contacts : List (Uuid × Rsa.PublicKey)
  handlers : List (PacketKind × Handler)
  observers : List Observer
  config : Config
  registry : Registry
  outlet : Outlet
  feedback : FeedbackSink

namespace Participant

/-- The key ring, with what its making puts into the log. -/
def keyRing (p : Participant) : List Event × KeyRing :=
  (p.own.toList.map (fun pair => .ownKeyInstalled pair.fingerprint)
      ++ p.contacts.map fun c => .peerKeyRecorded c.1 c.2.fingerprint,
    p.contacts.foldl (fun r c => (r.insert c.1 c.2).2) (.new p.own))

/-- The tunnel, with what its making puts into the log. -/
def tunnel (p : Participant) (keys : KeyRing) : List Event × Tunnel :=
  let t := { Tunnel.new p.config p.peer keys with
    registry := p.registry, feedback := p.feedback, observers := p.observers }
  p.handlers.foldl (fun (es, t) h =>
    let (es', t) := t.registerHandler h.1 h.2
    (es ++ es', t)) ([], t)

end Participant

namespace Network

/-- A participant joins the hub. It gets a node under the label; the inbox of the node that was there
before is closed. -/
def join (w : Network) (label : String) (p : Participant) : Happening Unit × Network :=
  let (keyEvents, keys) := p.keyRing
  let (inbox, hub) := w.hub.join p.peer
  let (tunnelEvents, tunnel) := p.tunnel keys
  let hub := match w.node? label with
    | some old => hub.closeInbox old.inbox
    | none => hub
  let events := keyEvents ++ .joinedRelay p.peer :: tunnelEvents
  (⟨(), events.map .log, []⟩,
    { w with hub }.setNode label ⟨tunnel, p.outlet, inbox, tunnel.newEcho⟩)

/-- The participant with the given name is removed from the hub. -/
def leave (w : Network) (name : String) : Network :=
  { w with hub := w.hub.leave name }

/-! ## 1. Sending -/

/-- A node sends a packet. -/
def send (w : Network) (label : String) (packet : Packet) (recipient : Peer) :
    Option (Happening (Except TunnelError Unit) × Network) :=
  { w with sends := w.sends + 1 }.onNode label fun n s =>
    n.tunnel.sendPacket (n.relay w.now) (.numbered w.sends) w.now packet recipient s

/-- A node sends a text through its handle on the hub. -/
def say (w : Network) (label : String) (text : String) :
    Option (Happening (Except RelayError Unit) × Network) :=
  w.onNode label fun n s => Hub.relay n.tunnel.self text s

/-! ## 2. Receiving -/

/-- A node is shown a message that did not come out of its inbox. -/
def present (w : Network) (label : String) (m : RelayMessage) :
    Option (Happening InboundOutcome × Network) :=
  w.onNode label fun n s => n.tunnel.onText w.now m.text m.sender s

/-- A node takes the first waiting message and treats it. -/
def takeNext (now : Nat) (n : Node) (s : TunnelState Backdrop) :
    Option InboundOutcome × TunnelState Backdrop :=
  let (m, hub) := s.world.hub.takeFirst n.inbox
  let s := { s with world := { s.world with hub } }
  match m with
  | none => (none, s)
  | some m =>
    let (outcome, s) := n.tunnel.onText now m.text m.sender s
    (some outcome, s)

/-- A node takes so many waiting messages, one after another. -/
def takeMany (now : Nat) (n : Node) : Nat → TunnelState Backdrop →
    List InboundOutcome × TunnelState Backdrop
  | 0, s => ([], s)
  | k + 1, s =>
    let (outcome, s) := takeNext now n s
    let (outcomes, s) := takeMany now n k s
    (outcome.toList ++ outcomes, s)

/-- A node treats the first waiting message. -/
def receiveNext (w : Network) (label : String) :
    Option (Happening (Option InboundOutcome) × Network) :=
  w.onNode label (takeNext w.now)

/-- A node treats all messages that wait. -/
def receiveAll (w : Network) (label : String) :
    Option (Happening (List InboundOutcome) × Network) :=
  w.onNode label fun n s => takeMany w.now n (s.world.hub.waiting n.inbox).length s

/-- The messages that wait for a node are taken away before it sees them. -/
def intercept (w : Network) (label : String) : Option (List RelayMessage × Network) :=
  (w.node? label).map fun n =>
    let (ms, hub) := w.hub.drain n.inbox
    (ms, { w with hub })

/-- A node stops listening. -/
def stopListening (w : Network) (label : String) : Option Network :=
  (w.node? label).map fun n => { w with hub := w.hub.closeInbox n.inbox }

/-- A node stops listening and runs its receiving loop to the end. -/
def receiveToEnd (w : Network) (label : String) : Option (Happening Tunnel.LoopResult × Network) :=
  w.onNode label fun n s =>
    let ms := s.world.hub.waiting n.inbox
    let hub := s.world.hub.closeInbox n.inbox
    n.tunnel.runInbound w.now ms { s with world := { s.world with hub } }

end Network

end TextTunnel
