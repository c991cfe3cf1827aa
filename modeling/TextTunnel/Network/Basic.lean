import TextTunnel.Relay.Hub
import TextTunnel.Tunnel.Inbound
import TextTunnel.Tunnel.Outbound

/-!
# Networks

Several tunnels on one hub, on one clock. Each is a node under a label of its own; the labels are
names for the outside and nothing that participants see.

A node usually sends through its handle on the hub. It can also have another outlet, to see what a
tunnel does when its relay loses texts, refuses them, or delivers the echo before it returns.

* `Node.relay` -- what a node sends through.
* `Network.onNode` -- lets something happen at one node, and keeps the network in step with it.
-/

namespace TextTunnel

/-- What a node sends through. -/
inductive Outlet where
  /-- Its handle on the hub. -/
  | hub
  /-- Accepts every text and delivers none. -/
  | sink
  /-- Refuses every text. -/
  | broken
  /-- Delivers what a whisper carries back to the node before it returns. -/
  | mirror
  deriving DecidableEq, Repr

/-- What is behind the relays of a network's nodes. -/
structure Backdrop where
  hub : Hub
  /-- What became of the messages that a mirror delivered. -/
  mirrored : List InboundOutcome

/-- One participant of a network. -/
structure Node where
  tunnel : Tunnel
  outlet : Outlet
  /-- Number of its inbox on the hub. -/
  inbox : Nat
  echo : EchoFilter

/-- Several tunnels on one hub. -/
structure Network where
  hub : Hub
  /-- Each label at most once. -/
  nodes : List (String × Node)
  /-- Milliseconds. -/
  now : Nat
  /-- How many packets were sent so far; each gets padding of its own. -/
  sends : Nat

/-- What has happened at one node. -/
structure Happening (α : Type) where
  result : α
  /-- The effects, the earliest first. -/
  effects : List Effect
  /-- What became of the messages that a mirror delivered. -/
  mirrored : List InboundOutcome

/-! ## 1. Relays -/

/-- The handle of a participant on the hub. -/
def Hub.relay (peer : Peer) : Relay Backdrop := fun text s =>
  let (result, hub, events) := s.world.hub.send peer text
  (result, { s with world := { s.world with hub } }.emit (events.map .log))

/-- A relay that delivers what a whisper carries to its own sender, before it returns. -/
def Tunnel.mirrorRelay (t : Tunnel) (now : Nat) : Relay Backdrop := fun text s =>
  match RelayCommand.body? text with
  | none => (.ok (), s)
  | some body =>
    let (outcome, s) := t.onText now body t.self s
    (.ok (), { s with world := { s.world with mirrored := s.world.mirrored ++ [outcome] } })

/-- What a node sends through. -/
def Node.relay (n : Node) (now : Nat) : Relay Backdrop :=
  match n.outlet with
  | .hub => Hub.relay n.tunnel.self
  | .sink => fun _ s => (.ok (), s)
  | .broken => fun _ s => (.error .disconnected, s)
  | .mirror => n.tunnel.mirrorRelay now

/-! ## 2. Nodes -/

namespace Network

/-- A network that nobody has joined. -/
def new (maxMessageLen : Nat) (whisperCommand : String) : Network :=
  ⟨.new maxMessageLen whisperCommand, [], 0, 0⟩

/-- The node with the given label. -/
def node? (w : Network) (label : String) : Option Node :=
  (w.nodes.find? fun n => n.1 == label).map (·.2)

/-- Puts a node under a label. -/
def setNode (w : Network) (label : String) (n : Node) : Network :=
  { w with nodes := w.nodes.filter (fun n => n.1 != label) ++ [(label, n)] }

/-- Lets something happen at a node, if there is one under the label. -/
def onNode {α : Type} (w : Network) (label : String)
    (act : Node → TunnelState Backdrop → α × TunnelState Backdrop) :
    Option (Happening α × Network) :=
  (w.node? label).map fun n =>
    let (result, s) := act n ⟨n.echo, [], ⟨w.hub, []⟩⟩
    (⟨result, s.effects, s.world.mirrored⟩,
      { w with hub := s.world.hub }.setNode label { n with echo := s.echo })

/-- Lets time pass. -/
def advance (w : Network) (ms : Nat) : Network :=
  { w with now := w.now + ms }

end Network

end TextTunnel
