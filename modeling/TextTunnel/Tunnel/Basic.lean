import TextTunnel.Config.Basic
import TextTunnel.Dispatch
import TextTunnel.Echo
import TextTunnel.Event
import TextTunnel.Gzip.Deflate
import TextTunnel.KeyRing
import TextTunnel.Registry
import TextTunnel.Tunnel.Outcome

/-!
# Tunnels

A tunnel is what one participant needs to exchange packets over a relay. What is fixed after setup
is in `Tunnel`. What changes is in `TunnelState`: the memory of sent payloads, the effects so far in
the order in which they took place, and the world behind the relay.

Calls to the application -- handlers, observers, the feedback to the user -- and calls to the relay
are effects. Log lines are effects, too; `Effect.event?` says what each effect puts into the log.
-/

namespace TextTunnel

/-- Somebody who sees every packet that crosses the tunnel, either way. -/
inductive Observer where
  /-- Keeps what it sees. -/
  | recorder
  /-- Writes what it sees into the log. -/
  | logger
  deriving DecidableEq, Repr

/-- Where the local user's messages go. -/
inductive FeedbackSink where
  /-- They are kept. -/
  | recorder
  /-- They go into the log. -/
  | logger
  deriving DecidableEq, Repr

/-- Something that a tunnel does to its surroundings. -/
inductive Effect where
  /-- A line in the log. -/
  | log (e : Event)
  /-- An observer is shown a packet. -/
  | observed (observer : Observer) (flow : PacketFlow) (peer : Peer) (packet : Packet)
  /-- A handler is given a packet. -/
  | handled (handler : Handler) (packet : Packet)
  /-- The local user is told something. -/
  | feedback (sink : FeedbackSink) (line : String)
  /-- A text is handed to the relay. -/
  | relayed (text : String)

/-- What an effect puts into the log. -/
def Effect.event? : Effect → Option Event
  | log e => some e
  | observed .logger flow peer packet => some (.packetObserved flow peer packet)
  | feedback .logger line => some (.feedbackGiven line)
  | _ => none

/-- One participant's side of the tunnel, as it is after setup. -/
structure Tunnel where
  config : Config
  /-- The participant that the tunnel belongs to. -/
  self : Peer
  registry : Registry
  dispatcher : Dispatcher
  keys : KeyRing
  feedback : FeedbackSink
  observers : List Observer
  /-- How frames are compressed. Any gzip members can be decompressed. -/
  compressor : Gzip.Compressor := .inMemory

/-- What changes while a tunnel works. -/
structure TunnelState (σ : Type) where
  echo : EchoFilter
  /-- All effects, the earliest first. -/
  effects : List Effect
  /-- What is behind the relay. -/
  world : σ

/-- A relay takes a text and accepts or refuses it. It may change the world behind it and, by
delivering messages before it returns, also the tunnel's own state. -/
def Relay (σ : Type) := String → TunnelState σ → Except RelayError Unit × TunnelState σ

namespace TunnelState

variable {σ : Type}

/-- Adds effects. -/
def emit (s : TunnelState σ) (es : List Effect) : TunnelState σ :=
  { s with effects := s.effects ++ es }

/-- Adds a log line. -/
def logged (s : TunnelState σ) (e : Event) : TunnelState σ :=
  s.emit [.log e]

end TunnelState

namespace Tunnel

/-- A tunnel with the usual registry, no handlers and no observers. -/
def new (config : Config) (self : Peer) (keys : KeyRing) : Tunnel where
  config := config
  self := self
  registry := .standard
  dispatcher := .empty
  keys := keys
  feedback := .logger
  observers := []

/-- The memory of a tunnel that has sent nothing. -/
def newEcho (t : Tunnel) : EchoFilter :=
  .new (1000 * t.config.echo.windowSecs) t.config.echo.capacity

/-- Installs a handler. Answers with what goes into the log. -/
def registerHandler (t : Tunnel) (kind : PacketKind) (h : Handler) : List Event × Tunnel :=
  let (old, dispatcher) := t.dispatcher.register kind h
  (if old.isSome then [.handlerReplaced kind] else [], { t with dispatcher })

/-- Shows a packet to all observers. -/
def notify {σ : Type} (t : Tunnel) (flow : PacketFlow) (peer : Peer) (packet : Packet)
    (s : TunnelState σ) : TunnelState σ :=
  s.emit (t.observers.map fun o => .observed o flow peer packet)

/-- A participant as text, with the names of its parts. -/
def peerText (p : Peer) : String :=
  "Peer \x7b name: " ++ Text.quotedString p.name ++ ", id: " ++ p.id.toString ++ " \x7d"

/-- A tunnel and its memory as text. -/
def debugText (t : Tunnel) (echo : EchoFilter) : String :=
  "Tunnel \x7b local: " ++ peerText t.self ++ ", registry: " ++ t.registry.debugText
    ++ ", dispatcher: " ++ t.dispatcher.debugText ++ ", echo: " ++ echo.debugText
    ++ ", observers: " ++ toString t.observers.length ++ ", .. \x7d"

end Tunnel

end TextTunnel
