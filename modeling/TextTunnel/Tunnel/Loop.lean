import TextTunnel.Tunnel.Inbound

/-!
# Receiving all messages

A receiving loop takes messages one by one, each completely before the next, and counts what became
of them. Messages without an envelope are handed on.

* `Tunnel.runInboundWith` -- the loop over messages that arrive one after another, each at its time,
  with any receiver of what is handed on.
* `Tunnel.runInbound` -- the same over messages that have all arrived, with a list of what is handed
  on.
-/

namespace TextTunnel

/-- How many messages had each outcome. -/
structure InboundStats where
  plain : Nat := 0
  echoes : Nat := 0
  dropped : Nat := 0
  dispatched : Nat := 0
  unhandled : Nat := 0
  deriving DecidableEq, Repr

/-- Counts one more outcome. -/
def InboundStats.record (c : InboundStats) : InboundOutcome → InboundStats
  | .notTunnel => { c with plain := c.plain + 1 }
  | .echo => { c with echoes := c.echoes + 1 }
  | .dropped _ => { c with dropped := c.dropped + 1 }
  | .dispatched _ => { c with dispatched := c.dispatched + 1 }
  | .unhandled _ => { c with unhandled := c.unhandled + 1 }

namespace Tunnel

variable {σ τ : Type}

/-- A message, and when the loop takes it out of the inbox. -/
structure Arrival where
  time : Nat
  message : RelayMessage
  deriving DecidableEq

/-- What becomes of a message that the loop takes. -/
def onArrival (t : Tunnel) (a : Arrival) (s : TunnelState σ) : InboundOutcome × TunnelState σ :=
  t.onText a.time a.message.text a.message.sender s

/-- How far a receiving loop has come. -/
structure LoopState (σ τ : Type) where
  stats : InboundStats
  /-- What the messages that were handed on have made of their receiver. -/
  receiver : τ
  tunnel : TunnelState σ

/-- One round: a message goes through the tunnel, is handed on if there is no envelope in it, and
its outcome is counted. -/
def round (t : Tunnel) (handOn : RelayMessage → τ → τ) (s : LoopState σ τ) (a : Arrival) :
    LoopState σ τ :=
  let (outcome, tunnel) := t.onArrival a s.tunnel
  { stats := s.stats.record outcome
    receiver := if outcome = .notTunnel then handOn a.message s.receiver else s.receiver
    tunnel }

/-- Receives messages until the inbox is closed and empty. -/
def runInboundWith (t : Tunnel) (handOn : RelayMessage → τ → τ) (arrivals : List Arrival)
    (receiver : τ) (s : TunnelState σ) : LoopState σ τ :=
  let s := arrivals.foldl (t.round handOn) ⟨{}, receiver, s⟩
  { s with
    tunnel := s.tunnel.logged
      (.inboxFinished t.self s.stats.dispatched s.stats.dropped s.stats.echoes) }

/-- What the loop has done with messages that had all arrived. -/
structure LoopResult where
  stats : InboundStats
  /-- The messages without an envelope. -/
  plain : List RelayMessage

/-- Receives all messages of an inbox that has been closed. -/
def runInbound (t : Tunnel) (now : Nat) (ms : List RelayMessage) (s : TunnelState σ) :
    LoopResult × TunnelState σ :=
  let s := t.runInboundWith (fun m plain => plain ++ [m]) (ms.map (Arrival.mk now)) [] s
  (⟨s.stats, s.receiver⟩, s.tunnel)

end Tunnel

end TextTunnel
