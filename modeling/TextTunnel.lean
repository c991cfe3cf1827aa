import TextTunnel.Registry
import TextTunnel.SafeText
import TextTunnel.Digest.Fingerprint
import TextTunnel.Packet.Json
import TextTunnel.Gzip.Deflate
import TextTunnel.Envelope
import TextTunnel.Config.Load
import TextTunnel.Network.Tamper
import TextTunnel.Network.Traffic
import TextTunnel.Proofs.Tunnel.Addressing
import TextTunnel.Proofs.Tunnel.AllOrNothing
import TextTunnel.Proofs.Tunnel.Dispatch
import TextTunnel.Proofs.Tunnel.FailedSend
import TextTunnel.Proofs.Session.Authentic
import TextTunnel.Proofs.Session.ExactlyOnce
import TextTunnel.Proofs.Session.Membership
import TextTunnel.Proofs.Session.Network
import TextTunnel.Proofs.Registry.Frames
import TextTunnel.Proofs.Tunnel.Truncation
import TextTunnel.Proofs.Tunnel.Reentry
import TextTunnel.Proofs.Registry.Normal
import TextTunnel.Proofs.SafeText.Grammar
import TextTunnel.Proofs.Echo.History
import TextTunnel.Proofs.Envelope.Selection
import TextTunnel.Proofs.Relay.Addressees
import TextTunnel.Proofs.Session.Deliveries
import TextTunnel.Proofs.Tunnel.Length
import TextTunnel.Proofs.Registry.Tables
import TextTunnel.Proofs.Registry.Framing
import TextTunnel.Proofs.Gzip.Bounded
import TextTunnel.Proofs.Packet.RoundTrip
import TextTunnel.Proofs.Echo.Reinsertion
import TextTunnel.Proofs.Tunnel.Loop
import TextTunnel.Proofs.Config.Default
import TextTunnel.Proofs.Config.Precedence
import TextTunnel.Field.Row
import TextTunnel.Proofs.Field.Row
import TextTunnel.Proofs.Tunnel.KeySize
