import TextTunnel.Uuid

/-!
# Relay participants

A participant has a display name, which the relay shows and addresses it by, and a stable id.
-/

namespace TextTunnel

/-- A relay participant as the relay itself reports it. -/
structure Peer where
  /-- Display name, as the relay shows it. -/
  name : String
  /-- Stable unique identity. -/
  id : Uuid
  deriving DecidableEq

namespace Peer

/-- Name and id are all there is to a participant. -/
protected theorem ext_iff {p q : Peer} : p = q ↔ p.name = q.name ∧ p.id = q.id := by
  cases p
  cases q
  simp

/-- The name, with the id in parentheses. -/
protected def toString (p : Peer) : String :=
  p.name ++ " (" ++ p.id.toString ++ ")"

instance : ToString Peer := ⟨Peer.toString⟩

end Peer

end TextTunnel
