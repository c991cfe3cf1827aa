import TextTunnel.Peer
import TextTunnel.Rsa

/-!
# Key rings

A tunnel looks up keys in a ring: its own key pair, if it has one, and the public keys of others by
their ids. Without an own pair it can send and never receives.
-/

namespace TextTunnel

/-- An own key pair and the public keys of contacts. -/
structure KeyRing where
  own : Option Rsa.Keypair
  /-- Each id at most once. -/
  contacts : List (Uuid × Rsa.PublicKey)

namespace KeyRing

/-- No contacts yet. -/
def new (own : Option Rsa.Keypair) : KeyRing :=
  ⟨own, []⟩

/-- The number of contacts. -/
def size (r : KeyRing) : Nat :=
  r.contacts.length

/-- The public key under an id. -/
def find (r : KeyRing) (id : Uuid) : Option Rsa.PublicKey :=
  (r.contacts.find? fun c => c.1 == id).map (·.2)

/-- The public key of a participant, whatever its name. -/
def publicKeyOf (r : KeyRing) (peer : Peer) : Option Rsa.PublicKey :=
  r.find peer.id

/-- Removes a key, and answers with it. -/
def remove (r : KeyRing) (id : Uuid) : Option Rsa.PublicKey × KeyRing :=
  (r.find id, { r with contacts := r.contacts.filter fun c => c.1 != id })

/-- Records a key, and answers with the one it replaces. -/
def insert (r : KeyRing) (id : Uuid) (key : Rsa.PublicKey) : Option Rsa.PublicKey × KeyRing :=
  let (old, r) := r.remove id
  (old, { r with contacts := r.contacts ++ [(id, key)] })

/-- The own private key. -/
def ownPrivateKey (r : KeyRing) : Option Rsa.PrivateKey :=
  r.own.map (·.privateKey)

end KeyRing

end TextTunnel
