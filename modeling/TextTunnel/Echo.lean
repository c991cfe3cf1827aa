import TextTunnel.Text.Duration

/-!
# Remembering what was sent

The relay shows each participant its own messages again. To know them when they come back, a tunnel
remembers the payloads it has sent, each with the time: for a limited time, and only so many at once.

* `EchoFilter.insert` -- forgets what is too old, makes room by forgetting the oldest, and remembers
  the payload. Room is made whether or not the payload is remembered already.
* `EchoFilter.take` -- forgets a payload and says whether it was remembered and still fresh.
* `EchoFilter.forget` -- forgets a payload that was not sent after all.

Times are in milliseconds on a clock that does not go back.
-/

namespace TextTunnel

/-- A payload that was sent, and when. -/
structure SentPayload where
  payload : String
  sentAt : Nat
  deriving DecidableEq, Repr

/-- The payloads that are remembered. -/
structure EchoFilter where
  /-- Milliseconds for which a payload is fresh. -/
  window : Nat
  /-- The most payloads at once. -/
  capacity : Nat
  /-- Each payload at most once. -/
  sent : List SentPayload
  deriving DecidableEq, Repr

namespace EchoFilter

/-- Nothing is remembered. There is room for at least one payload. -/
def new (window capacity : Nat) : EchoFilter :=
  ⟨window, max 1 capacity, []⟩

/-- The number of payloads that are remembered, fresh or not. -/
def size (f : EchoFilter) : Nat :=
  f.sent.length

/-- Whether something sent at `sentAt` is fresh at `now`. -/
def isFresh (f : EchoFilter) (now sentAt : Nat) : Bool :=
  now - sentAt ≤ f.window

/-- When a payload was sent, if it is remembered. -/
def sentAt? (f : EchoFilter) (payload : String) : Option Nat :=
  (f.sent.find? fun s => s.payload == payload).map (·.sentAt)

/-- Forgets a payload. -/
def forget (f : EchoFilter) (payload : String) : EchoFilter :=
  { f with sent := f.sent.filter fun s => s.payload != payload }

/-- Forgets a payload, and says whether it was remembered and fresh. -/
def take (f : EchoFilter) (now : Nat) (payload : String) : Bool × EchoFilter :=
  match f.sentAt? payload with
  | some t => (f.isFresh now t, f.forget payload)
  | none => (false, f)

/-- Forgets what is no longer fresh. -/
def prune (f : EchoFilter) (now : Nat) : EchoFilter :=
  { f with sent := f.sent.filter fun s => f.isFresh now s.sentAt }

/-- The payload that was sent first; the earlier one in the list among equals. -/
def oldest? : List SentPayload → Option SentPayload
  | [] => none
  | s :: rest =>
    match oldest? rest with
    | none => some s
    | some t => if t.sentAt < s.sentAt then some t else some s

/-- Forgets the `n` oldest payloads, and lists them in the order in which they go. -/
def evict : Nat → EchoFilter → List String × EchoFilter
  | 0, f => ([], f)
  | n + 1, f =>
    match oldest? f.sent with
    | none => ([], f)
    | some s =>
      let (evicted, f) := evict n (f.forget s.payload)
      (s.payload :: evicted, f)

/-- Remembers a payload, and lists the payloads that had to make room for it. -/
def insert (f : EchoFilter) (now : Nat) (payload : String) : List String × EchoFilter :=
  let f := f.prune now
  let (evicted, f) := f.evict (f.size + 1 - f.capacity)
  (evicted, { f.forget payload with sent := (f.forget payload).sent ++ [⟨payload, now⟩] })

/-- How many payloads are remembered, for how long, and how many at most. -/
def debugText (f : EchoFilter) : String :=
  "EchoFilter \x7b pending: " ++ toString f.size ++ ", window: " ++ Text.durationText f.window
    ++ ", capacity: " ++ toString f.capacity ++ " \x7d"

end EchoFilter

end TextTunnel
