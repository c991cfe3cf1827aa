import TextTunnel.Event
import TextTunnel.Relay.Command
import TextTunnel.Relay.Message

/-!
# A relay in memory

A hub is a relay whose participants are known by their display names. Each join opens an inbox of
its own, and a join under a name that is taken replaces the participant; the inbox of the old one
gets nothing more.

* `Hub.join`, `Hub.leave` -- who takes part.
* `Hub.send` -- a whisper goes to its recipient and to the sender, every other text to everybody,
  the sender included. The reported author is always the one whose handle was used.
* `Hub.drain`, `Hub.closeInbox` -- the receiving side.

A handle is known by its peer alone: it can send as long as somebody takes part under its name.
-/

namespace TextTunnel

/-- What has been delivered and not been taken, and whether the receiver still listens. -/
structure Inbox where
  waiting : List RelayMessage
  isOpen : Bool
  deriving DecidableEq

/-- A participant, with the number of its inbox. -/
structure Member where
  peer : Peer
  inbox : Nat
  deriving DecidableEq

/-- The state of a hub. -/
structure Hub where
  /-- Longest text, in characters. -/
  maxMessageLen : Nat
  whisperCommand : String
  /-- Each name at most once. -/
  members : List Member
  /-- One inbox for each join that ever was, by number. -/
  inboxes : List Inbox
  deriving DecidableEq

namespace Hub

/-- A hub that nobody has joined. -/
def new (maxMessageLen : Nat) (whisperCommand : String) : Hub :=
  ⟨maxMessageLen, whisperCommand, [], []⟩

/-- The participant with the given name. -/
def find (h : Hub) (name : String) : Option Member :=
  h.members.find? fun m => m.peer.name == name

/-! ## 1. Taking part -/

/-- Removes the participant with the given name. -/
def leave (h : Hub) (name : String) : Hub :=
  { h with members := h.members.filter fun m => m.peer.name != name }

/-- Adds a participant, in place of one of the same name. Answers with the number of its inbox. -/
def join (h : Hub) (peer : Peer) : Nat × Hub :=
  let inbox := h.inboxes.length
  let h := h.leave peer.name
  (inbox, { h with members := h.members ++ [⟨peer, inbox⟩], inboxes := h.inboxes ++ [⟨[], true⟩] })

/-! ## 2. Inboxes -/

/-- The inbox with the given number. -/
def inbox? (h : Hub) (n : Nat) : Option Inbox :=
  h.inboxes[n]?

/-- The messages that wait in an inbox. -/
def waiting (h : Hub) (n : Nat) : List RelayMessage :=
  match h.inbox? n with
  | some i => i.waiting
  | none => []

/-- Takes all waiting messages. -/
def drain (h : Hub) (n : Nat) : List RelayMessage × Hub :=
  (h.waiting n, { h with inboxes := h.inboxes.modify n fun i => { i with waiting := [] } })

/-- Takes the first waiting message. -/
def takeFirst (h : Hub) (n : Nat) : Option RelayMessage × Hub :=
  ((h.waiting n).head?,
    { h with inboxes := h.inboxes.modify n fun i => { i with waiting := i.waiting.drop 1 } })

/-- The receiver stops listening: what waits is lost, and nothing more arrives. -/
def closeInbox (h : Hub) (n : Nat) : Hub :=
  { h with inboxes := h.inboxes.modify n fun _ => ⟨[], false⟩ }

/-- Whether messages can still arrive in an inbox. -/
def isConnected (h : Hub) (n : Nat) : Bool :=
  h.members.any fun m => m.inbox == n

/-! ## 3. Sending -/

/-- Puts a message into a participant's inbox, or notes that nobody listens there. -/
def deliver (h : Hub) (m : Member) (msg : RelayMessage) : Hub × List Event :=
  match h.inbox? m.inbox with
  | some ⟨_, true⟩ =>
    ({ h with inboxes := h.inboxes.modify m.inbox fun i => { i with waiting := i.waiting ++ [msg] } },
      [])
  | _ => (h, [.messageDiscarded m.peer])

/-- Puts a message into several inboxes, one after another. -/
def deliverAll (h : Hub) (msg : RelayMessage) : List Member → Hub × List Event
  | [] => (h, [])
  | m :: ms =>
    let (h, es) := h.deliver m msg
    let (h, es') := deliverAll h msg ms
    (h, es ++ es')

/-- Who gets a text, and what of it. -/
def recipients (h : Hub) (sender : Member) (text : String) :
    Except RelayError (List Member × String) :=
  match RelayCommand.parse h.whisperCommand text with
  | .broadcast => .ok (h.members, text)
  | .incomplete => .error (.unknownRecipient "")
  | .whisper name body =>
    match h.find name with
    | some target => .ok ([target, sender], body)
    | none => .error (.unknownRecipient name)

/-- Decides on a text sent through the handle of `peer`. -/
def route (h : Hub) (peer : Peer) (text : String) : Except RelayError (List Member × String) :=
  if h.maxMessageLen < text.length then .error (.tooLong text.length h.maxMessageLen)
  else
    match h.find peer.name with
    | none => .error .disconnected
    | some sender => h.recipients sender text

/-- Sends a text through the handle of `peer`. -/
def send (h : Hub) (peer : Peer) (text : String) : Except RelayError Unit × Hub × List Event :=
  match h.route peer text with
  | .error e => (.error e, h, [])
  | .ok (members, body) => (.ok (), h.deliverAll ⟨body, peer⟩ members)

end Hub

end TextTunnel
