import TextTunnel.Proofs.Relay.Command
import TextTunnel.Relay.Hub

/-!
# What a hub does to its inboxes

Sending only ever puts copies of one message behind what waits in some inboxes; taking, draining and
closing only ever take messages away. Who is a member changes by joining and leaving alone.

* `waiting_deliverAll`, `Delivered` -- what a delivery puts into each inbox.
* `send_cases`, `waiting_send` -- what sending does; `send_whisper`, `send_broadcast` and others say
  it for each kind of text.
* `waiting_takeFirst`, `waiting_drain`, `waiting_closeInbox`, `waiting_join` -- the other
  operations.
* `find_join_self`, `find_leave_self`, `members_send` -- who is a member after an operation.
-/

namespace TextTunnel

namespace Hub

/-! ## 1. Delivering -/

/-- Whether there is such an inbox and its receiver still listens. -/
def accepts (h : Hub) (n : Nat) : Bool :=
  match h.inbox? n with
  | some i => i.isOpen
  | none => false

/-- The hub with a message put into one inbox, or as it was if nobody listens there. -/
theorem inbox?_deliver (h : Hub) (m : Member) (msg : RelayMessage) (n : Nat) :
    (h.deliver m msg).1.inbox? n =
      (h.inbox? n).map fun i =>
        if m.inbox = n ∧ i.isOpen then { i with waiting := i.waiting ++ [msg] } else i := by
  rw [deliver]
  split
  · next waiting hm =>
    rw [inbox?, List.getElem?_modify]
    by_cases hn : m.inbox = n
    · subst hn
      rw [inbox?] at hm ⊢
      simp [hm]
    · simp [inbox?, hn]
  · next hm =>
    cases hi : h.inbox? n with
    | none => rfl
    | some i =>
      have hne : ¬ (m.inbox = n ∧ i.isOpen = true) := by
        rintro ⟨rfl, hopen⟩
        obtain ⟨waiting, isOpen⟩ := i
        dsimp only at hopen
        subst hopen
        exact hm waiting hi
      simp only [Option.map_some, if_neg hne]

theorem accepts_deliver (h : Hub) (m : Member) (msg : RelayMessage) (n : Nat) :
    (h.deliver m msg).1.accepts n = h.accepts n := by
  rw [accepts, accepts, inbox?_deliver]
  cases h.inbox? n with
  | none => rfl
  | some i =>
    dsimp only [Option.map_some]
    split <;> rfl

theorem waiting_deliver (h : Hub) (m : Member) (msg : RelayMessage) (n : Nat) :
    (h.deliver m msg).1.waiting n
      = h.waiting n ++ if m.inbox = n ∧ h.accepts n then [msg] else [] := by
  rw [waiting, waiting, accepts, inbox?_deliver]
  cases h.inbox? n with
  | none => simp
  | some i =>
    dsimp only [Option.map_some]
    split <;> simp

/-- Delivering touches the inboxes only. -/
theorem deliver_eq (h : Hub) (m : Member) (msg : RelayMessage) :
    (h.deliver m msg).1 = { h with inboxes := (h.deliver m msg).1.inboxes } := by
  rw [deliver]
  split <;> rfl

theorem deliverAll_cons (h : Hub) (msg : RelayMessage) (m : Member) (ms : List Member) :
    (h.deliverAll msg (m :: ms)).1 = ((h.deliver m msg).1.deliverAll msg ms).1 :=
  rfl

theorem deliverAll_eq (h : Hub) (msg : RelayMessage) (ms : List Member) :
    (h.deliverAll msg ms).1 = { h with inboxes := (h.deliverAll msg ms).1.inboxes } := by
  induction ms generalizing h with
  | nil => rfl
  | cons m ms ih => rw [deliverAll_cons, ih, deliver_eq]

theorem accepts_deliverAll (h : Hub) (msg : RelayMessage) (ms : List Member) (n : Nat) :
    (h.deliverAll msg ms).1.accepts n = h.accepts n := by
  induction ms generalizing h with
  | nil => rfl
  | cons m ms ih => rw [deliverAll_cons, ih, accepts_deliver]

/-- **A delivery only appends.**  Each inbox gets one copy of the message for each time that it is
among the addressees, if its receiver listens. -/
theorem waiting_deliverAll (h : Hub) (msg : RelayMessage) (ms : List Member) (n : Nat) :
    (h.deliverAll msg ms).1.waiting n
      = h.waiting n ++ (ms.filter fun m => m.inbox = n ∧ h.accepts n).map fun _ => msg := by
  induction ms generalizing h with
  | nil => simp [deliverAll]
  | cons m ms ih =>
    rw [deliverAll_cons, ih, waiting_deliver, List.append_assoc]
    simp only [accepts_deliver]
    by_cases hm : m.inbox = n ∧ h.accepts n = true
    · rw [if_pos hm, List.filter_cons, if_pos (decide_eq_true hm)]
      rfl
    · rw [if_neg hm, List.filter_cons, if_neg (by rwa [decide_eq_true_eq])]
      rfl

/-- The inboxes have got one copy of the message for each time that they are listed, if their
receivers listen, and no other inbox has changed. -/
def Delivered (h h' : Hub) (inboxes : List Nat) (msg : RelayMessage) : Prop :=
  ∀ n, h'.waiting n
    = h.waiting n ++ List.replicate (if h.accepts n then inboxes.count n else 0) msg

theorem delivered_deliverAll (h : Hub) (msg : RelayMessage) (ms : List Member) :
    h.Delivered (h.deliverAll msg ms).1 (ms.map (·.inbox)) msg := by
  intro n
  rw [waiting_deliverAll, List.map_const', ← List.countP_eq_length_filter, List.count,
    List.countP_map]
  congr 2
  split
  · next haccepts =>
    refine List.countP_congr fun m _ => ?_
    simp [haccepts]
  · next hrefuses => simp [hrefuses]

/-! ## 2. Sending -/

/-- Sending through a handle either changes nothing, or delivers one text, under the name of the
handle, to some members. -/
theorem send_cases (h : Hub) (peer : Peer) (text : String) :
    (∃ e, h.send peer text = (.error e, h, [])) ∨
      ∃ members body, h.route peer text = .ok (members, body) ∧
        h.send peer text = (.ok (), h.deliverAll ⟨body, peer⟩ members) := by
  rw [send]
  cases h.route peer text with
  | error e => exact .inl ⟨e, rfl⟩
  | ok p => exact .inr ⟨p.1, p.2, rfl, rfl⟩

/-- What sending puts into an inbox comes from the owner of the handle. -/
theorem waiting_send (h : Hub) (peer : Peer) (text : String) (n : Nat) :
    ∃ new, (h.send peer text).2.1.waiting n = h.waiting n ++ new ∧ ∀ m ∈ new, m.sender = peer := by
  rcases h.send_cases peer text with ⟨e, he⟩ | ⟨members, body, -, hsend⟩
  · exact ⟨[], by rw [he, List.append_nil], fun m hm => absurd hm List.not_mem_nil⟩
  · rw [hsend]
    refine ⟨_, waiting_deliverAll h _ members n, fun m hm => ?_⟩
    obtain ⟨-, -, rfl⟩ := List.mem_map.mp hm
    rfl

/-- Sending opens and closes no inbox. -/
theorem accepts_send (h : Hub) (peer : Peer) (text : String) (n : Nat) :
    (h.send peer text).2.1.accepts n = h.accepts n := by
  rcases h.send_cases peer text with ⟨e, he⟩ | ⟨members, body, -, hsend⟩
  · rw [he]
  · rw [hsend]
    exact accepts_deliverAll h _ members n

/-- A whisper to a member is delivered to it and to the member under the sender's name. -/
theorem send_whisper {h : Hub} {sender target : Member} {peer : Peer} {text name body : String}
    (hlen : text.length ≤ h.maxMessageLen) (hsender : h.find peer.name = some sender)
    (hparse : RelayCommand.parse h.whisperCommand text = .whisper name body)
    (htarget : h.find name = some target) :
    h.send peer text = (.ok (), h.deliverAll ⟨body, peer⟩ [target, sender]) := by
  have hroute : h.route peer text = .ok ([target, sender], body) := by
    rw [route, if_neg (Nat.not_lt.mpr hlen), hsender]
    dsimp only
    rw [recipients, hparse]
    dsimp only
    rw [htarget]
  rw [send, hroute]

/-- A whisper from one member to another is delivered to both, the recipient first. -/
theorem send_write {h : Hub} {sender target : Member} {peer : Peer} {name body : String}
    (hcommand : ' ' ∉ h.whisperCommand.toList) (hname : ' ' ∉ name.toList)
    (hsender : h.find peer.name = some sender) (htarget : h.find name = some target)
    (hlen : (RelayCommand.write h.whisperCommand name body).length ≤ h.maxMessageLen) :
    h.send peer (RelayCommand.write h.whisperCommand name body)
      = (.ok (), h.deliverAll ⟨body, peer⟩ [target, sender]) :=
  send_whisper hlen hsender (RelayCommand.parse_write hcommand hname) htarget

/-- A whisper to nobody is refused. -/
theorem send_whisper_unknown {h : Hub} {sender : Member} {peer : Peer} {text name body : String}
    (hlen : text.length ≤ h.maxMessageLen) (hsender : h.find peer.name = some sender)
    (hparse : RelayCommand.parse h.whisperCommand text = .whisper name body)
    (htarget : h.find name = none) :
    h.send peer text = (.error (.unknownRecipient name), h, []) := by
  have hroute : h.route peer text = .error (.unknownRecipient name) := by
    rw [route, if_neg (Nat.not_lt.mpr hlen), hsender]
    dsimp only
    rw [recipients, hparse]
    dsimp only
    rw [htarget]
  rw [send, hroute]

/-- A text that is no whisper is delivered to all members. -/
theorem send_broadcast {h : Hub} {sender : Member} {peer : Peer} {text : String}
    (hlen : text.length ≤ h.maxMessageLen) (hsender : h.find peer.name = some sender)
    (hparse : RelayCommand.parse h.whisperCommand text = .broadcast) :
    h.send peer text = (.ok (), h.deliverAll ⟨text, peer⟩ h.members) := by
  have hroute : h.route peer text = .ok (h.members, text) := by
    rw [route, if_neg (Nat.not_lt.mpr hlen), hsender]
    dsimp only
    rw [recipients, hparse]
  rw [send, hroute]

/-- Without a member under the sender's name, nothing is sent. -/
theorem send_disconnected {h : Hub} {peer : Peer} {text : String}
    (hlen : text.length ≤ h.maxMessageLen) (hsender : h.find peer.name = none) :
    h.send peer text = (.error .disconnected, h, []) := by
  rw [send, route, if_neg (Nat.not_lt.mpr hlen), hsender]

/-- A text over the limit is refused. -/
theorem send_tooLong {h : Hub} {peer : Peer} {text : String}
    (hlen : h.maxMessageLen < text.length) :
    h.send peer text = (.error (.tooLong text.length h.maxMessageLen), h, []) := by
  rw [send, route, if_pos hlen]

/-! ## 3. Taking away, joining and leaving -/

theorem inbox?_takeFirst (h : Hub) (k n : Nat) :
    (h.takeFirst k).2.inbox? n =
      (h.inbox? n).map fun i => if k = n then { i with waiting := i.waiting.drop 1 } else i := by
  rw [takeFirst, inbox?, inbox?, List.getElem?_modify]
  split <;> simp

theorem waiting_takeFirst (h : Hub) (k n : Nat) :
    (h.takeFirst k).2.waiting n = if k = n then (h.waiting n).drop 1 else h.waiting n := by
  rw [waiting, waiting, inbox?_takeFirst]
  cases h.inbox? n with
  | none => simp
  | some i =>
    dsimp only [Option.map_some]
    split <;> rfl

theorem accepts_takeFirst (h : Hub) (k n : Nat) : (h.takeFirst k).2.accepts n = h.accepts n := by
  rw [accepts, accepts, inbox?_takeFirst]
  cases h.inbox? n with
  | none => rfl
  | some i =>
    dsimp only [Option.map_some]
    split <;> rfl

/-- Nothing can be taken off an empty inbox. -/
theorem takeFirst_of_waiting_eq_nil {h : Hub} {n : Nat} (hempty : h.waiting n = []) :
    h.takeFirst n = (none, h) := by
  have hinboxes : h.inboxes.modify n (fun i => { i with waiting := i.waiting.drop 1 })
      = h.inboxes := by
    refine List.ext_getElem? fun k => ?_
    rw [List.getElem?_modify]
    cases hk : h.inboxes[k]? with
    | none => rfl
    | some i =>
      rw [Option.map_eq_map, Option.map_some]
      split
      · next hn =>
        subst hn
        rw [Hub.waiting, Hub.inbox?, hk] at hempty
        obtain ⟨waiting, isOpen⟩ := i
        obtain rfl : waiting = [] := hempty
        rfl
      · rfl
  rw [takeFirst, hempty, hinboxes]
  rfl

theorem waiting_drain (h : Hub) (k n : Nat) :
    (h.drain k).2.waiting n = if k = n then [] else h.waiting n := by
  rw [waiting, waiting, drain, inbox?, inbox?, List.getElem?_modify]
  cases h.inboxes[n]? with
  | none => simp
  | some i => by_cases hk : k = n <;> simp [hk]

theorem accepts_drain (h : Hub) (k n : Nat) : (h.drain k).2.accepts n = h.accepts n := by
  rw [accepts, accepts, drain, inbox?, inbox?, List.getElem?_modify]
  cases h.inboxes[n]? with
  | none => simp
  | some i => by_cases hk : k = n <;> simp [hk]

theorem waiting_closeInbox (h : Hub) (k n : Nat) :
    (h.closeInbox k).waiting n = if k = n then [] else h.waiting n := by
  rw [waiting, waiting, closeInbox, inbox?, inbox?, List.getElem?_modify]
  cases h.inboxes[n]? with
  | none => simp
  | some i => by_cases hk : k = n <;> simp [hk]

theorem accepts_closeInbox (h : Hub) (k n : Nat) :
    (h.closeInbox k).accepts n = (decide (k ≠ n) && h.accepts n) := by
  rw [accepts, accepts, closeInbox, inbox?, inbox?, List.getElem?_modify]
  cases h.inboxes[n]? with
  | none => simp
  | some i => by_cases hk : k = n <;> simp [hk]

theorem waiting_join (h : Hub) (peer : Peer) (n : Nat) :
    (h.join peer).2.waiting n = h.waiting n := by
  have hinbox : (h.join peer).2.inbox? n = (h.inboxes ++ [⟨[], true⟩])[n]? := rfl
  rw [waiting, waiting, hinbox, inbox?]
  rcases Nat.lt_trichotomy n h.inboxes.length with hn | rfl | hn
  · rw [List.getElem?_append_left hn]
  · simp
  · rw [List.getElem?_eq_none (by simp; omega), List.getElem?_eq_none (by omega)]

/-- Joining opens one more inbox and leaves the others as they are. -/
theorem accepts_join (h : Hub) (peer : Peer) {n : Nat} (hn : n < h.inboxes.length) :
    (h.join peer).2.accepts n = h.accepts n := by
  have hinbox : (h.join peer).2.inbox? n = (h.inboxes ++ [⟨[], true⟩])[n]? := rfl
  rw [accepts, accepts, hinbox, List.getElem?_append_left hn]
  rfl

theorem accepts_join_self (h : Hub) (peer : Peer) :
    (h.join peer).2.accepts h.inboxes.length = true := by
  have hinbox : (h.join peer).2.inbox? h.inboxes.length
      = (h.inboxes ++ [⟨[], true⟩])[h.inboxes.length]? := rfl
  rw [accepts, hinbox, List.getElem?_concat_length]

theorem leave_of_forall_ne {h : Hub} {name : String} (hne : ∀ m ∈ h.members, m.peer.name ≠ name) :
    h.leave name = h := by
  have hkeep : h.members.filter (fun m => m.peer.name != name) = h.members :=
    List.filter_eq_self.mpr fun m hm => bne_iff_ne.mpr (hne m hm)
  rw [leave, hkeep]

theorem waiting_leave (h : Hub) (name : String) (n : Nat) :
    (h.leave name).waiting n = h.waiting n :=
  rfl

theorem accepts_leave (h : Hub) (name : String) (n : Nat) :
    (h.leave name).accepts n = h.accepts n :=
  rfl

/-! ## 4. Who is a member -/

theorem find_leave_self (h : Hub) (name : String) : (h.leave name).find name = none := by
  rw [find, leave, List.find?_eq_none]
  intro m hm hname
  exact bne_iff_ne.mp (List.mem_filter.mp hm).2 (eq_of_beq hname)

theorem find_leave_of_ne (h : Hub) {name other : String} (hne : name ≠ other) :
    (h.leave name).find other = h.find other := by
  rw [find, find, leave, List.find?_filter]
  congr 1
  funext m
  by_cases hm : m.peer.name = other
  · simp [hm, hne.symm]
  · simp [hm]

theorem members_join (h : Hub) (peer : Peer) :
    (h.join peer).2.members = (h.leave peer.name).members ++ [⟨peer, h.inboxes.length⟩] :=
  rfl

/-- Whoever has joined last under a name is found there. -/
theorem find_join_self (h : Hub) (peer : Peer) :
    (h.join peer).2.find peer.name = some ⟨peer, h.inboxes.length⟩ := by
  have hleft : ((h.leave peer.name).members.find? fun m => m.peer.name == peer.name) = none :=
    find_leave_self h peer.name
  rw [find, members_join, List.find?_append, hleft]
  simp

theorem find_join_of_ne (h : Hub) {peer : Peer} {other : String} (hne : peer.name ≠ other) :
    (h.join peer).2.find other = h.find other := by
  have hleft : ((h.leave peer.name).members.find? fun m => m.peer.name == other) = h.find other :=
    find_leave_of_ne h hne
  rw [find, members_join, List.find?_append, hleft]
  simp [hne]

/-- Sending leaves the members as they are. -/
theorem members_send (h : Hub) (peer : Peer) (text : String) :
    (h.send peer text).2.1.members = h.members := by
  rcases h.send_cases peer text with ⟨e, he⟩ | ⟨members, body, -, hsend⟩
  · rw [he]
  · rw [hsend]
    dsimp only
    rw [deliverAll_eq]

/-! ## 5. How many inboxes there are -/

theorem length_inboxes_deliver (h : Hub) (m : Member) (msg : RelayMessage) :
    (h.deliver m msg).1.inboxes.length = h.inboxes.length := by
  rw [deliver]
  split
  · exact List.length_modify ..
  · rfl

theorem length_inboxes_deliverAll (h : Hub) (msg : RelayMessage) (ms : List Member) :
    (h.deliverAll msg ms).1.inboxes.length = h.inboxes.length := by
  induction ms generalizing h with
  | nil => rfl
  | cons m ms ih => rw [deliverAll_cons, ih, length_inboxes_deliver]

theorem length_inboxes_send (h : Hub) (peer : Peer) (text : String) :
    (h.send peer text).2.1.inboxes.length = h.inboxes.length := by
  rcases h.send_cases peer text with ⟨e, he⟩ | ⟨members, body, -, hsend⟩
  · rw [he]
  · rw [hsend]
    exact length_inboxes_deliverAll h _ members

theorem length_inboxes_join (h : Hub) (peer : Peer) :
    (h.join peer).2.inboxes.length = h.inboxes.length + 1 :=
  List.length_append

end Hub

end TextTunnel
