import Mathlib.Data.List.Nodup
import TextTunnel.Proofs.Relay.Delivery

/-!
# Whom a text reaches

A text is refused, or it reaches two inboxes, or all of them. Which it is follows from the names of
the members and from the words of the text, and the reasons for refusing it have an order: a text
that is too long is not looked at, and nothing is looked up for somebody who is not a member.

* `Hub.Sound` -- members can be told apart by their names, and by their inboxes.
* `Hub.Addresses` -- the six ways that a text can go.
* `Hub.addressed` -- which of them it is; `addresses_iff` says that it is exactly one.
* `send_of_addressed` -- and that is what happens.
-/

namespace TextTunnel.Hub

/-! ## 1. Members -/

/-- No two members have one name or one inbox, and the inbox of each is there. -/
structure Sound (h : Hub) : Prop where
  names : (h.members.map (·.peer.name)).Nodup
  inboxes : (h.members.map (·.inbox)).Nodup
  inbox_lt : ∀ m ∈ h.members, m.inbox < h.inboxes.length

variable {h : Hub}

theorem find_eq_none_iff {name : String} :
    h.find name = none ↔ ∀ m ∈ h.members, m.peer.name ≠ name := by
  rw [find, List.find?_eq_none]
  simp

theorem mem_of_find {name : String} {m : Member} (hfind : h.find name = some m) :
    m ∈ h.members ∧ m.peer.name = name := by
  rw [find] at hfind
  exact ⟨List.mem_of_find?_eq_some hfind, by simpa using List.find?_some hfind⟩

theorem Sound.find_eq (hs : h.Sound) {m : Member} (hm : m ∈ h.members) :
    h.find m.peer.name = some m := by
  cases hfind : h.find m.peer.name with
  | none => exact absurd rfl (find_eq_none_iff.mp hfind m hm)
  | some m' =>
    obtain ⟨hm', hname⟩ := mem_of_find hfind
    rw [List.inj_on_of_nodup_map hs.names hm' hm hname]

theorem sound_new (maxMessageLen : Nat) (command : String) : (new maxMessageLen command).Sound :=
  ⟨List.nodup_nil, List.nodup_nil, fun _ hm => absurd hm List.not_mem_nil⟩

theorem Sound.leave (hs : h.Sound) (name : String) : (h.leave name).Sound where
  names := hs.names.sublist (List.filter_sublist.map _)
  inboxes := hs.inboxes.sublist (List.filter_sublist.map _)
  inbox_lt := fun m hm => hs.inbox_lt m (List.mem_of_mem_filter hm)

theorem Sound.join (hs : h.Sound) (peer : Peer) : (h.join peer).2.Sound := by
  have hleft := hs.leave peer.name
  have hfree : ∀ m ∈ (h.leave peer.name).members, m.peer.name ≠ peer.name :=
    find_eq_none_iff.mp (find_leave_self h peer.name)
  refine ⟨?_, ?_, fun m hm => ?_⟩
  · rw [members_join, List.map_append, List.map_singleton, List.nodup_append]
    refine ⟨hleft.names, List.nodup_singleton _, fun name hname other hother => ?_⟩
    obtain ⟨m, hm, rfl⟩ := List.mem_map.mp hname
    rw [List.mem_singleton.mp hother]
    exact hfree m hm
  · rw [members_join, List.map_append, List.map_singleton, List.nodup_append]
    refine ⟨hleft.inboxes, List.nodup_singleton _, fun n hn other hother => ?_⟩
    obtain ⟨m, hm, rfl⟩ := List.mem_map.mp hn
    rw [List.mem_singleton.mp hother]
    exact Nat.ne_of_lt (hleft.inbox_lt m hm)
  · rw [length_inboxes_join]
    rw [members_join] at hm
    rcases List.mem_append.mp hm with hm | hm
    · exact Nat.lt_succ_of_lt (hleft.inbox_lt m hm)
    · rw [List.mem_singleton.mp hm]
      exact Nat.lt_succ_self _

theorem Sound.of_eq {h' : Hub} (hs : h.Sound) (hmembers : h'.members = h.members)
    (hlength : h'.inboxes.length = h.inboxes.length) : h'.Sound := by
  refine ⟨?_, ?_, ?_⟩
  · rw [hmembers]
    exact hs.names
  · rw [hmembers]
    exact hs.inboxes
  · rw [hmembers, hlength]
    exact hs.inbox_lt

/-! ## 2. Six ways to go -/

/-- Where a text goes that is sent through a handle: the inboxes that it reaches and the message
that they get, or why it reaches none. -/
inductive Addresses (h : Hub) (handle : Peer) (text : String) :
    Except RelayError (List Nat × RelayMessage) → Prop
  /-- It is too long, whoever sends it. -/
  | tooLong (hlen : h.maxMessageLen < text.length) :
      Addresses h handle text (.error (.tooLong text.length h.maxMessageLen))
  /-- Nobody is a member under the sender's name. -/
  | disconnected (hlen : text.length ≤ h.maxMessageLen)
      (hnobody : ∀ m ∈ h.members, m.peer.name ≠ handle.name) :
      Addresses h handle text (.error .disconnected)
  /-- It starts with the whisper command and does not have two spaces. -/
  | incomplete (hlen : text.length ≤ h.maxMessageLen) (sender : Member)
      (hsender : sender ∈ h.members) (hname : sender.peer.name = handle.name)
      (hcommand : RelayCommand.firstWord text = h.whisperCommand)
      (hspaces : text.toList.count ' ' < 2) :
      Addresses h handle text (.error (.unknownRecipient ""))
  /-- It is a whisper, and nobody is a member under the name between the spaces. -/
  | unknown (hlen : text.length ≤ h.maxMessageLen) (sender : Member)
      (hsender : sender ∈ h.members) (hname : sender.peer.name = handle.name) (name body : String)
      (hcommand : ' ' ∉ h.whisperCommand.toList) (hspaceless : ' ' ∉ name.toList)
      (htext : text = RelayCommand.write h.whisperCommand name body)
      (hnobody : ∀ m ∈ h.members, m.peer.name ≠ name) :
      Addresses h handle text (.error (.unknownRecipient name))
  /-- It is a whisper: what is behind the second space reaches the member of that name, and the
  member under the sender's name, which may be the same one. -/
  | whisper (hlen : text.length ≤ h.maxMessageLen) (sender target : Member)
      (hsender : sender ∈ h.members) (hname : sender.peer.name = handle.name) (body : String)
      (hcommand : ' ' ∉ h.whisperCommand.toList) (htarget : target ∈ h.members)
      (hspaceless : ' ' ∉ target.peer.name.toList)
      (htext : text = RelayCommand.write h.whisperCommand target.peer.name body) :
      Addresses h handle text (.ok ([target.inbox, sender.inbox], ⟨body, handle⟩))
  /-- It does not start with the whisper command: all of it reaches every member. -/
  | broadcast (hlen : text.length ≤ h.maxMessageLen) (sender : Member)
      (hsender : sender ∈ h.members) (hname : sender.peer.name = handle.name)
      (hcommand : RelayCommand.firstWord text ≠ h.whisperCommand) :
      Addresses h handle text (.ok (h.members.map (·.inbox), ⟨text, handle⟩))

/-- Which inboxes a text reaches, and the message that they get. -/
def addressed (h : Hub) (handle : Peer) (text : String) :
    Except RelayError (List Nat × RelayMessage) :=
  (h.route handle text).map fun (members, body) => (members.map (·.inbox), ⟨body, handle⟩)

section Addressed

variable {handle : Peer} {text : String} {sender : Member}

theorem addressed_of_find (hlen : text.length ≤ h.maxMessageLen)
    (hfind : h.find handle.name = some sender) :
    h.addressed handle text =
      (h.recipients sender text).map fun (members, body) =>
        (members.map (·.inbox), ⟨body, handle⟩) := by
  rw [addressed, route, if_neg (Nat.not_lt.mpr hlen), hfind]

/-- Each text goes in one of the six ways. -/
theorem addresses_addressed (h : Hub) (handle : Peer) (text : String) :
    h.Addresses handle text (h.addressed handle text) := by
  by_cases hlen : h.maxMessageLen < text.length
  · rw [addressed, route, if_pos hlen]
    exact .tooLong hlen
  replace hlen := Nat.not_lt.mp hlen
  cases hfind : h.find handle.name with
  | none =>
    rw [addressed, route, if_neg (Nat.not_lt.mpr hlen), hfind]
    exact .disconnected hlen (find_eq_none_iff.mp hfind)
  | some sender =>
    obtain ⟨hsender, hname⟩ := mem_of_find hfind
    rw [addressed_of_find hlen hfind, recipients]
    by_cases hcommand : RelayCommand.firstWord text = h.whisperCommand
    · by_cases hspaces : text.toList.count ' ' < 2
      · rw [RelayCommand.parse_of_few_spaces hcommand hspaces]
        exact .incomplete hlen sender hsender hname hcommand hspaces
      · obtain ⟨name, body, hspaceless, hspaceless', rfl⟩ :=
          RelayCommand.exists_write_of_spaces hcommand (Nat.not_lt.mp hspaces)
        rw [RelayCommand.parse_write hspaceless hspaceless']
        dsimp only
        cases htarget : h.find name with
        | none =>
          exact .unknown hlen sender hsender hname name body hspaceless hspaceless' rfl
            (find_eq_none_iff.mp htarget)
        | some target =>
          obtain ⟨hmember, rfl⟩ := mem_of_find htarget
          exact .whisper hlen sender target hsender hname body hspaceless hmember hspaceless' rfl
    · rw [RelayCommand.parse_of_firstWord_ne hcommand]
      exact .broadcast hlen sender hsender hname hcommand

theorem Sound.addressed_of_member (hs : h.Sound) (hlen : text.length ≤ h.maxMessageLen)
    (hsender : sender ∈ h.members) (hname : sender.peer.name = handle.name) :
    h.addressed handle text =
      (h.recipients sender text).map fun (members, body) =>
        (members.map (·.inbox), ⟨body, handle⟩) :=
  addressed_of_find hlen (hname ▸ hs.find_eq hsender)

/-- And in no other, if the members can be told apart. -/
theorem Addresses.eq_addressed (hs : h.Sound) {answer : Except RelayError (List Nat × RelayMessage)}
    (ha : h.Addresses handle text answer) : h.addressed handle text = answer := by
  cases ha with
  | tooLong hlen =>
    rw [addressed, route, if_pos hlen]
    rfl
  | disconnected hlen hnobody =>
    rw [addressed, route, if_neg (Nat.not_lt.mpr hlen), find_eq_none_iff.mpr hnobody]
    rfl
  | incomplete hlen sender hsender hname hcommand hspaces =>
    rw [hs.addressed_of_member hlen hsender hname, recipients,
      RelayCommand.parse_of_few_spaces hcommand hspaces]
    rfl
  | unknown hlen sender hsender hname name body hcommand hspaceless htext hnobody =>
    rw [hs.addressed_of_member hlen hsender hname, recipients, htext,
      RelayCommand.parse_write hcommand hspaceless]
    dsimp only
    rw [find_eq_none_iff.mpr hnobody]
    rfl
  | whisper hlen sender target hsender hname body hcommand htarget hspaceless htext =>
    rw [hs.addressed_of_member hlen hsender hname, recipients, htext,
      RelayCommand.parse_write hcommand hspaceless]
    dsimp only
    rw [hs.find_eq htarget]
    rfl
  | broadcast hlen sender hsender hname hcommand =>
    rw [hs.addressed_of_member hlen hsender hname, recipients,
      RelayCommand.parse_of_firstWord_ne hcommand]
    rfl

theorem Sound.addresses_iff (hs : h.Sound) {answer : Except RelayError (List Nat × RelayMessage)} :
    h.Addresses handle text answer ↔ h.addressed handle text = answer :=
  ⟨fun ha => ha.eq_addressed hs, fun ha => ha ▸ h.addresses_addressed handle text⟩

/-! ## 3. What is sent -/

/-- **A text is delivered where it goes**, in the name of the handle's owner, or nothing happens. -/
theorem send_of_addressed (h : Hub) (handle : Peer) (text : String) :
    match h.addressed handle text with
    | .error e => h.send handle text = (.error e, h, [])
    | .ok (inboxes, message) => (h.send handle text).1 = .ok () ∧ message.sender = handle ∧
        h.Delivered (h.send handle text).2.1 inboxes message := by
  rw [addressed, send]
  cases h.route handle text with
  | error e => rfl
  | ok p => exact ⟨rfl, rfl, h.delivered_deliverAll _ p.1⟩

/-- What a hub refuses for its length is over the limit. -/
theorem length_of_send_tooLong {len max : Nat}
    (hsend : (h.send handle text).1 = .error (.tooLong len max)) :
    h.maxMessageLen < text.length := by
  have hanswer := h.send_of_addressed handle text
  have hcases := h.addresses_addressed handle text
  cases haddressed : h.addressed handle text with
  | error e =>
    rw [haddressed] at hanswer hcases
    rw [show h.send handle text = (.error e, h, []) from hanswer] at hsend
    obtain rfl := Except.error.inj hsend
    cases hcases with
    | tooLong hlen => exact hlen
  | ok p =>
    rw [haddressed] at hanswer
    exact nomatch hanswer.1.symm.trans hsend

/-- The copies of a text that are for an inbox. -/
def copies (h : Hub) (handle : Peer) (text : String) (n : Nat) : List RelayMessage :=
  match h.addressed handle text with
  | .ok (inboxes, message) => List.replicate (inboxes.count n) message
  | .error _ => []

theorem waiting_send_eq (h : Hub) (handle : Peer) (text : String) (n : Nat) :
    (h.send handle text).2.1.waiting n
      = h.waiting n ++ if h.accepts n then h.copies handle text n else [] := by
  have hsend := h.send_of_addressed handle text
  rw [copies]
  cases haddressed : h.addressed handle text with
  | error e =>
    rw [haddressed] at hsend
    rw [show h.send handle text = (.error e, h, []) from hsend]
    simp
  | ok p =>
    rw [haddressed] at hsend
    rw [hsend.2.2 n]
    dsimp only
    split <;> rfl

/-- Only inboxes that are there are written to. -/
theorem Sound.copies_eq_nil (hs : h.Sound) {n : Nat} (hn : h.inboxes.length ≤ n) :
    h.copies handle text n = [] := by
  have hnot : ∀ m ∈ h.members, m.inbox ≠ n := fun m hm =>
    Nat.ne_of_lt (Nat.lt_of_lt_of_le (hs.inbox_lt m hm) hn)
  have hcases := h.addresses_addressed handle text
  rw [copies]
  cases haddressed : h.addressed handle text with
  | error e => rfl
  | ok p =>
    rw [haddressed] at hcases
    have hcount : p.1.count n = 0 := by
      rw [List.count_eq_zero]
      cases hcases with
      | whisper _ sender target hsender _ _ _ htarget =>
        simp [(hnot sender hsender).symm, (hnot target htarget).symm]
      | broadcast =>
        intro hmem
        obtain ⟨m, hm, hinbox⟩ := List.mem_map.mp hmem
        exact hnot m hm hinbox
    dsimp only
    rw [hcount, List.replicate_zero]

end Addressed

end TextTunnel.Hub
