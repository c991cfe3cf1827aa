import TextTunnel.Proofs.Session.Basic
import TextTunnel.Proofs.Tunnel.RoundTrip

/-!
# Where a packet goes

A tunnel writes the recipient's name into a relay command, and the hub reads a name out of it. The
two mean the same name if neither the whisper command nor the name has a space in it. Otherwise the
hub cuts the command elsewhere: with a space in the whisper command it takes no text for a whisper,
and with one in the recipient's name it takes what stands before that for the name. The sender is
told that all is well in each case.

* `Hub.Delivered.message_eq` -- what an inbox gets shows what was delivered.
* `sendPacket_reaches` -- who gets what, for all names and commands.
* `spaced_name_misses` -- a packet that somebody else gets.
-/

namespace TextTunnel

/-! ## 1. What the hub makes of them -/

namespace Hub

variable {h h' : Hub}

/-- What an inbox gets shows which message was delivered. -/
theorem Delivered.message_eq {is js : List Nat} {m m' : RelayMessage} {n : Nat}
    (hd : h.Delivered h' is m) (hd' : h.Delivered h' js m') (haccepts : h.accepts n = true)
    (hn : n ∈ js) : m' = m := by
  have hsame := (hd n).symm.trans (hd' n)
  rw [if_pos haccepts, if_pos haccepts, List.append_cancel_left_eq] at hsame
  have hmem : m' ∈ List.replicate (js.count n) m' :=
    List.mem_replicate.mpr ⟨(List.count_pos_iff.mpr hn).ne', rfl⟩
  rw [← hsame] at hmem
  exact List.eq_of_mem_replicate hmem

theorem length_le_of_send_ok {handle : Peer} {text : String}
    (hok : (h.send handle text).1 = .ok ()) : text.length ≤ h.maxMessageLen := by
  by_contra hlen
  rw [send_tooLong (Nat.not_le.mp hlen)] at hok
  exact nomatch hok

section Written

variable {handle : Peer} {name body : String} {target sender : Member}

theorem delivered_write (hsender : h.find handle.name = some sender)
    (htarget : h.find name = some target)
    (hok : (h.send handle (RelayCommand.write h.whisperCommand name body)).1 = .ok ())
    (hcommand : ' ' ∉ h.whisperCommand.toList) (hname : ' ' ∉ name.toList) :
    h.Delivered (h.send handle (RelayCommand.write h.whisperCommand name body)).2.1
      [target.inbox, sender.inbox] ⟨body, handle⟩ := by
  rw [send_write hcommand hname hsender htarget (length_le_of_send_ok hok)]
  exact h.delivered_deliverAll _ [target, sender]

theorem delivered_write_of_space_in_command (hsender : h.find handle.name = some sender)
    (hok : (h.send handle (RelayCommand.write h.whisperCommand name body)).1 = .ok ())
    (hcommand : ' ' ∈ h.whisperCommand.toList) :
    h.Delivered (h.send handle (RelayCommand.write h.whisperCommand name body)).2.1
      (h.members.map (·.inbox)) ⟨RelayCommand.write h.whisperCommand name body, handle⟩ := by
  rw [send_broadcast (length_le_of_send_ok hok) hsender
    (RelayCommand.parse_of_space_in_command hcommand _)]
  exact h.delivered_deliverAll _ h.members

/-- If there is no member of the shorter name, the whisper is not accepted. -/
theorem delivered_write_of_space_in_name {first rest : String}
    (hsender : h.find handle.name = some sender)
    (hok : (h.send handle (RelayCommand.write h.whisperCommand (first ++ " " ++ rest) body)).1
      = .ok ())
    (hcommand : ' ' ∉ h.whisperCommand.toList) (hfirst : ' ' ∉ first.toList) :
    ∃ other, h.find first = some other ∧
      h.Delivered (h.send handle (RelayCommand.write h.whisperCommand (first ++ " " ++ rest) body)).2.1
        [other.inbox, sender.inbox] ⟨rest ++ " " ++ body, handle⟩ := by
  have hlen := length_le_of_send_ok hok
  rw [RelayCommand.write_of_space_in_name] at hok hlen ⊢
  cases hfind : h.find first with
  | none =>
    rw [send_whisper_unknown hlen hsender (RelayCommand.parse_write hcommand hfirst) hfind] at hok
    exact nomatch hok
  | some other => exact ⟨other, rfl, delivered_write hsender hfind hok hcommand hfirst⟩

/-- A whisper that is delivered as it was meant has no space in its command or name. The sender's
inbox shows which delivery it was: each of the others is of a longer text. -/
theorem spaceless_of_delivered (hsender : h.find handle.name = some sender)
    (hok : (h.send handle (RelayCommand.write h.whisperCommand name body)).1 = .ok ())
    (hlistens : h.accepts sender.inbox = true)
    (hmeant : h.Delivered (h.send handle (RelayCommand.write h.whisperCommand name body)).2.1
      [target.inbox, sender.inbox] ⟨body, handle⟩) :
    ' ' ∉ h.whisperCommand.toList ∧ ' ' ∉ name.toList := by
  have hspace : " ".length = 1 := by decide
  have hcommand : ' ' ∉ h.whisperCommand.toList := by
    intro hcommand
    have hall := delivered_write_of_space_in_command hsender hok hcommand
    have hmember : sender.inbox ∈ h.members.map (·.inbox) :=
      List.mem_map.mpr ⟨sender, List.mem_of_find?_eq_some hsender, rfl⟩
    have htext := congrArg (·.text.length) (hmeant.message_eq hall hlistens hmember)
    simp only [RelayCommand.write, String.length_append, hspace] at htext
    omega
  refine ⟨hcommand, fun hname => ?_⟩
  obtain ⟨first, rest, hfirst, rfl⟩ := RelayCommand.exists_split_at_space hname
  obtain ⟨other, -, hother⟩ := delivered_write_of_space_in_name hsender hok hcommand hfirst
  have htext := congrArg (·.text.length)
    (hmeant.message_eq hother hlistens (List.mem_pair.mpr (.inr rfl)))
  simp only [String.length_append, hspace] at htext
  omega

end Written

end Hub

/-! ## 2. Packets -/

namespace Tunnel

variable {t : Tunnel} {handle : Peer} {noise : Rsa.Noise} {now : Nat} {packet : Packet}
  {recipient : Peer} {s : TunnelState Backdrop}

/-- A packet that could be built is a text through the handle, and the hub's answer is passed on. -/
theorem sendPacket_through_hub (handle : Peer) (now : Nat) (s : TunnelState Backdrop)
    {payload text : String} (hprepare : t.prepare noise packet recipient = .ok (payload, text)) :
    (t.sendPacket (Hub.relay handle) noise now packet recipient s).1
        = (s.world.hub.send handle text).1.mapError .relay ∧
      (t.sendPacket (Hub.relay handle) noise now packet recipient s).2.world.hub
        = (s.world.hub.send handle text).2.1 := by
  have hworld : (t.handedOver now packet recipient payload text s).world = s.world := rfl
  rw [sendPacket_of_prepare_ok _ _ _ hprepare]
  rcases hsend : s.world.hub.send handle text with ⟨_ | _, answer⟩
  · rw [Session.relay_eq (hworld ▸ hsend)]
    exact ⟨rfl, rfl⟩
  · rw [Session.relay_eq (hworld ▸ hsend)]
    exact ⟨rfl, rfl⟩

/-- A packet that was sent through a hub is a text that the hub has accepted. -/
theorem hub_of_sendPacket_ok (hlossless : t.compressor.Lossless)
    (hok : (t.sendPacket (Hub.relay handle) noise now packet recipient s).1 = .ok ()) :
    ∃ payload, t.prepare noise packet recipient = .ok (payload, t.address recipient payload) ∧
      (s.world.hub.send handle (t.address recipient payload)).1 = .ok () ∧
      (t.sendPacket (Hub.relay handle) noise now packet recipient s).2.world.hub
        = (s.world.hub.send handle (t.address recipient payload)).2.1 := by
  obtain ⟨payload, hprepare⟩ := exists_prepare_of_sendPacket_ok hlossless hok
  obtain ⟨hanswer, hhub⟩ := sendPacket_through_hub handle now s hprepare
  refine ⟨payload, hprepare, ?_, hhub⟩
  rw [hok] at hanswer
  cases hresult : (s.world.hub.send handle (t.address recipient payload)).1 with
  | error e =>
    rw [hresult] at hanswer
    exact nomatch hanswer
  | ok u => rfl

/-- **Where a packet goes.**  A member whose compressor loses nothing has sent a packet through a hub
that shares its whisper command, to a recipient with the name of a member, and was told that all is
well. If neither the command nor the name has a space in it, the member of that name and the sender
get one copy each of the header with the payload, and nobody else gets anything; and that is so in
no other case, if the sender listens. With a space in the command, all members get the whole relay
command. With one in the name only, it is the member whose name stands before the space that gets a
copy, and the rest of the name stands before the header. -/
theorem sendPacket_reaches {target sender : Member} (hlossless : t.compressor.Lossless)
    (hcommand : s.world.hub.whisperCommand = t.config.relay.whisperCommand)
    (htarget : s.world.hub.find recipient.name = some target)
    (hsender : s.world.hub.find handle.name = some sender)
    (hok : (t.sendPacket (Hub.relay handle) noise now packet recipient s).1 = .ok ()) :
    let hub := s.world.hub
    let hub' := (t.sendPacket (Hub.relay handle) noise now packet recipient s).2.world.hub
    ∃ payload, t.prepare noise packet recipient = .ok (payload, t.address recipient payload) ∧
      (' ' ∉ hub.whisperCommand.toList → ' ' ∉ recipient.name.toList →
        hub.Delivered hub' [target.inbox, sender.inbox] ⟨Wire.envelopeHeader ++ payload, handle⟩) ∧
      (hub.accepts sender.inbox = true →
        hub.Delivered hub' [target.inbox, sender.inbox] ⟨Wire.envelopeHeader ++ payload, handle⟩ →
          ' ' ∉ hub.whisperCommand.toList ∧ ' ' ∉ recipient.name.toList) ∧
      (' ' ∈ hub.whisperCommand.toList →
        hub.Delivered hub' (hub.members.map (·.inbox)) ⟨t.address recipient payload, handle⟩) ∧
      (' ' ∉ hub.whisperCommand.toList → ∀ first rest, ' ' ∉ first.toList →
        recipient.name = first ++ " " ++ rest → ∃ other, hub.find first = some other ∧
          hub.Delivered hub' [other.inbox, sender.inbox]
            ⟨rest ++ " " ++ (Wire.envelopeHeader ++ payload), handle⟩) := by
  intro hub hub'
  obtain ⟨payload, hprepare, haccepted, hhub⟩ := hub_of_sendPacket_ok hlossless hok
  have hwrite : t.address recipient payload
      = RelayCommand.write hub.whisperCommand recipient.name (Wire.envelopeHeader ++ payload) := by
    rw [address, ← hcommand]
  rw [show hub' = _ from hhub]
  refine ⟨payload, hprepare, ?_⟩
  rw [hwrite] at haccepted ⊢
  refine ⟨?_, ?_, ?_, ?_⟩
  · exact Hub.delivered_write hsender htarget haccepted
  · exact Hub.spaceless_of_delivered hsender haccepted
  · exact Hub.delivered_write_of_space_in_command hsender haccepted
  · rintro hspaceless first rest hfirst hname
    rw [hname] at haccepted ⊢
    exact Hub.delivered_write_of_space_in_name hsender haccepted hspaceless hfirst

/-- A hub with the usual settings that the participants have joined one after another. -/
def hubOf (ps : List Peer) : Hub where
  maxMessageLen := Wire.defaultMaxMessageLen
  whisperCommand := Wire.defaultWhisperCommand
  members := ps.mapIdx fun i p => ⟨p, i⟩
  inboxes := List.replicate ps.length ⟨[], true⟩

/-- Ann's tunnel before she sends anything, on such a hub. -/
def annAmong (ps : List Peer) : TunnelState Backdrop :=
  ⟨(acquainted ann).newEcho, [], ⟨hubOf ps, []⟩⟩

/-- Ann greets ben, and both get the envelope. -/
theorem sendPacket_reaches_ben :
    ((acquainted ann).sendPacket (Hub.relay ann) (.numbered 0) 0 greeting ben
        (annAmong [ann, ben])).1 = .ok () ∧
      ∃ payload, ∀ n < 2, ((acquainted ann).sendPacket (Hub.relay ann) (.numbered 0) 0 greeting ben
        (annAmong [ann, ben])).2.world.hub.waiting n = [⟨Wire.envelopeHeader ++ payload, ann⟩] := by
  obtain ⟨payload, hprepare⟩ := exists_prepare_greeting (.numbered 0)
  obtain ⟨-, -, -, -, hlen⟩ := prepare_eq_ok_iff.mp hprepare
  have hok : ((acquainted ann).sendPacket (Hub.relay ann) (.numbered 0) 0 greeting ben
      (annAmong [ann, ben])).1 = .ok () := by
    have hsend : (hubOf [ann, ben]).send ann ((acquainted ann).address ben payload)
        = (.ok (), (hubOf [ann, ben]).deliverAll ⟨Wire.envelopeHeader ++ payload, ann⟩
            [⟨ben, 1⟩, ⟨ann, 0⟩]) :=
      Hub.send_write (by decide) (by decide) rfl rfl hlen
    rw [(sendPacket_through_hub ann 0 (annAmong [ann, ben]) hprepare).1]
    exact congrArg (fun r => r.1.mapError TunnelError.relay) hsend
  have hann : (hubOf [ann, ben]).find ann.name = some ⟨ann, 0⟩ := rfl
  have hben : (hubOf [ann, ben]).find ben.name = some ⟨ben, 1⟩ := rfl
  obtain ⟨payload', -, hdelivered, -⟩ := sendPacket_reaches Gzip.lossless_inMemory rfl hben hann hok
  refine ⟨hok, payload', fun n hn => ?_⟩
  rw [hdelivered (by decide) (by decide) n]
  obtain rfl | rfl : n = 0 ∨ n = 1 := by omega
  · rfl
  · rfl

/-- A member whose name has a space in it, and one whose name is what stands before the space. -/
def benSmith : Peer := ⟨"ben smith", ben.id⟩

def otherBen : Peer := ⟨"ben", ⟨List.replicate 16 3, rfl⟩⟩

/-- Ann greets ben smith and is told that all is well, but he gets nothing, and another ben gets a
text that does not start with the header. -/
theorem spaced_name_misses :
    ((acquainted ann).sendPacket (Hub.relay ann) (.numbered 0) 0 greeting benSmith
        (annAmong [ann, otherBen, benSmith])).1 = .ok () ∧
      (hubOf [ann, otherBen, benSmith]).find benSmith.name = some ⟨benSmith, 2⟩ ∧
      ((acquainted ann).sendPacket (Hub.relay ann) (.numbered 0) 0 greeting benSmith
        (annAmong [ann, otherBen, benSmith])).2.world.hub.waiting 2 = [] ∧
      ∃ payload, ((acquainted ann).sendPacket (Hub.relay ann) (.numbered 0) 0 greeting benSmith
        (annAmong [ann, otherBen, benSmith])).2.world.hub.waiting 1
          = [⟨"smith " ++ (Wire.envelopeHeader ++ payload), ann⟩] := by
  have hkey : (acquainted ann).keys.publicKeyOf benSmith = some Rsa.Keypair.pierpont.publicKey := rfl
  obtain ⟨payload, hprepare⟩ := exists_prepare_greeting_to hkey (by decide) (.numbered 0)
  obtain ⟨-, -, -, -, hlen⟩ := prepare_eq_ok_iff.mp hprepare
  have hparse : RelayCommand.parse Wire.defaultWhisperCommand
      ((acquainted ann).address benSmith payload)
        = .whisper otherBen.name ("smith" ++ " " ++ (Wire.envelopeHeader ++ payload)) := by
    have hname : benSmith.name = otherBen.name ++ " " ++ "smith" := by decide
    rw [address, hname, RelayCommand.write_of_space_in_name]
    exact RelayCommand.parse_write (by decide) (by decide)
  have hsend : (hubOf [ann, otherBen, benSmith]).send ann ((acquainted ann).address benSmith payload)
      = (.ok (), (hubOf [ann, otherBen, benSmith]).deliverAll
          ⟨"smith" ++ " " ++ (Wire.envelopeHeader ++ payload), ann⟩ [⟨otherBen, 1⟩, ⟨ann, 0⟩]) :=
    Hub.send_whisper hlen rfl hparse rfl
  obtain ⟨hanswer, hhub⟩ :=
    sendPacket_through_hub ann 0 (annAmong [ann, otherBen, benSmith]) hprepare
  have hworld : (annAmong [ann, otherBen, benSmith]).world.hub = hubOf [ann, otherBen, benSmith] := rfl
  rw [hworld, hsend] at hanswer hhub
  rw [hhub]
  exact ⟨hanswer, rfl, rfl, payload, rfl⟩

end Tunnel

end TextTunnel
