import TextTunnel.Tunnel.Inbound
import TextTunnel.Tunnel.Outbound

/-!
# What sending and receiving can do

One lemma for each way that a step of a tunnel can go. Later proofs take a step apart with these and
do not open the definitions again.

* `sendPacket_of_prepare_refused`, `sendPacket_of_prepare_abandoned`, `sendPacket_of_prepare_ok` --
  sending.
* `onText_header`, `receive_cases` -- an envelope is taken for an echo, or received, and what can
  come of it then; `onText_echo`, `onText_accepted` and `onText_dropped` are three of these ways.
* `Tunnel.acceptance` -- what a tunnel does with an authentic packet; `acceptance_of_find_eq_some`
  and `acceptance_of_find_eq_none` say who is called.
* `Tunnel.treats_onText` -- every message is treated in one of five ways, and `Tunnel.Treats` says
  what comes of each.
* `sender_of_mem_inboundPackets` -- whatever is received, only authentic packets get that far.

`inboundPackets` and `calls` pick out of the effects the packets that get through, and what is
called beside the log.
-/

namespace TextTunnel

variable {σ : Type}

/-- The packets that are shown to observers as received, or given to handlers. -/
def inboundPackets (es : List Effect) : List Packet :=
  es.filterMap fun
    | .observed _ .inbound _ packet => some packet
    | .handled _ packet => some packet
    | _ => none

theorem inboundPackets_append (es fs : List Effect) :
    inboundPackets (es ++ fs) = inboundPackets es ++ inboundPackets fs :=
  List.filterMap_append

theorem mem_inboundPackets_append {p : Packet} {es fs : List Effect} :
    p ∈ inboundPackets (es ++ fs) ↔ p ∈ inboundPackets es ∨ p ∈ inboundPackets fs := by
  rw [inboundPackets_append, List.mem_append]

/-- Whether something outside is called: the application or the relay, and not just the log. -/
@[simp] def Effect.isCall : Effect → Bool
  | log _ => false
  | observed _ _ _ _ | handled _ _ | feedback _ _ | relayed _ => true

/-- The calls to the application and to the relay. -/
def calls (es : List Effect) : List Effect :=
  es.filter Effect.isCall

@[simp] theorem calls_nil : calls [] = [] := rfl

@[simp] theorem calls_cons (e : Effect) (es : List Effect) :
    calls (e :: es) = if e.isCall then e :: calls es else calls es :=
  List.filter_cons

@[simp] theorem calls_append (es fs : List Effect) : calls (es ++ fs) = calls es ++ calls fs :=
  List.filter_append es fs

@[simp] theorem calls_map_observed (observers : List Observer) (flow : PacketFlow) (peer : Peer)
    (packet : Packet) :
    calls (observers.map fun o => .observed o flow peer packet)
      = observers.map fun o => .observed o flow peer packet := by
  refine List.filter_eq_self.mpr fun e he => ?_
  obtain ⟨o, -, rfl⟩ := List.mem_map.mp he
  rfl

/-- No packet gets through by the log. -/
theorem inboundPackets_calls (es : List Effect) : inboundPackets (calls es) = inboundPackets es := by
  rw [inboundPackets, calls, List.filterMap_filter]
  congr 1
  funext e
  cases e <;> rfl

namespace Tunnel

/-! ## 1. Sending -/

/-- What the relay gets to see: the tunnel has shown the packet, remembers the payload, and notes
that it hands over the text. -/
def handedOver (t : Tunnel) (now : Nat) (packet : Packet) (recipient : Peer) (payload text : String)
    (s : TunnelState σ) : TunnelState σ :=
  (remember now payload (t.notify .outbound recipient packet s)).emit [.relayed text]

section Send

variable {t : Tunnel} {noise : Rsa.Noise} {packet : Packet} {recipient : Peer}

/-- A packet that is refused changes nothing. -/
theorem sendPacket_of_prepare_refused (relay : Relay σ) (now : Nat) (s : TunnelState σ)
    {e : TunnelError} (h : t.prepare noise packet recipient = .error (.refused e)) :
    t.sendPacket relay noise now packet recipient s = (.error e, s) := by
  rw [sendPacket, h]

/-- A packet that cannot be compressed leaves a line in the log. -/
theorem sendPacket_of_prepare_abandoned (relay : Relay σ) (now : Nat) (s : TunnelState σ)
    {reason : String} (h : t.prepare noise packet recipient = .error (.abandoned reason)) :
    t.sendPacket relay noise now packet recipient s
      = (.ok (), s.logged (.compressionFailed packet.kind reason)) := by
  rw [sendPacket, h]

/-- A packet that could be built goes to the relay, whose answer decides what is kept. -/
theorem sendPacket_of_prepare_ok (relay : Relay σ) (now : Nat) (s : TunnelState σ)
    {payload text : String} (h : t.prepare noise packet recipient = .ok (payload, text)) :
    t.sendPacket relay noise now packet recipient s =
      match relay text (t.handedOver now packet recipient payload text s) with
      | (.error e, s) => (.error (.relay e), { s with echo := s.echo.forget payload })
      | (.ok (), s) =>
        (.ok (), s.logged (.envelopeSent packet.kind recipient payload text.length)) := by
  rw [sendPacket, h]
  rfl

end Send

/-! ## 2. What is done with an authentic packet -/

/-- The outcome and the effects of an authentic packet: all observers see it, and the handler of its
variant, if there is one, gets it. -/
def acceptance (t : Tunnel) (payload : String) (packet : Packet) : InboundOutcome × List Effect :=
  let s : TunnelState Unit := ⟨t.newEcho, [], ()⟩
  let (outcome, s) := t.dispatch payload packet (t.notify .inbound packet.sender packet s)
  (outcome, s.effects)

/-- The state in which a packet arrives decides nothing. -/
theorem dispatch_notify (t : Tunnel) (payload : String) (packet : Packet) (s : TunnelState σ) :
    t.dispatch payload packet (t.notify .inbound packet.sender packet s)
      = ((t.acceptance payload packet).1, s.emit (t.acceptance payload packet).2) := by
  obtain ⟨echo, effects, world⟩ := s
  rw [acceptance, dispatch, dispatch]
  rcases t.dispatcher.dispatch packet with _ | ⟨h, _ | _⟩ <;>
    simp [notify, TunnelState.emit, TunnelState.logged, List.append_assoc]

/-- What the user is told about a packet after its handler has had it: that the handler has failed,
and why. -/
def complaints (t : Tunnel) (handler : Handler) (packet : Packet) : List Effect :=
  match handler.run packet with
  | .ok () => []
  | .error e =>
    [.feedback t.feedback ("Error handling " ++ packet.kind.name ++ " from " ++ packet.sender.name
      ++ ": " ++ e.chain)]

theorem acceptance_of_find_eq_some {t : Tunnel} {packet : Packet} {handler : Handler}
    (payload : String) (hfind : t.dispatcher.find packet.kind = some handler) :
    (t.acceptance payload packet).1 = .dispatched packet.kind ∧
      calls (t.acceptance payload packet).2
        = (t.observers.map fun o => .observed o .inbound packet.sender packet)
          ++ .handled handler packet :: t.complaints handler packet := by
  rw [acceptance, dispatch, Dispatcher.dispatch, hfind, complaints]
  cases hrun : handler.run packet with
  | ok _ => simp [hrun, notify, TunnelState.emit, TunnelState.logged]
  | error _ => simp [hrun, notify, TunnelState.emit, TunnelState.logged]

theorem acceptance_of_find_eq_none {t : Tunnel} {packet : Packet}
    (payload : String) (hfind : t.dispatcher.find packet.kind = none) :
    (t.acceptance payload packet).1 = .unhandled packet.kind ∧
      calls (t.acceptance payload packet).2
        = t.observers.map fun o => .observed o .inbound packet.sender packet := by
  rw [acceptance, dispatch, Dispatcher.dispatch, hfind]
  simp [notify, TunnelState.emit, TunnelState.logged]

theorem acceptance_fst (t : Tunnel) (payload : String) (packet : Packet) :
    (t.acceptance payload packet).1 = .dispatched packet.kind ∨
      (t.acceptance payload packet).1 = .unhandled packet.kind := by
  cases hfind : t.dispatcher.find packet.kind with
  | some handler => exact .inl (acceptance_of_find_eq_some payload hfind).1
  | none => exact .inr (acceptance_of_find_eq_none payload hfind).1

theorem eq_of_mem_acceptance {t : Tunnel} {payload : String} {p packet : Packet}
    (h : p ∈ inboundPackets (t.acceptance payload packet).2) : p = packet := by
  have hobservers : ∀ p, p ∈ inboundPackets
      (t.observers.map fun o => Effect.observed o .inbound packet.sender packet) → p = packet := by
    intro p hp
    obtain ⟨e, he, hp⟩ := List.mem_filterMap.mp hp
    obtain ⟨o, -, rfl⟩ := List.mem_map.mp he
    exact (Option.some.inj hp).symm
  rw [← inboundPackets_calls] at h
  cases hfind : t.dispatcher.find packet.kind with
  | none =>
    rw [(acceptance_of_find_eq_none payload hfind).2] at h
    exact hobservers p h
  | some handler =>
    rw [(acceptance_of_find_eq_some payload hfind).2, mem_inboundPackets_append] at h
    rcases h with h | h
    · exact hobservers p h
    · have hcomplaints : inboundPackets (t.complaints handler packet) = [] := by
        rw [complaints]
        cases handler.run packet <;> rfl
      have hhandled : inboundPackets (.handled handler packet :: t.complaints handler packet)
          = packet :: inboundPackets (t.complaints handler packet) := rfl
      rw [hhandled, hcomplaints] at h
      exact List.mem_singleton.mp h

/-! ## 3. Receiving -/

variable {t : Tunnel} {now : Nat} {payload : String} {sender : Peer} {packet : Packet}

theorem payload?_header (payload : String) :
    payload? (Wire.envelopeHeader ++ payload) = some payload := by
  have hprefix : Wire.envelopeHeader.toList.isPrefixOf
      (Wire.envelopeHeader.toList ++ payload.toList) = true :=
    List.isPrefixOf_iff_prefix.mpr (List.prefix_append _ _)
  rw [payload?, String.toList_append, if_pos hprefix, ← String.length_toList, List.drop_left,
    String.ofList_toList]

/-- The texts with an envelope are those that start with the header. -/
theorem payload?_eq_some_iff {text : String} :
    payload? text = some payload ↔ text = Wire.envelopeHeader ++ payload := by
  constructor
  · intro h
    rw [payload?] at h
    split at h
    · next hprefix =>
      obtain ⟨rest, hrest⟩ := List.isPrefixOf_iff_prefix.mp hprefix
      rw [← hrest, ← String.length_toList, List.drop_left] at h
      obtain rfl := Option.some.inj h
      apply String.toList_injective
      rw [String.toList_append, String.toList_ofList, hrest]
    · exact nomatch h
  · rintro rfl
    exact payload?_header payload

theorem onText_of_payload?_eq_none {text : String} (h : payload? text = none) (now : Nat)
    (sender : Peer) (s : TunnelState σ) : t.onText now text sender s = (.notTunnel, s) := by
  rw [onText, h]

/-- What is left of the filter once a message has been looked at: a payload under the tunnel's own
name is not remembered any more. -/
def echoAfter (t : Tunnel) (now : Nat) (payload : String) (sender : Peer) (echo : EchoFilter) :
    EchoFilter :=
  if sender = t.self then (echo.take now payload).2 else echo

/-- The message is an envelope that is not taken for an echo. -/
structure Arrives (t : Tunnel) (now : Nat) (text : String) (sender : Peer) (echo : EchoFilter)
    (payload : String) : Prop where
  envelope : text = Wire.envelopeHeader ++ payload
  new : sender = t.self → (echo.take now payload).1 = false

/-- An envelope is an echo if the filter knows it under the tunnel's own name, and is received
otherwise, either way in the state that the filter leaves. -/
theorem onText_header (t : Tunnel) (now : Nat) (payload : String) (sender : Peer)
    (s : TunnelState σ) :
    t.onText now (Wire.envelopeHeader ++ payload) sender s =
      let s' := { s with echo := t.echoAfter now payload sender s.echo }
      if sender = t.self ∧ (s.echo.take now payload).1 = true then
        (.echo, s'.logged (.echoReceived payload))
      else t.receive payload sender s' := by
  rw [onText, payload?_header, echoAfter]
  by_cases hself : sender = t.self
  · simp only [hself, if_true, true_and]
  · simp only [hself, if_false, false_and]

/-- A payload that the tunnel remembers, under its own name, is an echo. -/
theorem onText_echo {s : TunnelState σ} {echo : EchoFilter}
    (htake : s.echo.take now payload = (true, echo)) :
    t.onText now (Wire.envelopeHeader ++ payload) t.self s
      = (.echo, ({ s with echo }).emit [.log (.echoReceived payload)]) := by
  rw [onText_header, if_pos ⟨rfl, congrArg Prod.fst htake⟩, echoAfter, if_pos rfl, htake]
  rfl

/-- What is not taken for an echo is received. -/
theorem onText_of_new {s : TunnelState σ}
    (hnew : sender = t.self → (s.echo.take now payload).1 = false) :
    t.onText now (Wire.envelopeHeader ++ payload) sender s
      = t.receive payload sender { s with echo := t.echoAfter now payload sender s.echo } := by
  rw [onText_header, if_neg]
  rintro ⟨hself, hknown⟩
  exact Bool.false_ne_true ((hnew hself).symm.trans hknown)

/-- An envelope that opens to a packet of the reported sender's is accepted. -/
theorem receive_accepted (hopen : t.openPayload payload = .ok packet) (s : TunnelState σ) :
    t.receive payload packet.sender s
      = ((t.acceptance payload packet).1, s.emit (t.acceptance payload packet).2) := by
  rw [receive, hopen]
  dsimp only
  rw [if_pos (Packet.isAuthoredBy_iff.mpr ⟨rfl, rfl⟩), dispatch_notify]

/-- What can come of an envelope that is received: there is no packet in it, or one that claims
another author, or an authentic one. -/
theorem receive_cases (t : Tunnel) (payload : String) (sender : Peer) (s : TunnelState σ) :
    (∃ reason e, t.openPayload payload = .error (reason, e) ∧
      t.receive payload sender s = (.dropped reason, s.logged e)) ∨
    (∃ packet, t.openPayload payload = .ok packet ∧ packet.sender ≠ sender ∧
      t.receive payload sender s = (.dropped .senderMismatch,
        s.logged (.senderMismatch payload sender packet.sender))) ∨
    ∃ packet, t.openPayload payload = .ok packet ∧ packet.sender = sender ∧
      t.receive payload sender s
        = ((t.acceptance payload packet).1, s.emit (t.acceptance payload packet).2) := by
  cases hopen : t.openPayload payload with
  | error e => exact .inl ⟨e.1, e.2, rfl, by rw [receive, hopen]⟩
  | ok packet =>
    by_cases hsender : packet.sender = sender
    · subst hsender
      exact .inr (.inr ⟨packet, rfl, rfl, receive_accepted hopen s⟩)
    · refine .inr (.inl ⟨packet, rfl, hsender, ?_⟩)
      rw [receive, hopen]
      dsimp only
      rw [if_neg (by rwa [Packet.isAuthoredBy, beq_iff_eq])]

/-- The ways in which a message can be treated, each with what comes of it. -/
inductive Treats (t : Tunnel) (now : Nat) (text : String) (sender : Peer) (s : TunnelState σ) :
    InboundOutcome × TunnelState σ → Prop
  /-- There is no envelope in it. -/
  | plain (h : ∀ payload, text ≠ Wire.envelopeHeader ++ payload) :
    Treats t now text sender s (.notTunnel, s)
  /-- It is an own envelope that the filter knows. -/
  | echo {payload : String} (htext : text = Wire.envelopeHeader ++ payload)
      (hself : sender = t.self) (hknown : (s.echo.take now payload).1 = true) :
    Treats t now text sender s (.echo,
      ({ s with echo := t.echoAfter now payload sender s.echo }).logged (.echoReceived payload))
  /-- There is no packet in it for this tunnel. -/
  | unreadable {payload : String} {reason : DropReason} {e : Event}
      (h : t.Arrives now text sender s.echo payload)
      (hopen : t.openPayload payload = .error (reason, e)) :
    Treats t now text sender s (.dropped reason,
      ({ s with echo := t.echoAfter now payload sender s.echo }).logged e)
  /-- The packet claims another author. -/
  | forged {payload : String} {packet : Packet} (h : t.Arrives now text sender s.echo payload)
      (hopen : t.openPayload payload = .ok packet) (hsender : packet.sender ≠ sender) :
    Treats t now text sender s (.dropped .senderMismatch,
      ({ s with echo := t.echoAfter now payload sender s.echo }).logged
        (.senderMismatch payload sender packet.sender))
  /-- The packet is authentic. -/
  | accepted {payload : String} {packet : Packet} (h : t.Arrives now text sender s.echo payload)
      (hopen : t.openPayload payload = .ok packet) (hsender : packet.sender = sender) :
    Treats t now text sender s ((t.acceptance payload packet).1,
      ({ s with echo := t.echoAfter now payload sender s.echo }).emit
        (t.acceptance payload packet).2)

/-- **Every message is treated in one of these ways.** -/
theorem treats_onText (t : Tunnel) (now : Nat) (text : String) (sender : Peer)
    (s : TunnelState σ) : t.Treats now text sender s (t.onText now text sender s) := by
  cases htext : payload? text with
  | none =>
    have hplain : ∀ payload, text ≠ Wire.envelopeHeader ++ payload := fun payload h =>
      nomatch htext.symm.trans (payload?_eq_some_iff.mpr h)
    rw [onText_of_payload?_eq_none htext]
    exact .plain hplain
  | some payload =>
    obtain rfl := payload?_eq_some_iff.mp htext
    rw [onText_header]
    dsimp only
    split
    · next hknown => exact .echo rfl hknown.1 hknown.2
    · next hknown =>
      have harrives : t.Arrives now (Wire.envelopeHeader ++ payload) sender s.echo payload :=
        ⟨rfl, fun hself => eq_false_of_ne_true fun h => hknown ⟨hself, h⟩⟩
      rcases t.receive_cases payload sender
          { s with echo := t.echoAfter now payload sender s.echo } with
        ⟨reason, e, hopen, h⟩ | ⟨packet, hopen, hsender, h⟩ | ⟨packet, hopen, hsender, h⟩
      · rw [h]
        exact .unreadable harrives hopen
      · rw [h]
        exact .forged harrives hopen hsender
      · rw [h]
        exact .accepted harrives hopen hsender

/-- Receiving does nothing to the world behind the relay. -/
theorem world_onText (t : Tunnel) (now : Nat) (text : String) (sender : Peer) (s : TunnelState σ) :
    (t.onText now text sender s).2.world = s.world := by
  have h := t.treats_onText now text sender s
  generalize t.onText now text sender s = result at h
  cases h <;> rfl

/-- An authentic packet for the tunnel that is no echo is accepted. -/
theorem onText_accepted {s : TunnelState σ} (hopen : t.openPayload payload = .ok packet)
    (hnew : packet.sender = t.self → (s.echo.take now payload).1 = false) :
    t.onText now (Wire.envelopeHeader ++ payload) packet.sender s
      = ((t.acceptance payload packet).1,
          ({ s with echo := t.echoAfter now payload packet.sender s.echo }).emit
            (t.acceptance payload packet).2) := by
  rw [onText_of_new hnew, receive_accepted hopen]

/-- An envelope with no packet in it for the tunnel, and that is no echo, is dropped. -/
theorem onText_dropped {s : TunnelState σ} {reason : DropReason} {e : Event}
    (hopen : t.openPayload payload = .error (reason, e))
    (hnew : sender = t.self → (s.echo.take now payload).1 = false) :
    t.onText now (Wire.envelopeHeader ++ payload) sender s
      = (.dropped reason,
          ({ s with echo := t.echoAfter now payload sender s.echo }).logged e) := by
  rw [onText_of_new hnew, receive, hopen]

/-- **Only authentic packets get through.**  Whatever text arrives, in whatever state, a packet that
is shown to an observer as received, or given to a handler, names the participant as its author that
the relay has reported. -/
theorem sender_of_mem_inboundPackets {text : String} {s : TunnelState σ} {p : Packet}
    (h : p ∈ inboundPackets (t.onText now text sender s).2.effects) :
    p ∈ inboundPackets s.effects ∨ p.sender = sender := by
  have htreats := t.treats_onText now text sender s
  generalize t.onText now text sender s = result at h htreats
  cases htreats with
  | plain _ => exact .inl h
  | echo _ _ _ | unreadable _ _ | forged _ _ _ =>
    rcases mem_inboundPackets_append.mp h with h | h
    · exact .inl h
    · exact nomatch h
  | accepted _ _ hsender =>
    rcases mem_inboundPackets_append.mp h with h | h
    · exact .inl h
    · exact .inr (eq_of_mem_acceptance h ▸ hsender)

end Tunnel

end TextTunnel
