import TextTunnel.Proofs.Relay.Delivery
import TextTunnel.Proofs.Tunnel.Memory

/-!
# Messages that arrive during a send

A relay may deliver messages to the tunnel that is just sending through it, the echo among them. So
the payload is remembered before the relay gets it, and is forgotten once: by the first echo, or by
the refusal if there has been no echo.

* `CallsBack` -- what a relay can do to a tunnel that calls it.
* `CallsBack.sentAt?_eq_some_iff`, `CallsBack.outcome_eq_echo_iff` -- what the messages do to the
  memory of a payload, and which of them are taken for echoes.
* `sendPacket_callsBack` -- which message is the echo, and what is remembered in the end.
-/

namespace TextTunnel.Tunnel

variable {σ : Type} {t : Tunnel} {now sentAt : Nat} {text payload : String} {sender : Peer}
  {s s' : TunnelState σ}

/-! ## 1. A row of messages -/

/-- A message that a relay delivers to the tunnel while the tunnel is sending, and what becomes of
it. -/
structure Callback where
  now : Nat
  text : String
  sender : Peer
  outcome : InboundOutcome

/-- It is the tunnel's own envelope with the payload. -/
def Callback.IsOwn (c : Callback) (t : Tunnel) (payload : String) : Prop :=
  c.text = Wire.envelopeHeader ++ payload ∧ c.sender = t.self

/-- What a relay can do to a tunnel that calls it: deliver messages to it, one after another, and do
work of its own in between that does not touch what the tunnel remembers. -/
inductive CallsBack (t : Tunnel) : TunnelState σ → List Callback → TunnelState σ → Prop
  /-- It returns. -/
  | done (s : TunnelState σ) : CallsBack t s [] s
  /-- It does work of its own. -/
  | work {s s₁ s' : TunnelState σ} {cs : List Callback} (hecho : s₁.echo = s.echo)
    (hrest : CallsBack t s₁ cs s') : CallsBack t s cs s'
  /-- It delivers a message. -/
  | deliver (now : Nat) (text : String) (sender : Peer) {s s' : TunnelState σ} {cs : List Callback}
    (hrest : CallsBack t (t.onText now text sender s).2 cs s') :
    CallsBack t s (⟨now, text, sender, (t.onText now text sender s).1⟩ :: cs) s'

namespace CallsBack

variable {cs before after : List Callback} {c : Callback}

theorem window_eq (h : t.CallsBack s cs s') : s'.echo.window = s.echo.window := by
  induction h with
  | done s => rfl
  | work hecho _ ih => rw [ih, hecho]
  | deliver now text sender _ ih => rw [ih, window_onText]

/-- A payload is still remembered after the messages if none of them was its own envelope. -/
theorem sentAt?_eq_some_iff (h : t.CallsBack s cs s') :
    s'.echo.sentAt? payload = some sentAt ↔
      (∀ c ∈ cs, ¬ c.IsOwn t payload) ∧ s.echo.sentAt? payload = some sentAt := by
  induction h with
  | done s => simp
  | work hecho _ ih => rw [ih, hecho]
  | deliver now text sender _ ih =>
    rw [ih, sentAt?_onText, List.forall_mem_cons, and_assoc]
    exact and_left_comm

/-- The state in which a message arrives. -/
theorem exists_state_at (h : t.CallsBack s cs s') (hcs : cs = before ++ c :: after) :
    ∃ s₁, t.CallsBack s before s₁ ∧ c.outcome = (t.onText c.now c.text c.sender s₁).1 := by
  induction h generalizing before with
  | done s => exact absurd hcs (by simp)
  | work hecho _ ih =>
    obtain ⟨s₁, hbefore, houtcome⟩ := ih hcs
    exact ⟨s₁, .work hecho hbefore, houtcome⟩
  | deliver now text sender _ ih =>
    cases before with
    | nil =>
      obtain ⟨rfl, -⟩ := List.cons.inj hcs
      exact ⟨_, .done _, rfl⟩
    | cons b before =>
      obtain ⟨rfl, hrest⟩ := List.cons.inj hcs
      obtain ⟨s₁, hbefore, houtcome⟩ := ih hrest
      exact ⟨s₁, .deliver now text sender hbefore, houtcome⟩

/-- An own envelope is taken for an echo if its payload was remembered before the messages and is
still fresh, and no earlier message was the same. -/
theorem outcome_eq_echo_iff (h : t.CallsBack s cs s') (hcs : cs = before ++ c :: after)
    (hown : c.IsOwn t payload) :
    c.outcome = .echo ↔ (∀ b ∈ before, ¬ b.IsOwn t payload) ∧
      ∃ sentAt, s.echo.sentAt? payload = some sentAt ∧ s.echo.isFresh c.now sentAt = true := by
  obtain ⟨s₁, hbefore, houtcome⟩ := h.exists_state_at hcs
  obtain ⟨htext, hself⟩ := hown
  rw [houtcome, htext, hself, onText_header_eq_echo_iff]
  simp only [EchoFilter.Awaits, hbefore.sentAt?_eq_some_iff, EchoFilter.isFresh, hbefore.window_eq,
    true_and, and_assoc, exists_and_left]

end CallsBack

/-! ## 2. The send -/

/-- What the relay is handed: the payload is remembered already, as sent at that time. -/
theorem sentAt?_handedOver (t : Tunnel) (now : Nat) (packet : Packet) (recipient : Peer)
    (payload text : String) (s : TunnelState σ) :
    (t.handedOver now packet recipient payload text s).echo.sentAt? payload = some now :=
  EchoFilter.sentAt?_insert

theorem window_handedOver (t : Tunnel) (now : Nat) (packet : Packet) (recipient : Peer)
    (payload text : String) (s : TunnelState σ) :
    (t.handedOver now packet recipient payload text s).echo.window = s.echo.window :=
  EchoFilter.window_insert _ _ _

/-- **The echo of a send is recognised once.**  Whatever the tunnel remembers and however little
room there is, if the relay delivers any messages to the tunnel before it answers, all of them
within the echo window: among the tunnel's own envelopes with the payload that is being sent, the
first is an echo and no other is. When the send is over, the payload is remembered exactly if the
relay has accepted it and there has been no such envelope. The sender gets the relay's answer, and
the world is as the relay has left it. -/
theorem sendPacket_callsBack {relay : Relay σ} {noise : Rsa.Noise} {packet : Packet}
    {recipient : Peer} (hprepare : t.prepare noise packet recipient = .ok (payload, text))
    {answer : Except RelayError Unit} {cs : List Callback}
    (hrelay : relay text (t.handedOver now packet recipient payload text s) = (answer, s'))
    (hcalls : t.CallsBack (t.handedOver now packet recipient payload text s) cs s')
    (hwindow : ∀ c ∈ cs, c.now ≤ now + s.echo.window) :
    (t.sendPacket relay noise now packet recipient s).1 = answer.mapError .relay ∧
      (t.sendPacket relay noise now packet recipient s).2.world = s'.world ∧
      (∀ before c after, cs = before ++ c :: after → c.IsOwn t payload →
        (c.outcome = .echo ↔ ∀ b ∈ before, ¬ b.IsOwn t payload)) ∧
      (((t.sendPacket relay noise now packet recipient s).2.echo.sentAt? payload).isSome = true
        ↔ answer = .ok () ∧ ∀ c ∈ cs, ¬ c.IsOwn t payload) := by
  have hsent := sentAt?_handedOver t now packet recipient payload text s
  rw [sendPacket_of_prepare_ok relay now s hprepare, hrelay]
  refine ⟨?_, ?_, ?_, ?_⟩
  · cases answer <;> rfl
  · cases answer <;> rfl
  · intro before c after hcs hown
    have hmem : c ∈ cs := by
      rw [hcs]
      exact List.mem_append_right _ List.mem_cons_self
    have hfresh :
        (t.handedOver now packet recipient payload text s).echo.isFresh c.now now = true := by
      rw [EchoFilter.isFresh, window_handedOver, decide_eq_true_eq]
      exact Nat.sub_le_iff_le_add'.mpr (hwindow c hmem)
    rw [hcalls.outcome_eq_echo_iff hcs hown, and_iff_left ⟨now, hsent, hfresh⟩]
  · cases answer with
    | error e =>
      -- The refusal makes the tunnel forget the payload, whether or not an echo has done it before.
      have hnone : (s'.echo.forget payload).sentAt? payload = none := by
        rw [EchoFilter.sentAt?_forget, if_pos rfl]
      dsimp only
      rw [hnone]
      exact iff_of_false (by decide) (by simp)
    | ok u =>
      have hremembered : (s'.echo.sentAt? payload).isSome = true
          ↔ ∀ c ∈ cs, ¬ c.IsOwn t payload := by
        simp only [Option.isSome_iff_exists, hcalls.sentAt?_eq_some_iff, hsent, exists_and_left,
          Option.some.injEq, exists_eq', and_true]
      exact hremembered.trans (and_iff_right rfl).symm

/-- A relay that delivers to its own sender what a whisper carries, twice, before it accepts it. -/
def doubleMirror (t : Tunnel) (now : Nat) : Relay σ := fun text s =>
  match RelayCommand.body? text with
  | none => (.ok (), s)
  | some body => (.ok (), (t.onText now body t.self (t.onText now body t.self s).2).2)

theorem callsBack_doubleMirror (t : Tunnel) (now : Nat) {body : String}
    (hbody : RelayCommand.body? text = some body) (s : TunnelState σ) :
    t.CallsBack s
      [⟨now, body, t.self, (t.onText now body t.self s).1⟩,
        ⟨now, body, t.self, (t.onText now body t.self (t.onText now body t.self s).2).1⟩]
      (t.doubleMirror now text s).2 := by
  rw [doubleMirror, hbody]
  exact .deliver now body t.self (.deliver now body t.self (.done _))

/-- A tunnel that has no room for any payload. -/
def cramped : TunnelState Unit :=
  ⟨⟨30000, 0, []⟩, [], ()⟩

/-- The greeting, shown to ann twice while she is sending it, is an echo the first time only, and is
not remembered. -/
theorem sendPacket_callsBack_greeting :
    ∃ payload text, (acquainted ann).prepare (.numbered 0) greeting ben = .ok (payload, text) ∧
      let s := (acquainted ann).handedOver 5 greeting ben payload text cramped
      let (first, s) := (acquainted ann).onText 6 (Wire.envelopeHeader ++ payload) ann s
      let (second, _) := (acquainted ann).onText 6 (Wire.envelopeHeader ++ payload) ann s
      first = .echo ∧ second ≠ .echo ∧
        (((acquainted ann).sendPacket ((acquainted ann).doubleMirror 6) (.numbered 0) 5 greeting ben
          cramped).2.echo.sentAt? payload).isSome = false := by
  obtain ⟨payload, hprepare⟩ := exists_prepare_greeting (.numbered 0)
  have hbody : RelayCommand.body? ((acquainted ann).address ben payload)
      = some (Wire.envelopeHeader ++ payload) :=
    RelayCommand.body?_write (by decide) (by decide) _
  have hcalls := callsBack_doubleMirror (acquainted ann) 6 hbody
    ((acquainted ann).handedOver 5 greeting ben payload ((acquainted ann).address ben payload)
      cramped)
  have hanswer : ((acquainted ann).doubleMirror 6 ((acquainted ann).address ben payload)
      ((acquainted ann).handedOver 5 greeting ben payload ((acquainted ann).address ben payload)
        cramped)).1 = .ok () := by
    rw [doubleMirror, hbody]
  obtain ⟨-, -, hecho, hkept⟩ := sendPacket_callsBack hprepare (Prod.ext hanswer rfl) hcalls
    (by simp [cramped])
  have hown : ∀ outcome, Callback.IsOwn ⟨6, Wire.envelopeHeader ++ payload, ann, outcome⟩
      (acquainted ann) payload := fun _ => ⟨rfl, rfl⟩
  refine ⟨payload, _, hprepare, ?_, ?_, ?_⟩
  · exact (hecho [] _ [_] rfl (hown _)).mpr (List.forall_mem_nil _)
  · intro hsecond
    exact (hecho [_] _ [] rfl (hown _)).mp hsecond _ List.mem_cons_self (hown _)
  · rw [Bool.eq_false_iff, ne_eq, hkept]
    exact fun h => h.2 _ List.mem_cons_self (hown _)

end TextTunnel.Tunnel
