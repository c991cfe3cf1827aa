import TextTunnel.Proofs.Echo.Live
import TextTunnel.Proofs.Tunnel.RoundTrip
import TextTunnel.Proofs.Tunnel.Steps
import TextTunnel.Tunnel.Loop

/-!
# What messages do to what a tunnel remembers

Every envelope under the tunnel's own name is looked up in the memory before anything else is known
about it, and is forgotten there. So it matters that this takes the tunnel's own identity and the
exact payload: no other message can make an echo go unrecognised.

* `onText_eq_echo_iff` -- when a message is taken for an echo.
* `echo_onText`, `sentAt?_onText`, `awaits_onText` -- what it does to what is remembered.
* `fst_onText_of_awaits`, `fst_onText_congr` -- nothing else that is remembered decides what becomes
  of it.
* `echo_onMessages`, `fst_onMessages` -- the same for a row of messages.
* `onText_spares_awaited` -- all of it together.
-/

namespace TextTunnel.Tunnel

variable {σ : Type} {t : Tunnel} {now sentAt : Nat} {text payload : String} {sender : Peer}
  {s s' : TunnelState σ}

/-! ## 1. Echoes -/

theorem header_append_inj {p q : String} :
    Wire.envelopeHeader ++ p = Wire.envelopeHeader ++ q ↔ p = q := by
  rw [← payload?_eq_some_iff, payload?_header, Option.some.injEq, eq_comm]

theorem acceptance_ne_echo (t : Tunnel) (payload : String) (packet : Packet) :
    (t.acceptance payload packet).1 ≠ .echo := by
  rcases t.acceptance_fst payload packet with h | h
  · rw [h]
    exact nofun
  · rw [h]
    exact nofun

/-- Which envelopes are taken for echoes: own ones with a payload that is remembered and fresh. -/
theorem onText_header_eq_echo_iff :
    (t.onText now (Wire.envelopeHeader ++ payload) sender s).1 = .echo ↔
      sender = t.self ∧ ∃ sentAt, s.echo.Awaits now payload sentAt := by
  rw [← EchoFilter.take_fst, onText_header]
  dsimp only
  split
  · next hknown => exact iff_of_true rfl hknown
  · next hknown =>
    refine iff_of_false ?_ hknown
    rcases t.receive_cases payload sender
        { s with echo := t.echoAfter now payload sender s.echo } with
      ⟨_, _, -, h⟩ | ⟨_, -, -, h⟩ | ⟨packet, -, -, h⟩
    · rw [h]
      exact nofun
    · rw [h]
      exact nofun
    · rw [h]
      exact acceptance_ne_echo t payload packet

/-- Which messages are taken for echoes. -/
theorem onText_eq_echo_iff :
    (t.onText now text sender s).1 = .echo ↔ ∃ payload sentAt,
      text = Wire.envelopeHeader ++ payload ∧ sender = t.self ∧
        s.echo.Awaits now payload sentAt := by
  constructor
  · intro h
    cases htext : payload? text with
    | none =>
      rw [onText_of_payload?_eq_none htext] at h
      exact nomatch h
    | some payload =>
      obtain rfl := payload?_eq_some_iff.mp htext
      obtain ⟨hself, sentAt, hawaits⟩ := onText_header_eq_echo_iff.mp h
      exact ⟨payload, sentAt, rfl, hself, hawaits⟩
  · rintro ⟨payload, sentAt, rfl, hself, hawaits⟩
    exact onText_header_eq_echo_iff.mpr ⟨hself, sentAt, hawaits⟩

/-! ## 2. What is remembered after a message -/

/-- The filter after an envelope: its payload is forgotten if the tunnel's own name is on it. -/
theorem echo_onText (t : Tunnel) (now : Nat) (payload : String) (sender : Peer)
    (s : TunnelState σ) :
    (t.onText now (Wire.envelopeHeader ++ payload) sender s).2.echo
      = if sender = t.self then s.echo.forget payload else s.echo := by
  rw [← EchoFilter.take_snd, ← echoAfter, onText_header]
  dsimp only
  split
  · rfl
  · rcases t.receive_cases payload sender
        { s with echo := t.echoAfter now payload sender s.echo } with
      ⟨_, _, -, h⟩ | ⟨_, -, -, h⟩ | ⟨_, -, -, h⟩ <;> rw [h] <;> rfl

/-- The payload of an envelope under the tunnel's own name. -/
def ownPayload? (t : Tunnel) (m : RelayMessage) : Option String :=
  if m.sender = t.self then payload? m.text else none

/-- **The filter after a message.**  The payload of an own envelope is forgotten, and nothing
else. -/
theorem echo_onText_eq (t : Tunnel) (now : Nat) (m : RelayMessage) (s : TunnelState σ) :
    (t.onText now m.text m.sender s).2.echo = s.echo.forgetAll (t.ownPayload? m).toList := by
  obtain ⟨text, sender⟩ := m
  rw [ownPayload?]
  cases htext : payload? text with
  | none => rw [onText_of_payload?_eq_none htext, ite_self, Option.toList_none,
      EchoFilter.forgetAll_nil]
  | some payload =>
    obtain rfl := payload?_eq_some_iff.mp htext
    rw [echo_onText]
    dsimp only
    split
    · rw [Option.toList_some, EchoFilter.forgetAll_cons, EchoFilter.forgetAll_nil]
    · rw [Option.toList_none, EchoFilter.forgetAll_nil]

/-- **What a message does to the memory of a payload.**  An own envelope with the payload makes the
tunnel forget it; nothing else does anything to it. -/
theorem sentAt?_onText :
    (t.onText now text sender s).2.echo.sentAt? payload = some sentAt ↔
      ¬ (text = Wire.envelopeHeader ++ payload ∧ sender = t.self) ∧
        s.echo.sentAt? payload = some sentAt := by
  cases htext : payload? text with
  | none =>
    rw [onText_of_payload?_eq_none htext, and_iff_right]
    rintro ⟨rfl, -⟩
    exact nomatch htext.symm.trans (payload?_header payload)
  | some q =>
    obtain rfl := payload?_eq_some_iff.mp htext
    rw [echo_onText, header_append_inj]
    by_cases hself : sender = t.self
    · rw [if_pos hself, EchoFilter.sentAt?_forget]
      by_cases hq : payload = q
      · simp [hq, hself]
      · simp [hq, Ne.symm hq]
    · simp [hself]

theorem sentAt?_onText_of_ne (h : text ≠ Wire.envelopeHeader ++ payload) :
    (t.onText now text sender s).2.echo.sentAt? payload = s.echo.sentAt? payload :=
  Option.ext fun _ => sentAt?_onText.trans (and_iff_right fun hown => h hown.1)

theorem echo_onText_of_ne (h : sender ≠ t.self) :
    (t.onText now text sender s).2.echo = s.echo := by
  have hecho := t.echo_onText_eq now ⟨text, sender⟩ s
  rwa [ownPayload?, if_neg h, Option.toList_none, EchoFilter.forgetAll_nil] at hecho

theorem window_onText (t : Tunnel) (now : Nat) (text : String) (sender : Peer)
    (s : TunnelState σ) : (t.onText now text sender s).2.echo.window = s.echo.window := by
  rw [t.echo_onText_eq now ⟨text, sender⟩ s]
  rfl

/-- **What is awaited after a message** is what was awaited before, without the echo that the message
was, if it was one. -/
theorem awaits_onText :
    (t.onText now text sender s).2.echo.Awaits now payload sentAt ↔
      s.echo.Awaits now payload sentAt ∧
        ¬ ((t.onText now text sender s).1 = .echo ∧ text = Wire.envelopeHeader ++ payload) := by
  have hafter : (t.onText now text sender s).2.echo.Awaits now payload sentAt ↔
      ¬ (text = Wire.envelopeHeader ++ payload ∧ sender = t.self) ∧
        s.echo.Awaits now payload sentAt := by
    rw [EchoFilter.Awaits, sentAt?_onText, EchoFilter.isFresh, window_onText, and_assoc]
    rfl
  rw [hafter, and_comm]
  refine and_congr_right fun hawaits => not_congr ?_
  constructor
  · rintro ⟨rfl, hself⟩
    exact ⟨onText_eq_echo_iff.mpr ⟨payload, sentAt, rfl, hself, hawaits⟩, rfl⟩
  · rintro ⟨hecho, htext⟩
    obtain ⟨-, -, -, hself, -⟩ := onText_eq_echo_iff.mp hecho
    exact ⟨htext, hself⟩

/-! ## 3. What decides about a message -/

/-- The state in which an envelope is received decides nothing. -/
theorem receive_fst (t : Tunnel) (payload : String) (sender : Peer) (s s' : TunnelState σ) :
    (t.receive payload sender s).1 = (t.receive payload sender s').1 := by
  rcases t.receive_cases payload sender s with
    ⟨reason, e, hopen, h⟩ | ⟨packet, hopen, hsender, h⟩ | ⟨packet, hopen, rfl, h⟩
  · rw [h, receive, hopen]
  · rw [h, receive, hopen]
    dsimp only
    rw [if_neg (by rwa [Packet.isAuthoredBy, beq_iff_eq])]
  · rw [h, receive_accepted hopen]

/-- Of all that is remembered, only whether the payload of a message is awaited decides what becomes
of the message. -/
theorem fst_onText_of_awaits
    (hsame : ∀ payload, text = Wire.envelopeHeader ++ payload →
      ((∃ sentAt, s'.echo.Awaits now payload sentAt) ↔
        ∃ sentAt, s.echo.Awaits now payload sentAt)) :
    (t.onText now text sender s').1 = (t.onText now text sender s).1 := by
  cases htext : payload? text with
  | none => rw [onText_of_payload?_eq_none htext, onText_of_payload?_eq_none htext]
  | some payload =>
    obtain rfl := payload?_eq_some_iff.mp htext
    have htake : (s'.echo.take now payload).1 = true ↔ (s.echo.take now payload).1 = true := by
      rw [EchoFilter.take_fst, EchoFilter.take_fst, hsame payload rfl]
    rw [onText_header, onText_header]
    simp only [htake]
    split
    · rfl
    · exact t.receive_fst payload sender _ _

/-- Of all that is remembered, only the payload of a message decides what becomes of it. -/
theorem fst_onText_congr (hwindow : s'.echo.window = s.echo.window)
    (hsame : ∀ payload, text = Wire.envelopeHeader ++ payload →
      s'.echo.sentAt? payload = s.echo.sentAt? payload) :
    (t.onText now text sender s').1 = (t.onText now text sender s).1 := by
  refine fst_onText_of_awaits fun payload htext => ?_
  simp only [EchoFilter.Awaits, EchoFilter.isFresh, hwindow, hsame payload htext]

/-! ## 4. A row of messages -/

/-- The payloads of the envelopes in a row of messages. -/
def payloads (ms : List RelayMessage) : List String :=
  ms.filterMap fun m => payload? m.text

/-- **The filter after a row of messages** depends on their order in nothing. -/
theorem echo_onMessages (t : Tunnel) (now : Nat) (ms : List RelayMessage) (s : TunnelState σ) :
    (t.onMessages now ms s).2.echo = s.echo.forgetAll (ms.filterMap t.ownPayload?) := by
  induction ms generalizing s with
  | nil => exact s.echo.forgetAll_nil.symm
  | cons m ms ih =>
    refine (ih (t.onText now m.text m.sender s).2).trans ?_
    rw [echo_onText_eq, List.filterMap_cons]
    cases t.ownPayload? m with
    | none => rw [Option.toList_none, EchoFilter.forgetAll_nil]
    | some payload =>
      rw [Option.toList_some, EchoFilter.forgetAll_cons, EchoFilter.forgetAll_nil,
        EchoFilter.forgetAll_cons]

/-- **Messages with different payloads** have the outcomes that each would have alone. -/
theorem fst_onMessages {ms : List RelayMessage} (hdistinct : (payloads ms).Nodup) :
    (t.onMessages now ms s).1 = ms.map fun m => (t.onText now m.text m.sender s).1 := by
  induction ms generalizing s with
  | nil => rfl
  | cons m ms ih =>
    have hrest : (payloads ms).Nodup :=
      hdistinct.sublist ((List.sublist_cons_self m ms).filterMap _)
    refine congrArg ((t.onText now m.text m.sender s).1 :: ·) ((ih hrest).trans ?_)
    refine List.map_congr_left fun u hu => ?_
    refine fst_onText_congr (window_onText t now m.text m.sender s) fun payload hpayload => ?_
    -- Were it the payload of the first message, too, it would be there twice.
    refine sentAt?_onText_of_ne fun hfirst => ?_
    rw [payloads, List.filterMap_cons, payload?_eq_some_iff.mpr hfirst] at hdistinct
    exact (List.nodup_cons.mp hdistinct).1
      (List.mem_filterMap.mpr ⟨u, hu, payload?_eq_some_iff.mpr hpayload⟩)

/-! ## 5. All messages -/

/-- The payload of a packet that can be sent can be decoded. -/
theorem exists_decode_of_prepare {noise : Rsa.Noise} {packet : Packet} {recipient : Peer}
    (h : t.prepare noise packet recipient = .ok (payload, text)) :
    ∃ cipher, SafeText.decode payload = .ok cipher := by
  obtain ⟨key, -, hseal, -⟩ := prepare_eq_ok_iff.mp h
  obtain ⟨-, -, cipher, -, -, -, rfl⟩ := sealPayload_eq_ok_iff.mp hseal
  exact ⟨cipher, SafeText.decode_encode cipher⟩

/-- **Messages leave what is awaited alone.**  Whatever a tunnel remembers, and at whatever time: a
message takes a payload that is awaited only by being its echo. So a packet that is dispatched, an
envelope that is dropped and any message from somebody else take nothing, and messages with
different payloads that come at one time can come in any order. -/
theorem onText_spares_awaited (t : Tunnel) (now : Nat) (s : TunnelState σ) :
    (∀ (text : String) (sender : Peer),
      let result := t.onText now text sender s
      -- A message is an echo if it is an own envelope, by name and id, whose payload is awaited.
      (result.1 = .echo ↔ ∃ payload sentAt, text = Wire.envelopeHeader ++ payload ∧
        (sender.name = t.self.name ∧ sender.id = t.self.id) ∧ s.echo.Awaits now payload sentAt) ∧
      -- What is awaited stays so, unless the message is its echo.
      (∀ payload sentAt, result.2.echo.Awaits now payload sentAt ↔
        s.echo.Awaits now payload sentAt ∧
          ¬ (result.1 = .echo ∧ text = Wire.envelopeHeader ++ payload)) ∧
      ((∃ payload sentAt, s.echo.Awaits now payload sentAt ∧
        ¬ result.2.echo.Awaits now payload sentAt) ↔ result.1 = .echo) ∧
      -- Nobody else's message changes what is remembered, fresh or not.
      (sender ≠ t.self → result.2.echo = s.echo) ∧
      -- Neither does one that is not exactly the envelope with the payload.
      (∀ payload, text ≠ Wire.envelopeHeader ++ payload →
        result.2.echo.sentAt? payload = s.echo.sentAt? payload) ∧
      -- Nor, for whatever was sent, one that cannot be decoded.
      ((∀ payload cipher, text = Wire.envelopeHeader ++ payload →
          SafeText.decode payload ≠ .ok cipher) →
        ∀ noise packet recipient payload command,
          t.prepare noise packet recipient = .ok (payload, command) →
            result.2.echo.sentAt? payload = s.echo.sentAt? payload)) ∧
    -- Messages with different payloads can come in any order.
    ∀ ms ms' : List RelayMessage, ms.Perm ms' → (payloads ms).Nodup →
      (t.onMessages now ms s).1 = ms.map (fun m => (t.onText now m.text m.sender s).1) ∧
      (t.onMessages now ms' s).1 = ms'.map (fun m => (t.onText now m.text m.sender s).1) ∧
      (t.onMessages now ms' s).2.echo = (t.onMessages now ms s).2.echo := by
  refine ⟨fun text sender => ⟨?_, fun payload sentAt => awaits_onText, ?_, echo_onText_of_ne,
    fun payload => sentAt?_onText_of_ne, ?_⟩, fun ms ms' hperm hdistinct => ⟨?_, ?_, ?_⟩⟩
  · simp only [onText_eq_echo_iff, Peer.ext_iff]
  · constructor
    · rintro ⟨payload, sentAt, hawaits, hgone⟩
      by_contra hecho
      exact hgone (awaits_onText.mpr ⟨hawaits, fun h => hecho h.1⟩)
    · intro hecho
      obtain ⟨payload, sentAt, htext, -, hawaits⟩ := onText_eq_echo_iff.mp hecho
      exact ⟨payload, sentAt, hawaits, fun hkept => (awaits_onText.mp hkept).2 ⟨hecho, htext⟩⟩
  · intro hunreadable noise packet recipient payload command hprepare
    obtain ⟨cipher, hdecode⟩ := exists_decode_of_prepare hprepare
    exact sentAt?_onText_of_ne fun htext => hunreadable payload cipher htext hdecode
  · exact fst_onMessages hdistinct
  · have hdistinct' : (payloads ms').Nodup := (hperm.filterMap _).nodup_iff.mp hdistinct
    exact fst_onMessages hdistinct'
  · rw [echo_onMessages, echo_onMessages]
    exact s.echo.forgetAll_perm (hperm.filterMap _).symm

/-- Ann's memory with one payload in it. -/
def annRemembers : TunnelState Unit :=
  ⟨⟨30000, 64, [⟨"remembered", 0⟩]⟩, [], ()⟩

/-- The echo of that payload, an envelope of her own that cannot be decoded, and plain text. -/
def threeMessages : List RelayMessage :=
  [⟨Wire.envelopeHeader ++ "remembered", ann⟩, ⟨Wire.envelopeHeader ++ "unknown", ann⟩,
    ⟨"hello", ben⟩]

theorem onText_spares_awaited_threeMessages :
    threeMessages.Perm threeMessages.reverse ∧ (payloads threeMessages).Nodup ∧
      ((acquainted ann).onMessages 1 threeMessages annRemembers).1
        = [.echo, .dropped .textDecode, .notTunnel] ∧
      ((acquainted ann).onMessages 1 threeMessages.reverse annRemembers).1
        = [.notTunnel, .dropped .textDecode, .echo] ∧
      ((acquainted ann).onMessages 1 threeMessages.reverse annRemembers).2.echo
        = ((acquainted ann).onMessages 1 threeMessages annRemembers).2.echo := by
  have hperm : threeMessages.Perm threeMessages.reverse := threeMessages.reverse_perm.symm
  have hdistinct : (payloads threeMessages).Nodup := by decide +kernel
  obtain ⟨houtcomes, hreversed, hecho⟩ :=
    (onText_spares_awaited (acquainted ann) 1 annRemembers).2 _ _ hperm hdistinct
  refine ⟨hperm, hdistinct, houtcomes.trans ?_, hreversed.trans ?_, hecho⟩
  · decide +kernel
  · decide +kernel

end TextTunnel.Tunnel
