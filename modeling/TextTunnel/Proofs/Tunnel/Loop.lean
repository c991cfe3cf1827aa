import TextTunnel.Proofs.Echo.Queue
import TextTunnel.Proofs.Tunnel.Memory

/-!
# What a receiving loop has done when it ends

The loop carries one thing from message to message that decides anything: what the tunnel remembers.
A message changes that only by being an echo. So the loop never stops early, its counts add up, and
a message that leads to nothing, or to a handler that fails, makes no difference to those behind it.

* `Passage`, `Receives` -- messages that go through the tunnel one after the other.
* `receives_round` -- what the loop has after any rounds.
* `SameAwaited` -- two memories that nothing later can tell apart.
* `Receives.without` -- a message that is no echo can be left out.
* `SameKinds`, `Receives.of_sameKinds` -- what handlers answer makes no difference.
* `loop_accounts` -- all of it together.
-/

namespace TextTunnel

/-- There is no envelope in the message. -/
def RelayMessage.IsPlain (m : RelayMessage) : Prop :=
  ¬ Wire.envelopeHeader.toList <+: m.text.toList

instance (m : RelayMessage) : Decidable m.IsPlain :=
  inferInstanceAs (Decidable (¬ Wire.envelopeHeader.toList <+: m.text.toList))

namespace Tunnel

variable {σ τ : Type} {t u : Tunnel} {s s' s₁ : TunnelState σ} {now later : Nat} {text : String}
  {sender : Peer}

/-! ## 1. One message after the other -/

/-- A message that has gone through the tunnel, and what became of it. -/
structure Passage where
  arrival : Arrival
  outcome : InboundOutcome

/-- The messages have gone through the tunnel one after the other, each in the state in which the
one before has left it. -/
inductive Receives (t : Tunnel) : TunnelState σ → List Passage → TunnelState σ → Prop
  /-- There were none. -/
  | none (s : TunnelState σ) : Receives t s [] s
  /-- There was a first one, and then the others. -/
  | next (a : Arrival) {s s' : TunnelState σ} {rs : List Passage}
    (hrest : Receives t (t.onArrival a s).2 rs s') :
    Receives t s (⟨a, (t.onArrival a s).1⟩ :: rs) s'

theorem payload?_eq_none_iff {m : RelayMessage} : payload? m.text = none ↔ m.IsPlain := by
  rw [payload?, RelayMessage.IsPlain, ← List.isPrefixOf_iff_prefix]
  split
  · next h => simp [h]
  · next h => simp [h]

theorem not_isPlain_header (payload : String) (sender : Peer) :
    ¬ RelayMessage.IsPlain ⟨Wire.envelopeHeader ++ payload, sender⟩ := by
  rw [← payload?_eq_none_iff, payload?_header]
  exact nofun

/-- The messages that are taken for plain text are those without an envelope. -/
theorem onArrival_eq_notTunnel_iff {a : Arrival} :
    (t.onArrival a s).1 = .notTunnel ↔ a.message.IsPlain := by
  rw [← payload?_eq_none_iff, onArrival]
  constructor
  · intro h
    have htreats := t.treats_onText a.time a.message.text a.message.sender s
    generalize t.onText a.time a.message.text a.message.sender s = result at h htreats
    cases htreats with
    | plain hplain =>
      refine Option.eq_none_iff_forall_ne_some.mpr fun payload hpayload => ?_
      exact hplain payload (payload?_eq_some_iff.mp hpayload)
    | echo _ _ _ | unreadable _ _ | forged _ _ _ => cases h
    | @accepted payload packet _ _ _ =>
      rcases t.acceptance_fst payload packet with hkind | hkind
      · cases hkind.symm.trans h
      · cases hkind.symm.trans h
  · intro h
    rw [onText_of_payload?_eq_none h]

/-! ## 2. Rounds of the loop -/

/-- What recording outcomes one by one comes to. -/
theorem foldl_record (os : List InboundOutcome) (stats : InboundStats) :
    os.foldl InboundStats.record stats =
      { plain := stats.plain + os.countP (· matches .notTunnel)
        echoes := stats.echoes + os.countP (· matches .echo)
        dropped := stats.dropped + os.countP (· matches .dropped _)
        dispatched := stats.dispatched + os.countP (· matches .dispatched _)
        unhandled := stats.unhandled + os.countP (· matches .unhandled _) } := by
  induction os generalizing stats with
  | nil => rfl
  | cons o os ih =>
    rw [List.foldl_cons, ih]
    cases o <;> simp [InboundStats.record, Nat.add_assoc, Nat.add_comm 1]

/-- Every outcome is of one class. -/
theorem countP_outcomes (os : List InboundOutcome) :
    os.countP (· matches .notTunnel) + os.countP (· matches .echo)
      + os.countP (· matches .dropped _) + os.countP (· matches .dispatched _)
      + os.countP (· matches .unhandled _) = os.length := by
  induction os with
  | nil => rfl
  | cons o os ih =>
    rw [List.length_cons, ← ih]
    cases o <;> simp <;> omega

/-- **After any rounds** all messages have gone through the tunnel in their order, the outcomes are
counted, and the plain ones of the messages have been handed on. -/
theorem receives_round (t : Tunnel) (handOn : RelayMessage → τ → τ) (arrivals : List Arrival)
    (stats : InboundStats) (receiver : τ) (s : TunnelState σ) :
    ∃ (rs : List Passage) (s' : TunnelState σ), t.Receives s rs s' ∧
      rs.map (·.arrival) = arrivals ∧
      arrivals.foldl (t.round handOn) ⟨stats, receiver, s⟩ =
        { stats := (rs.map (·.outcome)).foldl InboundStats.record stats
          receiver := ((arrivals.map (·.message)).filter (·.IsPlain)).foldl
            (fun receiver m => handOn m receiver) receiver
          tunnel := s' } := by
  induction arrivals generalizing stats receiver s with
  | nil => exact ⟨[], s, .none s, rfl, rfl⟩
  | cons a arrivals ih =>
    let plain := if (t.onArrival a s).1 = .notTunnel then handOn a.message receiver else receiver
    obtain ⟨rs, s', hrest, hmap, hfold⟩ :=
      ih (stats.record (t.onArrival a s).1) plain (t.onArrival a s).2
    refine ⟨⟨a, (t.onArrival a s).1⟩ :: rs, s', .next a hrest, ?_, ?_⟩
    · rw [List.map_cons, hmap]
    · have hround : t.round handOn ⟨stats, receiver, s⟩ a
          = ⟨stats.record (t.onArrival a s).1, plain, (t.onArrival a s).2⟩ := rfl
      rw [List.foldl_cons, hround, hfold]
      simp only [plain, onArrival_eq_notTunnel_iff, List.map_cons, List.foldl_cons,
        List.filter_cons, decide_eq_true_eq]
      split <;> rfl

/-! ## 3. Memories that cannot be told apart -/

/-- From the given time on, the same payloads are awaited, since the same times. -/
def SameAwaited (now : Nat) (f g : EchoFilter) : Prop :=
  ∀ later, now ≤ later → ∀ payload sentAt,
    g.Awaits later payload sentAt ↔ f.Awaits later payload sentAt

theorem SameAwaited.mono {f g : EchoFilter} (h : SameAwaited now f g) (hle : now ≤ later) :
    SameAwaited later f g :=
  fun time htime => h time (Nat.le_trans hle htime)

/-- What is awaited after a message at a later time. -/
theorem awaits_onText_later {payload : String} {sentAt : Nat} :
    (t.onText now text sender s).2.echo.Awaits later payload sentAt ↔
      ¬ (text = Wire.envelopeHeader ++ payload ∧ sender = t.self) ∧
        s.echo.Awaits later payload sentAt := by
  rw [EchoFilter.Awaits, EchoFilter.Awaits, EchoFilter.isFresh, EchoFilter.isFresh, sentAt?_onText,
    window_onText, and_assoc]

/-- One message has the same outcome with both, and leaves two that cannot be told apart either. -/
theorem SameAwaited.onArrival {a : Arrival} (h : SameAwaited a.time s.echo s'.echo) :
    (t.onArrival a s').1 = (t.onArrival a s).1 ∧
      SameAwaited a.time (t.onArrival a s).2.echo (t.onArrival a s').2.echo := by
  constructor
  · refine fst_onText_of_awaits fun payload _ => ?_
    simp only [h a.time (Nat.le_refl _)]
  · intro later hle payload sentAt
    rw [Tunnel.onArrival, Tunnel.onArrival, awaits_onText_later, awaits_onText_later, h later hle]

/-- Whatever is awaited later is awaited now. -/
theorem awaits_of_le {f : EchoFilter} {payload : String} {sentAt : Nat} (hle : now ≤ later)
    (h : f.Awaits later payload sentAt) : f.Awaits now payload sentAt :=
  ⟨h.1, EchoFilter.isFresh_of_le hle h.2⟩

/-- A message that is no echo leaves a memory that cannot be told from the one before. -/
theorem sameAwaited_onArrival {a : Arrival} (h : (t.onArrival a s).1 ≠ .echo) :
    SameAwaited a.time (t.onArrival a s).2.echo s.echo := by
  intro later hle payload sentAt
  rw [onArrival, awaits_onText_later, iff_and_self]
  rintro hawaits ⟨htext, hself⟩
  exact h (onText_eq_echo_iff.mpr ⟨payload, sentAt, htext, hself, awaits_of_le hle hawaits⟩)

namespace Receives

variable {rs before after : List Passage} {r : Passage}

theorem cons {a : Arrival} {outcome : InboundOutcome} (hfirst : (t.onArrival a s).1 = outcome)
    (hrest : t.Receives (t.onArrival a s).2 rs s') : t.Receives s (⟨a, outcome⟩ :: rs) s' :=
  hfirst ▸ .next a hrest

/-- Messages have the same outcomes with a memory that cannot be told apart. -/
theorem of_sameAwaited (h : t.Receives s₁ rs s') (hsame : SameAwaited now s₁.echo s.echo)
    (hclock : ∀ r ∈ rs, now ≤ r.arrival.time)
    (horder : rs.Pairwise (·.arrival.time ≤ ·.arrival.time)) :
    ∃ s', t.Receives s rs s' := by
  induction h generalizing s now with
  | none _ => exact ⟨s, .none s⟩
  | next a _ ih =>
    obtain ⟨hbehind, htail⟩ := List.pairwise_cons.mp horder
    obtain ⟨houtcome, hsame⟩ := (hsame.mono (hclock _ List.mem_cons_self)).onArrival (t := t)
    obtain ⟨s', hrest⟩ := ih hsame hbehind htail
    exact ⟨s', .cons houtcome hrest⟩

/-- **A message that is no echo can be left out.**  All others have the outcomes that they have with
it. -/
theorem without (h : t.Receives s (before ++ r :: after) s')
    (horder : (before ++ r :: after).Pairwise (·.arrival.time ≤ ·.arrival.time))
    (hr : r.outcome ≠ .echo) : ∃ s', t.Receives s (before ++ after) s' := by
  induction before generalizing s with
  | nil =>
    obtain ⟨hbehind, htail⟩ := List.pairwise_cons.mp horder
    cases h with
    | next a hrest => exact hrest.of_sameAwaited (sameAwaited_onArrival hr) hbehind htail
  | cons b before ih =>
    cases h with
    | next a hrest =>
      obtain ⟨s', hrest⟩ := ih hrest (List.pairwise_cons.mp horder).2
      exact ⟨s', .next a hrest⟩

end Receives

/-! ## 4. What handlers answer -/

/-- The tunnels differ at most in what their handlers do; they have handlers for the same
variants. -/
def SameKinds (t u : Tunnel) : Prop :=
  ∃ d : Dispatcher, u = { t with dispatcher := d } ∧
    ∀ kind, d.hasHandler kind = t.dispatcher.hasHandler kind

/-- Whether there is a handler decides the outcome, and not what it answers. -/
theorem acceptance_fst_eq (t : Tunnel) (payload : String) (packet : Packet) :
    (t.acceptance payload packet).1 = if t.dispatcher.hasHandler packet.kind
      then .dispatched packet.kind else .unhandled packet.kind := by
  rw [Dispatcher.hasHandler]
  cases hfind : t.dispatcher.find packet.kind with
  | some handler => exact (acceptance_of_find_eq_some payload hfind).1
  | none => exact (acceptance_of_find_eq_none payload hfind).1

/-- The outcome of an envelope that is received. -/
theorem SameKinds.receive (h : t.SameKinds u) (payload : String) (sender : Peer)
    (s s' : TunnelState σ) : (u.receive payload sender s').1 = (t.receive payload sender s).1 := by
  obtain ⟨d, rfl, hkinds⟩ := h
  have hopen : ({ t with dispatcher := d } : Tunnel).openPayload payload = t.openPayload payload :=
    rfl
  rcases t.receive_cases payload sender s with
    ⟨reason, e, ht, hresult⟩ | ⟨packet, ht, hsender, hresult⟩ | ⟨packet, ht, rfl, hresult⟩
  · rw [hresult, Tunnel.receive, hopen, ht]
  · rw [hresult, Tunnel.receive, hopen, ht]
    dsimp only
    rw [if_neg (by rwa [Packet.isAuthoredBy, beq_iff_eq])]
  · rw [hresult, receive_accepted (hopen.trans ht), acceptance_fst_eq, acceptance_fst_eq, hkinds]

/-- One message has the same outcome with both tunnels, and leaves the same memory. -/
theorem SameKinds.onArrival (h : t.SameKinds u) {a : Arrival} (hecho : s'.echo = s.echo) :
    (u.onArrival a s').1 = (t.onArrival a s).1 ∧
      (u.onArrival a s').2.echo = (t.onArrival a s).2.echo := by
  have hself : u.self = t.self := by
    obtain ⟨d, rfl, -⟩ := h
    rfl
  constructor
  · rw [Tunnel.onArrival, Tunnel.onArrival]
    cases htext : payload? a.message.text with
    | none => rw [onText_of_payload?_eq_none htext, onText_of_payload?_eq_none htext]
    | some payload =>
      rw [payload?_eq_some_iff.mp htext, onText_header, onText_header, hself, hecho]
      dsimp only
      split
      · rfl
      · exact h.receive payload _ _ _
  · rw [Tunnel.onArrival, Tunnel.onArrival, echo_onText_eq, echo_onText_eq, hecho, ownPayload?,
      ownPayload?, hself]

/-- **What handlers answer makes no difference** to the outcome of any message. -/
theorem Receives.of_sameKinds {rs : List Passage} (h : t.Receives s₁ rs s') (hkinds : t.SameKinds u)
    (hecho : s.echo = s₁.echo) : ∃ s', u.Receives s rs s' := by
  induction h generalizing s with
  | none _ => exact ⟨s, .none s⟩
  | next a _ ih =>
    obtain ⟨houtcome, hecho⟩ := hkinds.onArrival (a := a) hecho
    obtain ⟨s', hrest⟩ := ih hecho
    exact ⟨s', .cons houtcome hrest⟩

/-! ## 5. The whole loop -/

/-- **The loop accounts for every message.**  Whatever the tunnel, the receiver of plain messages and
the messages are, as long as the clock does not go back: each message goes through the tunnel once,
in the order of the inbox and after the one before is done with. The counts are those of the
outcomes and add up to the number of messages, and the messages without an envelope have been handed
on, once and in order. A message that is no echo -- because it was dropped, say, or because its
handler failed -- leaves the outcomes of all others as they are without it, and so does whatever the
handlers answer. -/
theorem loop_accounts (t : Tunnel) (handOn : RelayMessage → τ → τ) (receiver : τ)
    (s : TunnelState σ) {arrivals : List Arrival} (hclock : arrivals.Pairwise (·.time ≤ ·.time)) :
    let r := t.runInboundWith handOn arrivals receiver s
    ∃ (rs : List Passage) (s' : TunnelState σ), t.Receives s rs s' ∧
      rs.map (·.arrival) = arrivals ∧
      r.tunnel = s'.logged
        (.inboxFinished t.self r.stats.dispatched r.stats.dropped r.stats.echoes) ∧
      -- The counts are those of the outcomes.
      r.stats =
        { plain := rs.countP (·.outcome matches .notTunnel)
          echoes := rs.countP (·.outcome matches .echo)
          dropped := rs.countP (·.outcome matches .dropped _)
          dispatched := rs.countP (·.outcome matches .dispatched _)
          unhandled := rs.countP (·.outcome matches .unhandled _) } ∧
      r.stats.plain + r.stats.echoes + r.stats.dropped + r.stats.dispatched + r.stats.unhandled
        = arrivals.length ∧
      -- The messages without an envelope have been handed on.
      r.receiver = ((arrivals.map (·.message)).filter (·.IsPlain)).foldl
        (fun receiver m => handOn m receiver) receiver ∧
      -- Without a message that is no echo all others have the same outcomes.
      (∀ before c after, rs = before ++ c :: after → c.outcome ≠ .echo →
        ∃ s', t.Receives s (before ++ after) s') ∧
      -- So they have if the handlers answer something else.
      ∀ u, t.SameKinds u → ∃ s', u.Receives s rs s' := by
  obtain ⟨rs, s', hreceives, hmap, hfold⟩ := receives_round t handOn arrivals {} receiver s
  rw [runInboundWith, hfold]
  intro r
  have hstats : r.stats = _ := foldl_record (rs.map (·.outcome)) {}
  simp only [List.countP_map, Nat.zero_add] at hstats
  refine ⟨rs, s', hreceives, hmap, rfl, hstats, ?_, rfl, ?_, ?_⟩
  · have htotal := countP_outcomes (rs.map (·.outcome))
    rw [List.length_map, ← List.length_map (·.arrival), hmap] at htotal
    simp only [List.countP_map] at htotal
    rw [hstats, ← htotal]
  · rintro before c after rfl hc
    refine hreceives.without ?_ hc
    rw [← hmap, List.pairwise_map] at hclock
    exact hclock
  · exact fun u hkinds => hreceives.of_sameKinds hkinds rfl

/-- Ben, with a handler for messages that always fails. -/
def touchy : Tunnel :=
  { acquainted ben with
    dispatcher := ⟨[(.message, ⟨"touchy", fun _ => .error ⟨"not again", []⟩⟩)]⟩ }

/-- Ann's greeting, which makes the handler fail, an envelope that cannot be decoded, plain text, and
the greeting again. -/
def fourArrivals (payload : String) : List Arrival :=
  [⟨1, Wire.envelopeHeader ++ payload, ann⟩, ⟨2, Wire.envelopeHeader ++ "unknown", ann⟩,
    ⟨2, "hello", ann⟩, ⟨5, Wire.envelopeHeader ++ payload, ann⟩]

/-- The failing handler and the bad envelope stop nothing. -/
theorem loop_accounts_touchy : ∃ payload, touchy.openPayload payload = .ok greeting ∧
    (fourArrivals payload).Pairwise (·.time ≤ ·.time) ∧
      let r := touchy.runInboundWith (fun m plain => plain ++ [m]) (fourArrivals payload) []
        ⟨touchy.newEcho, [], ()⟩
      r.stats = { plain := 1, dropped := 1, dispatched := 2 } ∧ r.receiver = [⟨"hello", ann⟩] ∧
        r.stats.plain + r.stats.echoes + r.stats.dropped + r.stats.dispatched + r.stats.unhandled
          = 4 := by
  obtain ⟨cipher, -, hopen⟩ := openPayload_sealPayload Registry.built_standard encodeFrame_greeting
    Rsa.Keypair.valid_pierpont (.numbered 0) (acquainted ann) touchy rfl Gzip.lossless_inMemory rfl
    rfl
  replace hopen := (hopen [] (by decide)).1 (by decide)
  rw [List.append_nil] at hopen
  have hclock : (fourArrivals (SafeText.encode cipher)).Pairwise (·.time ≤ ·.time) := by
    simp [fourArrivals]
  obtain ⟨-, -, -, -, -, -, htotal, hplain, -⟩ :=
    loop_accounts touchy (fun m plain => plain ++ [m]) [] ⟨touchy.newEcho, [], ()⟩ hclock
  -- Ann is not ben, so nothing that ben remembers plays a part.
  have houtcome : ∀ (now : Nat) (payload : String) (s : TunnelState Unit),
      (touchy.onText now (Wire.envelopeHeader ++ payload) ann s).1
        = (touchy.receive payload ann s).1 := by
    intro now payload s
    rw [onText_of_new fun h => absurd h (by decide)]
    exact touchy.receive_fst payload ann _ _
  have hgreeting : ∀ s : TunnelState Unit,
      (touchy.receive (SafeText.encode cipher) ann s).1 = .dispatched .message := by
    intro s
    rw [show ann = greeting.sender from rfl, receive_accepted hopen, acceptance_fst_eq]
    rfl
  have hunknown : ∀ s : TunnelState Unit,
      (touchy.receive "unknown" ann s).1 = .dropped .textDecode := fun _ => rfl
  have hhello : ∀ (now : Nat) (s : TunnelState Unit),
      (touchy.onText now "hello" ann s).1 = .notTunnel := fun _ _ => rfl
  have hplainText : RelayMessage.IsPlain ⟨"hello", ann⟩ := by decide
  refine ⟨_, hopen, hclock, ?_, hplain.trans ?_, htotal⟩
  · simp [runInboundWith, fourArrivals, round, onArrival, houtcome, hgreeting, hunknown, hhello,
      InboundStats.record]
  · simp [fourArrivals, not_isPlain_header, hplainText]

end Tunnel

end TextTunnel
