import TextTunnel.Proofs.Session.Basic
import TextTunnel.Proofs.Tunnel.RoundTrip

/-!
# What has happened in a session

The history of a run lists, in order, the packets that were sent and accepted by the relay, and what
became of the messages that were taken off an inbox. From it one can tell which sends of a station
are still waiting for their echo.

* `Session.history` -- the packets sent and the messages received, in one row; every sending that
  succeeds is in it (`exists_added_of_sent_ok`).
* `sends`, `receiptsAt` -- the packets alone, and what one station has received.
* `outstanding` -- the sends of a station whose message it has not seen again.
* `Session.payloads` -- the payloads that were made, whether or not the relay has accepted them.
-/

namespace TextTunnel.Session

/-! ## 1. Sends and receipts -/

/-- A packet that a station has sent and the relay has accepted. -/
structure Sent where
  station : Nat
  packet : Packet
  recipient : Peer
  payload : String
  sentAt : Nat

/-- The message that the relay delivers for it. -/
def Sent.message (a : Sent) : RelayMessage :=
  ⟨Wire.envelopeHeader ++ a.payload, a.packet.sender⟩

/-- What an echo filter remembers of it. -/
def Sent.record (a : Sent) : SentPayload :=
  ⟨a.payload, a.sentAt⟩

/-- What became of a message that a station has taken off its inbox. -/
structure Receipt where
  station : Nat
  message : RelayMessage
  outcome : InboundOutcome
  effects : List Effect

/-- One line of a history. -/
inductive Entry where
  | sent (a : Sent)
  | received (r : Receipt)

/-- The sends of a history. -/
def sends (h : List Entry) : List Sent :=
  h.filterMap fun
    | .sent a => some a
    | .received _ => none

/-- What a station has received in a history. -/
def receiptsAt (h : List Entry) (i : Nat) : List Receipt :=
  h.filterMap fun
    | .sent _ => none
    | .received r => if r.station = i then some r else none

/-- The sends of a station whose message it has not seen again. -/
def outstanding (h : List Entry) (i : Nat) : List Sent :=
  (sends h).filter fun a => a.station = i ∧ ∀ r ∈ receiptsAt h i, r.message ≠ a.message

/-! ## 2. Histories -/

/-- The payload that a station makes of a packet. -/
def payload? (s : Session) (i : Nat) (noise : Rsa.Noise) (packet : Packet) (recipient : Peer) :
    Option String := do
  let st ← s.stations[i]?
  match st.tunnel.prepare noise packet recipient with
  | .ok (payload, _) => some payload
  | .error _ => none

/-- What an action adds to the history. -/
def added? (s : Session) : Action → Option Entry
  | .sendPacket i noise packet recipient =>
    match s.sent i noise packet recipient, s.payload? i noise packet recipient with
    | some (.ok (), _), some payload => some (.sent ⟨i, packet, recipient, payload, s.now⟩)
    | _, _ => none
  | .receive i =>
    match s.received i with
    | some (m, outcome, t) => some (.received ⟨i, m, outcome, t.effects⟩)
    | none => none
  | _ => none

theorem payload?_of_prepare {s : Session} {i : Nat} {st : Station} {noise : Rsa.Noise}
    {packet : Packet} {recipient : Peer} {payload text : String} (hst : s.stations[i]? = some st)
    (hprepare : st.tunnel.prepare noise packet recipient = .ok (payload, text)) :
    s.payload? i noise packet recipient = some payload := by
  rw [payload?, hst]
  simp only [Option.bind_eq_bind, Option.bind_some, hprepare]

theorem payload?_of_prepare_error {s : Session} {i : Nat} {st : Station} {noise : Rsa.Noise}
    {packet : Packet} {recipient : Peer} {setback : Setback} (hst : s.stations[i]? = some st)
    (hprepare : st.tunnel.prepare noise packet recipient = .error setback) :
    s.payload? i noise packet recipient = none := by
  rw [payload?, hst]
  simp only [Option.bind_eq_bind, Option.bind_some, hprepare]

/-- Without a payload nothing is sent. -/
theorem added?_of_payload?_eq_none {s : Session} {i : Nat} {noise : Rsa.Noise} {packet : Packet}
    {recipient : Peer} (h : s.payload? i noise packet recipient = none) :
    s.added? (.sendPacket i noise packet recipient) = none := by
  rw [added?, h]
  split
  · next hpayload => cases hpayload
  · rfl

/-- Every sending that succeeds is in the history, if the station's compressor loses nothing. -/
theorem exists_added_of_sent_ok {s : Session} {i : Nat} {noise : Rsa.Noise} {packet : Packet}
    {recipient : Peer} {t : TunnelState Backdrop}
    (hlossless : ∀ st, s.stations[i]? = some st → st.tunnel.compressor.Lossless)
    (hsent : s.sent i noise packet recipient = some (.ok (), t)) :
    ∃ payload, s.added? (.sendPacket i noise packet recipient)
      = some (.sent ⟨i, packet, recipient, payload, s.now⟩) := by
  obtain ⟨st, hst, hresult⟩ := Option.map_eq_some_iff.mp hsent
  obtain ⟨payload, hprepare⟩ :=
    Tunnel.exists_prepare_of_sendPacket_ok (hlossless st hst) (congrArg Prod.fst hresult)
  refine ⟨payload, ?_⟩
  rw [added?, hsent, payload?_of_prepare hst hprepare]

/-- What happens in a run. -/
def history (s : Session) : List Action → List Entry
  | [] => []
  | a :: acts => (s.added? a).toList ++ history (s.step a) acts

theorem history_append (s : Session) (acts acts' : List Action) :
    s.history (acts ++ acts') = s.history acts ++ (s.run acts).history acts' := by
  induction acts generalizing s with
  | nil => rfl
  | cons a acts ih =>
    rw [List.cons_append, history, history, ih, List.append_assoc]
    rfl

theorem history_concat (s : Session) (acts : List Action) (a : Action) :
    s.history (acts ++ [a]) = s.history acts ++ ((s.run acts).added? a).toList := by
  rw [history_append, history, history, List.append_nil]

/-- The payload that an action makes. -/
def made? (s : Session) : Action → Option String
  | .sendPacket i noise packet recipient => s.payload? i noise packet recipient
  | _ => none

/-- The payloads that are made in a run. -/
def payloads (s : Session) : List Action → List String
  | [] => []
  | a :: acts => (s.made? a).toList ++ payloads (s.step a) acts

theorem payloads_append (s : Session) (acts acts' : List Action) :
    s.payloads (acts ++ acts') = s.payloads acts ++ (s.run acts).payloads acts' := by
  induction acts generalizing s with
  | nil => rfl
  | cons a acts ih =>
    rw [List.cons_append, payloads, payloads, ih, List.append_assoc]
    rfl

/-- Only a payload that was made is sent. -/
theorem sends_added_sublist (s : Session) (a : Action) :
    ((sends (s.added? a).toList).map (·.payload)).Sublist (s.made? a).toList := by
  cases a with
  | sendPacket i noise packet recipient =>
    rw [added?, made?]
    split
    · next payload _ hpayload =>
      rw [hpayload]
      exact List.Sublist.refl _
    · exact List.nil_sublist _
  | receive i =>
    rw [added?]
    split <;> exact List.nil_sublist _
  | _ => exact List.nil_sublist _

theorem sends_sublist_payloads (s : Session) (acts : List Action) :
    ((sends (s.history acts)).map (·.payload)).Sublist (s.payloads acts) := by
  induction acts generalizing s with
  | nil => exact List.Sublist.refl _
  | cons a acts ih =>
    rw [history, sends, List.filterMap_append, List.map_append, payloads]
    exact (sends_added_sublist s a).append (ih (s.step a))

/-! ## 3. One more line -/

theorem sends_append (h h' : List Entry) : sends (h ++ h') = sends h ++ sends h' :=
  List.filterMap_append

theorem receiptsAt_append (h h' : List Entry) (i : Nat) :
    receiptsAt (h ++ h') i = receiptsAt h i ++ receiptsAt h' i :=
  List.filterMap_append

@[simp] theorem sends_sent (a : Sent) : sends [.sent a] = [a] := rfl

@[simp] theorem sends_received (r : Receipt) : sends [.received r] = [] := rfl

@[simp] theorem receiptsAt_sent (a : Sent) (i : Nat) : receiptsAt [.sent a] i = [] := rfl

theorem receiptsAt_received (r : Receipt) (i : Nat) :
    receiptsAt [.received r] i = if r.station = i then [r] else [] := by
  by_cases h : r.station = i <;> simp [receiptsAt, h]

theorem mem_outstanding {h : List Entry} {i : Nat} {a : Sent} :
    a ∈ outstanding h i ↔
      a ∈ sends h ∧ a.station = i ∧ ∀ r ∈ receiptsAt h i, r.message ≠ a.message := by
  rw [outstanding, List.mem_filter, decide_eq_true_eq]

/-- A message that a station receives settles its send with that message. -/
theorem outstanding_received (h : List Entry) (r : Receipt) :
    outstanding (h ++ [.received r]) r.station
      = (outstanding h r.station).filter fun a => r.message ≠ a.message := by
  rw [outstanding, outstanding, sends_append, receiptsAt_append, receiptsAt_received, if_pos rfl,
    sends_received, List.append_nil, List.filter_filter]
  refine List.filter_congr fun a _ => ?_
  rw [← Bool.decide_and]
  refine decide_eq_decide.mpr ?_
  constructor
  · rintro ⟨hi, hr⟩
    exact ⟨hr r (List.mem_append_right _ List.mem_cons_self), hi,
      fun r' hr' => hr r' (List.mem_append_left _ hr')⟩
  · rintro ⟨hr, hi, hall⟩
    refine ⟨hi, fun r' hr' => ?_⟩
    rcases List.mem_append.mp hr' with hr' | hr'
    · exact hall r' hr'
    · rw [List.mem_singleton.mp hr']
      exact hr

theorem outstanding_received_of_ne (h : List Entry) {r : Receipt} {i : Nat} (hi : r.station ≠ i) :
    outstanding (h ++ [.received r]) i = outstanding h i := by
  rw [outstanding, outstanding, sends_append, receiptsAt_append, receiptsAt_received, if_neg hi,
    sends_received, List.append_nil, List.append_nil]

/-- A send whose message its station has not seen is outstanding. -/
theorem outstanding_sent (h : List Entry) {a : Sent}
    (hnew : ∀ r ∈ receiptsAt h a.station, r.message ≠ a.message) :
    outstanding (h ++ [.sent a]) a.station = outstanding h a.station ++ [a] := by
  rw [outstanding, outstanding, sends_append, receiptsAt_append, receiptsAt_sent, sends_sent,
    List.append_nil, List.filter_append]
  congr 1
  rw [List.filter_cons, if_pos (decide_eq_true ⟨rfl, hnew⟩)]
  rfl

theorem outstanding_sent_of_ne (h : List Entry) {a : Sent} {i : Nat} (hi : a.station ≠ i) :
    outstanding (h ++ [.sent a]) i = outstanding h i := by
  rw [outstanding, outstanding, sends_append, receiptsAt_append, receiptsAt_sent, sends_sent,
    List.append_nil, List.filter_append, List.filter_cons, if_neg, List.filter_nil,
    List.append_nil]
  rw [decide_eq_true_eq]
  exact fun hc => hi hc.1

end TextTunnel.Session
