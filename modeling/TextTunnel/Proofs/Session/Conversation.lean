import TextTunnel.Proofs.Session.Company
import TextTunnel.Proofs.Session.Copies

/-!
# Conversations step by step

While tunnels that can talk to each other send and receive, each station is *in step*: what it has
received so far, and what waits for it, are together exactly the copies that are due to it, in the
order of the sends; and its echo filter remembers the sends whose echoes are still to come.

* `Inv` -- everybody is in place and in step.
* `inv_start` -- the invariant holds at the start.
* `inv_receive`, `inv_send`, `inv_wait` -- every move keeps it.
-/

namespace TextTunnel.Session

/-! ## 1. The invariant -/

/-- The packet was sent in its author's name, to one of the tunnels, which can open it. -/
structure Deliverable (ts : List Tunnel) (a : Sent) : Prop where
  sender : ∃ t, ts[a.station]? = some t ∧ a.packet.sender = t.self
  recipient : ∃ u ∈ ts, a.recipient = u.self ∧ u.openPayload a.payload = .ok a.packet

/-- A station has received some of the copies that are due to it, the others wait, and it knows of
the echoes that are still to come. -/
structure InStep (s : Session) (h : List Entry) (i : Nat) (t : Tunnel) (echo : EchoFilter) :
    Prop where
  station : s.stations[i]? = some ⟨t, t.self, i, echo⟩
  remembers : Remembers t echo s.now (outstanding h i)
  copies : ∃ rs, receiptsAt h i ++ rs = (sends h).flatMap (due t i) ∧
    s.hub.waiting i = rs.map (·.message)

/-- Everybody is in place and in step. -/
structure Inv (maxMessageLen : Nat) (command : String) (ts : List Tunnel) (s : Session)
    (h : List Entry) : Prop where
  seated : Seated maxMessageLen command ts s.hub
  length_stations : s.stations.length = ts.length
  deliverable : ∀ a ∈ sends h, Deliverable ts a
  payloads : ((sends h).map (·.payload)).Nodup
  inStep : ∀ i t, ts[i]? = some t → ∃ echo, InStep s h i t echo

variable {maxMessageLen : Nat} {command : String} {ts : List Tunnel} {s : Session} {h : List Entry}

theorem inv_start (maxMessageLen : Nat) (hc : Company command ts) :
    Inv maxMessageLen command ts (start maxMessageLen command ts) [] where
  seated := seated_start maxMessageLen hc
  length_stations := by rw [start_eq maxMessageLen hc, List.length_mapIdx]
  deliverable := fun _ ha => absurd ha List.not_mem_nil
  payloads := List.nodup_nil
  inStep := by
    intro i t ht
    refine ⟨t.newEcho, ?_, Remembers.new t _, [], rfl, waiting_start maxMessageLen hc i⟩
    rw [start_eq maxMessageLen hc, List.getElem?_mapIdx, ht, Option.map_some]

theorem inv_wait (hinv : Inv maxMessageLen command ts s h) (ms : Nat) :
    Inv maxMessageLen command ts (s.step (.wait ms)) h where
  seated := hinv.seated
  length_stations := hinv.length_stations
  deliverable := hinv.deliverable
  payloads := hinv.payloads
  inStep := by
    intro i t ht
    obtain ⟨echo, hstation, hremembers, hcopies⟩ := hinv.inStep i t ht
    exact ⟨echo, hstation, hremembers.later ms, hcopies⟩

/-! ## 2. Receiving -/

variable {i : Nat} {t : Tunnel} {echo : EchoFilter}

/-- A payload that belongs to no outstanding send is not remembered. -/
theorem take_of_not_mem_outstanding (hinv : Inv maxMessageLen command ts s h)
    (hin : InStep s h i t echo) {a : Sent} (ha : a ∈ sends h) (hout : a ∉ outstanding h i) :
    echo.take s.now a.payload = (false, echo) := by
  refine EchoFilter.take_of_not_mem fun p hp hpayload => hout ?_
  obtain ⟨b, hb, rfl⟩ := hin.remembers.exists_record hp
  rwa [← eq_of_payload_eq hinv.payloads (mem_outstanding.mp hb).1 ha hpayload]

/-- The payload of an outstanding send is taken for an echo as long as it is fresh. -/
theorem take_of_mem_outstanding (hinv : Inv maxMessageLen command ts s h)
    (hin : InStep s h i t echo) {a : Sent} (hout : a ∈ outstanding h i)
    (hfresh : t.newEcho.isFresh s.now a.sentAt = true) :
    echo.take s.now a.payload = (true, echo.forget a.payload) := by
  have hmem : a.record ∈ echo.sent := hin.remembers.mem a hout hfresh
  refine EchoFilter.take_of_mem hmem (fun p hp hpayload => ?_)
    ((hin.remembers.isFresh_eq a.sentAt).trans hfresh)
  obtain ⟨b, hb, rfl⟩ := hin.remembers.exists_record hp
  rw [eq_of_payload_eq hinv.payloads (mem_outstanding.mp hb).1 (mem_outstanding.mp hout).1 hpayload]

theorem outstanding_received_copy (hinv : Inv maxMessageLen command ts s h) {a : Sent}
    (ha : a ∈ sends h) (r : Receipt) (hr : r.station = i)
    (hmessage : r.message = a.message) :
    outstanding (h ++ [.received r]) i
      = (outstanding h i).filter fun b => b.payload ≠ a.payload := by
  subst hr
  rw [outstanding_received]
  refine List.filter_congr fun b hb => decide_eq_decide.mpr ?_
  rw [hmessage]
  constructor
  · intro hne hpayload
    rw [eq_of_payload_eq hinv.payloads (mem_outstanding.mp hb).1 ha hpayload] at hne
    exact hne rfl
  · exact fun hne hmessage => hne (payload_eq_of_message_eq hmessage).symm

/-- The echo of a packet is known as one, and then forgotten. -/
theorem received_echo (hinv : Inv maxMessageLen command ts s h) (ht : ts[i]? = some t)
    (hin : InStep s h i t echo) {a : Sent} (hout : a ∈ outstanding h i)
    (hfresh : t.newEcho.isFresh s.now a.sentAt = true) {rest : List RelayMessage}
    (hwaiting : s.hub.waiting i = a.message :: rest) :
    s.received i = some (a.message, (a.echo i).outcome,
        ⟨echo.forget a.payload, (a.echo i).effects, ⟨(s.hub.takeFirst i).2, []⟩⟩) ∧
      Remembers t (echo.forget a.payload) s.now (outstanding (h ++ [.received (a.echo i)]) i) := by
  obtain ⟨ha, rfl, -⟩ := mem_outstanding.mp hout
  obtain ⟨t', ht', hsender⟩ := (hinv.deliverable a ha).sender
  obtain rfl := Option.some.inj (ht.symm.trans ht')
  refine ⟨?_, ?_⟩
  · rw [received_of_waiting hin.station hwaiting, Sent.message, hsender,
      Tunnel.onText_echo (take_of_mem_outstanding hinv hin hout hfresh)]
    rfl
  · rw [outstanding_received_copy (i := a.station) hinv ha _ rfl rfl]
    exact hin.remembers.forget a.payload

/-- A packet whose echo is not expected, or not expected any more, is accepted. -/
theorem received_accepted (hc : Company command ts) (hinv : Inv maxMessageLen command ts s h)
    (ht : ts[i]? = some t) (hin : InStep s h i t echo) {a : Sent} (ha : a ∈ sends h)
    (hrecipient : a.recipient = t.self) (hout : a ∉ outstanding h i) {rest : List RelayMessage}
    (hwaiting : s.hub.waiting i = a.message :: rest) :
    s.received i = some (a.message, (a.accepted t i).outcome,
        ⟨echo, (a.accepted t i).effects, ⟨(s.hub.takeFirst i).2, []⟩⟩) ∧
      Remembers t echo s.now (outstanding (h ++ [.received (a.accepted t i)]) i) := by
  obtain ⟨u, hu, hself, hopen⟩ := (hinv.deliverable a ha).recipient
  obtain ⟨j, hj⟩ := List.mem_iff_getElem?.mp hu
  obtain rfl := hc.index_eq hj ht (congrArg Peer.name (hself.symm.trans hrecipient))
  obtain rfl := Option.some.inj (hj.symm.trans ht)
  have htake := take_of_not_mem_outstanding hinv hin ha hout
  have hafter : u.echoAfter s.now a.payload a.packet.sender echo = echo := by
    rw [Tunnel.echoAfter, htake, ite_self]
  refine ⟨?_, ?_⟩
  · rw [received_of_waiting hin.station hwaiting, Sent.message,
      Tunnel.onText_accepted hopen fun _ => congrArg Prod.fst htake, Station.state, hafter]
    rfl
  · have hkeep : ∀ b ∈ outstanding h j, b.payload ≠ a.payload := by
      intro b hb hpayload
      rw [eq_of_payload_eq hinv.payloads (mem_outstanding.mp hb).1 ha hpayload] at hb
      exact hout hb
    rw [outstanding_received_copy (i := j) hinv ha _ rfl rfl,
      List.filter_eq_self.mpr fun b hb => decide_eq_true (hkeep b hb)]
    exact hin.remembers

/-- **The next copy is received as it is due**, and the echo filter is right again afterwards. -/
theorem received_next (hc : Company command ts) (hinv : Inv maxMessageLen command ts s h)
    (ht : ts[i]? = some t) (hin : InStep s h i t echo) {r : Receipt} {rs : List Receipt}
    (hcopies : receiptsAt h i ++ r :: rs = (sends h).flatMap (due t i))
    (hwaiting : s.hub.waiting i = r.message :: rs.map (·.message))
    (htimely : ∀ a ∈ outstanding h i, a.message = r.message →
      t.newEcho.isFresh s.now a.sentAt = true) :
    r.station = i ∧ ∃ echo',
      s.received i = some (r.message, r.outcome, ⟨echo', r.effects, ⟨(s.hub.takeFirst i).2, []⟩⟩) ∧
        Remembers t echo' s.now (outstanding (h ++ [.received r]) i) := by
  obtain ⟨a, ha, ⟨-, rfl, hout⟩ | ⟨hrecipient, rfl, hout⟩⟩ := next_copy hinv.payloads hcopies
  · exact ⟨rfl, _, received_echo hinv ht hin hout (htimely a hout rfl) hwaiting⟩
  · exact ⟨rfl, _, received_accepted hc hinv ht hin ha hrecipient hout hwaiting⟩

/-- **Receiving keeps everybody in step**, if echoes are still fresh when they are received. -/
theorem inv_receive (hc : Company command ts) (hinv : Inv maxMessageLen command ts s h) (i : Nat)
    (htimely : ∀ t m rest, ts[i]? = some t → s.hub.waiting i = m :: rest →
      ∀ a ∈ outstanding h i, a.message = m → t.newEcho.isFresh s.now a.sentAt = true) :
    Inv maxMessageLen command ts (s.step (.receive i)) (h ++ (s.added? (.receive i)).toList) := by
  cases hnone : s.received i with
  | none =>
    rw [step, added?, hnone, Option.toList_none, List.append_nil]
    exact hinv
  | some p =>
    obtain ⟨m, outcome, t'⟩ := p
    obtain ⟨st, rest, hst, hwaiting, -⟩ := received_eq_some hnone
    obtain ⟨hi, -⟩ := List.getElem?_eq_some_iff.mp hst
    rw [hinv.length_stations] at hi
    have ht := List.getElem?_eq_getElem hi
    obtain ⟨echo, hin⟩ := hinv.inStep i _ ht
    obtain rfl := Option.some.inj (hst.symm.trans hin.station)
    obtain ⟨rs, hcopies, hwaiting'⟩ := hin.copies
    cases rs with
    | nil => exact absurd (hwaiting.symm.trans hwaiting') (List.cons_ne_nil m rest)
    | cons r rs =>
      obtain ⟨rfl, -⟩ := List.cons.inj (hwaiting.symm.trans hwaiting')
      obtain ⟨rfl, echo', hreceived, hremembers⟩ := received_next hc hinv ht hin hcopies hwaiting'
        (htimely _ _ _ ht hwaiting)
      rw [step, added?, hreceived]
      have hsends : sends (h ++ [.received r]) = sends h := by
        rw [sends_append, sends_received, List.append_nil]
      refine ⟨hinv.seated.takeFirst r.station, ?_, ?_, ?_, fun j u hu => ?_⟩
      · exact (List.length_modify ..).trans hinv.length_stations
      · exact hsends ▸ hinv.deliverable
      · exact hsends ▸ hinv.payloads
      · by_cases hj : r.station = j
        · subst hj
          obtain rfl := Option.some.inj (ht.symm.trans hu)
          refine ⟨echo', ?_, hremembers, rs, ?_, ?_⟩
          · dsimp only
            rw [stations_keep, hst, Option.map_some, if_pos rfl]
          · rw [Option.toList_some, receiptsAt_append, receiptsAt_received, if_pos rfl, hsends,
              List.append_assoc, List.singleton_append, hcopies]
          · exact (Hub.waiting_takeFirst ..).trans (by rw [if_pos rfl, hwaiting']; rfl)
        · obtain ⟨echo', hin'⟩ := hinv.inStep j u hu
          obtain ⟨rs', hcopies', hwaiting''⟩ := hin'.copies
          refine ⟨echo', ?_, ?_, rs', ?_, ?_⟩
          · dsimp only
            rw [stations_keep, hin'.station, Option.map_some, if_neg hj]
          · exact (outstanding_received_of_ne h hj).symm ▸ hin'.remembers
          · rw [Option.toList_some, receiptsAt_append, receiptsAt_received, if_neg hj, hsends,
              List.append_nil, hcopies']
          · exact (Hub.waiting_takeFirst ..).trans (by rw [if_neg hj, hwaiting''])

/-! ## 3. Sending -/

/-- What is received belongs to a send. -/
theorem exists_send_of_mem_receiptsAt (hin : InStep s h i t echo) {r : Receipt}
    (hr : r ∈ receiptsAt h i) : ∃ b ∈ sends h, r.message = b.message := by
  obtain ⟨rs, hcopies, -⟩ := hin.copies
  have hmem : r ∈ (sends h).flatMap (due t i) := hcopies ▸ List.mem_append_left rs hr
  obtain ⟨b, hb, hr⟩ := List.mem_flatMap.mp hmem
  exact ⟨b, hb, message_of_mem_due hr⟩

/-- What a delivery puts into an inbox are the copies that are due there. -/
theorem waiting_deliverAll_due (hc : Company command ts) {hub : Hub}
    (hseated : Seated maxMessageLen command ts hub) {j n : Nat} {u v : Tunnel} {a : Sent}
    (hu : ts[j]? = some u) (hv : ts[n]? = some v) (hrecipient : a.recipient = u.self) :
    (hub.deliverAll a.message [⟨u.self, j⟩, ⟨t.self, a.station⟩]).1.waiting n
      = hub.waiting n ++ (due v n a).map (·.message) := by
  obtain ⟨hn, -⟩ := List.getElem?_eq_some_iff.mp hv
  have hself : a.recipient = v.self ↔ j = n := by
    rw [hrecipient]
    constructor
    · exact fun h => hc.index_eq hu hv (congrArg Peer.name h)
    · rintro rfl
      rw [Option.some.inj (hu.symm.trans hv)]
  rw [Hub.waiting_deliverAll, due, List.append_right_inj]
  simp only [hseated.accepts n hn, and_true, hself]
  by_cases hj : j = n <;> by_cases hi : a.station = n <;>
    simp [hj, hi, Sent.echo, Sent.accepted]

/-- A station's echo filter changes, and nothing else. -/
theorem inv_keep (hinv : Inv maxMessageLen command ts s h) (ht : ts[i]? = some t)
    {t' : TunnelState Backdrop} (hhub : t'.world.hub = s.hub)
    (hremembers : Remembers t t'.echo s.now (outstanding h i)) :
    Inv maxMessageLen command ts (s.keep i t') h where
  seated := by
    rw [keep, hhub]
    exact hinv.seated
  length_stations := (List.length_modify ..).trans hinv.length_stations
  deliverable := hinv.deliverable
  payloads := hinv.payloads
  inStep := by
    intro j u hu
    obtain ⟨echo, hstation, hremembers', hcopies⟩ := hinv.inStep j u hu
    by_cases hj : i = j
    · subst hj
      obtain rfl := Option.some.inj (ht.symm.trans hu)
      refine ⟨t'.echo, ?_, hremembers, ?_⟩
      · rw [stations_keep, hstation, Option.map_some, if_pos rfl]
      · rwa [keep, hhub]
    · refine ⟨echo, ?_, hremembers', ?_⟩
      · rw [stations_keep, hstation, Option.map_some, if_neg hj]
      · rwa [keep, hhub]

/-- A station's echo filter remembers one more send, whose copies are delivered. -/
theorem inv_keep_sent (hc : Company command ts) (hinv : Inv maxMessageLen command ts s h) {a : Sent}
    (ht : ts[a.station]? = some t) (hdeliverable : Deliverable ts a)
    (hnew : ∀ b ∈ sends h, b.payload ≠ a.payload) {j : Nat} {u : Tunnel} (hu : ts[j]? = some u)
    (hrecipient : a.recipient = u.self) {t' : TunnelState Backdrop}
    (hhub : t'.world.hub = (s.hub.deliverAll a.message [⟨u.self, j⟩, ⟨t.self, a.station⟩]).1)
    (hremembers : Remembers t t'.echo s.now (outstanding h a.station ++ [a])) :
    Inv maxMessageLen command ts (s.keep a.station t') (h ++ [.sent a]) where
  seated := by
    rw [keep, hhub]
    exact hinv.seated.deliverAll ..
  length_stations := (List.length_modify ..).trans hinv.length_stations
  deliverable := by
    intro b hb
    rw [sends_append, sends_sent] at hb
    rcases List.mem_append.mp hb with hb | hb
    · exact hinv.deliverable b hb
    · rwa [List.mem_singleton.mp hb]
  payloads := by
    rw [sends_append, sends_sent, List.map_append, List.map_singleton]
    refine List.nodup_append.mpr ⟨hinv.payloads, List.nodup_singleton _, ?_⟩
    intro p hp q hq
    obtain ⟨b, hb, rfl⟩ := List.mem_map.mp hp
    rw [List.mem_singleton.mp hq]
    exact hnew b hb
  inStep := by
    intro n v hv
    obtain ⟨echo, hin⟩ := hinv.inStep n v hv
    have hcopies : ∃ rs, receiptsAt (h ++ [.sent a]) n ++ rs
        = (sends (h ++ [.sent a])).flatMap (due v n) ∧
          (s.keep a.station t').hub.waiting n = rs.map (·.message) := by
      obtain ⟨rs, hrs, hwaiting⟩ := hin.copies
      refine ⟨rs ++ due v n a, ?_, ?_⟩
      · rw [receiptsAt_append, receiptsAt_sent, sends_append, sends_sent, List.append_nil,
          List.flatMap_append, List.flatMap_singleton, ← hrs, List.append_assoc]
      · rw [keep, hhub, waiting_deliverAll_due hc hinv.seated hu hv hrecipient, hwaiting,
          List.map_append]
    by_cases hn : a.station = n
    · subst hn
      obtain rfl := Option.some.inj (ht.symm.trans hv)
      have hunseen : ∀ r ∈ receiptsAt h a.station, r.message ≠ a.message := by
        intro r hr hmessage
        obtain ⟨b, hb, hr⟩ := exists_send_of_mem_receiptsAt hin hr
        exact hnew b hb (payload_eq_of_message_eq (hr.symm.trans hmessage))
      refine ⟨t'.echo, ?_, ?_, hcopies⟩
      · rw [stations_keep, hin.station, Option.map_some, if_pos rfl]
      · exact (outstanding_sent h hunseen).symm ▸ hremembers
    · refine ⟨echo, ?_, ?_, hcopies⟩
      · rw [stations_keep, hin.station, Option.map_some, if_neg hn]
      · exact (outstanding_sent_of_ne h hn).symm ▸ hin.remembers

/-- **Sending keeps everybody in step**, if the payload is new and there is room to remember it:
whether the packet cannot be built, the hub refuses it, or two copies go out. -/
theorem inv_send (hc : Company command ts) (hinv : Inv maxMessageLen command ts s h)
    (ht : ts[i]? = some t) {u : Tunnel} (hu : u ∈ ts) {noise : Rsa.Noise} {packet : Packet}
    (hsender : packet.sender = t.self)
    (hlimit : ∀ frame, t.registry.encodeFrame packet = .ok frame →
      frame.length ≤ u.config.limits.maxDecompressedLen)
    (hnew : ∀ payload, s.payload? i noise packet u.self = some payload →
      ∀ b ∈ sends h, b.payload ≠ payload)
    (hroom : (outstanding h i).length < t.newEcho.capacity) :
    Inv maxMessageLen command ts (s.step (.sendPacket i noise packet u.self))
      (h ++ (s.added? (.sendPacket i noise packet u.self)).toList) := by
  obtain ⟨echo, hin⟩ := hinv.inStep i t ht
  cases hprepare : t.prepare noise packet u.self with
  | error setback =>
    obtain ⟨result, t', hsent, hecho, hhub⟩ := sent_failed hin.station hprepare
    have hpayload := payload?_of_prepare_error hin.station hprepare
    rw [added?_of_payload?_eq_none hpayload, Option.toList_none, List.append_nil, step, hsent]
    exact inv_keep hinv ht hhub (hecho ▸ hin.remembers)
  | ok p =>
    obtain ⟨payload, text⟩ := p
    obtain ⟨-, -, -, rfl, -⟩ := Tunnel.prepare_eq_ok_iff.mp hprepare
    have hpayload := payload?_of_prepare hin.station hprepare
    have hnew' := hnew payload hpayload
    have hout : ∀ b ∈ outstanding h i, b.payload ≠ payload :=
      fun b hb => hnew' b (mem_outstanding.mp hb).1
    by_cases hlen : s.hub.maxMessageLen < (t.address u.self payload).length
    · obtain ⟨t', hsent, hecho, hhub⟩ := sent_refused hin.station hprepare (Hub.send_tooLong hlen)
      rw [step, added?, hsent]
      dsimp only
      rw [Option.toList_none, List.append_nil]
      refine inv_keep hinv ht hhub ?_
      rw [hecho]
      exact hin.remembers.insert_forget hroom hout
    · obtain ⟨j, hj⟩ := List.mem_iff_getElem?.mp hu
      have hsend := hinv.seated.send_address hc ht hj (Nat.not_lt.mp hlen)
      obtain ⟨t', hsent, hecho, hhub⟩ := sent_accepted hin.station hprepare hsend
      rw [step, added?, hsent, hpayload]
      refine inv_keep_sent (a := ⟨i, packet, u.self, payload, s.now⟩) hc hinv ht ?_ hnew' hj rfl
        ?_ ?_
      · exact ⟨⟨t, ht, hsender⟩, u, hu, rfl,
          hc.openPayload_of_prepare (List.mem_of_getElem? ht) hu hprepare hlimit⟩
      · rw [hhub, Sent.message, hsender]
      · rw [hecho]
        exact hin.remembers.insert (a := ⟨i, packet, u.self, payload, s.now⟩) hroom hout

end TextTunnel.Session
