import TextTunnel.Proofs.Session.Conversation

/-!
# Every packet arrives exactly once

Tunnels that can talk to each other send packets, to others or to themselves, and take messages off
their inboxes, in any order. Once all inboxes are empty, each send that the relay has accepted was
received as an echo by its sender, once, and as the packet by its recipient, once, and by nobody
else.

* `Allowed` -- the conditions on a move: the sender is honest, there is room in its echo filter, and
  echoes are received before they are forgotten.
* `Conversation` -- a run of such moves in which no payload is made twice.
* `inv_run` -- the invariant holds after each conversation.
* `received_exactly_once` -- what has been received in the end.
-/

namespace TextTunnel.Session

/-! ## 1. Conversations -/

/-- What may happen next. A tunnel sends in its own name to one of the tunnels, which takes frames
of that length; fewer of its echoes are outstanding than its filter can remember. Or a station
receives a message; if that is an echo, it is still fresh. -/
def Allowed (ts : List Tunnel) (s : Session) (h : List Entry) : Action → Prop
  | .sendPacket i _ packet recipient =>
    ∃ t u, ts[i]? = some t ∧ u ∈ ts ∧ packet.sender = t.self ∧ recipient = u.self ∧
      (∀ frame, t.registry.encodeFrame packet = .ok frame →
        frame.length ≤ u.config.limits.maxDecompressedLen) ∧
      (outstanding h i).length < t.newEcho.capacity
  | .receive i =>
    ∀ t m rest, ts[i]? = some t → s.hub.waiting i = m :: rest →
      ∀ a ∈ outstanding h i, a.message = m → t.newEcho.isFresh s.now a.sentAt = true
  | .wait _ => True
  | _ => False

/-- Moves that are allowed, one after another, and payloads that differ from each other. -/
structure Conversation (maxMessageLen : Nat) (command : String) (ts : List Tunnel)
    (acts : List Action) : Prop where
  allowed : ∀ before a after, acts = before ++ a :: after →
    Allowed ts ((start maxMessageLen command ts).run before)
      ((start maxMessageLen command ts).history before) a
  payloads : ((start maxMessageLen command ts).payloads acts).Nodup

variable {maxMessageLen : Nat} {command : String} {ts : List Tunnel} {s : Session} {h : List Entry}
  {acts : List Action}

/-- The beginning of a conversation is one. -/
theorem Conversation.of_append {acts' : List Action}
    (hconv : Conversation maxMessageLen command ts (acts ++ acts')) :
    Conversation maxMessageLen command ts acts where
  allowed := by
    rintro before a after rfl
    exact hconv.allowed before a (after ++ acts') (List.append_assoc ..)
  payloads := by
    have hnodup := hconv.payloads
    rw [payloads_append] at hnodup
    exact (List.nodup_append.mp hnodup).1

theorem conversation_nil (maxMessageLen : Nat) (command : String) (ts : List Tunnel) :
    Conversation maxMessageLen command ts [] where
  allowed := fun before a after h => absurd (congrArg List.length h) (by simp)
  payloads := List.nodup_nil

/-- A conversation goes on by one move more. -/
theorem Conversation.concat (hconv : Conversation maxMessageLen command ts acts) {a : Action}
    (hallowed : Allowed ts ((start maxMessageLen command ts).run acts)
      ((start maxMessageLen command ts).history acts) a)
    (hnew : ∀ payload, ((start maxMessageLen command ts).run acts).made? a = some payload →
      payload ∉ (start maxMessageLen command ts).payloads acts) :
    Conversation maxMessageLen command ts (acts ++ [a]) where
  allowed := by
    intro before b after h
    rcases List.eq_nil_or_concat' after with rfl | ⟨after, c, rfl⟩
    · obtain ⟨rfl, hab⟩ := List.append_inj' h rfl
      obtain rfl := List.singleton_inj.mp hab
      exact hallowed
    · rw [← List.cons_append, ← List.append_assoc] at h
      exact hconv.allowed before b after (List.append_inj' h rfl).1
  payloads := by
    rw [payloads_append, Session.payloads, Session.payloads, List.append_nil]
    refine List.nodup_append.mpr ⟨hconv.payloads, Option.toList_nodup _, ?_⟩
    rintro p hp q hq rfl
    exact hnew p (Option.mem_toList.mp hq) hp

/-- **Every move that is allowed keeps everybody in step.** -/
theorem inv_step (hc : Company command ts) (hinv : Inv maxMessageLen command ts s h) {a : Action}
    (hallowed : Allowed ts s h a)
    (hnew : ∀ payload, s.made? a = some payload → ∀ b ∈ sends h, b.payload ≠ payload) :
    Inv maxMessageLen command ts (s.step a) (h ++ (s.added? a).toList) := by
  cases a with
  | sendPacket i noise packet recipient =>
    obtain ⟨t, u, ht, hu, hsender, rfl, hlimit, hroom⟩ := hallowed
    exact inv_send hc hinv ht hu hsender hlimit hnew hroom
  | receive i => exact inv_receive hc hinv i hallowed
  | wait ms =>
    have hnone : s.added? (.wait ms) = none := rfl
    rw [hnone, Option.toList_none, List.append_nil]
    exact inv_wait hinv ms
  | _ => exact hallowed.elim

/-- The invariant holds after each conversation. -/
theorem inv_run (hc : Company command ts) (hconv : Conversation maxMessageLen command ts acts) :
    Inv maxMessageLen command ts ((start maxMessageLen command ts).run acts)
      ((start maxMessageLen command ts).history acts) := by
  induction acts using List.reverseRecOn with
  | nil => exact inv_start maxMessageLen hc
  | append_singleton acts a ih =>
    rw [run_concat, history_concat]
    refine inv_step hc (ih hconv.of_append) (hconv.allowed acts a [] rfl)
      fun payload hmade b hb => ?_
    -- The payload would have been made twice.
    have hnodup := hconv.payloads
    rw [payloads_append, payloads, hmade] at hnodup
    have hmem := (sends_sublist_payloads _ acts).subset (List.mem_map_of_mem hb)
    exact (List.nodup_append.mp hnodup).2.2 _ hmem payload List.mem_cons_self

/-- At the very start everything is fresh. -/
theorem allowed_receive_of_now_eq_zero (ts : List Tunnel) (h : List Entry) (i : Nat)
    (hnow : s.now = 0) : Allowed ts s h (.receive i) := by
  intro t m rest _ _ a _ _
  rw [hnow, EchoFilter.isFresh, Nat.zero_sub]
  exact decide_eq_true (Nat.zero_le _)

/-- Ann greets ben, ben receives the greeting, and then ann its echo. -/
theorem conversation_greeting :
    Conversation Wire.defaultMaxMessageLen Wire.defaultWhisperCommand duo
      [greet, .receive 1, .receive 0] := by
  have hstart : together.now = 0 := by rw [together_eq]
  have hgreet : (together.step greet).now = 0 :=
    (now_step together fun _ => by simp [greet]).trans hstart
  have hreceive : ((together.step greet).step (.receive 1)).now = 0 :=
    (now_step _ fun _ => by simp).trans hgreet
  have hfirst : Conversation Wire.defaultMaxMessageLen Wire.defaultWhisperCommand duo [greet] := by
    refine (conversation_nil _ _ _).concat ?_ fun _ _ => List.not_mem_nil
    refine ⟨.acquainted Tunnel.ann, .acquainted Tunnel.ben, rfl, List.mem_pair.mpr (.inr rfl), rfl,
      rfl, fun frame hframe => ?_, by decide⟩
    obtain rfl := Except.ok.inj (Tunnel.encodeFrame_greeting.symm.trans hframe)
    decide
  have hnone : ∀ (s : Session) (i : Nat) (payload : String),
      s.made? (.receive i) ≠ some payload := fun _ _ payload => (Option.some_ne_none payload).symm
  have hsecond := hfirst.concat (allowed_receive_of_now_eq_zero duo _ 1 hgreet)
    fun payload h => absurd h (hnone _ 1 payload)
  exact hsecond.concat (allowed_receive_of_now_eq_zero duo _ 0 hreceive)
    fun payload h => absurd h (hnone _ 0 payload)

/-- The message waits for both of them, and both have taken it. -/
theorem waiting_greeting (i : Nat) (hi : i < duo.length) :
    (together.run [greet, .receive 1, .receive 0]).hub.waiting i = [] := by
  have hgreet : Conversation Wire.defaultMaxMessageLen Wire.defaultWhisperCommand duo [greet] :=
    conversation_greeting.of_append
  have hreceive : Conversation Wire.defaultMaxMessageLen Wire.defaultWhisperCommand duo
      [greet, .receive 1] := conversation_greeting.of_append
  obtain ⟨echo, hben⟩ := (inv_run company_duo hgreet).inStep 1 _ rfl
  obtain ⟨echo', hann⟩ := (inv_run company_duo hreceive).inStep 0 _ rfl
  obtain ⟨payload, -, hwaiting, -⟩ := exists_greeted
  have hsecond := waiting_receive hben.station i
  refine (waiting_receive hann.station i).trans ?_
  obtain rfl | rfl : i = 0 ∨ i = 1 := by
    have hlen : duo.length = 2 := rfl
    omega
  · rw [if_pos rfl]
    refine (congrArg (List.drop 1) hsecond).trans ?_
    rw [if_neg (show ¬ 1 = 0 by decide)]
    exact congrArg (List.drop 1) (hwaiting 0 hi)
  · rw [if_neg (show ¬ 0 = 1 by decide)]
    refine hsecond.trans ?_
    rw [if_pos rfl]
    exact congrArg (List.drop 1) (hwaiting 1 hi)

/-! ## 2. In the end -/

/-- Among the copies of sends whose payloads differ, those with one send's message are due to it. -/
theorem filter_flatMap_due {l : List Sent} (hl : (l.map (·.payload)).Nodup) {a : Sent} (ha : a ∈ l)
    (t : Tunnel) (i : Nat) :
    (l.flatMap (due t i)).filter (fun r => r.message = a.message) = due t i a := by
  have hown : (due t i a).filter (fun r => r.message = a.message) = due t i a :=
    List.filter_eq_self.mpr fun r hr => decide_eq_true (message_of_mem_due hr)
  have hothers : ∀ b : Sent, b.payload ≠ a.payload →
      (due t i b).filter (fun r => r.message = a.message) = [] := by
    intro b hne
    refine List.filter_eq_nil_iff.mpr fun r hr hmessage => hne (payload_eq_of_message_eq ?_)
    exact (message_of_mem_due hr).symm.trans (of_decide_eq_true hmessage)
  induction l with
  | nil => exact absurd ha List.not_mem_nil
  | cons b l ih =>
    rw [List.map_cons, List.nodup_cons] at hl
    rw [List.flatMap_cons, List.filter_append]
    rcases List.mem_cons.mp ha with rfl | ha
    · have hrest : (l.flatMap (due t i)).filter (fun r => r.message = a.message) = [] := by
        rw [List.filter_flatMap]
        refine List.flatMap_eq_nil_iff.mpr fun b hb => hothers b fun hpayload => hl.1 ?_
        exact List.mem_map.mpr ⟨b, hb, hpayload⟩
      rw [hown, hrest, List.append_nil]
    · rw [hothers b fun hpayload => hl.1 (List.mem_map.mpr ⟨a, ha, hpayload.symm⟩), List.nil_append]
      exact ih hl.2 ha

/-- When nothing waits for a station, it has received all that is due to it. -/
theorem InStep.receiptsAt_eq {i : Nat} {t : Tunnel} {echo : EchoFilter} (hin : InStep s h i t echo)
    (hempty : s.hub.waiting i = []) : receiptsAt h i = (sends h).flatMap (due t i) := by
  obtain ⟨rs, hcopies, hwaiting⟩ := hin.copies
  rw [hempty] at hwaiting
  obtain rfl := List.map_eq_nil_iff.mp hwaiting.symm
  rwa [List.append_nil] at hcopies

/-- And its echo filter is empty. -/
theorem InStep.sent_eq_nil {i : Nat} {t : Tunnel} {echo : EchoFilter} (hin : InStep s h i t echo)
    (hempty : s.hub.waiting i = []) : echo.sent = [] := by
  have hnone : outstanding h i = [] := by
    refine List.eq_nil_iff_forall_not_mem.mpr fun a ha => ?_
    obtain ⟨ha, hstation, hunseen⟩ := mem_outstanding.mp ha
    refine hunseen (a.echo i) ?_ rfl
    rw [hin.receiptsAt_eq hempty]
    refine List.mem_flatMap.mpr ⟨a, ha, ?_⟩
    rw [due, if_pos hstation]
    exact List.mem_cons_self
  have hsublist := hin.remembers.sublist
  rw [hnone] at hsublist
  exact List.eq_nil_of_sublist_nil hsublist

/-- **Every packet arrives exactly once.**  After a conversation whose messages have all been
received, each station has received what is due to it, in the order of the sends: for each send that
the relay has accepted, among all that a station has received, the sender's message comes up once as
an echo and the recipient's once as the packet, which goes to observers and handlers as in
`Tunnel.acceptance`; twice in a row if the two are one; and not at all with anybody else. No station
remembers a payload any more. -/
theorem received_exactly_once (hc : Company command ts)
    (hconv : Conversation maxMessageLen command ts acts)
    (hempty : ∀ i < ts.length, ((start maxMessageLen command ts).run acts).hub.waiting i = []) :
    (∀ i t, ts[i]? = some t →
      receiptsAt ((start maxMessageLen command ts).history acts) i
        = (sends ((start maxMessageLen command ts).history acts)).flatMap (due t i)) ∧
    (∀ a ∈ sends ((start maxMessageLen command ts).history acts),
      ∃ t u j, ts[a.station]? = some t ∧ a.packet.sender = t.self ∧
        ts[j]? = some u ∧ a.recipient = u.self ∧
        ((a.accepted u j).outcome = .dispatched a.packet.kind ∨
          (a.accepted u j).outcome = .unhandled a.packet.kind) ∧
        ∀ i < ts.length,
          (receiptsAt ((start maxMessageLen command ts).history acts) i).filter
              (fun r => r.message = a.message)
            = (if i = a.station then [a.echo i] else []) ++
              if i = j then [a.accepted u j] else []) ∧
    ∀ st ∈ ((start maxMessageLen command ts).run acts).stations, st.echo.sent = [] := by
  have hinv := inv_run hc hconv
  have hlt : ∀ {i t}, ts[i]? = some t → i < ts.length :=
    fun ht => (List.getElem?_eq_some_iff.mp ht).1
  have hreceipts : ∀ i t, ts[i]? = some t →
      receiptsAt ((start maxMessageLen command ts).history acts) i
        = (sends ((start maxMessageLen command ts).history acts)).flatMap (due t i) := by
    intro i t ht
    obtain ⟨echo, hin⟩ := hinv.inStep i t ht
    exact hin.receiptsAt_eq (hempty i (hlt ht))
  refine ⟨hreceipts, fun a ha => ?_, fun st hst => ?_⟩
  · obtain ⟨⟨t, ht, hsender⟩, u, hu, hrecipient, -⟩ := hinv.deliverable a ha
    obtain ⟨j, hj⟩ := List.mem_iff_getElem?.mp hu
    refine ⟨t, u, j, ht, hsender, hj, hrecipient, u.acceptance_fst a.payload a.packet,
      fun i hi => ?_⟩
    rw [hreceipts i _ (List.getElem?_eq_getElem hi), filter_flatMap_due hinv.payloads ha, due]
    congr 1
    · exact if_congr eq_comm rfl rfl
    · by_cases hij : i = j
      · subst hij
        obtain rfl := Option.some.inj ((List.getElem?_eq_getElem hi).symm.trans hj)
        rw [if_pos hrecipient, if_pos rfl]
      · rw [if_neg hij, if_neg fun hself => hij ?_]
        exact hc.index_eq (List.getElem?_eq_getElem hi) hj
          (congrArg Peer.name (hself.symm.trans hrecipient))
  · obtain ⟨i, hi⟩ := List.mem_iff_getElem?.mp hst
    obtain ⟨hlen, -⟩ := List.getElem?_eq_some_iff.mp hi
    rw [hinv.length_stations] at hlen
    obtain ⟨echo, hin⟩ := hinv.inStep i _ (List.getElem?_eq_getElem hlen)
    obtain rfl := Option.some.inj (hi.symm.trans hin.station)
    exact hin.sent_eq_nil (hempty i hlen)

/-- In that conversation one packet is sent, ann receives its echo and ben accepts it. -/
theorem received_exactly_once_greeting :
    ∃ a : Sent, a.packet = Tunnel.greeting ∧
      sends (together.history [greet, .receive 1, .receive 0]) = [a] ∧
      receiptsAt (together.history [greet, .receive 1, .receive 0]) 0 = [a.echo 0] ∧
      receiptsAt (together.history [greet, .receive 1, .receive 0]) 1
        = [a.accepted (.acquainted Tunnel.ben) 1] := by
  obtain ⟨payload, hadded, -, -⟩ := exists_greeted
  have hsends : sends (together.history [greet, .receive 1, .receive 0])
      = [⟨0, Tunnel.greeting, Tunnel.ben, payload, 0⟩] := by
    have hnone : ∀ (s : Session) (i : Nat), sends (s.added? (.receive i)).toList = [] := by
      intro s i
      exact List.map_eq_nil_iff.mp (List.eq_nil_of_sublist_nil (sends_added_sublist s (.receive i)))
    rw [history, history, history, hadded, sends_append, sends_append, sends_append, hnone, hnone]
    rfl
  obtain ⟨hreceipts, -, -⟩ :=
    received_exactly_once company_duo conversation_greeting waiting_greeting
  refine ⟨_, rfl, hsends, ?_, ?_⟩
  · exact (hreceipts 0 _ rfl).trans (congrArg _ hsends)
  · exact (hreceipts 1 _ rfl).trans (congrArg _ hsends)

end TextTunnel.Session
