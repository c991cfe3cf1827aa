import TextTunnel.Proofs.Session.Company

/-!
# Nobody speaks for another participant

Whoever takes part in a session and whatever is sent through its handles: when a tunnel shows a
packet to an observer as received, or gives it to a handler, the message that carried it was put
into the inbox by a sending through the handle of the packet's author.

* `Session.Puts` -- an action puts a message into an inbox.
* `sendsThrough_of_puts` -- it takes a sending through the handle of the message's author.
* `mem_waiting_run` -- every message that waits was put there by some action before.
* `inbound_packet_sent_by_author` -- the two together with what a tunnel checks.
-/

namespace TextTunnel.Session

/-! ## 1. Where messages come from -/

/-- The action puts the message behind what waits in the inbox. -/
def Puts (s : Session) (a : Action) (n : Nat) (m : RelayMessage) : Prop :=
  ∃ new, (s.step a).hub.waiting n = s.hub.waiting n ++ new ∧ m ∈ new

/-- The step: a message gets into an inbox only by a sending through the handle of its author. -/
theorem sendsThrough_of_puts {s : Session} {a : Action} {n : Nat} {m : RelayMessage}
    (h : s.Puts a n m) : s.sendsThrough m.sender a := by
  obtain ⟨new, hnew, hm⟩ := h
  rcases s.waiting_step a n with ⟨new', hnew', hsends⟩ | ⟨k, hk⟩
  · rw [hnew, List.append_cancel_left_eq] at hnew'
    exact hsends m (hnew' ▸ hm)
  · -- Nothing is left longer by taking away, so nothing was put there.
    have hlen := congrArg List.length (hnew.symm.trans hk)
    rw [List.length_append, List.length_drop] at hlen
    have hpos := List.length_pos_of_mem hm
    omega

/-- The run: a message that waits has waited from the start or was put there on the way. -/
theorem mem_waiting_run {s : Session} {acts : List Action} {n : Nat} {m : RelayMessage}
    (h : m ∈ (s.run acts).hub.waiting n) :
    m ∈ s.hub.waiting n ∨
      ∃ before a after, acts = before ++ a :: after ∧ (s.run before).Puts a n m := by
  induction acts generalizing s with
  | nil => exact .inl h
  | cons a acts ih =>
    rcases ih h with hm | ⟨before, b, after, rfl, hputs⟩
    · rcases s.waiting_step a n with ⟨new, hnew, -⟩ | ⟨k, hk⟩
      · rw [hnew, List.mem_append] at hm
        rcases hm with hm | hm
        · exact .inl hm
        · exact .inr ⟨[], a, acts, rfl, new, hnew, hm⟩
      · rw [hk] at hm
        exact .inl (List.mem_of_mem_drop hm)
    · exact .inr ⟨a :: before, b, after, rfl, hputs⟩

/-! ## 2. Who has handles -/

/-- Every station sends through a handle that was given out. -/
def HandlesIssued (s : Session) : Prop :=
  ∀ st ∈ s.stations, st.handle ∈ s.handles

theorem handlesIssued_keep {s : Session} (h : s.HandlesIssued) (i : Nat)
    (t : TunnelState Backdrop) : (s.keep i t).HandlesIssued := by
  intro st hst
  obtain ⟨j, hj⟩ := List.mem_iff_getElem?.mp hst
  rw [stations_keep] at hj
  obtain ⟨st', hst', hmodify⟩ := Option.map_eq_some_iff.mp hj
  have hissued := h st' (List.mem_of_getElem? hst')
  split at hmodify
  · obtain rfl := hmodify
    exact hissued
  · obtain rfl := hmodify
    exact hissued

theorem handlesIssued_step {s : Session} (h : s.HandlesIssued) (a : Action) :
    (s.step a).HandlesIssued := by
  cases a with
  | join peer => exact fun st hst => List.mem_append_left _ (h st hst)
  | leave name => exact h
  | drain n => exact h
  | close n => exact h
  | wait ms => exact h
  | setUp tunnel handle inbox =>
    rw [step]
    split
    · next hnew =>
      intro st hst
      rcases List.mem_append.mp hst with hst | hst
      · exact h st hst
      · obtain rfl := List.mem_singleton.mp hst
        exact hnew.1
    · exact h
  | sendText handle text =>
    rw [step]
    split
    · exact h
    · exact h
  | sendPacket i noise packet recipient =>
    rw [step]
    split
    · exact handlesIssued_keep h i _
    · exact h
  | receive i =>
    rw [step]
    split
    · exact handlesIssued_keep h i _
    · exact h

theorem handlesIssued_run {s : Session} (h : s.HandlesIssued) (acts : List Action) :
    (s.run acts).HandlesIssued := by
  induction acts generalizing s with
  | nil => exact h
  | cons a acts ih => exact ih (handlesIssued_step h a)

theorem mem_handles_of_sendsThrough {s : Session} (h : s.HandlesIssued) {handle : Peer} {a : Action}
    (hsends : s.sendsThrough handle a) : handle ∈ s.handles := by
  cases a with
  | sendText peer text => exact hsends.2
  | sendPacket i noise packet recipient =>
    obtain ⟨st, hst, rfl⟩ := hsends
    exact h st (List.mem_of_getElem? hst)
  | _ => exact hsends.elim

/-! ## 3. Received packets -/

/-- **Nobody speaks for another participant.**  Take any run from an empty hub, and a station that
takes a message off its inbox. If its tunnel then shows a packet to an observer as received, or
gives it to a handler, some earlier action has put that message into the inbox; and every action
that has done so was a sending through a handle that had been given out to the packet's author, in
name and id. -/
theorem inbound_packet_sent_by_author {maxMessageLen : Nat} {whisperCommand : String}
    {acts : List Action} {i : Nat} {st : Station} {m : RelayMessage} {outcome : InboundOutcome}
    {t : TunnelState Backdrop} {p : Packet}
    (hst : ((new maxMessageLen whisperCommand).run acts).stations[i]? = some st)
    (hreceived : ((new maxMessageLen whisperCommand).run acts).received i = some (m, outcome, t))
    (hp : p ∈ inboundPackets t.effects) :
    (∃ before a after, acts = before ++ a :: after ∧
        ((new maxMessageLen whisperCommand).run before).Puts a st.inbox m) ∧
      ∀ before a after, acts = before ++ a :: after →
        ((new maxMessageLen whisperCommand).run before).Puts a st.inbox m →
          ((new maxMessageLen whisperCommand).run before).sendsThrough p.sender a ∧
            p.sender ∈ ((new maxMessageLen whisperCommand).run before).handles := by
  obtain ⟨st', rest, hst', hwaiting, htext⟩ := received_eq_some hreceived
  obtain rfl := Option.some.inj (hst.symm.trans hst')
  have hsender : p.sender = m.sender := by
    rw [show t = _ from (congrArg Prod.snd htext).symm] at hp
    rcases Tunnel.sender_of_mem_inboundPackets hp with h | h
    · exact nomatch h
    · exact h
  refine ⟨?_, fun before a after _ hputs => ?_⟩
  · have hmem : m ∈ ((new maxMessageLen whisperCommand).run acts).hub.waiting st.inbox := by
      rw [hwaiting]
      exact List.mem_cons_self
    rcases mem_waiting_run hmem with h | h
    · exact nomatch h
    · exact h
  · have hsends := sendsThrough_of_puts hputs
    rw [hsender]
    have hissued : (new maxMessageLen whisperCommand).HandlesIssued := fun st hst => nomatch hst
    exact ⟨hsends, mem_handles_of_sendsThrough (handlesIssued_run hissued before) hsends⟩

/-- Ann and ben join a hub, and ann greets ben: it was ann who has sent what ben receives. -/
theorem greeting_sent_by_ann :
    ∃ acts st m outcome t,
      (((new Wire.defaultMaxMessageLen Wire.defaultWhisperCommand).run acts).stations[1]?
          = some st ∧
        ((new Wire.defaultMaxMessageLen Wire.defaultWhisperCommand).run acts).received 1
          = some (m, outcome, t) ∧
        Tunnel.greeting ∈ inboundPackets t.effects) ∧
      ∃ before a after, acts = before ++ a :: after ∧
        ((new Wire.defaultMaxMessageLen Wire.defaultWhisperCommand).run before).Puts a st.inbox m ∧
        ((new Wire.defaultMaxMessageLen Wire.defaultWhisperCommand).run before).sendsThrough
          Tunnel.ann a := by
  obtain ⟨payload, -, hwaiting, hopen⟩ := exists_greeted
  obtain ⟨st, hst, htunnel, hinbox⟩ : ∃ st, (together.step greet).stations[1]? = some st ∧
      st.tunnel = .acquainted Tunnel.ben ∧ st.inbox = 1 := by
    rw [greet, step]
    split
    · exact ⟨_, by rw [stations_keep, together_eq]; rfl, rfl, rfl⟩
    · exact ⟨_, by rw [together_eq]; rfl, rfl, rfl⟩
  have hrun : (new Wire.defaultMaxMessageLen Wire.defaultWhisperCommand).run
      (((duo.map fun t => .join t.self) ++ duo.mapIdx fun i t => .setUp t t.self i) ++ [greet])
        = together.step greet := by
    rw [run_concat, run_append]
    rfl
  have hreceived := received_of_waiting hst (hinbox ▸ hwaiting 1 (by decide))
  rw [htunnel] at hreceived
  replace hreceived := hreceived.trans (congrArg (fun result => some (_, result))
    (Tunnel.onText_accepted hopen fun h => absurd h (by decide)))
  have hp : Tunnel.greeting ∈ inboundPackets
      ((Tunnel.acquainted Tunnel.ben).acceptance payload Tunnel.greeting).2 :=
    List.mem_cons_self
  rw [← hrun] at hst hreceived
  obtain ⟨⟨before, a, after, hacts, hputs⟩, hsent⟩ := inbound_packet_sent_by_author hst hreceived hp
  exact ⟨_, st, _, _, _, ⟨hst, hreceived, hp⟩, before, a, after, hacts, hputs,
    (hsent before a after hacts hputs).1⟩

end TextTunnel.Session
