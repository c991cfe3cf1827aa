import Mathlib.Logic.Relation
import TextTunnel.Network.Traffic
import TextTunnel.Proofs.Session.Basic

/-!
# Networks are sessions

A network names its nodes by labels and lets one thing happen at a node at a time. As long as its
nodes send through the hub, what they send and take off their inboxes is a session: there is a
station for each node, and an action, or a few, for each thing that happens. So what is proved of
all sessions holds of networks.

* `Shows` -- a session has a station for each node of a network, and the same hub and clock.
* `shows_send`, `shows_say`, `shows_receiveNext`, `shows_join` -- one step of the network, and the
  same step of the session; `Happens` lists the steps.
* `exists_run_shows` -- whatever a network has come to, some session has come to the same.
-/

namespace TextTunnel

/-! ## 1. Nodes -/

namespace Network

theorem node?_setNode (w : Network) (label l : String) (n : Node) :
    (w.setNode label n).node? l = if l = label then some n else w.node? l := by
  rw [node?, node?, setNode, List.find?_append, List.find?_filter]
  split
  · next hl =>
    subst hl
    have hnone : w.nodes.find? (fun m => (m.1 != l) = true ∧ (m.1 == l) = true) = none :=
      List.find?_eq_none.mpr fun m _ => by simp
    rw [hnone, Option.none_or, List.find?_singleton, if_pos (beq_self_eq_true l)]
    rfl
  · next hl =>
    have hsame : (fun m : String × Node => decide ((m.1 != label) = true ∧ (m.1 == l) = true))
        = fun m => m.1 == l := by
      funext m
      by_cases hm : m.1 = l
      · simp [hm, hl]
      · simp [hm]
    rw [hsame, List.find?_singleton, if_neg (by simpa using Ne.symm hl), Option.or_none]

theorem onNode_eq_some {α : Type} {w w' : Network} {label : String}
    {act : Node → TunnelState Backdrop → α × TunnelState Backdrop} {happening : Happening α}
    (h : w.onNode label act = some (happening, w')) :
    ∃ n result t, w.node? label = some n ∧ act n ⟨n.echo, [], ⟨w.hub, []⟩⟩ = (result, t) ∧
      happening = ⟨result, t.effects, t.world.mirrored⟩ ∧
      w' = { w with hub := t.world.hub }.setNode label { n with echo := t.echo } := by
  obtain ⟨n, hn, h⟩ := Option.map_eq_some_iff.mp h
  obtain ⟨rfl, rfl⟩ := Prod.mk.inj h
  exact ⟨n, _, _, hn, rfl, rfl, rfl⟩

end Network

/-- Handlers do not change who a tunnel belongs to. -/
theorem Participant.self_tunnel (p : Participant) (keys : KeyRing) :
    (p.tunnel keys).2.self = p.peer := by
  rw [Participant.tunnel]
  exact List.foldlRecOn (motive := fun acc : List Event × Tunnel => acc.2.self = p.peer)
    p.handlers _ rfl fun _ hself _ _ => hself

namespace Session

/-! ## 2. Sessions that show a network -/

/-- The hubs and the clocks agree, and each node, which sends through the hub, has a station of its
own, at a place that goes by the label. -/
structure Shows (s : Session) (w : Network) (place : String → Nat) : Prop where
  hub_eq : s.hub = w.hub
  now_eq : s.now = w.now
  outlet : ∀ label n, w.node? label = some n → n.outlet = .hub
  handle : ∀ label n, w.node? label = some n → n.tunnel.self ∈ s.handles
  station : ∀ label n, w.node? label = some n →
    s.stations[place label]? = some ⟨n.tunnel, n.tunnel.self, n.inbox, n.echo⟩
  apart : ∀ l l' n n', w.node? l = some n → w.node? l' = some n' → place l = place l' → l = l'

variable {s : Session} {w w' : Network} {place : String → Nat} {label : String} {n : Node}

theorem shows_new (maxMessageLen : Nat) (command : String) :
    Shows (new maxMessageLen command) (Network.new maxMessageLen command) fun _ => 0 where
  hub_eq := rfl
  now_eq := rfl
  outlet := fun _ _ h => nomatch h
  handle := fun _ _ h => nomatch h
  station := fun _ _ h => nomatch h
  apart := fun _ _ _ _ h => nomatch h

/-- A node's step and its station's. -/
theorem shows_keep (h : Shows s w place) (hn : w.node? label = some n) (t : TunnelState Backdrop) :
    Shows (s.keep (place label) t)
      ({ w with hub := t.world.hub }.setNode label { n with echo := t.echo }) place := by
  have hnode : ∀ l m,
      ({ w with hub := t.world.hub }.setNode label { n with echo := t.echo }).node? l = some m →
        ∃ m', w.node? l = some m' ∧
          m = if l = label then { m' with echo := t.echo } else m' := by
    intro l m hm
    rw [Network.node?_setNode] at hm
    split at hm
    · next hl =>
      exact ⟨n, hl ▸ hn, by rw [if_pos hl, Option.some.inj hm]⟩
    · next hl => exact ⟨m, hm, by rw [if_neg hl]⟩
  refine ⟨rfl, h.now_eq, fun l m hm => ?_, fun l m hm => ?_, fun l m hm => ?_,
    fun l l' m m' hm hm' hplace => ?_⟩
  · obtain ⟨m', hm', rfl⟩ := hnode l m hm
    have houtlet := h.outlet l m' hm'
    split <;> exact houtlet
  · obtain ⟨m', hm', rfl⟩ := hnode l m hm
    have hhandle := h.handle l m' hm'
    split <;> exact hhandle
  · obtain ⟨m', hm', rfl⟩ := hnode l m hm
    rw [stations_keep, h.station l m' hm', Option.map_some]
    by_cases hl : l = label
    · rw [if_pos hl, if_pos (congrArg place hl.symm)]
    · rw [if_neg hl, if_neg fun hplace => hl (h.apart l label m' n hm' hn hplace.symm)]
  · obtain ⟨m₁, hm₁, -⟩ := hnode l m hm
    obtain ⟨m₂, hm₂, -⟩ := hnode l' m' hm'
    exact h.apart l l' m₁ m₂ hm₁ hm₂ hplace

/-- Sending a packet. -/
theorem shows_send (h : Shows s w place) {packet : Packet} {recipient : Peer}
    {happening : Happening (Except TunnelError Unit)}
    (hsend : w.send label packet recipient = some (happening, w')) :
    ∃ t, s.sent (place label) (.numbered w.sends) packet recipient = some (happening.result, t) ∧
      t.effects = happening.effects ∧
      Shows (s.step (.sendPacket (place label) (.numbered w.sends) packet recipient)) w' place := by
  obtain ⟨n, result, t, hn, hact, rfl, rfl⟩ := Network.onNode_eq_some hsend
  have hsent : s.sent (place label) (.numbered w.sends) packet recipient = some (result, t) := by
    rw [Node.relay, h.outlet label n hn] at hact
    rw [sent, h.station label n hn, Option.map_some, Station.state, h.hub_eq, h.now_eq]
    exact congrArg some hact
  refine ⟨t, hsent, rfl, ?_⟩
  rw [step, hsent]
  exact shows_keep (w := { w with sends := w.sends + 1 })
    ⟨h.hub_eq, h.now_eq, h.outlet, h.handle, h.station, h.apart⟩ hn t

/-- A station whose echo filter stays as it is. -/
theorem keep_of_echo_eq {i : Nat} {st : Station} (hst : s.stations[i]? = some st)
    {t : TunnelState Backdrop} (hecho : t.echo = st.echo) :
    s.keep i t = { s with hub := t.world.hub } := by
  have hstations : s.stations.modify i (fun st => { st with echo := t.echo }) = s.stations := by
    refine List.ext_getElem? fun k => ?_
    rw [List.getElem?_modify, Option.map_eq_map]
    by_cases hk : i = k
    · subst hk
      rw [hst, Option.map_some, if_pos rfl, hecho]
    · simp only [if_neg hk]
      exact Option.map_id'
  rw [keep, hstations]

/-- Sending a text through a node's handle. -/
theorem shows_say (h : Shows s w place) {text : String}
    {happening : Happening (Except RelayError Unit)}
    (hsay : w.say label text = some (happening, w')) :
    ∃ handle, Shows (s.step (.sendText handle text)) w' place := by
  obtain ⟨n, result, t, hn, hact, rfl, rfl⟩ := Network.onNode_eq_some hsay
  refine ⟨n.tunnel.self, ?_⟩
  have ht : t = (Hub.relay n.tunnel.self text ⟨n.echo, [], ⟨w.hub, []⟩⟩).2 := by rw [hact]
  have hkeep := keep_of_echo_eq (h.station label n hn) (t := t) (by rw [ht]; rfl)
  have hhub : (s.hub.send n.tunnel.self text).2.1 = t.world.hub := by
    rw [ht, h.hub_eq]
    rfl
  rw [step, if_pos (h.handle label n hn), hhub, ← hkeep]
  exact shows_keep h hn t

/-- Receiving the first message that waits, if there is one. -/
theorem shows_receiveNext (h : Shows s w place) {happening : Happening (Option InboundOutcome)}
    (hreceive : w.receiveNext label = some (happening, w')) :
    happening.result = (s.received (place label)).map (·.2.1) ∧
      Shows (s.step (.receive (place label))) w' place := by
  obtain ⟨n, result, t, hn, hact, rfl, rfl⟩ := Network.onNode_eq_some hreceive
  have hstation := h.station label n hn
  cases hwaiting : s.hub.waiting n.inbox with
  | nil =>
    have hreceived : s.received (place label) = none := by
      rw [received, hstation]
      simp only [Option.bind_eq_bind, Option.bind_some, Hub.takeFirst_of_waiting_eq_nil hwaiting,
        Option.bind_none]
    rw [h.hub_eq] at hwaiting
    rw [Network.takeNext] at hact
    simp only [Hub.takeFirst_of_waiting_eq_nil hwaiting] at hact
    obtain ⟨rfl, rfl⟩ := Prod.mk.inj hact
    rw [step, hreceived]
    refine ⟨rfl, ?_⟩
    have hkeep := shows_keep h hn ⟨n.echo, [], ⟨w.hub, []⟩⟩
    rw [keep_of_echo_eq hstation rfl] at hkeep
    rw [← h.hub_eq] at hkeep ⊢
    exact hkeep
  | cons m rest =>
    have hreceived := received_of_waiting hstation hwaiting
    rw [step, hreceived]
    rw [h.hub_eq] at hwaiting
    have hfirst : (w.hub.takeFirst n.inbox).1 = some m := by rw [Hub.takeFirst, hwaiting]; rfl
    rw [Network.takeNext] at hact
    simp only [hfirst] at hact
    obtain ⟨rfl, rfl⟩ := Prod.mk.inj hact
    rw [Station.state, h.hub_eq, h.now_eq]
    exact ⟨rfl, shows_keep h hn _⟩

/-- What happens to the hub alone. -/
theorem shows_hub (h : Shows s w place) (hub : Hub) :
    Shows { s with hub } { w with hub } place :=
  ⟨rfl, h.now_eq, h.outlet, h.handle, h.station, h.apart⟩

/-- Time passes for both. -/
theorem shows_advance (h : Shows s w place) (ms : Nat) :
    Shows (s.step (.wait ms)) (w.advance ms) place :=
  ⟨h.hub_eq, congrArg (· + ms) h.now_eq, h.outlet, h.handle, h.station, h.apart⟩

theorem shows_leave (h : Shows s w place) (name : String) :
    Shows (s.step (.leave name)) (w.leave name) place := by
  rw [step, h.hub_eq]
  exact shows_hub h (w.hub.leave name)

theorem shows_intercept (h : Shows s w place) {ms : List RelayMessage}
    (hintercept : w.intercept label = some (ms, w')) :
    ∃ inbox, Shows (s.step (.drain inbox)) w' place := by
  obtain ⟨n, -, hdrain⟩ := Option.map_eq_some_iff.mp hintercept
  obtain ⟨-, rfl⟩ := Prod.mk.inj hdrain
  refine ⟨n.inbox, ?_⟩
  rw [step, h.hub_eq]
  exact shows_hub h (w.hub.drain n.inbox).2

theorem shows_stopListening (h : Shows s w place) (hstop : w.stopListening label = some w') :
    ∃ inbox, Shows (s.step (.close inbox)) w' place := by
  obtain ⟨n, -, rfl⟩ := Option.map_eq_some_iff.mp hstop
  refine ⟨n.inbox, ?_⟩
  rw [step, h.hub_eq]
  exact shows_hub h (w.hub.closeInbox n.inbox)

/-- What a participant does who joins under a label. -/
def joins (w : Network) (label : String) (p : Participant) : List Action :=
  .join p.peer :: ((w.node? label).map fun old => Action.close old.inbox).toList ++
    [.setUp (p.tunnel p.keyRing.2).2 p.peer w.hub.inboxes.length]

theorem run_joins (h : Shows s w place) (label : String) (p : Participant) :
    s.run (joins w label p) = ⟨(w.join label p).2.hub, s.handles ++ [p.peer], s.stations ++
      [⟨(p.tunnel p.keyRing.2).2, p.peer, w.hub.inboxes.length, (p.tunnel p.keyRing.2).2.newEcho⟩],
      s.now⟩ := by
  have hpeer : p.peer ∈ s.handles ++ [p.peer] := List.mem_append_right _ List.mem_cons_self
  have hlen : w.hub.inboxes.length < (w.hub.join p.peer).2.inboxes.length := by
    rw [Hub.join, List.length_append]
    exact Nat.lt_succ_self _
  rw [joins]
  cases hold : w.node? label with
  | none =>
    show (s.step (.join p.peer)).step (.setUp _ _ _) = _
    rw [step, step, h.hub_eq, if_pos ⟨hpeer, hlen⟩, Network.join, hold]
    rfl
  | some old =>
    show ((s.step (.join p.peer)).step (.close old.inbox)).step (.setUp _ _ _) = _
    rw [step, step, step, h.hub_eq, if_pos ⟨hpeer, by rwa [Hub.closeInbox, List.length_modify]⟩,
      Network.join, hold]
    rfl

/-- Joining: a handle and an inbox are given out, the inbox of the node that was there before is
closed, and a station is set up. -/
theorem shows_join (h : Shows s w place) {p : Participant} (houtlet : p.outlet = .hub) :
    Shows (s.run (joins w label p)) (w.join label p).2
      fun l => if l = label then s.stations.length else place l := by
  have hnode : ∀ l m, (w.join label p).2.node? l = some m →
      (l = label ∧ m = ⟨(p.tunnel p.keyRing.2).2, p.outlet, w.hub.inboxes.length,
        (p.tunnel p.keyRing.2).2.newEcho⟩) ∨ l ≠ label ∧ w.node? l = some m := by
    intro l m hm
    rw [Network.join, Network.node?_setNode] at hm
    split at hm
    · next hl => exact .inl ⟨hl, (Option.some.inj hm).symm⟩
    · next hl => exact .inr ⟨hl, hm⟩
  have hlt : ∀ l m, w.node? l = some m → place l < s.stations.length :=
    fun l m hm => (List.getElem?_eq_some_iff.mp (h.station l m hm)).1
  rw [run_joins h]
  refine ⟨rfl, h.now_eq, fun l m hm => ?_, fun l m hm => ?_, fun l m hm => ?_,
    fun l l' m m' hm hm' hplace => ?_⟩
  · rcases hnode l m hm with ⟨-, rfl⟩ | ⟨-, hm⟩
    · exact houtlet
    · exact h.outlet l m hm
  · rcases hnode l m hm with ⟨-, rfl⟩ | ⟨-, hm⟩
    · rw [p.self_tunnel]
      exact List.mem_append_right _ List.mem_cons_self
    · exact List.mem_append_left _ (h.handle l m hm)
  · rcases hnode l m hm with ⟨rfl, rfl⟩ | ⟨hl, hm⟩
    · rw [if_pos rfl, List.getElem?_concat_length, p.self_tunnel]
    · rw [if_neg hl, List.getElem?_append_left (hlt l m hm)]
      exact h.station l m hm
  · rcases hnode l m hm with ⟨hl, -⟩ | ⟨hl, hold⟩ <;>
      rcases hnode l' m' hm' with ⟨hl', -⟩ | ⟨hl', hold'⟩
    · exact hl.trans hl'.symm
    · rw [if_pos hl, if_neg hl'] at hplace
      exact absurd hplace (Nat.ne_of_gt (hlt l' m' hold'))
    · rw [if_neg hl, if_pos hl'] at hplace
      exact absurd hplace (Nat.ne_of_lt (hlt l m hold))
    · rw [if_neg hl, if_neg hl'] at hplace
      exact h.apart l l' m m' hold hold' hplace

/-! ## 3. Whole runs -/

/-- Something happens in a network whose nodes send through the hub. -/
inductive Happens : Network → Network → Prop where
  | join {w : Network} (label : String) {p : Participant} (houtlet : p.outlet = .hub) :
    Happens w (w.join label p).2
  | leave {w : Network} (name : String) : Happens w (w.leave name)
  | send {w w' : Network} {label : String} {packet : Packet} {recipient : Peer}
    {happening : Happening (Except TunnelError Unit)}
    (h : w.send label packet recipient = some (happening, w')) : Happens w w'
  | say {w w' : Network} {label text : String} {happening : Happening (Except RelayError Unit)}
    (h : w.say label text = some (happening, w')) : Happens w w'
  | receiveNext {w w' : Network} {label : String} {happening : Happening (Option InboundOutcome)}
    (h : w.receiveNext label = some (happening, w')) : Happens w w'
  | intercept {w w' : Network} {label : String} {ms : List RelayMessage}
    (h : w.intercept label = some (ms, w')) : Happens w w'
  | stopListening {w w' : Network} {label : String} (h : w.stopListening label = some w') :
    Happens w w'
  | advance {w : Network} (ms : Nat) : Happens w (w.advance ms)

/-- One step of a network is a step, or a few, of the session that shows it. -/
theorem shows_happens (h : Shows s w place) (hw : Happens w w') :
    ∃ acts place', Shows (s.run acts) w' place' := by
  have hone : ∀ a, Shows (s.step a) w' place → ∃ acts place', Shows (s.run acts) w' place' :=
    fun a hshows => ⟨[a], place, hshows⟩
  cases hw with
  | join label houtlet => exact ⟨_, _, shows_join h houtlet⟩
  | leave name => exact hone _ (shows_leave h name)
  | send hsend =>
    obtain ⟨t, -, -, hshows⟩ := shows_send h hsend
    exact hone _ hshows
  | say hsay =>
    obtain ⟨handle, hshows⟩ := shows_say h hsay
    exact hone _ hshows
  | receiveNext hreceive => exact hone _ (shows_receiveNext h hreceive).2
  | intercept hintercept =>
    obtain ⟨inbox, hshows⟩ := shows_intercept h hintercept
    exact hone _ hshows
  | stopListening hstop =>
    obtain ⟨inbox, hshows⟩ := shows_stopListening h hstop
    exact hone _ hshows
  | advance ms => exact hone _ (shows_advance h ms)

/-- **Networks are sessions.**  Whatever a network whose nodes send through the hub has come to,
some session from an empty hub has come to the same. -/
theorem exists_run_shows (maxMessageLen : Nat) (command : String)
    (hw : Relation.ReflTransGen Happens (Network.new maxMessageLen command) w) :
    ∃ acts place, Shows ((new maxMessageLen command).run acts) w place := by
  induction hw with
  | refl => exact ⟨[], _, shows_new maxMessageLen command⟩
  | tail _ hstep ih =>
    obtain ⟨acts, place, hshows⟩ := ih
    obtain ⟨acts', place', hshows'⟩ := shows_happens hshows hstep
    exact ⟨acts ++ acts', place', by rwa [run_append]⟩

end Session

end TextTunnel
