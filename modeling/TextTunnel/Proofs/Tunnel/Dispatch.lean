import Mathlib.Data.List.Induction
import TextTunnel.Proofs.Tunnel.Steps

/-!
# Who is called for a message

A message that is received can lead to calls of the application: to the observers, to one handler,
and to the user. Which of them, how often and with what is decided by the packet in the message, if
there is an authentic one, and by the handlers that have been registered so far.

* `Dispatcher.find_registered` -- of the handlers of a variant, the one that was registered last.
* `Tunnel.Accepts` -- the message carries this packet, for this tunnel and from its author.
* `Tunnel.onText_calls` -- all calls that come of a message, in order, for each outcome.
-/

namespace TextTunnel

variable {σ : Type}

/-! ## 1. Handlers that replace each other -/

namespace Dispatcher

theorem find_register (d : Dispatcher) (kind k : PacketKind) (h : Handler) :
    (d.register kind h).2.find k = if kind = k then some h else d.find k := by
  rw [register, find, List.find?_append, List.find?_filter]
  by_cases hk : kind = k
  · have hgone : (d.handlers.find? fun r => decide (r.1 != kind ∧ r.1 == k)) = none := by
      simp [hk]
    rw [hgone, if_pos hk]
    simp [hk]
  · -- What is taken out is nothing that the search would have found.
    have hkept : (d.handlers.find? fun r => decide (r.1 != kind ∧ r.1 == k))
        = d.handlers.find? fun r => r.1 == k := by
      congr 1
      funext r
      by_cases hr : r.1 = k
      · subst hr
        simp [Ne.symm hk]
      · simp [hr]
    rw [hkept, if_neg hk, find]
    simp [hk]

/-- The handlers after all these have been installed one after the other, the earliest first. -/
def registered (rs : List (PacketKind × Handler)) : Dispatcher :=
  rs.foldl (fun d r => (d.register r.1 r.2).2) .empty

/-- **The handler of a variant is the one that was registered for it last.** -/
theorem find_registered (rs : List (PacketKind × Handler)) (k : PacketKind) :
    (registered rs).find k = (rs.reverse.find? fun r => r.1 == k).map (·.2) := by
  induction rs using List.reverseRecOn with
  | nil => rfl
  | append_singleton rs r ih =>
    rw [registered, List.foldl_append, List.foldl_cons, List.foldl_nil, ← registered, find_register,
      ih, List.reverse_append, List.reverse_singleton, List.singleton_append, List.find?_cons]
    by_cases hk : r.1 = k
    · simp [hk]
    · simp [hk, beq_eq_false_iff_ne.mpr hk]

theorem find_registered_eq_some {rs : List (PacketKind × Handler)} {k : PacketKind} {h : Handler}
    (hfind : (registered rs).find k = some h) :
    ∃ before after, rs = before ++ (k, h) :: after ∧ ∀ r ∈ after, r.1 ≠ k := by
  rw [find_registered, Option.map_eq_some_iff] at hfind
  obtain ⟨⟨kind, _⟩, hfind, rfl⟩ := hfind
  obtain ⟨hkind, after, before, hrs, hafter⟩ := List.find?_eq_some_iff_append.mp hfind
  obtain rfl := eq_of_beq hkind
  refine ⟨before.reverse, after.reverse, ?_, fun r hr => ?_⟩
  · rw [← List.reverse_reverse rs, hrs]
    simp
  · simpa using hafter r (List.mem_reverse.mp hr)

theorem find_registered_eq_none {rs : List (PacketKind × Handler)} {k : PacketKind}
    (hfind : (registered rs).find k = none) : ∀ r ∈ rs, r.1 ≠ k := by
  rw [find_registered, Option.map_eq_none_iff, List.find?_eq_none] at hfind
  intro r hr
  simpa using hfind r (List.mem_reverse.mpr hr)

end Dispatcher

namespace Tunnel

/-- The tunnel with all these handlers registered one after the other, the earliest first, and no
others. -/
def withHandlers (t : Tunnel) (rs : List (PacketKind × Handler)) : Tunnel :=
  rs.foldl (fun t r => (t.registerHandler r.1 r.2).2) { t with dispatcher := .empty }

theorem withHandlers_eq (t : Tunnel) (rs : List (PacketKind × Handler)) :
    t.withHandlers rs = { t with dispatcher := .registered rs } := by
  induction rs using List.reverseRecOn with
  | nil => rfl
  | append_singleton rs r ih =>
    rw [withHandlers, List.foldl_append, List.foldl_cons, List.foldl_nil, ← withHandlers, ih,
      Dispatcher.registered, Dispatcher.registered, List.foldl_append]
    rfl

/-! ## 2. The calls for a message -/

variable {t : Tunnel} {now : Nat} {text : String} {sender : Peer}

/-- The message is an envelope, and no echo; what it carries opens to the packet; and the packet's
author is the participant that the relay has reported. -/
def Accepts (t : Tunnel) (now : Nat) (text : String) (sender : Peer) (echo : EchoFilter)
    (packet : Packet) : Prop :=
  ∃ payload, t.Arrives now text sender echo payload ∧ t.openPayload payload = .ok packet ∧
    packet.sender = sender

/-- A message without such a packet calls nobody. -/
theorem onText_of_not_accepts {s : TunnelState σ}
    (h : ∀ packet, ¬ t.Accepts now text sender s.echo packet) :
    ((t.onText now text sender s).1 = .notTunnel ∨ (t.onText now text sender s).1 = .echo ∨
        ∃ reason, (t.onText now text sender s).1 = .dropped reason) ∧
      ∃ new, (t.onText now text sender s).2.effects = s.effects ++ new ∧ calls new = [] := by
  have htreats := t.treats_onText now text sender s
  generalize t.onText now text sender s = result at htreats ⊢
  cases htreats with
  | plain _ => exact ⟨.inl rfl, [], (List.append_nil _).symm, rfl⟩
  | echo _ _ _ => exact ⟨.inr (.inl rfl), [.log _], rfl, rfl⟩
  | unreadable _ _ => exact ⟨.inr (.inr ⟨_, rfl⟩), [.log _], rfl, rfl⟩
  | forged _ _ _ => exact ⟨.inr (.inr ⟨_, rfl⟩), [.log _], rfl, rfl⟩
  | accepted harrives hopen hsender => exact absurd ⟨_, harrives, hopen, hsender⟩ (h _)

/-- **Authenticated dispatch, exactly once.**  Whatever handlers have been registered, whatever the
registry, the keys, the observers and the filter are, and whatever text arrives from whomever, the
message does nothing to the relay, and adds these calls to what has happened so far.

* If the outcome is that a packet was dispatched, the message carries a packet of that variant, from
  the reported sender.  All observers see that packet, and then it goes to the handler that was
  registered for the variant last, once.  If the handler fails, the user is told so in one line; and
  only then.
* If the outcome is that a packet is unhandled, the message carries one, too, and no handler was ever
  registered for its variant.  All observers see it, and nothing else is called.
* With any other outcome the message carries no packet from the reported sender for this tunnel, and
  nothing is called. -/
theorem onText_calls (t : Tunnel) (rs : List (PacketKind × Handler)) (now : Nat) (text : String)
    (sender : Peer) (s : TunnelState σ) :
    let u := t.withHandlers rs
    let result := u.onText now text sender s
    result.2.world = s.world ∧ ∃ new, result.2.effects = s.effects ++ new ∧
      match result.1 with
      | .dispatched kind => ∃ packet handler before after,
        u.Accepts now text sender s.echo packet ∧ packet.kind = kind ∧
        rs = before ++ (kind, handler) :: after ∧ (∀ r ∈ after, r.1 ≠ kind) ∧
        calls new = (u.observers.map fun o => .observed o .inbound sender packet)
          ++ .handled handler packet :: u.complaints handler packet
      | .unhandled kind => ∃ packet,
        u.Accepts now text sender s.echo packet ∧ packet.kind = kind ∧ (∀ r ∈ rs, r.1 ≠ kind) ∧
        calls new = u.observers.map fun o => .observed o .inbound sender packet
      | .notTunnel | .echo | .dropped _ =>
        (∀ packet, ¬ u.Accepts now text sender s.echo packet) ∧ calls new = [] := by
  intro u result
  have hhandlers : u.dispatcher = .registered rs := by rw [show u = _ from t.withHandlers_eq rs]
  refine ⟨u.world_onText now text sender s, ?_⟩
  by_cases h : ∃ packet, u.Accepts now text sender s.echo packet
  · obtain ⟨packet, haccepts⟩ := h
    obtain ⟨payload, harrives, hopen, rfl⟩ := id haccepts
    have hresult : result = _ := harrives.envelope ▸ onText_accepted hopen harrives.new
    refine ⟨(u.acceptance payload packet).2, by rw [hresult]; rfl, ?_⟩
    cases hfind : u.dispatcher.find packet.kind with
    | some handler =>
      obtain ⟨houtcome, hcalls⟩ := acceptance_of_find_eq_some payload hfind
      rw [hhandlers] at hfind
      obtain ⟨before, after, hrs, hafter⟩ := Dispatcher.find_registered_eq_some hfind
      rw [hresult, houtcome]
      exact ⟨packet, handler, before, after, haccepts, rfl, hrs, hafter, hcalls⟩
    | none =>
      obtain ⟨houtcome, hcalls⟩ := acceptance_of_find_eq_none payload hfind
      rw [hhandlers] at hfind
      rw [hresult, houtcome]
      exact ⟨packet, haccepts, rfl, Dispatcher.find_registered_eq_none hfind, hcalls⟩
  · have hnone := not_exists.mp h
    obtain ⟨houtcome, new, heffects, hcalls⟩ := onText_of_not_accepts hnone
    refine ⟨new, heffects, ?_⟩
    rcases houtcome with h | h | ⟨reason, h⟩
    · rw [show result.1 = _ from h]
      exact ⟨hnone, hcalls⟩
    · rw [show result.1 = _ from h]
      exact ⟨hnone, hcalls⟩
    · rw [show result.1 = _ from h]
      exact ⟨hnone, hcalls⟩

end Tunnel

end TextTunnel
