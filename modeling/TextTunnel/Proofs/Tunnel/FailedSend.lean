import TextTunnel.Proofs.Tunnel.Memory

/-!
# Sends that fail

A packet that cannot be built leaves everything as it was. One that the relay refuses has been
remembered by then and is forgotten again, but what had to go to make room for it does not come
back. So a refused send leaves the echo filter as it was exactly if the payload is new to the filter
and nothing had to make room.

* `Relay.KeepsEchoes` -- a relay that does not touch the tunnel's memory when it refuses.
* `sendPacket_error` -- what is live after a failed send, and when that is what was live before.
* `refused_send_loses_echo` -- a refused send after which an earlier payload is no longer live.
-/

namespace TextTunnel

variable {σ : Type}

/-! ## 1. Refusals -/

/-- When the relay refuses a text, it has left the memory of the tunnel alone. -/
def Relay.KeepsEchoes (relay : Relay σ) : Prop :=
  ∀ text s e, (relay text s).1 = .error e → (relay text s).2.echo = s.echo

namespace Tunnel

/-- The filter after a refusal: the payload was remembered and is forgotten again. -/
theorem echo_sendPacket_refused {t : Tunnel} {relay : Relay σ} (hrelay : relay.KeepsEchoes)
    {noise : Rsa.Noise} {now : Nat} {packet : Packet} {recipient : Peer} {s : TunnelState σ}
    {payload text : String} (h : t.prepare noise packet recipient = .ok (payload, text))
    {e : TunnelError} (he : (t.sendPacket relay noise now packet recipient s).1 = .error e) :
    (t.sendPacket relay noise now packet recipient s).2.echo
      = (s.echo.insert now payload).2.forget payload := by
  rw [sendPacket_of_prepare_ok relay now s h] at he ⊢
  split at he
  · next cause s' hr =>
    have hecho := hrelay text (t.handedOver now packet recipient payload text s) cause
      (congrArg Prod.fst hr)
    rw [hr] at hecho
    dsimp only at hecho ⊢
    rw [hecho]
    rfl
  · exact nomatch he

/-- A relay that refuses every text. -/
def refusing : Relay Unit := fun _ s => (.error .disconnected, s)

theorem keepsEchoes_refusing : refusing.KeepsEchoes :=
  fun _ _ _ _ => rfl

/-- A filter for `capacity` payloads that remembers one. -/
def remembersOne (capacity : Nat) : TunnelState Unit :=
  ⟨⟨30000, capacity, [⟨"earlier", 0⟩]⟩, [], ()⟩

/-- A payload is always text of the alphabet, so it is no ordinary word. -/
theorem prepare_ne_earlier {t : Tunnel} {noise : Rsa.Noise} {packet : Packet} {recipient : Peer}
    {payload text : String} (h : t.prepare noise packet recipient = .ok (payload, text)) :
    "earlier" ≠ payload := by
  obtain ⟨cipher, hdecode⟩ := exists_decode_of_prepare h
  intro heq
  rw [← heq] at hdecode
  have hbad : (SafeText.decode "earlier").isOk = false := by decide +kernel
  rw [hdecode] at hbad
  exact nomatch hbad

theorem sendPacket_refusing (s : TunnelState Unit) (now : Nat) :
    ((acquainted ann).sendPacket refusing (.numbered 0) now greeting ben s).1
      = .error (.relay .disconnected) := by
  obtain ⟨payload, h⟩ := exists_prepare_greeting (.numbered 0)
  rw [sendPacket_of_prepare_ok refusing now s h]
  rfl

/-! ## 2. Failed sends -/

/-- **What a failed send does to the echo filter.**  If the packet could not be built, the tunnel is
as before. If the relay has refused it, its payload is not live, nor is what had to make room for
it, and everything else is as before. So nothing has changed exactly if the payload was not live
already and there was room for it. -/
theorem sendPacket_error (t : Tunnel) {relay : Relay σ} (hrelay : relay.KeepsEchoes)
    (noise : Rsa.Noise) (now : Nat) (packet : Packet) (recipient : Peer) (s : TunnelState σ)
    {e : TunnelError} (he : (t.sendPacket relay noise now packet recipient s).1 = .error e) :
    match t.prepare noise packet recipient with
    | .error _ => (t.sendPacket relay noise now packet recipient s).2 = s
    | .ok (payload, _) =>
      (∀ q, (t.sendPacket relay noise now packet recipient s).2.echo.Live now q
        ↔ s.echo.Live now q ∧ q ∉ (s.echo.insert now payload).1 ∧ q ≠ payload) ∧
      ((∀ q, (t.sendPacket relay noise now packet recipient s).2.echo.Live now q
          ↔ s.echo.Live now q)
        ↔ ¬ s.echo.Live now payload ∧ s.echo.HasRoom now) := by
  cases h : t.prepare noise packet recipient with
  | error setback =>
    cases setback with
    | refused e' => exact congrArg Prod.snd (sendPacket_of_prepare_refused relay now s h)
    | abandoned reason =>
      rw [sendPacket_of_prepare_abandoned relay now s h] at he
      cases he
  | ok p =>
    obtain ⟨payload, text⟩ := p
    dsimp only
    rw [echo_sendPacket_refused hrelay h he]
    exact ⟨EchoFilter.live_forget_insert, EchoFilter.live_forget_insert_iff⟩

/-- With room for two payloads, a refused send leaves the one that is remembered. -/
theorem sendPacket_error_with_room :
    ((acquainted ann).sendPacket refusing (.numbered 0) 1 greeting ben (remembersOne 2)).1
        = .error (.relay .disconnected) ∧
      ((acquainted ann).sendPacket refusing (.numbered 0) 1 greeting ben
        (remembersOne 2)).2.echo.Live 1 "earlier" := by
  have herror := sendPacket_refusing (remembersOne 2) 1
  have h := sendPacket_error (acquainted ann) keepsEchoes_refusing (.numbered 0) 1 greeting ben
    (remembersOne 2) herror
  obtain ⟨payload, hprepare⟩ := exists_prepare_greeting (.numbered 0)
  rw [hprepare] at h
  have hroom : (remembersOne 2).echo.HasRoom 1 := .inl (by decide)
  refine ⟨herror, (h.1 "earlier").mpr ⟨⟨_, List.mem_cons_self, rfl, rfl⟩, ?_, ?_⟩⟩
  · rw [EchoFilter.insert_fst_eq_nil_iff.mpr hroom]
    exact List.not_mem_nil
  · exact prepare_ne_earlier hprepare

/-- Without room, a refused send loses a payload that is still waiting for its echo. -/
theorem refused_send_loses_echo :
    ((acquainted ann).sendPacket refusing (.numbered 0) 1 greeting ben (remembersOne 1)).1
        = .error (.relay .disconnected) ∧
      (remembersOne 1).echo.Live 1 "earlier" ∧
      ¬ ((acquainted ann).sendPacket refusing (.numbered 0) 1 greeting ben
        (remembersOne 1)).2.echo.Live 1 "earlier" := by
  have herror := sendPacket_refusing (remembersOne 1) 1
  obtain ⟨payload, hprepare⟩ := exists_prepare_greeting (.numbered 0)
  refine ⟨herror, ⟨_, List.mem_cons_self, rfl, rfl⟩, fun hlive => ?_⟩
  rw [echo_sendPacket_refused keepsEchoes_refusing hprepare herror,
    EchoFilter.live_forget_insert] at hlive
  have hevicted : ((remembersOne 1).echo.insert 1 payload).1 = ["earlier"] := rfl
  rw [hevicted] at hlive
  exact hlive.2.1 List.mem_cons_self

end Tunnel

end TextTunnel
