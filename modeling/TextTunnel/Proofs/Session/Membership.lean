import TextTunnel.Proofs.Session.Basic
import TextTunnel.Proofs.Tunnel.RoundTrip

/-!
# Who can send through a handle

A join gives a handle and an inbox, but the hub knows a handle by the name of its participant alone.
So a handle can be used while *some* member has that name, which need not be the membership that
came with it: who joins under the name of a handle that has been given out brings it back, and gets
its echoes.

* `Hub.Serves`, `Hub.Shuts` -- a handle can be used, with an inbox for its echoes; or it cannot.
* `Session.lastChange?` -- what happened last to a name in a run.
* `find_step`, `find_run` -- it decides who is found under the name.
* `handle_follows_name` -- what a handle can do at the end of any run.
* `replaced_handle_sends` -- a handle that outlives its membership.
-/

namespace TextTunnel

/-! ## 1. What a handle can do -/

namespace Hub

/-- The handle can be used. No text is refused for want of a member, and each whisper to a member is
accepted; its echo goes to the given inbox. -/
structure Serves (h : Hub) (handle : Peer) (echoes : Nat) : Prop where
  connected : ∀ text, (h.send handle text).1 ≠ .error .disconnected
  whisper : ∀ text name body target, text.length ≤ h.maxMessageLen →
    RelayCommand.parse h.whisperCommand text = .whisper name body → h.find name = some target →
      (h.send handle text).1 = .ok () ∧
        h.Delivered (h.send handle text).2.1 [target.inbox, echoes] ⟨body, handle⟩

/-- The handle cannot be used. A text over the limit is refused for its length, as it always is, and
every other one for want of a member; nothing changes. -/
def Shuts (h : Hub) (handle : Peer) : Prop :=
  ∀ text, h.send handle text = (.error (if h.maxMessageLen < text.length then
    .tooLong text.length h.maxMessageLen else .disconnected), h, [])

theorem serves_of_find {h : Hub} {handle : Peer} {m : Member}
    (hfind : h.find handle.name = some m) : h.Serves handle m.inbox where
  connected := by
    intro text hsend
    rw [send, route] at hsend
    split at hsend
    · next e he =>
      obtain rfl := Except.error.inj hsend
      split at he
      · cases he
      · rw [hfind] at he
        dsimp only at he
        rw [recipients] at he
        split at he
        · cases he
        · cases he
        · split at he <;> cases he
    · cases hsend
  whisper := by
    intro text name body target hlen hparse htarget
    rw [send_whisper hlen hfind hparse htarget]
    exact ⟨rfl, delivered_deliverAll h _ [target, m]⟩

theorem shuts_iff {h : Hub} {handle : Peer} : h.Shuts handle ↔ h.find handle.name = none := by
  constructor
  · intro hshuts
    cases hfind : h.find handle.name with
    | none => rfl
    | some m =>
      -- Even the shortest text gets through to a hub with a member of that name.
      have hshort : ¬ h.maxMessageLen < "".length := Nat.not_lt_zero _
      have hsend := hshuts ""
      rw [if_neg hshort] at hsend
      exact absurd (congrArg Prod.fst hsend) ((serves_of_find hfind).connected "")
  · intro hfind text
    split
    · next hlen => exact send_tooLong hlen
    · next hlen => exact send_disconnected (Nat.not_lt.mp hlen) hfind

end Hub

/-! ## 2. What decides about a name -/

/-- What can happen to a name. -/
inductive NameChange where
  /-- A participant joins under it. -/
  | taken (peer : Peer)
  /-- The member of that name is removed. -/
  | freed

/-- What an action does to a name. -/
def Action.change? (name : String) : Action → Option NameChange
  | .join peer => if peer.name = name then some (.taken peer) else none
  | .leave left => if left = name then some .freed else none
  | _ => none

namespace Session

/-- What happened last to a name. -/
def lastChange? (name : String) (acts : List Action) : Option NameChange :=
  acts.reverse.findSome? (Action.change? name)

theorem lastChange?_concat (name : String) (acts : List Action) (a : Action) :
    lastChange? name (acts ++ [a]) = (a.change? name).or (lastChange? name acts) := by
  rw [lastChange?, List.reverse_append, List.findSome?_append]
  simp [lastChange?]

/-- The step: an action that is no join and no leave changes neither who is a member nor how many
inboxes there are. -/
theorem frame_step (s : Session) {a : Action} (hjoin : ∀ peer, a ≠ .join peer)
    (hleave : ∀ name, a ≠ .leave name) :
    (s.step a).hub.members = s.hub.members ∧
      (s.step a).hub.inboxes.length = s.hub.inboxes.length := by
  generalize hhub : (s.step a).hub = hub
  cases hhub ▸ s.hub_step a with
  | join peer => exact absurd rfl (hjoin peer)
  | leave name => exact absurd rfl (hleave name)
  | say => exact ⟨Hub.members_send .., Hub.length_inboxes_send ..⟩
  | take | drain | close => exact ⟨rfl, List.length_modify ..⟩
  | stay => exact ⟨rfl, rfl⟩

/-- The step: what an action does to a name shows in who is found under it. -/
theorem find_step (s : Session) (a : Action) (name : String) :
    (s.step a).hub.find name =
      match a.change? name with
      | none => s.hub.find name
      | some (.taken peer) => some ⟨peer, s.hub.inboxes.length⟩
      | some .freed => none := by
  cases a with
  | join peer =>
    rw [Action.change?]
    by_cases h : peer.name = name
    · subst h
      rw [if_pos rfl]
      exact Hub.find_join_self s.hub peer
    · rw [if_neg h]
      exact Hub.find_join_of_ne s.hub h
  | leave left =>
    rw [Action.change?]
    by_cases h : left = name
    · subst h
      rw [if_pos rfl]
      exact Hub.find_leave_self s.hub left
    · rw [if_neg h]
      exact Hub.find_leave_of_ne s.hub h
  | _ =>
    rw [Hub.find, (frame_step s (by simp) (by simp)).1]
    rfl

/-- No inbox is ever lost. -/
theorem length_inboxes_step (s : Session) (a : Action) :
    s.hub.inboxes.length ≤ (s.step a).hub.inboxes.length := by
  cases a with
  | join peer =>
    show _ ≤ (s.hub.join peer).2.inboxes.length
    rw [Hub.length_inboxes_join]
    exact Nat.le_succ _
  | leave left => exact Nat.le_refl _
  | _ => exact (frame_step s (by simp) (by simp)).2.ge

theorem length_inboxes_run (s : Session) (acts : List Action) :
    s.hub.inboxes.length ≤ (s.run acts).hub.inboxes.length := by
  induction acts generalizing s with
  | nil => exact Nat.le_refl _
  | cons a acts ih => exact (length_inboxes_step s a).trans (ih (s.step a))

/-- The run: what happened last to a name decides who is found under it, and whoever has taken it has
an inbox that was not there before. -/
theorem find_run (s : Session) (acts : List Action) (name : String) :
    match lastChange? name acts with
    | none => (s.run acts).hub.find name = s.hub.find name
    | some (.taken peer) =>
      ∃ n, s.hub.inboxes.length ≤ n ∧ (s.run acts).hub.find name = some ⟨peer, n⟩
    | some .freed => (s.run acts).hub.find name = none := by
  induction acts using List.reverseRecOn with
  | nil => rfl
  | append_singleton acts a ih =>
    rw [lastChange?_concat, run_concat, find_step]
    cases a.change? name with
    | none => exact ih
    | some change =>
      cases change with
      | taken peer => exact ⟨_, length_inboxes_run s acts, rfl⟩
      | freed => rfl

/-! ## 3. Handles -/

/-- **A handle follows its name.**  Take any run, and a handle that was given out in it, with an
inbox of its own. If nothing has happened to the handle's name since, the membership that came with
the handle is still there, and the echoes of what it whispers go to its own inbox. If the name was
taken last, the handle can be used on account of the member who has taken it, and the echoes go to
that member's inbox, which is another one. If the name was freed last, the handle cannot be used;
and in no other case is that so. -/
theorem handle_follows_name (maxMessageLen : Nat) (command : String) (before after : List Action)
    (handle : Peer) :
    let start := (new maxMessageLen command).run before
    let own := (start.hub.join handle).1
    let hub := ((new maxMessageLen command).run (before ++ .join handle :: after)).hub
    (match lastChange? handle.name after with
      | none => hub.find handle.name = some ⟨handle, own⟩ ∧ hub.Serves handle own
      | some (.taken peer) =>
        ∃ other, own < other ∧ hub.find handle.name = some ⟨peer, other⟩ ∧ hub.Serves handle other
      | some .freed => hub.find handle.name = none ∧ hub.Shuts handle) ∧
    (hub.Shuts handle ↔ lastChange? handle.name after = some .freed) := by
  intro start own hub
  have hrun : hub = ((start.step (.join handle)).run after).hub := by
    show ((new maxMessageLen command).run (before ++ .join handle :: after)).hub = _
    rw [run_append]
    rfl
  have hown : (start.step (.join handle)).hub.inboxes.length = own + 1 :=
    Hub.length_inboxes_join start.hub handle
  have hjoined : (start.step (.join handle)).hub.find handle.name = some ⟨handle, own⟩ :=
    Hub.find_join_self start.hub handle
  have hfind := find_run (start.step (.join handle)) after handle.name
  rw [← hrun, hown, hjoined] at hfind
  cases hchange : lastChange? handle.name after with
  | none =>
    rw [hchange] at hfind
    exact ⟨⟨hfind, Hub.serves_of_find hfind⟩, Hub.shuts_iff.trans (by simp [hfind])⟩
  | some change =>
    rw [hchange] at hfind
    cases change with
    | taken peer =>
      obtain ⟨other, hlater, hfind⟩ := hfind
      exact ⟨⟨other, hlater, hfind, Hub.serves_of_find hfind⟩,
        Hub.shuts_iff.trans (by simp [hfind])⟩
    | freed => exact ⟨⟨hfind, Hub.shuts_iff.mpr hfind⟩, Hub.shuts_iff.trans (by simp [hfind])⟩

/-! ## 4. A handle that outlives its membership -/

/-- Somebody else who has ann's name. -/
def namesake : Peer := ⟨Tunnel.ann.name, Tunnel.ben.id⟩

/-- Ann leaves, and somebody else joins under her name: then ann can send again, and what she sends
comes to the other one. -/
theorem replaced_handle_sends :
    let hub := ((new Wire.defaultMaxMessageLen Wire.defaultWhisperCommand).run
      [.join Tunnel.ann, .leave Tunnel.ann.name, .join namesake]).hub
    (hub.send Tunnel.ann "hello").1 = .ok () ∧
      hub.waiting 1 = [] ∧ (hub.send Tunnel.ann "hello").2.1.waiting 1 = [⟨"hello", Tunnel.ann⟩] := by
  decide +kernel

end Session

end TextTunnel
