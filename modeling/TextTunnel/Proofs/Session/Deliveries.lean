import TextTunnel.Proofs.Relay.Addressees
import TextTunnel.Proofs.Session.Membership

/-!
# What comes into an inbox

An inbox holds what was said on the hub and reached it, in the order in which it was said, less what
was taken off its front. Nothing else gets in, and nothing gets lost as long as the receiver has not
gone away.

* `Session.deliveries`, `Session.takings` -- the copies that came into an inbox in a run, and those
  that were taken off it.
* `sound_run` -- at the end of any run, members can be told apart by names and inboxes.
* `Attended` -- an inbox that nobody has gone away from.
* `takings_append_waiting` -- what was taken, and then what waits, is what came in.
* `hub_delivers` -- where texts go, and what inboxes hold, at the end of any run.
-/

namespace TextTunnel.Session

/-! ## 1. What comes in, and what is taken -/

/-- The copies that an action brings into an inbox. -/
def delivered (s : Session) (n : Nat) (a : Action) : List RelayMessage :=
  match s.said? a with
  | some (handle, text) => s.hub.copies handle text n
  | none => []

/-- What the actions of a run give, each for itself, in one row. -/
def gathered {α : Type} (f : Session → Action → List α) (s : Session) : List Action → List α
  | [] => []
  | a :: acts => f s a ++ gathered f (s.step a) acts

theorem gathered_concat {α : Type} (f : Session → Action → List α) (s : Session)
    (acts : List Action) (a : Action) :
    s.gathered f (acts ++ [a]) = s.gathered f acts ++ f (s.run acts) a := by
  induction acts generalizing s with
  | nil => exact List.append_nil _
  | cons b acts ih =>
    rw [List.cons_append, gathered, gathered, ih, List.append_assoc]
    rfl

/-- The copies that come into an inbox in a run, in the order of the sends. -/
def deliveries (s : Session) (n : Nat) (acts : List Action) : List RelayMessage :=
  s.gathered (fun s a => s.delivered n a) acts

/-- What is taken off an inbox in a run. -/
def takings (s : Session) (n : Nat) (acts : List Action) : List RelayMessage :=
  s.gathered (fun s a => s.taken n a) acts

/-! ## 2. The hub after an action -/

/-- Members stay told apart. -/
theorem sound_step {s : Session} (hs : s.hub.Sound) (a : Action) : (s.step a).hub.Sound := by
  cases a with
  | join peer => exact hs.join peer
  | leave name => exact hs.leave name
  | _ => exact (frame_step s (by simp) (by simp)).elim hs.of_eq

theorem sound_run {s : Session} (hs : s.hub.Sound) (acts : List Action) :
    (s.run acts).hub.Sound := by
  induction acts generalizing s with
  | nil => exact hs
  | cons a acts ih => exact ih (sound_step hs a)

/-- An inbox that is there stays open until its receiver goes away, and then it stays closed. -/
theorem accepts_step_iff {s : Session} {n : Nat} (hn : n < s.hub.inboxes.length) (a : Action) :
    (s.step a).hub.accepts n = true ↔ a ≠ .close n ∧ s.hub.accepts n = true := by
  generalize hhub : (s.step a).hub = hub
  cases hhub ▸ s.hub_step a with
  | join peer =>
    rw [Hub.accepts_join s.hub peer hn]
    simp
  | leave name => simp [Hub.accepts_leave]
  | say hsaid =>
    rw [Hub.accepts_send]
    refine (and_iff_right ?_).symm
    rintro rfl
    exact nomatch hsaid
  | take => simp [Hub.accepts_takeFirst]
  | drain k => simp [Hub.accepts_drain]
  | close k => simp [Hub.accepts_closeInbox]
  | stay _ _ hclose => exact (and_iff_right (hclose n)).symm

/-- Nobody has gone away from the inbox: it is open, or is not there yet. -/
def Attended (s : Session) (n : Nat) : Prop :=
  n < s.hub.inboxes.length → s.hub.accepts n = true

theorem Attended.of_step {s : Session} {a : Action} {n : Nat} (h : (s.step a).Attended n) :
    s.Attended n := fun hn =>
  ((accepts_step_iff hn a).mp (h (Nat.lt_of_lt_of_le hn (length_inboxes_step s a)))).2

theorem Attended.step {s : Session} {a : Action} {n : Nat} (h : s.Attended n) (ha : a ≠ .close n) :
    (s.step a).Attended n := by
  intro hn
  by_cases hlt : n < s.hub.inboxes.length
  · exact (accepts_step_iff hlt a).mpr ⟨ha, h hlt⟩
  · -- The inbox is there only now, so somebody has joined.
    cases a with
    | join peer =>
      have hlength : (s.step (.join peer)).hub.inboxes.length = _ :=
        Hub.length_inboxes_join s.hub peer
      obtain rfl : n = s.hub.inboxes.length := by omega
      exact Hub.accepts_join_self s.hub peer
    | leave name => exact absurd hn hlt
    | _ => refine absurd (Nat.lt_of_lt_of_eq hn (frame_step s ?_ ?_).2) hlt <;> simp

/-- An inbox is attended at the end of a run in which nobody has gone away from it. -/
theorem Attended.run {s : Session} {n : Nat} (h : s.Attended n) {acts : List Action}
    (hacts : .close n ∉ acts) : (s.run acts).Attended n := by
  induction acts generalizing s with
  | nil => exact h
  | cons a acts ih =>
    exact ih (h.step fun ha => hacts (ha ▸ List.mem_cons_self))
      fun hmem => hacts (List.mem_cons_of_mem a hmem)

/-! ## 3. What came in, and what is left of it -/

theorem waiting_of_length_le {s : Session} {n : Nat} (hn : s.hub.inboxes.length ≤ n) :
    s.hub.waiting n = [] := by
  rw [Hub.waiting, Hub.inbox?, List.getElem?_eq_none hn]

/-- What is said comes into the inboxes that are attended. -/
theorem waiting_send_of_attended {s : Session} (hs : s.hub.Sound) {n : Nat} (hn : s.Attended n)
    (handle : Peer) (text : String) :
    (s.hub.send handle text).2.1.waiting n = s.hub.waiting n ++ s.hub.copies handle text n := by
  rw [Hub.waiting_send_eq]
  by_cases hlt : n < s.hub.inboxes.length
  · rw [if_pos (hn hlt)]
  · rw [hs.copies_eq_nil (Nat.not_lt.mp hlt), ite_self]

/-- The step: what an action takes off the front of an inbox and what it leaves there is what was
there and what the action brings in. -/
theorem taken_append_waiting_step {s : Session} (hs : s.hub.Sound) {a : Action} {n : Nat}
    (hafter : (s.step a).Attended n) :
    s.taken n a ++ (s.step a).hub.waiting n = s.hub.waiting n ++ s.delivered n a := by
  have hbefore := hafter.of_step
  rw [delivered]
  generalize hhub : (s.step a).hub = hub
  cases hhub ▸ s.hub_step a with
  | say hsaid =>
    rw [hsaid, taken_of_said hsaid]
    exact waiting_send_of_attended hs hbefore _ _
  | stay hsaid htaken _ =>
    rw [hsaid, htaken]
    exact (List.append_nil _).symm
  | join peer => exact (Hub.waiting_join s.hub peer n).trans (List.append_nil _).symm
  | leave name => exact (List.append_nil _).symm
  | @take i st hst =>
    rw [taken, hst, Hub.waiting_takeFirst]
    dsimp only [said?]
    rw [List.append_nil]
    split
    · rw [Hub.takeFirst]
      cases s.hub.waiting n <;> rfl
    · rfl
  | drain k =>
    rw [taken, Hub.waiting_drain]
    dsimp only [said?]
    split
    · rfl
    · exact (List.append_nil _).symm
  | close k =>
    rw [Hub.waiting_closeInbox]
    show [] ++ _ = _ ++ []
    rw [List.nil_append, List.append_nil]
    split
    · next hk =>
      -- The receiver goes away here, so this inbox cannot have been there.
      refine (waiting_of_length_le (Nat.not_lt.mp fun hn => ?_)).symm
      have haccepts := hafter (Nat.lt_of_lt_of_le hn (length_inboxes_step s _))
      rw [hhub, Hub.accepts_closeInbox, hk] at haccepts
      simp at haccepts
    · rfl

/-- **Nothing gets lost, and nothing is made up.**  What was taken off an inbox in a run, and then
what waits in it, is what waited there before, and then what came in, in the order of the sends. -/
theorem takings_append_waiting {s : Session} (hs : s.hub.Sound) (acts : List Action) {n : Nat}
    (hn : (s.run acts).Attended n) :
    s.takings n acts ++ (s.run acts).hub.waiting n = s.hub.waiting n ++ s.deliveries n acts := by
  induction acts using List.reverseRecOn with
  | nil => exact (List.append_nil _).symm
  | append_singleton acts a ih =>
    rw [run_concat] at hn ⊢
    rw [takings, deliveries, gathered_concat, gathered_concat, List.append_assoc,
      taken_append_waiting_step (sound_run hs acts) hn, ← List.append_assoc]
    exact (congrArg (· ++ _) (ih hn.of_step)).trans (List.append_assoc ..)

/-! ## 4. Hubs -/

/-- **Hubs deliver.**  Take the hub at the end of any run. A text that is sent through any handle
goes in exactly one of the six ways: if it is refused, nothing happens, and otherwise each inbox
with a receiver gets one copy for each time that it is reached, and nothing else. And whatever was
taken off an inbox with a receiver, followed by what still waits there, is what came into it, in the
order in which it was sent. Every inbox has a receiver until that one goes away. -/
theorem hub_delivers (maxMessageLen : Nat) (command : String) (acts : List Action) :
    let start := new maxMessageLen command
    let hub := (start.run acts).hub
    -- Members can be told apart by their names and by their inboxes, and those are there.
    (hub.members.map (·.peer.name)).Nodup ∧ (hub.members.map (·.inbox)).Nodup ∧
    (∀ m ∈ hub.members, m.inbox < hub.inboxes.length) ∧
    -- An inbox is open unless its receiver has gone away.
    (∀ n < hub.inboxes.length, .close n ∉ acts → hub.accepts n = true) ∧
    (∀ handle text,
      (∀ answer, hub.Addresses handle text answer ↔ hub.addressed handle text = answer) ∧
      -- Sending lets nobody in or out, and opens and closes no inbox.
      (hub.send handle text).2.1.members = hub.members ∧
      (∀ n, (hub.send handle text).2.1.accepts n = hub.accepts n) ∧
      match hub.addressed handle text with
      | .error e => hub.send handle text = (.error e, hub, [])
      | .ok (inboxes, message) => (hub.send handle text).1 = .ok () ∧ message.sender = handle ∧
          hub.Delivered (hub.send handle text).2.1 inboxes message) ∧
    ∀ n, hub.accepts n = true →
      start.takings n acts ++ hub.waiting n = start.deliveries n acts := by
  intro start hub
  have hsound : hub.Sound := sound_run (Hub.sound_new maxMessageLen command) acts
  have hempty : ∀ n, start.Attended n := fun n hn => absurd hn (Nat.not_lt_zero n)
  refine ⟨hsound.names, hsound.inboxes, hsound.inbox_lt,
    fun n hn hacts => (hempty n).run hacts hn,
    fun handle text => ⟨fun answer => hsound.addresses_iff, hub.members_send handle text,
      hub.accepts_send handle text, hub.send_of_addressed handle text⟩, fun n hn => ?_⟩
  exact takings_append_waiting (Hub.sound_new maxMessageLen command) acts fun _ => hn

/-- Whoever whispers to herself gets both copies. -/
example : ((new 256 "w").run [.join Tunnel.ann, .sendText Tunnel.ann "w ann  psst"]).hub.waiting 0
    = [⟨" psst", Tunnel.ann⟩, ⟨" psst", Tunnel.ann⟩] := by
  decide +kernel

end TextTunnel.Session
