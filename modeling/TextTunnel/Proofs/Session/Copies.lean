import TextTunnel.Proofs.Echo.Live
import TextTunnel.Proofs.Session.Company

/-!
# Copies of sent packets

For each send that the relay accepts, two copies of one message go out: an echo for the station that
has sent it, and the packet itself for the recipient. If a station writes to itself, both copies
wait in its own inbox and look the same; the first is the echo.

* `due` -- the copies that a send brings to a station, as they are received.
* `next_copy` -- which copy a station receives next.
* `Remembers` -- what an echo filter has to know about the sends that are outstanding; `new`,
  `later`, `forget`, `insert` and `insert_forget` keep it up.
-/

namespace TextTunnel.Session

/-! ## 1. Copies -/

/-- How the sender of a packet receives its message. -/
def Sent.echo (a : Sent) (i : Nat) : Receipt :=
  ⟨i, a.message, .echo, [.log (.echoReceived a.payload)]⟩

/-- How the recipient of a packet receives its message. -/
def Sent.accepted (a : Sent) (t : Tunnel) (i : Nat) : Receipt :=
  ⟨i, a.message, (t.acceptance a.payload a.packet).1, (t.acceptance a.payload a.packet).2⟩

/-- What a send brings to a station: an echo if the station has sent it, and the packet if it is for
the station's tunnel. -/
def due (t : Tunnel) (i : Nat) (a : Sent) : List Receipt :=
  (if a.station = i then [a.echo i] else []) ++
    if a.recipient = t.self then [a.accepted t i] else []

variable {t : Tunnel} {i : Nat} {a b : Sent} {h : List Entry}

theorem message_of_mem_due {r : Receipt} (hr : r ∈ due t i a) : r.message = a.message := by
  rcases List.mem_append.mp hr with hr | hr
  · split at hr
    · rw [List.mem_singleton.mp hr]
      rfl
    · exact absurd hr List.not_mem_nil
  · split at hr
    · rw [List.mem_singleton.mp hr]
      rfl
    · exact absurd hr List.not_mem_nil

theorem payload_eq_of_message_eq (hm : a.message = b.message) : a.payload = b.payload := by
  have htext := congrArg (String.toList ∘ RelayMessage.text) hm
  simp only [Function.comp_apply, Sent.message, String.toList_append, List.append_cancel_left_eq]
    at htext
  exact String.toList_inj.mp htext

/-- Sends whose payloads differ, told apart by their payloads. -/
theorem eq_of_payload_eq {l : List Sent} (hl : (l.map (·.payload)).Nodup) (ha : a ∈ l) (hb : b ∈ l)
    (hp : a.payload = b.payload) : a = b :=
  List.inj_on_of_nodup_map hl ha hb hp

/-- Where an element of a joined row comes from. -/
theorem exists_split_of_flatMap {α β : Type} {f : α → List β} {l : List α} {xs ys : List β} {y : β}
    (hl : xs ++ y :: ys = l.flatMap f) :
    ∃ pre a post p q, l = pre ++ a :: post ∧ f a = p ++ y :: q ∧ xs = pre.flatMap f ++ p := by
  induction l generalizing xs with
  | nil => exact absurd (congrArg List.length hl) (by simp)
  | cons b l ih =>
    rw [List.flatMap_cons, List.append_eq_append_iff] at hl
    rcases hl with ⟨c, hb, hc⟩ | ⟨c, hxs, hc⟩
    · cases c with
      | nil =>
        rw [List.nil_append] at hc
        obtain ⟨pre, a, post, p, q, rfl, hf, hpre⟩ := ih (show [] ++ y :: ys = l.flatMap f from hc)
        refine ⟨b :: pre, a, post, p, q, rfl, hf, ?_⟩
        rw [List.flatMap_cons, List.append_assoc, ← hpre, List.append_nil, hb, List.append_nil]
      | cons z c =>
        obtain ⟨rfl, -⟩ := List.cons.inj hc
        exact ⟨[], b, l, xs, c, rfl, hb, rfl⟩
    · obtain ⟨pre, a, post, p, q, rfl, hf, hpre⟩ := ih hc.symm
      refine ⟨b :: pre, a, post, p, q, rfl, hf, ?_⟩
      rw [List.flatMap_cons, List.append_assoc, ← hpre, hxs]

/-- **The next copy** of a row of copies is either an echo whose send is outstanding, or a packet
for the station. In the second case, if the station has sent it as well, its echo came before. -/
theorem next_copy {r : Receipt} {rs : List Receipt} (hl : ((sends h).map (·.payload)).Nodup)
    (hq : receiptsAt h i ++ r :: rs = (sends h).flatMap (due t i)) :
    ∃ a ∈ sends h, (a.station = i ∧ r = a.echo i ∧ a ∈ outstanding h i) ∨
      (a.recipient = t.self ∧ r = a.accepted t i ∧ a ∉ outstanding h i) := by
  obtain ⟨pre, a, post, p, q, hsends, hdue, hreceipts⟩ := exists_split_of_flatMap hq
  have ha : a ∈ sends h := hsends ▸ List.mem_append_right _ List.mem_cons_self
  -- No copy of an earlier send has the same message.
  have hearlier : ∀ r ∈ pre.flatMap (due t i), r.message ≠ a.message := by
    intro r hr hmessage
    obtain ⟨b, hb, hr⟩ := List.mem_flatMap.mp hr
    rw [message_of_mem_due hr] at hmessage
    rw [hsends, List.map_append, List.nodup_append] at hl
    exact hl.2.2 b.payload (List.mem_map_of_mem hb) a.payload
      (List.mem_map_of_mem List.mem_cons_self) (payload_eq_of_message_eq hmessage)
  refine ⟨a, ha, ?_⟩
  rw [due] at hdue
  by_cases hstation : a.station = i
  · rw [if_pos hstation, List.singleton_append] at hdue
    cases p with
    | nil =>
      obtain ⟨rfl, -⟩ := List.cons.inj hdue
      refine .inl ⟨hstation, rfl, mem_outstanding.mpr ⟨ha, hstation, ?_⟩⟩
      rw [hreceipts, List.append_nil]
      exact hearlier
    | cons z p =>
      obtain ⟨rfl, hrest⟩ := List.cons.inj hdue
      split at hrest
      · next hrecipient =>
        refine .inr ⟨hrecipient, ?_, fun hout => ?_⟩
        · have hmem : r ∈ [a.accepted t i] := hrest ▸ List.mem_append_right _ List.mem_cons_self
          exact List.mem_singleton.mp hmem
        · refine (mem_outstanding.mp hout).2.2 (a.echo i) ?_ rfl
          rw [hreceipts]
          exact List.mem_append_right _ List.mem_cons_self
      · exact absurd hrest.symm (by simp)
  · rw [if_neg hstation, List.nil_append] at hdue
    split at hdue
    · next hrecipient =>
      refine .inr ⟨hrecipient, ?_, fun hout => hstation (mem_outstanding.mp hout).2.1⟩
      have hmem : r ∈ [a.accepted t i] := hdue ▸ List.mem_append_right _ List.mem_cons_self
      exact List.mem_singleton.mp hmem
    · exact absurd hdue.symm (by simp)

/-! ## 2. Echo filters -/

/-- What an echo filter has to know of a station's outstanding sends: it remembers nothing else, and
everything that is fresh. -/
structure Remembers (t : Tunnel) (echo : EchoFilter) (now : Nat) (l : List Sent) : Prop where
  window_eq : echo.window = t.newEcho.window
  capacity_eq : echo.capacity = t.newEcho.capacity
  sublist : echo.sent.Sublist (l.map (·.record))
  mem : ∀ a ∈ l, t.newEcho.isFresh now a.sentAt = true → a.record ∈ echo.sent

namespace Remembers

variable {echo : EchoFilter} {now : Nat} {l : List Sent}

theorem isFresh_eq (hr : Remembers t echo now l) (sentAt : Nat) :
    echo.isFresh now sentAt = t.newEcho.isFresh now sentAt := by
  rw [EchoFilter.isFresh, EchoFilter.isFresh, hr.window_eq]

/-- What is remembered is the record of an outstanding send. -/
theorem exists_record (hr : Remembers t echo now l) {s : SentPayload} (hs : s ∈ echo.sent) :
    ∃ b ∈ l, b.record = s :=
  List.mem_map.mp (hr.sublist.subset hs)

theorem new (t : Tunnel) (now : Nat) : Remembers t t.newEcho now [] :=
  ⟨rfl, rfl, List.Sublist.refl _, fun _ ha => absurd ha List.not_mem_nil⟩

/-- Time passes: what is fresh later was fresh before. -/
theorem later (hr : Remembers t echo now l) (ms : Nat) : Remembers t echo (now + ms) l where
  window_eq := hr.window_eq
  capacity_eq := hr.capacity_eq
  sublist := hr.sublist
  mem := by
    intro a ha hfresh
    refine hr.mem a ha ?_
    rw [EchoFilter.isFresh, decide_eq_true_eq] at hfresh ⊢
    omega

theorem forget (hr : Remembers t echo now l) (payload : String) :
    Remembers t (echo.forget payload) now (l.filter fun b => b.payload ≠ payload) where
  window_eq := hr.window_eq
  capacity_eq := hr.capacity_eq
  sublist := by
    have hfilter := hr.sublist.filter fun s => s.payload != payload
    have hcongr : l.filter ((fun s => s.payload != payload) ∘ Sent.record)
        = l.filter fun b => b.payload ≠ payload := by
      refine List.filter_congr fun b _ => ?_
      rw [Function.comp_apply, Sent.record, bne, decide_not, beq_eq_decide]
    rwa [List.filter_map, hcongr] at hfilter
  mem := by
    intro a ha hfresh
    obtain ⟨hmem, hne⟩ := List.mem_filter.mp ha
    exact EchoFilter.mem_forget.mpr ⟨hr.mem a hmem hfresh, of_decide_eq_true hne⟩

theorem prune (hr : Remembers t echo now l) : Remembers t (echo.prune now) now l where
  window_eq := hr.window_eq
  capacity_eq := hr.capacity_eq
  sublist := (echo.prune_sublist now).trans hr.sublist
  mem := by
    intro a ha hfresh
    exact EchoFilter.mem_prune.mpr ⟨hr.mem a ha hfresh, (hr.isFresh_eq a.sentAt).trans hfresh⟩

/-- Forgetting a payload that belongs to no outstanding send. -/
theorem forget_of_forall_ne {payload : String} (hr : Remembers t echo now l)
    (hnew : ∀ b ∈ l, b.payload ≠ payload) : Remembers t (echo.forget payload) now l := by
  have hforget := hr.forget payload
  rwa [List.filter_eq_self.mpr fun b hb => decide_eq_true (hnew b hb)] at hforget

/-- There is room in the filter if few sends are outstanding. -/
theorem size_prune_lt (hr : Remembers t echo now l) (hroom : l.length < t.newEcho.capacity) :
    (echo.prune now).size < echo.capacity := by
  have hlen := hr.prune.sublist.length_le
  rw [List.length_map] at hlen
  rw [hr.capacity_eq]
  exact Nat.lt_of_le_of_lt hlen hroom

/-- One more send. -/
theorem insert (hr : Remembers t echo a.sentAt l) (hroom : l.length < t.newEcho.capacity)
    (hnew : ∀ b ∈ l, b.payload ≠ a.payload) :
    Remembers t (echo.insert a.sentAt a.payload).2 a.sentAt (l ++ [a]) := by
  have hrest := hr.prune.forget_of_forall_ne hnew
  rw [EchoFilter.insert_of_lt (hr.size_prune_lt hroom)]
  refine ⟨hr.window_eq, hr.capacity_eq, ?_, fun b hb hfresh => ?_⟩
  · rw [List.map_append]
    exact hrest.sublist.append (List.Sublist.refl _)
  · rcases List.mem_append.mp hb with hb | hb
    · exact List.mem_append_left _ (hrest.mem b hb hfresh)
    · rw [List.mem_singleton.mp hb]
      exact List.mem_append_right _ List.mem_cons_self

/-- One more send that the relay has refused. -/
theorem insert_forget {payload : String} (hr : Remembers t echo now l)
    (hroom : l.length < t.newEcho.capacity) (hnew : ∀ b ∈ l, b.payload ≠ payload) :
    Remembers t ((echo.insert now payload).2.forget payload) now l := by
  rw [EchoFilter.forget_insert_of_lt (hr.size_prune_lt hroom)]
  exact hr.prune.forget_of_forall_ne hnew

end Remembers

end TextTunnel.Session
