import Mathlib.Logic.Relation
import Mathlib.Order.WellFounded
import TextTunnel.Proofs.Echo.Queue

/-!
# What an echo filter answers, by what it was asked

The reply to a call is decided by the calls before it. This module says how, without the filter: an
insertion is *in force* until its payload is taken, is forgotten, or has to make room.

* `evictions`, `InForce`, `inForce_concat` -- the history of one insertion.
* `inForce_of_mem`, `mem_of_inForce` -- what is remembered is what is in force, as long as it is
  fresh.
* `mem_evicted_iff` -- who has to make room, and when.
* `Turn`, `wellFounded_turn`, `turns_evict` -- the loop that makes room, turn after turn.
* `queue_of_orderly` -- all of it together.
-/

namespace TextTunnel.EchoFilter

variable {f g : EchoFilter} {now later : Nat} {payload p : String} {calls : List Call} {c : Call}
  {window capacity : Nat} {s : SentPayload}

/-! ## 1. Insertions in force -/

/-- All that have to make room in a run. -/
def evictions (f : EchoFilter) (calls : List Call) : List String :=
  (replies perform f calls).flatMap (·.evicted)

/-- The payload was inserted at the time, and none of the calls since then has taken it, has
forgotten it, or has made it give way. -/
def InForce (f : EchoFilter) (calls : List Call) (payload : String) (sentAt : Nat) : Prop :=
  ∃ before since, calls = before ++ ⟨sentAt, .insert payload⟩ :: since ∧
    (∀ c ∈ since, c.request ≠ .take payload ∧ c.request ≠ .forget payload) ∧
    payload ∉ evictions (after perform f (before ++ [⟨sentAt, .insert payload⟩])) since

theorem evictions_concat (f : EchoFilter) (calls : List Call) (c : Call) :
    evictions f (calls ++ [c])
      = evictions f calls ++ ((after perform f calls).perform c).1.evicted := by
  rw [evictions, replies_concat, List.flatMap_append, List.flatMap_singleton]
  rfl

/-- One more call: an insertion comes into force, or stays in force. -/
theorem inForce_concat {sentAt : Nat} :
    InForce f (calls ++ [c]) payload sentAt ↔ c = ⟨sentAt, .insert payload⟩ ∨
      (InForce f calls payload sentAt ∧
        (c.request ≠ .take payload ∧ c.request ≠ .forget payload) ∧
        payload ∉ ((after perform f calls).perform c).1.evicted) := by
  constructor
  · rintro ⟨before, since, hcalls, hspared, hkept⟩
    rcases List.eq_nil_or_concat' since with rfl | ⟨since, d, rfl⟩
    · exact .inl (List.singleton_inj.mp (List.append_inj' hcalls rfl).2)
    · rw [← List.cons_append, ← List.append_assoc] at hcalls
      obtain ⟨rfl, hd⟩ := List.append_inj' hcalls rfl
      obtain rfl := List.singleton_inj.mp hd
      rw [evictions_concat, ← after_append, List.append_assoc, List.singleton_append,
        List.mem_append, not_or] at hkept
      rw [List.forall_mem_append] at hspared
      exact .inr ⟨⟨before, since, rfl, hspared.1, hkept.1⟩,
        hspared.2 c (List.mem_singleton_self c), hkept.2⟩
  · rintro (rfl | ⟨⟨before, since, rfl, hspared, hkept⟩, hc, hstays⟩)
    · exact ⟨calls, [], rfl, by simp, List.not_mem_nil⟩
    · refine ⟨before, since ++ [c], List.append_assoc before _ [c], ?_, ?_⟩
      · exact List.forall_mem_append.mpr ⟨hspared, by simpa using hc⟩
      · rw [evictions_concat, ← after_append, List.append_assoc, List.singleton_append,
          List.mem_append, not_or]
        exact ⟨hkept, hstays⟩

/-! ## 2. What is remembered is in force -/

/-- What is remembered after a call was inserted by it, or was remembered before and has been
spared. -/
theorem of_mem_perform (h : s ∈ (f.perform c).2.sent) :
    c = ⟨s.sentAt, .insert s.payload⟩ ∨
      (s ∈ f.sent ∧ (c.request ≠ .take s.payload ∧ c.request ≠ .forget s.payload) ∧
        s.payload ∉ (f.perform c).1.evicted) := by
  obtain ⟨now, request⟩ := c
  cases request with
  | insert payload =>
    rcases mem_insert.mp h with rfl | ⟨hold, hstays, -⟩
    · exact .inl rfl
    · exact .inr ⟨(mem_prune.mp hold).1, by simp, hstays⟩
  | take payload =>
    rw [perform_take] at h
    obtain ⟨hold, hne⟩ := mem_forget.mp h
    exact .inr ⟨hold, by simpa using hne.symm, List.not_mem_nil⟩
  | forget payload =>
    obtain ⟨hold, hne⟩ := mem_forget.mp h
    exact .inr ⟨hold, by simpa using hne.symm, List.not_mem_nil⟩

/-- What is remembered and fresh, and is spared by a call that may be made, is remembered
afterwards. -/
theorem mem_perform (hs : s ∈ f.sent) (hfresh : f.isFresh c.time s.sentAt = true)
    (hadmits : f.Admits c)
    (hspared : c.request ≠ .take s.payload ∧ c.request ≠ .forget s.payload)
    (hstays : s.payload ∉ (f.perform c).1.evicted) : s ∈ (f.perform c).2.sent := by
  obtain ⟨now, request⟩ := c
  cases request with
  | insert payload =>
    have hmem : s ∈ (f.prune now).sent := mem_prune.mpr ⟨hs, hfresh⟩
    exact mem_insert.mpr (.inr ⟨hmem, hstays, ne_of_not_live hadmits hmem⟩)
  | take payload =>
    rw [perform_take]
    exact mem_forget.mpr ⟨hs, fun heq => hspared.1 (by rw [heq])⟩
  | forget payload => exact mem_forget.mpr ⟨hs, fun heq => hspared.2 (by rw [heq])⟩

theorem mem_perform_insert (f : EchoFilter) (sentAt : Nat) (payload : String) :
    ⟨payload, sentAt⟩ ∈ (f.perform ⟨sentAt, .insert payload⟩).2.sent :=
  mem_insert.mpr (.inl rfl)

/-- **Whatever is remembered is in force**, in every run of every filter that starts empty. -/
theorem inForce_of_mem (hs : s ∈ (after perform (new window capacity) calls).sent) :
    InForce (new window capacity) calls s.payload s.sentAt := by
  induction calls using List.reverseRecOn with
  | nil => exact absurd hs List.not_mem_nil
  | append_singleton calls c ih =>
    rw [after_concat] at hs
    rw [inForce_concat]
    rcases of_mem_perform hs with rfl | ⟨hold, hspared⟩
    · exact .inl rfl
    · exact .inr ⟨ih hold, hspared⟩

/-- **Whatever is in force is remembered** as long as it is fresh. -/
theorem mem_of_inForce (h : Orderly (new window capacity) calls)
    (hforce : InForce (new window capacity) calls payload now)
    (hcalls : ∀ c ∈ calls, c.time ≤ later) (hfresh : later ≤ now + window) :
    ⟨payload, now⟩ ∈ (after perform (new window capacity) calls).sent := by
  induction calls using List.reverseRecOn generalizing later with
  | nil =>
    obtain ⟨before, since, hnil, -⟩ := hforce
    simp at hnil
  | append_singleton calls c ih =>
    obtain ⟨hbefore, hlast, hadmits⟩ := h.of_concat
    rw [after_concat]
    rcases inForce_concat.mp hforce with rfl | ⟨hold, hspared, hstays⟩
    · exact mem_perform_insert _ now payload
    · -- What is fresh later is fresh at the time of this call.
      have hle : c.time ≤ later := hcalls c (List.mem_append_right _ (List.mem_singleton_self c))
      have hmem := ih hbefore hold (fun d hd => (hlast d hd).1) (by omega)
      refine mem_perform hmem ?_ hadmits hspared hstays
      rw [isFresh, (kept_after hbefore).window_eq, decide_eq_true_eq]
      dsimp only
      omega

/-- What a payload's being found says of the calls before. -/
theorem take_fst_iff (h : Orderly (new window capacity) (calls ++ [⟨now, .take payload⟩])) :
    ((after perform (new window capacity) calls).take now payload).1 = true ↔
      ∃ sentAt, now ≤ sentAt + window ∧ InForce (new window capacity) calls payload sentAt := by
  obtain ⟨hbefore, hlast, -⟩ := h.of_concat
  have hkept := kept_after hbefore
  rw [take_fst]
  constructor
  · rintro ⟨sentAt, hsent, hfresh⟩
    rw [isFresh, hkept.window_eq, decide_eq_true_eq] at hfresh
    exact ⟨sentAt, by omega, inForce_of_mem (hkept.distinct.sentAt?_eq_some.mp hsent)⟩
  · rintro ⟨sentAt, hfresh, hforce⟩
    have hmem := mem_of_inForce hbefore hforce (fun d hd => (hlast d hd).1) hfresh
    refine ⟨sentAt, hkept.distinct.sentAt?_eq_some.mpr hmem, ?_⟩
    rw [isFresh, hkept.window_eq, decide_eq_true_eq]
    omega

/-- A payload that is not remembered, and is not inserted, is not remembered later. -/
theorem ne_of_mem_after (h : ∀ s ∈ f.sent, s.payload ≠ payload)
    (hcalls : ∀ c ∈ calls, c.request ≠ .insert payload) :
    ∀ s ∈ (after perform f calls).sent, s.payload ≠ payload := by
  induction calls using List.reverseRecOn with
  | nil => exact h
  | append_singleton calls c ih =>
    rw [List.forall_mem_append] at hcalls
    intro s hs
    rw [after_concat] at hs
    rcases of_mem_perform hs with rfl | ⟨hold, -⟩
    · intro heq
      exact hcalls.2 _ (List.mem_singleton_self _) (by rw [heq])
    · exact ih hcalls.1 s hold

/-! ## 3. Who has to make room -/

/-- Of increasing times, the first is the least. -/
theorem eq_of_forall_le {t : SentPayload} {rest : List SentPayload}
    (h : ∀ u ∈ rest, s.sentAt < u.sentAt) (ht : t ∈ s :: rest) (hle : t.sentAt ≤ s.sentAt) :
    t = s := by
  rcases List.mem_cons.mp ht with rfl | ht
  · rfl
  · have hlt := h t ht
    omega

/-- **One has to make room exactly** if there are as many fresh ones as there may be, and it is the
oldest of them. -/
theorem mem_insert_fst_iff (h : Kept window capacity calls f) :
    p ∈ (f.insert now payload).1 ↔ (f.prune now).size = max 1 capacity ∧
      ∃ s ∈ (f.prune now).sent, s.payload = p ∧ ∀ u ∈ (f.prune now).sent, s.sentAt ≤ u.sentAt := by
  have hinc := h.increasing.prune now
  rw [insert_of_increasing h.distinct h.increasing, h.excess_eq]
  by_cases hfull : (f.prune now).size = max 1 capacity
  · rw [if_pos hfull]
    simp only [hfull, true_and]
    rw [size] at hfull
    rw [Increasing] at hinc
    cases hfresh : (f.prune now).sent with
    | nil =>
      rw [hfresh, List.length_nil] at hfull
      omega
    | cons s rest =>
      rw [hfresh, List.pairwise_cons] at hinc
      constructor
      · intro hp
        obtain rfl := List.mem_singleton.mp hp
        refine ⟨s, List.mem_cons_self, rfl, ?_⟩
        intro u hu
        rcases List.mem_cons.mp hu with rfl | hu
        · exact Nat.le_refl _
        · exact (hinc.1 u hu).le
      · rintro ⟨t, ht, rfl, hle⟩
        rw [eq_of_forall_le hinc.1 ht (hle s List.mem_cons_self)]
        exact List.mem_singleton_self _
  · rw [if_neg hfull]
    simp [hfull]

theorem mem_evicted_iff (h : Kept window capacity calls f) :
    p ∈ (f.perform c).1.evicted ↔
      (∃ q, c.request = .insert q) ∧ (f.prune c.time).size = max 1 capacity ∧
        ∃ s ∈ (f.prune c.time).sent, s.payload = p ∧
          ∀ u ∈ (f.prune c.time).sent, s.sentAt ≤ u.sentAt := by
  obtain ⟨now, request⟩ := c
  cases request with
  | insert payload =>
    have hinsert : p ∈ (f.insert now payload).1 ↔ _ := mem_insert_fst_iff h
    exact hinsert.trans ⟨fun hp => ⟨⟨payload, rfl⟩, hp⟩, fun hp => hp.2⟩
  | take payload => simp [perform]
  | forget payload => simp [perform]

/-! ## 4. The loop that makes room -/

/-- One turn of the loop: there are too many for one more, and one that was sent first is
forgotten. -/
inductive Turn (f : EchoFilter) : EchoFilter → Prop
  | forget (s : SentPayload) (full : f.capacity ≤ f.size) (mem : s ∈ f.sent)
      (first : ∀ u ∈ f.sent, s.sentAt ≤ u.sentAt) : Turn f (f.forget s.payload)

theorem Turn.size_lt (h : Turn f g) : g.size < f.size := by
  obtain ⟨s, -, hs, -⟩ := h
  exact List.length_filter_lt_length_iff_exists.mpr ⟨s, hs, by simp⟩

/-- **The loop ends**, whatever the filter remembers. -/
theorem wellFounded_turn : WellFounded fun g f : EchoFilter => Turn f g :=
  Subrelation.wf Turn.size_lt (measure size).wf

theorem le_of_oldest? {l : List SentPayload} (h : oldest? l = some s) :
    ∀ u ∈ l, s.sentAt ≤ u.sentAt := by
  induction l generalizing s with
  | nil => exact nomatch h
  | cons t l ih =>
    rw [oldest?] at h
    intro u hu
    cases hl : oldest? l with
    | none =>
      rw [hl] at h
      obtain rfl := Option.some.inj h
      rw [oldest?_eq_none hl, List.mem_singleton] at hu
      rw [hu]
    | some v =>
      rw [hl] at h
      have hv := ih hl
      dsimp only at h
      rcases List.mem_cons.mp hu with rfl | hu
      · split at h <;> obtain rfl := Option.some.inj h <;> omega
      · have hvu := hv u hu
        split at h <;> obtain rfl := Option.some.inj h <;> omega

theorem size_forget (h : f.Distinct) (hs : s ∈ f.sent) : (f.forget s.payload).size = f.size - 1 := by
  obtain ⟨front, back, hsent⟩ := List.append_of_mem hs
  rw [Distinct, hsent, List.pairwise_append, List.pairwise_cons] at h
  obtain ⟨-, ⟨hback, -⟩, hfront⟩ := h
  have hfront' : front.filter (fun u => u.payload != s.payload) = front :=
    List.filter_eq_self.mpr fun u hu => bne_iff_ne.mpr (hfront u hu s List.mem_cons_self)
  have hback' : back.filter (fun u => u.payload != s.payload) = back :=
    List.filter_eq_self.mpr fun u hu => bne_iff_ne.mpr (hback u hu).symm
  simp only [size, EchoFilter.forget, hsent, List.filter_append, hfront', hback',
    List.filter_cons, bne_self_eq_false, List.length_append, List.length_cons]
  rfl

theorem size_evict (h : f.Distinct) (n : Nat) : (f.evict n).2.size = f.size - n := by
  induction n generalizing f with
  | zero => rfl
  | succ n ih =>
    rw [evict]
    cases hs : oldest? f.sent with
    | none =>
      have hsize : f.size = 0 := congrArg List.length (oldest?_eq_none hs)
      dsimp only
      omega
    | some s =>
      have hrest := ih (h.forget s.payload)
      rw [size_forget h (mem_of_oldest? hs)] at hrest
      dsimp only
      omega

/-- As many are forgotten as the loop has turns. -/
theorem turns_evict (h : f.Distinct) {n : Nat} (hn : n ≤ f.size + 1 - f.capacity) :
    Relation.ReflTransGen Turn f (f.evict n).2 := by
  induction n generalizing f with
  | zero => exact .refl
  | succ n ih =>
    rw [evict]
    cases hs : oldest? f.sent with
    | none => exact .refl
    | some s =>
      have hmem := mem_of_oldest? hs
      have hturn : Turn f (f.forget s.payload) := .forget s (by omega) hmem (le_of_oldest? hs)
      have hsize := size_forget h hmem
      exact .head hturn (ih (h.forget s.payload) (by
        rw [hsize]
        change n ≤ f.size - 1 + 1 - f.capacity
        omega))

/-- Then the loop has no further turn. -/
theorem not_turn_evict (h : f.Distinct) : ¬ Turn (f.evict (f.size + 1 - f.capacity)).2 g := by
  rintro ⟨s, hfull, hs, -⟩
  have hsize := size_evict h (f.size + 1 - f.capacity)
  have hcapacity : (f.evict (f.size + 1 - f.capacity)).2.capacity = f.capacity := by
    rw [evict_snd]
    rfl
  have hpos : 0 < (f.evict (f.size + 1 - f.capacity)).2.size := List.length_pos_of_mem hs
  omega

/-! ## 5. Orderly runs -/

/-- **In an orderly run the filter is a queue** of at most `max 1 capacity` entries, with expiry. -/
theorem queue_of_orderly (h : Orderly (new window capacity) calls) :
    -- Every call is answered as the queue answers it.
    replies perform (new window capacity) calls
      = replies EchoQueue.perform (.new window capacity) calls ∧
    -- There are never too many entries.
    (∀ before rest, calls = before ++ rest →
      (after perform (new window capacity) before).size ≤ max 1 capacity) ∧
    -- What is asked for is found exactly if an insertion of it is in force and has not expired.
    (∀ before now payload rest, calls = before ++ ⟨now, .take payload⟩ :: rest →
      (((after perform (new window capacity) before).perform ⟨now, .take payload⟩).1.found = true ↔
        ∃ sentAt, now ≤ sentAt + window ∧
          InForce (new window capacity) before payload sentAt)) ∧
    -- It is not found again, whether it was found before or was too old.
    (∀ before now payload between later rest,
      calls = before ++ ⟨now, .take payload⟩ :: (between ++ ⟨later, .take payload⟩ :: rest) →
      (∀ c ∈ between, c.request ≠ .insert payload) →
      ((after perform (new window capacity) (before ++ ⟨now, .take payload⟩ :: between)).perform
        ⟨later, .take payload⟩).1.found = false) ∧
    -- An entry has to make room exactly if there are as many fresh ones as there may be, and it is
    -- the oldest of them.
    (∀ before c rest payload, calls = before ++ c :: rest →
      (payload ∈ ((after perform (new window capacity) before).perform c).1.evicted ↔
        (∃ q, c.request = .insert q) ∧
        ((after perform (new window capacity) before).prune c.time).size = max 1 capacity ∧
        ∃ s ∈ ((after perform (new window capacity) before).prune c.time).sent,
          s.payload = payload ∧
          ∀ u ∈ ((after perform (new window capacity) before).prune c.time).sent,
            s.sentAt ≤ u.sentAt)) ∧
    -- In every state the loop that makes room ends, and an insertion goes on from where it ends.
    WellFounded (fun g' g : EchoFilter => Turn g g') ∧
    (∀ (g : EchoFilter) (now : Nat) (payload : String), g.Distinct → ∃ room,
      Relation.ReflTransGen Turn (g.prune now) room ∧ (∀ g', ¬ Turn room g') ∧
      (g.insert now payload).2
        = { room.forget payload with sent := (room.forget payload).sent ++ [⟨payload, now⟩] }) := by
  refine ⟨(mirrors_after h).1.symm, ?_, ?_, ?_, ?_, wellFounded_turn, ?_⟩
  · rintro before rest rfl
    exact (kept_after h.of_append).size_le
  · rintro before now payload rest rfl
    rw [List.append_cons] at h
    exact take_fst_iff h.of_append
  · rintro before now payload between later rest - hbetween
    rw [after_append, after_cons, perform_take, perform_take]
    have hgone : ∀ s ∈ ((after perform (new window capacity) before).forget payload).sent,
        s.payload ≠ payload := fun s hs => (mem_forget.mp hs).2
    rw [take_of_not_mem (ne_of_mem_after hgone hbetween)]
  · rintro before c rest payload rfl
    exact mem_evicted_iff (kept_after h.of_append)
  · intro g now payload hdistinct
    have hfresh := hdistinct.prune now
    exact ⟨_, turns_evict hfresh (Nat.le_refl _), fun g' => not_turn_evict hfresh, rfl⟩

/-- One run with everything in it: room is made for `c`, `b` is found once, `c` is forgotten, and
`d` is asked for too late. -/
def mixedCalls : List Call :=
  [⟨0, .insert "a"⟩, ⟨1, .insert "b"⟩, ⟨2, .insert "c"⟩, ⟨3, .take "a"⟩, ⟨3, .take "b"⟩,
    ⟨4, .take "b"⟩, ⟨5, .forget "c"⟩, ⟨6, .insert "d"⟩, ⟨17, .take "d"⟩, ⟨17, .take "d"⟩,
    ⟨18, .insert "a"⟩, ⟨28, .take "a"⟩]

theorem queue_of_orderly_mixedCalls :
    Orderly (new 10 2) mixedCalls ∧
    replies perform (new 10 2) mixedCalls
      = [⟨false, []⟩, ⟨false, []⟩, ⟨false, ["a"]⟩, ⟨false, []⟩, ⟨true, []⟩, ⟨false, []⟩,
        ⟨false, []⟩, ⟨false, []⟩, ⟨false, []⟩, ⟨false, []⟩, ⟨false, []⟩, ⟨true, []⟩] ∧
    (∃ sentAt, 3 ≤ sentAt + 10 ∧ InForce (new 10 2) (mixedCalls.take 4) "b" sentAt) ∧
    ¬ ∃ sentAt, 17 ≤ sentAt + 10 ∧ InForce (new 10 2) (mixedCalls.take 8) "d" sentAt := by
  have h : Orderly (new 10 2) mixedCalls := ⟨by decide, by decide +kernel⟩
  obtain ⟨hreplies, -, hfound, -⟩ := queue_of_orderly h
  refine ⟨h, hreplies.trans (by decide +kernel), ?_, ?_⟩
  · exact (hfound (mixedCalls.take 4) 3 "b" (mixedCalls.drop 5) rfl).mp (by decide +kernel)
  · intro hforce
    have hd := (hfound (mixedCalls.take 8) 17 "d" (mixedCalls.drop 9) rfl).mpr hforce
    exact absurd hd (by decide +kernel)

end TextTunnel.EchoFilter
