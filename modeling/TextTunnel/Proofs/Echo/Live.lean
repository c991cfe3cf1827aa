import TextTunnel.Echo

/-!
# What an echo filter still knows

A payload is *live* if it is remembered and still fresh: its echo would be taken for one. Everything
that the filter does is said here by what is live afterwards.

* `EchoFilter.Live` -- remembered and fresh.
* `forgetAll` -- what is left without many payloads.
* `live_forget`, `live_prune`, `live_evict`, `live_forget_insert` -- the operations.
* `HasRoom`, `insert_fst_eq_nil_iff` -- when nothing has to go to make room.
* `take_of_mem`, `take_of_not_mem`, `insert_of_lt` -- what exactly is left where payloads differ and
  there is room.
* `Awaits` -- when a payload was sent whose echo would be taken for one.
* `sentAt?_forget`, `sentAt?_insert`, `take_fst`, `take_snd` -- the operations seen from one
  payload.
-/

namespace TextTunnel.EchoFilter

/-- The payload is remembered and fresh. -/
def Live (f : EchoFilter) (now : Nat) (payload : String) : Prop :=
  ∃ s ∈ f.sent, s.payload = payload ∧ f.isFresh now s.sentAt = true

/-- One more payload can be remembered without forgetting one that is fresh. -/
def HasRoom (f : EchoFilter) (now : Nat) : Prop :=
  (f.prune now).size < f.capacity ∨ (f.prune now).sent = []

variable {f : EchoFilter} {now : Nat} {payload : String}

/-! ## 1. Forgetting -/

@[simp] theorem capacity_prune (f : EchoFilter) (now : Nat) :
    (f.prune now).capacity = f.capacity := rfl

theorem mem_forget {s : SentPayload} :
    s ∈ (f.forget payload).sent ↔ s ∈ f.sent ∧ s.payload ≠ payload := by
  rw [forget, List.mem_filter, bne_iff_ne]

theorem mem_prune {s : SentPayload} :
    s ∈ (f.prune now).sent ↔ s ∈ f.sent ∧ f.isFresh now s.sentAt = true := by
  rw [prune, List.mem_filter]

theorem live_forget (q : String) :
    (f.forget payload).Live now q ↔ f.Live now q ∧ q ≠ payload := by
  constructor
  · rintro ⟨s, hs, rfl, hfresh⟩
    obtain ⟨hmem, hne⟩ := mem_forget.mp hs
    exact ⟨⟨s, hmem, rfl, hfresh⟩, hne⟩
  · rintro ⟨⟨s, hs, rfl, hfresh⟩, hne⟩
    exact ⟨s, mem_forget.mpr ⟨hs, hne⟩, rfl, hfresh⟩

theorem live_prune (q : String) : (f.prune now).Live now q ↔ f.Live now q := by
  constructor
  · rintro ⟨s, hs, rfl, hfresh⟩
    exact ⟨s, (mem_prune.mp hs).1, rfl, hfresh⟩
  · rintro ⟨s, hs, rfl, hfresh⟩
    exact ⟨s, mem_prune.mpr ⟨hs, hfresh⟩, rfl, hfresh⟩

/-- Forgets all these payloads. -/
def forgetAll (f : EchoFilter) (payloads : List String) : EchoFilter :=
  { f with sent := f.sent.filter fun s => s.payload ∉ payloads }

theorem mem_forgetAll {s : SentPayload} {payloads : List String} :
    s ∈ (f.forgetAll payloads).sent ↔ s ∈ f.sent ∧ s.payload ∉ payloads := by
  rw [forgetAll, List.mem_filter, decide_eq_true_eq]

theorem forgetAll_nil (f : EchoFilter) : f.forgetAll [] = f := by
  rw [forgetAll, List.filter_eq_self.mpr fun s _ => by simp]

theorem forgetAll_cons (f : EchoFilter) (payload : String) (payloads : List String) :
    f.forgetAll (payload :: payloads) = (f.forget payload).forgetAll payloads := by
  simp only [forgetAll, forget, List.filter_filter, EchoFilter.mk.injEq, true_and]
  refine List.filter_congr fun s _ => ?_
  simp only [List.mem_cons, not_or, Bool.decide_and, bne]
  rw [Bool.and_comm]
  congr 1
  by_cases h : s.payload = payload <;> simp [h]

/-- Which payloads they are decides what is left, and not their order. -/
theorem forgetAll_perm (f : EchoFilter) {ps qs : List String} (h : ps.Perm qs) :
    f.forgetAll ps = f.forgetAll qs := by
  simp only [forgetAll, h.mem_iff]

/-! ## 2. Making room -/

theorem oldest?_eq_none {l : List SentPayload} (h : oldest? l = none) : l = [] := by
  cases l with
  | nil => rfl
  | cons s l =>
    rw [oldest?] at h
    split at h
    · exact nomatch h
    · split at h <;> exact nomatch h

theorem mem_of_oldest? {l : List SentPayload} {s : SentPayload} (h : oldest? l = some s) :
    s ∈ l := by
  induction l with
  | nil => exact nomatch h
  | cons t l ih =>
    rw [oldest?] at h
    split at h
    · obtain rfl := Option.some.inj h
      exact List.mem_cons_self
    · next u hu =>
      split at h
      · obtain rfl := Option.some.inj h
        exact List.mem_cons_of_mem t (ih hu)
      · obtain rfl := Option.some.inj h
        exact List.mem_cons_self

/-- The filter after making room: only the payloads that are listed have gone. -/
theorem evict_snd (n : Nat) (f : EchoFilter) : (f.evict n).2 = f.forgetAll (f.evict n).1 := by
  induction n generalizing f with
  | zero => exact f.forgetAll_nil.symm
  | succ n ih =>
    rw [evict]
    split
    · exact f.forgetAll_nil.symm
    · next s _ => exact (ih (f.forget s.payload)).trans (forgetAll_cons f s.payload _).symm

/-- What goes was remembered. -/
theorem mem_of_mem_evict {n : Nat} {q : String} (h : q ∈ (f.evict n).1) :
    ∃ s ∈ f.sent, s.payload = q := by
  induction n generalizing f with
  | zero => exact absurd h List.not_mem_nil
  | succ n ih =>
    rw [evict] at h
    split at h
    · exact absurd h List.not_mem_nil
    · next s hs =>
      rcases List.mem_cons.mp h with rfl | h
      · exact ⟨s, mem_of_oldest? hs, rfl⟩
      · obtain ⟨t, ht, hq⟩ := ih h
        exact ⟨t, (mem_forget.mp ht).1, hq⟩

theorem evict_fst_eq_nil_iff {n : Nat} : (f.evict n).1 = [] ↔ n = 0 ∨ f.sent = [] := by
  cases n with
  | zero => simp [evict]
  | succ n =>
    rw [evict]
    split
    · next h => simp [oldest?_eq_none h]
    · next s hs =>
      have hne : f.sent ≠ [] := fun h0 => by rw [h0] at hs; exact nomatch hs
      simp [hne]

theorem live_evict (n : Nat) (q : String) :
    (f.evict n).2.Live now q ↔ f.Live now q ∧ q ∉ (f.evict n).1 := by
  rw [evict_snd]
  constructor
  · rintro ⟨s, hs, rfl, hfresh⟩
    obtain ⟨hmem, hstays⟩ := mem_forgetAll.mp hs
    exact ⟨⟨s, hmem, rfl, hfresh⟩, hstays⟩
  · rintro ⟨⟨s, hs, rfl, hfresh⟩, hstays⟩
    exact ⟨s, mem_forgetAll.mpr ⟨hs, hstays⟩, rfl, hfresh⟩

/-! ## 3. Remembering -/

/-- Nothing has to go exactly if there is room. -/
theorem insert_fst_eq_nil_iff : (f.insert now payload).1 = [] ↔ f.HasRoom now := by
  have h : (f.insert now payload).1
      = ((f.prune now).evict ((f.prune now).size + 1 - (f.prune now).capacity)).1 := rfl
  rw [h, evict_fst_eq_nil_iff, HasRoom, capacity_prune]
  constructor
  · rintro (h | h)
    · exact .inl (by omega)
    · exact .inr h
  · rintro (h | h)
    · exact .inl (by omega)
    · exact .inr h

/-- What goes to make room was live. -/
theorem live_of_mem_insert {q : String} (h : q ∈ (f.insert now payload).1) : f.Live now q := by
  obtain ⟨s, hs, rfl⟩ := mem_of_mem_evict h
  obtain ⟨hmem, hfresh⟩ := mem_prune.mp hs
  exact ⟨s, hmem, rfl, hfresh⟩

/-- **Remembering a payload and forgetting it again** leaves what was live, without what had to go
to make room, and without the payload itself. -/
theorem live_forget_insert (q : String) :
    ((f.insert now payload).2.forget payload).Live now q
      ↔ f.Live now q ∧ q ∉ (f.insert now payload).1 ∧ q ≠ payload := by
  -- Once the payload is forgotten, its being remembered before cannot be told.
  have hforget : (f.insert now payload).2.forget payload
      = ((f.prune now).evict ((f.prune now).size + 1 - (f.prune now).capacity)).2.forget
          payload := by
    simp [insert, forget, List.filter_append]
  rw [hforget, live_forget, live_evict, live_prune, and_assoc]
  exact Iff.rfl

/-- **The undoing is complete** exactly if the payload was not live before and there was room for
it. -/
theorem live_forget_insert_iff :
    (∀ q, ((f.insert now payload).2.forget payload).Live now q ↔ f.Live now q)
      ↔ ¬ f.Live now payload ∧ f.HasRoom now := by
  constructor
  · intro h
    have hnone : (f.insert now payload).1 = [] := by
      refine List.eq_nil_iff_forall_not_mem.mpr fun q hq => ?_
      exact ((live_forget_insert q).mp ((h q).mpr (live_of_mem_insert hq))).2.1 hq
    refine ⟨fun hlive => ?_, insert_fst_eq_nil_iff.mp hnone⟩
    exact ((live_forget_insert payload).mp ((h payload).mpr hlive)).2.2 rfl
  · rintro ⟨hnew, hroom⟩ q
    rw [live_forget_insert, insert_fst_eq_nil_iff.mpr hroom]
    constructor
    · exact fun h => h.1
    · intro hlive
      refine ⟨hlive, List.not_mem_nil, ?_⟩
      rintro rfl
      exact hnew hlive

/-! ## 4. Payloads that differ, and room for them -/

theorem sentAt?_of_mem {s : SentPayload} (hs : s ∈ f.sent)
    (huniq : ∀ u ∈ f.sent, u.payload = s.payload → u = s) :
    f.sentAt? s.payload = some s.sentAt := by
  rw [sentAt?]
  cases hfind : f.sent.find? fun u => u.payload == s.payload with
  | none =>
    have hnone := List.find?_eq_none.mp hfind s hs
    exact absurd (beq_self_eq_true s.payload) hnone
  | some u =>
    have hpayload : u.payload = s.payload := by simpa using List.find?_some hfind
    rw [Option.map_some, huniq u (List.mem_of_find?_eq_some hfind) hpayload]

/-- A fresh payload that is remembered once is an echo, once. -/
theorem take_of_mem {s : SentPayload} (hs : s ∈ f.sent)
    (huniq : ∀ u ∈ f.sent, u.payload = s.payload → u = s) (hfresh : f.isFresh now s.sentAt = true) :
    f.take now s.payload = (true, f.forget s.payload) := by
  rw [take, sentAt?_of_mem hs huniq]
  dsimp only
  rw [hfresh]

/-- A payload that is not remembered is no echo. -/
theorem take_of_not_mem (h : ∀ s ∈ f.sent, s.payload ≠ payload) :
    f.take now payload = (false, f) := by
  have hnone : f.sentAt? payload = none := by
    rw [sentAt?, List.find?_eq_none.mpr fun s hs => by simpa using h s hs]
    rfl
  rw [take, hnone]

theorem prune_sublist (f : EchoFilter) (now : Nat) : (f.prune now).sent.Sublist f.sent :=
  List.filter_sublist

/-- With room, the payload is remembered behind those that are fresh. -/
theorem insert_of_lt (h : (f.prune now).size < f.capacity) :
    (f.insert now payload).2
      = { f with sent := ((f.prune now).forget payload).sent ++ [⟨payload, now⟩] } := by
  have hzero : (f.prune now).size + 1 - (f.prune now).capacity = 0 := by
    rw [capacity_prune]
    omega
  rw [insert]
  simp only [hzero, evict]
  rfl

theorem forget_insert_of_lt (h : (f.prune now).size < f.capacity) :
    (f.insert now payload).2.forget payload = (f.prune now).forget payload := by
  rw [insert_of_lt h, forget]
  simp only [forget, prune, List.filter_append, List.filter_filter]
  simp

/-! ## 5. When a payload was sent -/

/-- The payload was sent at that time, is remembered, and is still fresh. -/
def Awaits (f : EchoFilter) (now : Nat) (payload : String) (sentAt : Nat) : Prop :=
  f.sentAt? payload = some sentAt ∧ f.isFresh now sentAt = true

/-- A payload that is not remembered makes no difference when it is forgotten. -/
theorem forget_of_sentAt?_eq_none (h : f.sentAt? payload = none) : f.forget payload = f := by
  have hnone := List.find?_eq_none.mp (Option.map_eq_none_iff.mp h)
  rw [forget, List.filter_eq_self.mpr fun s hs => bne_iff_ne.mpr fun heq =>
    hnone s hs (beq_iff_eq.mpr heq)]

theorem sentAt?_forget (q : String) :
    (f.forget payload).sentAt? q = if q = payload then none else f.sentAt? q := by
  rw [sentAt?, sentAt?, forget]
  dsimp only
  rw [List.find?_filter]
  split
  · next hq =>
    rw [List.find?_eq_none.mpr fun s _ => by simp [hq]]
    rfl
  · next hq =>
    congr 2
    funext s
    by_cases hs : s.payload = q
    · simp [hs, hq]
    · simp [hs]

theorem take_fst : (f.take now payload).1 = true ↔ ∃ sentAt, f.Awaits now payload sentAt := by
  simp only [take, Awaits]
  cases f.sentAt? payload with
  | none => simp
  | some sentAt => simp

/-- Whatever is asked for is forgotten. -/
theorem take_snd : (f.take now payload).2 = f.forget payload := by
  rw [take]
  cases h : f.sentAt? payload with
  | none => exact (forget_of_sentAt?_eq_none h).symm
  | some sentAt => rfl

theorem window_evict (n : Nat) (f : EchoFilter) : (f.evict n).2.window = f.window := by
  rw [evict_snd]
  rfl

theorem window_insert (f : EchoFilter) (now : Nat) (payload : String) :
    (f.insert now payload).2.window = f.window :=
  window_evict _ (f.prune now)

/-- Whatever the filter remembers, and however little room it has, what is inserted last is
remembered. -/
theorem sentAt?_insert : (f.insert now payload).2.sentAt? payload = some now := by
  have hother : ∀ g : EchoFilter, (g.forget payload).sent.find? (fun s => s.payload == payload)
      = none := by
    intro g
    exact List.find?_eq_none.mpr fun s hs => by simpa using (mem_forget.mp hs).2
  rw [insert, sentAt?]
  dsimp only
  rw [List.find?_append, hother, Option.none_or, List.find?_singleton, if_pos (by simp)]
  rfl

end TextTunnel.EchoFilter
