import Mathlib.Data.Finset.Card
import TextTunnel.Proofs.Echo.History

/-!
# Remembering a payload again

A filter makes room before it looks whether the payload is there already. So a payload that is
remembered again can cost another one its place, though there would not be one more of them. This
module says when that happens, after any run, whatever its times are.

* `Tidy`, `tidy_after` -- what every run keeps: the payloads differ, and are not too many.
* `freshPayloads` -- the payloads that are live, as a set.
* `insert_fst_of_tidy` -- nobody goes, or one of the oldest.
* `reinsertion` -- whom an insertion costs its place, and when that is against the bound.
* `reinsertion_evicts_another` -- one run in which it is.
-/

namespace TextTunnel.EchoFilter

variable {f : EchoFilter} {now sentAt : Nat} {payload q : String} {calls : List Call}
  {window capacity : Nat}

/-! ## 1. What every run keeps -/

/-- What is known of a filter after any calls, at whatever times. -/
structure Tidy (capacity : Nat) (f : EchoFilter) : Prop where
  capacity_eq : f.capacity = max 1 capacity
  distinct : f.Distinct
  size_le : f.size ≤ max 1 capacity

theorem Tidy.forget (h : Tidy capacity f) (payload : String) :
    Tidy capacity (f.forget payload) where
  capacity_eq := h.capacity_eq
  distinct := h.distinct.forget payload
  size_le := Nat.le_trans (List.length_filter_le _ _) h.size_le

theorem Distinct.evict (h : f.Distinct) (n : Nat) : (f.evict n).2.Distinct := by
  rw [evict_snd]
  exact h.filter _

/-- The payload stands behind what is left once there is room for it. -/
theorem sent_insert (f : EchoFilter) (now : Nat) (payload : String) :
    (f.insert now payload).2.sent
      = (((f.prune now).evict (f.excess now)).2.forget payload).sent ++ [⟨payload, now⟩] :=
  rfl

theorem Tidy.insert (h : Tidy capacity f) (now : Nat) (payload : String) :
    Tidy capacity (f.insert now payload).2 where
  capacity_eq := (capacity_insert f now payload).trans h.capacity_eq
  distinct := by
    rw [Distinct, sent_insert]
    refine List.pairwise_append.mpr ⟨?_, List.pairwise_singleton _ _, ?_⟩
    · exact ((h.distinct.prune now).evict _).forget payload
    · intro s hs t ht
      rw [List.mem_singleton.mp ht]
      exact (mem_forget.mp hs).2
  size_le := by
    have hforget : (((f.prune now).evict (f.excess now)).2.forget payload).size
        ≤ ((f.prune now).evict (f.excess now)).2.size := List.length_filter_le _ _
    have hexcess : f.excess now = (f.prune now).size + 1 - max 1 capacity := by
      rw [excess, h.capacity_eq]
    rw [size_evict (h.distinct.prune now)] at hforget
    rw [size, sent_insert, List.length_append, List.length_singleton, ← size]
    omega

/-- One call keeps it. -/
theorem Tidy.perform (h : Tidy capacity f) (c : Call) :
    Tidy capacity (f.perform c).2 := by
  obtain ⟨now, request⟩ := c
  cases request with
  | insert payload => exact h.insert now payload
  | take payload =>
    rw [perform_take]
    exact h.forget payload
  | forget payload => exact h.forget payload

/-- **Every run keeps it.** -/
theorem tidy_after (window capacity : Nat) (calls : List Call) :
    Tidy capacity (after perform (new window capacity) calls) := by
  induction calls using List.reverseRecOn with
  | nil => exact ⟨rfl, List.Pairwise.nil, Nat.zero_le _⟩
  | append_singleton calls c ih =>
    rw [after_concat]
    exact ih.perform c

/-! ## 2. The payloads that are live -/

/-- The payloads that are remembered and fresh. -/
def freshPayloads (f : EchoFilter) (now : Nat) : Finset String :=
  ((f.prune now).sent.map (·.payload)).toFinset

theorem mem_freshPayloads : q ∈ f.freshPayloads now ↔ f.Live now q := by
  simp only [freshPayloads, List.mem_toFinset, List.mem_map, mem_prune, Live]
  constructor
  · rintro ⟨s, ⟨hs, hfresh⟩, rfl⟩
    exact ⟨s, hs, rfl, hfresh⟩
  · rintro ⟨s, hs, rfl, hfresh⟩
    exact ⟨s, ⟨hs, hfresh⟩, rfl⟩

theorem card_freshPayloads (h : f.Distinct) : (f.freshPayloads now).card = (f.prune now).size := by
  have hnodup : ((f.prune now).sent.map (·.payload)).Nodup := List.pairwise_map.mpr (h.prune now)
  rw [freshPayloads, List.toFinset_card_of_nodup hnodup, List.length_map, size]

/-! ## 3. Who goes -/

/-- Nobody has to go while there are fewer than there may be; else one of the oldest has to. -/
theorem insert_fst_of_tidy (h : Tidy capacity f) (now : Nat) (payload : String) :
    ((f.prune now).size < max 1 capacity ∧ (f.insert now payload).1 = []) ∨
    ((f.prune now).size = max 1 capacity ∧
      ∃ s ∈ (f.prune now).sent, (∀ u ∈ (f.prune now).sent, s.sentAt ≤ u.sentAt) ∧
        (f.insert now payload).1 = [s.payload]) := by
  have hle : (f.prune now).size ≤ f.size := List.length_filter_le _ _
  have hmax := h.size_le
  by_cases hfull : (f.prune now).size = max 1 capacity
  · have hone : (f.prune now).size + 1 - (f.prune now).capacity = 1 := by
      rw [capacity_prune, h.capacity_eq]
      omega
    have hevict : (f.insert now payload).1 = ((f.prune now).evict 1).1 := by rw [← hone]; rfl
    refine .inr ⟨hfull, ?_⟩
    cases hs : oldest? (f.prune now).sent with
    | none =>
      have hsize : (f.prune now).size = 0 := congrArg List.length (oldest?_eq_none hs)
      omega
    | some s =>
      refine ⟨s, mem_of_oldest? hs, le_of_oldest? hs, ?_⟩
      rw [hevict, evict, hs]
      rfl
  · refine .inl ⟨by omega, insert_fst_eq_nil_iff.mpr (.inl ?_)⟩
    rw [h.capacity_eq]
    omega

/-- A payload is awaited since the time at which it stands among the fresh ones. -/
theorem Distinct.awaits_iff (h : f.Distinct) :
    f.Awaits now q sentAt ↔ ⟨q, sentAt⟩ ∈ (f.prune now).sent := by
  rw [Awaits, h.sentAt?_eq_some, mem_prune]

/-- What is awaited beside the payload after it is inserted: all that was, but for those who had to
go. -/
theorem Tidy.awaits_insert (h : Tidy capacity f) (hq : q ≠ payload) :
    (f.insert now payload).2.Awaits now q sentAt ↔
      f.Awaits now q sentAt ∧ q ∉ (f.insert now payload).1 := by
  have hfresh : (f.insert now payload).2.isFresh now sentAt = f.isFresh now sentAt := by
    rw [isFresh, isFresh, window_insert]
  rw [(h.insert now payload).distinct.awaits_iff, h.distinct.awaits_iff, mem_prune, mem_insert,
    hfresh]
  constructor
  · rintro ⟨heq | ⟨hmem, hstays, -⟩, -⟩
    · exact absurd (congrArg SentPayload.payload heq) hq
    · exact ⟨hmem, hstays⟩
  · rintro ⟨hmem, hstays⟩
    exact ⟨.inr ⟨hmem, hstays, hq⟩, (mem_prune.mp hmem).2⟩

theorem awaits_insert_self (f : EchoFilter) (now : Nat) (payload : String) :
    (f.insert now payload).2.Awaits now payload now :=
  ⟨sentAt?_insert, by simp [isFresh]⟩

instance (f : EchoFilter) (now : Nat) (payload : String) (sentAt : Nat) :
    Decidable (f.Awaits now payload sentAt) :=
  inferInstanceAs (Decidable (f.sentAt? payload = some sentAt ∧ f.isFresh now sentAt = true))

/-- What is live and distinct is awaited since some time. -/
theorem Distinct.exists_awaits (h : f.Distinct) (hlive : f.Live now q) :
    ∃ sentAt, f.Awaits now q sentAt := by
  obtain ⟨s, hs, rfl, hfresh⟩ := hlive
  exact ⟨s.sentAt, h.awaits_iff.mpr (mem_prune.mpr ⟨hs, hfresh⟩)⟩

/-- An insertion costs another payload its place if it makes room by letting that one go. -/
theorem Tidy.costs_iff (h : Tidy capacity f) :
    (∃ q sentAt, q ≠ payload ∧ f.Awaits now q sentAt ∧
        ¬ (f.insert now payload).2.Awaits now q sentAt) ↔
      ∃ q ∈ (f.insert now payload).1, q ≠ payload := by
  constructor
  · rintro ⟨q, sentAt, hq, hawaits, hgone⟩
    refine ⟨q, ?_, hq⟩
    by_contra hstays
    exact hgone ((h.awaits_insert hq).mpr ⟨hawaits, hstays⟩)
  · rintro ⟨q, hgoes, hq⟩
    obtain ⟨sentAt, hawaits⟩ := h.distinct.exists_awaits (live_of_mem_insert hgoes)
    exact ⟨q, sentAt, hq, hawaits, fun hstays => ((h.awaits_insert hq).mp hstays).2 hgoes⟩

/-! ## 4. All runs -/

/-- **Whom an insertion costs its place.**  After any calls at whatever times, and for every payload:
it is remembered with the new time, and everything else that is awaited is kept with its old time,
except that one of the oldest goes if there are as many as there may be.

For a payload that is new this is what the bound asks for: with it there would be one too many. A
payload that is live already is not one more. Still, one of the oldest goes, and this is another one
unless it happens to be the payload itself. -/
theorem reinsertion (window capacity : Nat) (calls : List Call) (now : Nat) (payload : String) :
    let f := after perform (new window capacity) calls
    let g := (f.insert now payload).2
    let fresh := f.freshPayloads now
    let costs := ∃ q sentAt, q ≠ payload ∧ f.Awaits now q sentAt ∧ ¬ g.Awaits now q sentAt
    -- The payload has the new time, and whatever else is awaited was awaited before.
    g.Awaits now payload now ∧
    (∀ q sentAt, q ≠ payload → g.Awaits now q sentAt → f.Awaits now q sentAt) ∧
    -- As long as there is room, nobody goes.
    fresh.card ≤ max 1 capacity ∧ (fresh.card < max 1 capacity → ¬ costs) ∧
    -- Without room one of the oldest goes, and nobody else.
    (fresh.card = max 1 capacity → ∃ s : SentPayload, f.Awaits now s.payload s.sentAt ∧
      (∀ q sentAt, f.Awaits now q sentAt → s.sentAt ≤ sentAt) ∧
      (f.insert now payload).1 = [s.payload] ∧
      ∀ q sentAt, q ≠ payload → f.Awaits now q sentAt → (g.Awaits now q sentAt ↔ q ≠ s.payload)) ∧
    -- A new payload costs a place only where it would be one too many.
    (payload ∉ fresh → costs → max 1 capacity < (fresh ∪ {payload}).card) ∧
    -- One that is live costs a place whenever there is no room, unless it is the one that goes; and
    -- there are never too many with it.
    (payload ∈ fresh → (fresh ∪ {payload}).card ≤ max 1 capacity ∧
      (costs ↔ fresh.card = max 1 capacity ∧ (f.insert now payload).1 ≠ [payload])) := by
  intro f g fresh costs
  have htidy : Tidy capacity f := tidy_after window capacity calls
  have hcard : fresh.card = (f.prune now).size := card_freshPayloads htidy.distinct
  have hcosts : costs ↔ ∃ q ∈ (f.insert now payload).1, q ≠ payload := htidy.costs_iff
  have hold : ∀ q sentAt, q ≠ payload → g.Awaits now q sentAt → f.Awaits now q sentAt :=
    fun q sentAt hq hawaits => ((htidy.awaits_insert hq).mp hawaits).1
  refine ⟨awaits_insert_self f now payload, hold, ?_⟩
  rcases insert_fst_of_tidy htidy now payload with ⟨hroom, hnone⟩ | ⟨hfull, s, hs, hfirst, hone⟩
  · have hfree : ¬ costs := by
      rw [hcosts, hnone]
      rintro ⟨q, hq, -⟩
      exact List.not_mem_nil hq
    rw [← hcard] at hroom
    refine ⟨hroom.le, fun _ => hfree, fun h => absurd h hroom.ne, fun _ h => absurd h hfree, ?_⟩
    intro hlive
    rw [Finset.union_eq_left.mpr (Finset.singleton_subset_iff.mpr hlive)]
    exact ⟨hroom.le, fun h => absurd h hfree, fun h => absurd h.1 hroom.ne⟩
  · have hawaits : f.Awaits now s.payload s.sentAt := htidy.distinct.awaits_iff.mpr hs
    have hother : costs ↔ s.payload ≠ payload := by rw [hcosts, hone]; simp
    rw [← hcard] at hfull
    refine ⟨hfull.le, fun h => absurd hfull h.ne, fun _ => ⟨s, hawaits, ?_, hone, ?_⟩, ?_, ?_⟩
    · exact fun q sentAt h => hfirst _ (htidy.distinct.awaits_iff.mp h)
    · intro q sentAt hq hq'
      rw [show g.Awaits now q sentAt ↔ _ from htidy.awaits_insert hq, hone, List.mem_singleton]
      exact and_iff_right hq'
    · intro hnew _
      rw [Finset.union_comm, Finset.singleton_union, Finset.card_insert_of_notMem hnew]
      omega
    · intro hlive
      rw [Finset.union_eq_left.mpr (Finset.singleton_subset_iff.mpr hlive), hother, hone]
      simp [hfull]

/-- Two payloads are remembered, which is as many as there may be. -/
def twoCalls : List Call :=
  [⟨0, .insert "a"⟩, ⟨1, .insert "b"⟩]

/-- **A payload that is remembered again can cost another one its place.**  There are two payloads
before and two with it, as many as there may be, and the other one goes. -/
theorem reinsertion_evicts_another :
    let f := after perform (new 1000 2) twoCalls
    f.freshPayloads 2 = {"a", "b"} ∧ (f.freshPayloads 2 ∪ {"b"}).card ≤ max 1 2 ∧
      f.Awaits 2 "a" 0 ∧ f.Awaits 2 "b" 1 ∧
      ¬ (f.insert 2 "b").2.Awaits 2 "a" 0 ∧ (f.insert 2 "b").2.freshPayloads 2 = {"b"} := by
  intro f
  decide +kernel

end TextTunnel.EchoFilter
