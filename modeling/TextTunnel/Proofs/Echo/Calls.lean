import Mathlib.Data.List.Induction
import Mathlib.Data.List.Nodup
import TextTunnel.Proofs.Echo.Live

/-!
# Runs of an echo filter

An echo filter is asked to do one thing after the other, each at its time. This module writes such a
run down as a list of calls, and proves what the filter looks like after it.

* `Call`, `Reply`, `perform` -- one operation, and what it gives back.
* `after`, `replies` -- a whole run, of the filter or of whatever else answers calls.
* `Orderly` -- time does not go back, no two insertions are made at one time, and nothing is
  inserted that is still live.
* `Kept`, `kept_perform`, `kept_after` -- what holds after every orderly run: the payloads differ,
  stand in the order of their times, and are not too many.
* `evict_of_increasing`, `insert_of_increasing` -- with that, room is made at the front.
-/

namespace TextTunnel.EchoFilter

/-- What a filter can be asked to do. -/
inductive Request where
  | insert (payload : String)
  | take (payload : String)
  | forget (payload : String)
  deriving DecidableEq, Repr

/-- A request, and when it is made. -/
structure Call where
  time : Nat
  request : Request
  deriving DecidableEq, Repr

/-- What a call gives back: whether a payload that was asked for is an echo, and which payloads had
to make room for one that was inserted. -/
structure Reply where
  found : Bool
  evicted : List String
  deriving DecidableEq, Repr

/-- One call. -/
def perform (f : EchoFilter) (c : Call) : Reply × EchoFilter :=
  match c.request with
  | .insert payload => (⟨false, (f.insert c.time payload).1⟩, (f.insert c.time payload).2)
  | .take payload => (⟨(f.take c.time payload).1, []⟩, (f.take c.time payload).2)
  | .forget payload => (⟨false, []⟩, f.forget payload)

/-! ## 1. Runs -/

section Runs

variable {σ : Type} (answer : σ → Call → Reply × σ)

/-- What has become of the state after the calls. -/
def after (s : σ) (calls : List Call) : σ :=
  calls.foldl (fun s c => (answer s c).2) s

/-- What the calls give back. -/
def replies : σ → List Call → List Reply
  | _, [] => []
  | s, c :: calls => (answer s c).1 :: replies (answer s c).2 calls

@[simp] theorem after_nil (s : σ) : after answer s [] = s := rfl

@[simp] theorem after_cons (s : σ) (c : Call) (calls : List Call) :
    after answer s (c :: calls) = after answer (answer s c).2 calls := rfl

theorem after_append (s : σ) (before later : List Call) :
    after answer s (before ++ later) = after answer (after answer s before) later :=
  List.foldl_append

theorem after_concat (s : σ) (calls : List Call) (c : Call) :
    after answer s (calls ++ [c]) = (answer (after answer s calls) c).2 :=
  after_append answer s calls [c]

theorem replies_append (s : σ) (before later : List Call) :
    replies answer s (before ++ later)
      = replies answer s before ++ replies answer (after answer s before) later := by
  induction before generalizing s with
  | nil => rfl
  | cons c before ih => simp only [List.cons_append, replies, after_cons, ih]

theorem replies_concat (s : σ) (calls : List Call) (c : Call) :
    replies answer s (calls ++ [c])
      = replies answer s calls ++ [(answer (after answer s calls) c).1] :=
  replies_append answer s calls [c]

end Runs

/-! ## 2. Orderly runs -/

/-- The second call may come behind the first: not earlier, and later if both insert. -/
def Call.Before (c d : Call) : Prop :=
  c.time ≤ d.time ∧ ∀ p q, c.request = .insert p → d.request = .insert q → c.time < d.time

/-- The call does not insert what is live already. -/
def Admits (f : EchoFilter) (c : Call) : Prop :=
  match c.request with
  | .insert payload => ¬ f.Live c.time payload
  | .take _ => True
  | .forget _ => True

/-- No call of the run inserts what is live at that point of it. -/
def AdmitsAll : EchoFilter → List Call → Prop
  | _, [] => True
  | f, c :: calls => f.Admits c ∧ AdmitsAll (f.perform c).2 calls

/-- Time does not go back, the times of the insertions increase, and nothing is inserted that is
still live. -/
structure Orderly (f : EchoFilter) (calls : List Call) : Prop where
  inOrder : calls.Pairwise Call.Before
  admitted : f.AdmitsAll calls

variable {f : EchoFilter} {now : Nat} {payload : String} {calls before later : List Call} {c : Call}

theorem admitsAll_append :
    f.AdmitsAll (before ++ later)
      ↔ f.AdmitsAll before ∧ (after perform f before).AdmitsAll later := by
  induction before generalizing f with
  | nil => simp [AdmitsAll]
  | cons c before ih => simp only [List.cons_append, AdmitsAll, ih, after_cons, and_assoc]

theorem Orderly.of_append (h : Orderly f (before ++ later)) : Orderly f before :=
  ⟨(List.pairwise_append.mp h.inOrder).1, (admitsAll_append.mp h.admitted).1⟩

/-- What an orderly run says of its last call. -/
theorem Orderly.of_concat (h : Orderly f (calls ++ [c])) :
    Orderly f calls ∧ (∀ d ∈ calls, d.Before c) ∧ (after perform f calls).Admits c := by
  refine ⟨h.of_append, ?_, ?_⟩
  · intro d hd
    exact (List.pairwise_append.mp h.inOrder).2.2 d hd c (List.mem_singleton_self c)
  · exact (admitsAll_append.mp h.admitted).2.1

instance (c d : Call) : Decidable (c.Before d) :=
  match hc : c.request, hd : d.request with
  | .insert _, .insert _ =>
    decidable_of_iff (c.time ≤ d.time ∧ c.time < d.time) (by simp [Call.Before, hc, hd])
  | .take _, _ | .forget _, _ => decidable_of_iff (c.time ≤ d.time) (by simp [Call.Before, hc])
  | _, .take _ | _, .forget _ => decidable_of_iff (c.time ≤ d.time) (by simp [Call.Before, hd])

instance (f : EchoFilter) (now : Nat) (payload : String) : Decidable (f.Live now payload) :=
  inferInstanceAs (Decidable (∃ s ∈ f.sent, s.payload = payload ∧ f.isFresh now s.sentAt = true))

instance (f : EchoFilter) (c : Call) : Decidable (f.Admits c) :=
  match hc : c.request with
  | .insert payload => decidable_of_iff (¬ f.Live c.time payload) (by simp [Admits, hc])
  | .take _ | .forget _ => isTrue (by simp [Admits, hc])

instance decidableAdmitsAll (f : EchoFilter) : (calls : List Call) → Decidable (f.AdmitsAll calls)
  | [] => isTrue trivial
  | c :: calls =>
    have := decidableAdmitsAll (f.perform c).2 calls
    inferInstanceAs (Decidable (f.Admits c ∧ AdmitsAll (f.perform c).2 calls))

/-! ## 3. What is remembered after a call -/

/-- What an insertion leaves behind: what is fresh and did not have to go, and the payload. -/
theorem mem_insert {s : SentPayload} :
    s ∈ (f.insert now payload).2.sent ↔ s = ⟨payload, now⟩ ∨
      (s ∈ (f.prune now).sent ∧ s.payload ∉ (f.insert now payload).1 ∧ s.payload ≠ payload) := by
  have hroom : s ∈ (((f.prune now).evict ((f.prune now).size + 1 - (f.prune now).capacity)).2.forget
      payload).sent ↔
      (s ∈ (f.prune now).sent ∧ s.payload ∉ (f.insert now payload).1) ∧ s.payload ≠ payload := by
    rw [mem_forget, evict_snd, mem_forgetAll]
    rfl
  rw [← and_assoc, ← hroom, or_comm, ← List.mem_singleton, ← List.mem_append]
  rfl

theorem capacity_insert (f : EchoFilter) (now : Nat) (payload : String) :
    (f.insert now payload).2.capacity = f.capacity := by
  simp only [insert, forget]
  rw [evict_snd]
  rfl

/-- Whatever is asked for is forgotten. -/
theorem perform_take (f : EchoFilter) (now : Nat) (payload : String) :
    f.perform ⟨now, .take payload⟩ = (⟨(f.take now payload).1, []⟩, f.forget payload) := by
  rw [← take_snd]
  rfl

/-! ## 4. Payloads in the order of their times -/

/-- No payload is remembered twice. -/
def Distinct (f : EchoFilter) : Prop :=
  f.sent.Pairwise fun s t => s.payload ≠ t.payload

/-- What was sent earlier stands further in front. -/
def Increasing (f : EchoFilter) : Prop :=
  f.sent.Pairwise fun s t => s.sentAt < t.sentAt

theorem Distinct.forget (h : f.Distinct) (payload : String) : (f.forget payload).Distinct :=
  h.filter _

theorem Increasing.forget (h : f.Increasing) (payload : String) : (f.forget payload).Increasing :=
  h.filter _

theorem Distinct.prune (h : f.Distinct) (now : Nat) : (f.prune now).Distinct :=
  h.filter _

theorem Increasing.prune (h : f.Increasing) (now : Nat) : (f.prune now).Increasing :=
  h.filter _

theorem Distinct.eq_of_payload_eq (h : f.Distinct) {s t : SentPayload} (hs : s ∈ f.sent)
    (ht : t ∈ f.sent) (heq : s.payload = t.payload) : s = t :=
  List.inj_on_of_nodup_map (List.pairwise_map.mpr h) hs ht heq

/-- The time that is known of a payload is that of the one time when it was sent. -/
theorem Distinct.sentAt?_eq_some (h : f.Distinct) {sentAt : Nat} :
    f.sentAt? payload = some sentAt ↔ ⟨payload, sentAt⟩ ∈ f.sent := by
  constructor
  · intro heq
    obtain ⟨s, hs, rfl⟩ := Option.map_eq_some_iff.mp heq
    have hpayload : s.payload = payload := by simpa using List.find?_some hs
    rw [← hpayload]
    exact List.mem_of_find?_eq_some hs
  · intro hmem
    exact sentAt?_of_mem hmem fun u hu heq => h.eq_of_payload_eq hu hmem heq

theorem oldest?_of_increasing {s : SentPayload} {l : List SentPayload}
    (h : ∀ t ∈ l, s.sentAt < t.sentAt) : oldest? (s :: l) = some s := by
  rw [oldest?]
  cases hl : oldest? l with
  | none => rfl
  | some t =>
    have hst : s.sentAt < t.sentAt := h t (mem_of_oldest? hl)
    exact if_neg (by omega)

/-- Where payloads stand in the order of their times, room is made at the front. -/
theorem evict_of_increasing (hdistinct : f.Distinct) (hinc : f.Increasing) (n : Nat) :
    f.evict n = ((f.sent.take n).map (·.payload), { f with sent := f.sent.drop n }) := by
  induction n generalizing f with
  | zero => rfl
  | succ n ih =>
    obtain ⟨window, capacity, sent⟩ := f
    cases sent with
    | nil => rfl
    | cons s rest =>
      have hfront := (List.pairwise_cons.mp hinc).1
      have hother := (List.pairwise_cons.mp hdistinct).1
      have hforget : EchoFilter.forget ⟨window, capacity, s :: rest⟩ s.payload
          = ⟨window, capacity, rest⟩ := by
        have hrest : rest.filter (fun t => t.payload != s.payload) = rest :=
          List.filter_eq_self.mpr fun t ht => bne_iff_ne.mpr (hother t ht).symm
        simp [EchoFilter.forget, hrest]
      rw [evict]
      dsimp only
      rw [oldest?_of_increasing hfront]
      dsimp only
      have hrest := ih (f := ⟨window, capacity, rest⟩) (List.pairwise_cons.mp hdistinct).2
        (List.pairwise_cons.mp hinc).2
      rw [hforget, hrest]
      rfl

/-- How many have to go before a payload can be inserted. -/
def excess (f : EchoFilter) (now : Nat) : Nat :=
  (f.prune now).size + 1 - f.capacity

/-- An insertion into payloads that stand in the order of their times. -/
theorem insert_of_increasing (hdistinct : f.Distinct) (hinc : f.Increasing) :
    f.insert now payload
      = ((((f.prune now).sent.take (f.excess now)).map (·.payload)),
        { f with sent := ((f.prune now).sent.drop (f.excess now)).filter (·.payload != payload)
          ++ [⟨payload, now⟩] }) := by
  rw [insert]
  dsimp only
  rw [evict_of_increasing (hdistinct.prune now) (hinc.prune now)]
  rfl

/-! ## 5. What every orderly run keeps -/

/-- What is known of a filter after some calls. -/
structure Kept (window capacity : Nat) (calls : List Call) (f : EchoFilter) : Prop where
  window_eq : f.window = window
  capacity_eq : f.capacity = max 1 capacity
  /-- What is remembered was inserted, at that time. -/
  came : ∀ s ∈ f.sent, ⟨s.sentAt, .insert s.payload⟩ ∈ calls
  distinct : f.Distinct
  increasing : f.Increasing
  size_le : f.size ≤ max 1 capacity

variable {window capacity : Nat}

theorem kept_new (window capacity : Nat) : Kept window capacity [] (new window capacity) where
  window_eq := rfl
  capacity_eq := rfl
  came := by simp [new]
  distinct := List.Pairwise.nil
  increasing := List.Pairwise.nil
  size_le := Nat.zero_le _

theorem Kept.forget (h : Kept window capacity calls f) (payload : String) (c : Call) :
    Kept window capacity (calls ++ [c]) (f.forget payload) where
  window_eq := h.window_eq
  capacity_eq := h.capacity_eq
  came s hs := List.mem_append_left _ (h.came s (mem_forget.mp hs).1)
  distinct := h.distinct.forget payload
  increasing := h.increasing.forget payload
  size_le := Nat.le_trans (List.length_filter_le _ _) h.size_le

/-- At most one payload has to go, and only if there are as many as there may be. -/
theorem Kept.excess_eq (h : Kept window capacity calls f) (now : Nat) :
    f.excess now = if (f.prune now).size = max 1 capacity then 1 else 0 := by
  have hle : (f.prune now).size ≤ f.size := List.length_filter_le _ _
  have hmax := h.size_le
  rw [excess, h.capacity_eq]
  split <;> omega

theorem Kept.insert (h : Kept window capacity calls f)
    (hlast : ∀ d ∈ calls, d.Before ⟨now, .insert payload⟩) :
    Kept window capacity (calls ++ [⟨now, .insert payload⟩]) (f.insert now payload).2 where
  window_eq := (window_insert f now payload).trans h.window_eq
  capacity_eq := (capacity_insert f now payload).trans h.capacity_eq
  came := by
    intro s hs
    rcases mem_insert.mp hs with rfl | ⟨hold, -, -⟩
    · exact List.mem_append_right _ (List.mem_singleton_self _)
    · exact List.mem_append_left _ (h.came s (mem_prune.mp hold).1)
  distinct := by
    rw [insert_of_increasing h.distinct h.increasing]
    refine List.pairwise_append.mpr ⟨?_, List.pairwise_singleton _ _, ?_⟩
    · exact ((h.distinct.prune now).drop).filter _
    · intro s hs t ht
      rw [List.mem_singleton.mp ht]
      exact bne_iff_ne.mp (List.mem_filter.mp hs).2
  increasing := by
    rw [insert_of_increasing h.distinct h.increasing]
    refine List.pairwise_append.mpr ⟨?_, List.pairwise_singleton _ _, ?_⟩
    · exact ((h.increasing.prune now).drop).filter _
    · intro s hs t ht
      rw [List.mem_singleton.mp ht]
      have hmem : s ∈ f.sent := (mem_prune.mp (List.mem_of_mem_drop (List.mem_filter.mp hs).1)).1
      exact (hlast _ (h.came s hmem)).2 _ _ rfl rfl
  size_le := by
    have hfilter : (((f.prune now).sent.drop (f.excess now)).filter (·.payload != payload)).length
        ≤ (f.prune now).size - f.excess now :=
      Nat.le_trans (List.length_filter_le _ _) (Nat.le_of_eq List.length_drop)
    have hexcess : f.excess now = (f.prune now).size + 1 - max 1 capacity := by
      rw [excess, h.capacity_eq]
    rw [insert_of_increasing h.distinct h.increasing, size, List.length_append,
      List.length_singleton]
    omega

/-- One call keeps it. -/
theorem kept_perform (h : Kept window capacity calls f) (hlast : ∀ d ∈ calls, d.Before c) :
    Kept window capacity (calls ++ [c]) (f.perform c).2 := by
  obtain ⟨now, request⟩ := c
  cases request with
  | insert payload => exact h.insert hlast
  | take payload =>
    rw [perform_take]
    exact h.forget payload _
  | forget payload => exact h.forget payload _

/-- **Every orderly run keeps it.** -/
theorem kept_after (h : Orderly (new window capacity) calls) :
    Kept window capacity calls (after perform (new window capacity) calls) := by
  induction calls using List.reverseRecOn with
  | nil => exact kept_new window capacity
  | append_singleton calls c ih =>
    obtain ⟨hcalls, hlast, -⟩ := h.of_concat
    rw [after_concat]
    exact kept_perform (ih hcalls) hlast

end TextTunnel.EchoFilter
