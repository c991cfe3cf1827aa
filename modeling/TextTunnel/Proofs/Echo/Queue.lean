import TextTunnel.Proofs.Echo.Calls

/-!
# An echo filter is a queue

A queue with expiry keeps its entries in the order in which they came. Whenever it is called, it
first drops what has expired at its front; a new entry goes to the back, and if the queue is full,
the entry at the front goes. The filter works otherwise: it looks for the oldest by its time, and
what has expired stays until the next insertion. In an orderly run nobody can tell the two apart.

* `EchoQueue`, `EchoQueue.perform` -- the queue.
* `dropWhile_stale` -- of increasing times, those in front are the ones that have expired.
* `Mirrors`, `mirrors_perform` -- the queue has what is fresh in the filter, and a call keeps that so.
* `mirrors_after` -- after any run the two give the same replies and still mirror each other.
-/

namespace TextTunnel

open EchoFilter (Call Reply)

/-- What was sent, in the order in which it was sent. -/
structure EchoQueue where
  /-- Milliseconds for which an entry is fresh. -/
  window : Nat
  /-- The most entries at once. -/
  capacity : Nat
  entries : List SentPayload
  deriving DecidableEq, Repr

namespace EchoQueue

/-- An empty queue. There is room for at least one entry. -/
def new (window capacity : Nat) : EchoQueue :=
  ⟨window, max 1 capacity, []⟩

/-- Drops the entries in front that have expired. -/
def expire (q : EchoQueue) (now : Nat) : EchoQueue :=
  { q with entries := q.entries.dropWhile fun s => q.window < now - s.sentAt }

/-- Drops the entry in front if the queue is full, and appends the new one. -/
def push (q : EchoQueue) (s : SentPayload) : List String × EchoQueue :=
  if q.entries.length < q.capacity then
    ([], { q with entries := q.entries ++ [s] })
  else
    ((q.entries.take 1).map (·.payload), { q with entries := q.entries.drop 1 ++ [s] })

/-- Takes the payload out, wherever it stands. -/
def remove (q : EchoQueue) (payload : String) : EchoQueue :=
  { q with entries := q.entries.filter (·.payload != payload) }

/-- One call. -/
def perform (q : EchoQueue) (c : Call) : Reply × EchoQueue :=
  let q := q.expire c.time
  match c.request with
  | .insert payload => (⟨false, (q.push ⟨payload, c.time⟩).1⟩, (q.push ⟨payload, c.time⟩).2)
  | .take payload => (⟨q.entries.any (·.payload == payload), []⟩, q.remove payload)
  | .forget payload => (⟨false, []⟩, q.remove payload)

end EchoQueue

namespace EchoFilter

variable {f : EchoFilter} {q : EchoQueue} {now later : Nat} {payload : String} {calls : List Call}
  {c : Call} {window capacity : Nat}

/-! ## 1. Expiry -/

/-- What is stale stays stale. -/
theorem isFresh_of_le {sentAt : Nat} (hle : now ≤ later) (h : f.isFresh later sentAt = true) :
    f.isFresh now sentAt = true := by
  simp only [isFresh, decide_eq_true_eq] at *
  omega

theorem prune_prune (f : EchoFilter) (hle : now ≤ later) :
    (f.prune now).prune later = f.prune later := by
  simp only [prune, List.filter_filter]
  congr 1
  exact List.filter_congr fun s _ => Bool.and_eq_left_iff_imp.mpr (isFresh_of_le hle)

theorem prune_forget (f : EchoFilter) (now : Nat) (payload : String) :
    (f.forget payload).prune now = (f.prune now).forget payload := by
  simp only [prune, forget, List.filter_filter]
  congr 1
  exact List.filter_congr fun s _ => Bool.and_comm _ _

/-- Where payloads stand in the order of their times, what has expired stands in front. -/
theorem dropWhile_stale (h : f.Increasing) (now : Nat) :
    f.sent.dropWhile (fun s => f.window < now - s.sentAt) = (f.prune now).sent := by
  obtain ⟨window, capacity, sent⟩ := f
  simp only [prune, isFresh]
  induction sent with
  | nil => rfl
  | cons s rest ih =>
    obtain ⟨hfront, hrest⟩ := List.pairwise_cons.mp h
    by_cases hs : now - s.sentAt ≤ window
    · -- The first that is fresh is the earliest: all behind it are fresh too.
      have hall : ∀ t ∈ s :: rest, decide (now - t.sentAt ≤ window) = true := by
        intro t ht
        rcases List.mem_cons.mp ht with rfl | ht
        · exact decide_eq_true hs
        · have hst := hfront t ht
          rw [decide_eq_true_eq]
          omega
      rw [List.dropWhile_cons_of_neg (by simpa using hs), List.filter_eq_self.mpr hall]
    · rw [List.dropWhile_cons_of_pos (by simpa using Nat.lt_of_not_le hs),
        List.filter_cons_of_neg (by simpa using hs)]
      exact ih hrest

/-! ## 2. One call -/

/-- At the time, the queue has what is fresh in the filter. -/
structure Mirrors (q : EchoQueue) (f : EchoFilter) (now : Nat) : Prop where
  window_eq : q.window = f.window
  capacity_eq : q.capacity = f.capacity
  entries_eq : q.entries = (f.prune now).sent

/-- The queue goes with the filter, as time goes on. -/
theorem Mirrors.expire (h : Mirrors q f now) (hinc : f.Increasing) (hle : now ≤ later) :
    Mirrors (q.expire later) f later where
  window_eq := h.window_eq
  capacity_eq := h.capacity_eq
  entries_eq := by
    have hstale := dropWhile_stale (hinc.prune now) later
    rw [prune_prune f hle] at hstale
    rw [← hstale, EchoQueue.expire, h.entries_eq, h.window_eq]
    rfl

theorem Mirrors.remove (h : Mirrors q f now) (payload : String) :
    Mirrors (q.remove payload) (f.forget payload) now where
  window_eq := h.window_eq
  capacity_eq := h.capacity_eq
  entries_eq := by
    rw [prune_forget, EchoQueue.remove, h.entries_eq]
    rfl

/-- The filter finds a payload exactly if it is among the fresh ones. -/
theorem take_fst_eq_any (h : f.Distinct) :
    (f.take now payload).1 = (f.prune now).sent.any (·.payload == payload) := by
  rw [Bool.eq_iff_iff, take_fst, List.any_eq_true]
  constructor
  · rintro ⟨sentAt, hsent, hfresh⟩
    exact ⟨⟨payload, sentAt⟩, mem_prune.mpr ⟨h.sentAt?_eq_some.mp hsent, hfresh⟩, beq_self_eq_true _⟩
  · rintro ⟨s, hs, hpayload⟩
    obtain ⟨hmem, hfresh⟩ := mem_prune.mp hs
    obtain rfl := beq_iff_eq.mp hpayload
    exact ⟨s.sentAt, h.sentAt?_eq_some.mpr hmem, hfresh⟩

/-- A payload that is not live is none of the fresh ones. -/
theorem ne_of_not_live (h : ¬ f.Live now payload) {s : SentPayload} (hs : s ∈ (f.prune now).sent) :
    s.payload ≠ payload := by
  rintro rfl
  obtain ⟨hmem, hfresh⟩ := mem_prune.mp hs
  exact h ⟨s, hmem, rfl, hfresh⟩

/-- What is not live and is inserted goes to the back, behind all that are fresh. -/
theorem insert_of_not_live (hkept : Kept window capacity calls f) (hlive : ¬ f.Live now payload) :
    f.insert now payload = (((f.prune now).sent.take (f.excess now)).map (·.payload),
      { f with sent := (f.prune now).sent.drop (f.excess now) ++ [⟨payload, now⟩] }) := by
  have hother : ((f.prune now).sent.drop (f.excess now)).filter (·.payload != payload)
      = (f.prune now).sent.drop (f.excess now) := by
    refine List.filter_eq_self.mpr fun s hs => bne_iff_ne.mpr ?_
    exact ne_of_not_live hlive (List.mem_of_mem_drop hs)
  rw [insert_of_increasing hkept.distinct hkept.increasing, hother]

theorem Mirrors.push (h : Mirrors q f now) (hkept : Kept window capacity calls f)
    (hlive : ¬ f.Live now payload) :
    (q.push ⟨payload, now⟩).1 = (f.insert now payload).1
      ∧ Mirrors (q.push ⟨payload, now⟩).2 (f.insert now payload).2 now := by
  have hsize : q.entries.length = (f.prune now).size := congrArg List.length h.entries_eq
  have hcapacity : q.capacity = max 1 capacity := h.capacity_eq.trans hkept.capacity_eq
  have hpush : q.push ⟨payload, now⟩ = ((q.entries.take (f.excess now)).map (·.payload),
      { q with entries := q.entries.drop (f.excess now) ++ [⟨payload, now⟩] }) := by
    rw [EchoQueue.push, hkept.excess_eq now, hsize, hcapacity]
    have hle : (f.prune now).size ≤ f.size := List.length_filter_le _ _
    have hmax := hkept.size_le
    split
    · rw [if_neg (by omega)]
      rfl
    · rw [if_pos (by omega)]
  -- All that is in the filter then is fresh.
  have hfresh : (EchoFilter.prune { f with sent := (f.prune now).sent.drop (f.excess now)
      ++ [⟨payload, now⟩] } now).sent
      = (f.prune now).sent.drop (f.excess now) ++ [⟨payload, now⟩] := by
    refine List.filter_eq_self.mpr fun s hs => ?_
    rcases List.mem_append.mp hs with hs | hs
    · exact (mem_prune.mp (List.mem_of_mem_drop hs)).2
    · rw [List.mem_singleton.mp hs]
      simp [isFresh]
  rw [hpush, insert_of_not_live hkept hlive, h.entries_eq]
  exact ⟨rfl, h.window_eq, h.capacity_eq, hfresh.symm⟩

/-- **One call** gives the same reply, and the queue goes on with the filter. -/
theorem mirrors_perform (h : Mirrors (q.expire c.time) f c.time)
    (hkept : Kept window capacity calls f) (hadmits : f.Admits c) :
    (q.perform c).1 = (f.perform c).1 ∧ Mirrors (q.perform c).2 (f.perform c).2 c.time := by
  obtain ⟨now, request⟩ := c
  cases request with
  | insert payload =>
    obtain ⟨hreply, hstate⟩ := h.push hkept hadmits
    exact ⟨congrArg (Reply.mk false) hreply, hstate⟩
  | take payload =>
    rw [perform_take, take_fst_eq_any hkept.distinct, ← h.entries_eq]
    exact ⟨rfl, h.remove payload⟩
  | forget payload => exact ⟨rfl, h.remove payload⟩

/-! ## 3. Runs -/

/-- **In every orderly run** the queue has, at any later time, what is fresh in the filter, and the
two have given the same replies. -/
theorem mirrors_after (h : Orderly (new window capacity) calls) :
    replies EchoQueue.perform (.new window capacity) calls
        = replies perform (new window capacity) calls
      ∧ ∀ now, (∀ c ∈ calls, c.time ≤ now) →
        Mirrors ((after EchoQueue.perform (.new window capacity) calls).expire now)
          (after perform (new window capacity) calls) now := by
  induction calls using List.reverseRecOn with
  | nil => exact ⟨rfl, fun now _ => ⟨rfl, rfl, rfl⟩⟩
  | append_singleton calls c ih =>
    obtain ⟨hcalls, hlast, hadmits⟩ := h.of_concat
    obtain ⟨hreplies, hmirrors⟩ := ih hcalls
    obtain ⟨hreply, hstate⟩ := mirrors_perform
      (hmirrors c.time fun d hd => (hlast d hd).1) (kept_after hcalls) hadmits
    have hkept := kept_after h
    rw [after_concat] at hkept
    refine ⟨?_, ?_⟩
    · rw [replies_concat, replies_concat, hreplies, hreply]
    · intro now hnow
      rw [after_concat, after_concat]
      exact hstate.expire hkept.increasing (hnow c (List.mem_append_right _ (List.mem_singleton_self c)))

end EchoFilter

end TextTunnel
