/-!
# Chains of steps that can fail

A chain gives a value exactly if each of its steps does. These lemmas take a chain apart, one step
at a time, and put one together from steps that are known. A row of steps that do not need each
other is a chain, too.

* `joinAll` -- a row of steps, each with a list for its value, and the lists joined.
* `joinAll_eq_ok_iff`, `joinAll_eq_error_iff` -- every step succeeds, or this is the first error.
-/

namespace TextTunnel

section Chains

variable {ε α β : Type}

theorem ok_bind (a : α) (f : α → Except ε β) : (Except.ok a >>= f) = f a :=
  rfl

theorem error_bind (e : ε) (f : α → Except ε β) : (Except.error e >>= f) = .error e :=
  rfl

theorem bind_eq_ok {x : Except ε α} {f : α → Except ε β} {b : β} :
    x >>= f = .ok b ↔ ∃ a, x = .ok a ∧ f a = .ok b := by
  cases x with
  | ok a => simp [ok_bind]
  | error e => simp [error_bind]

theorem bind_eq_error {x : Except ε α} {f : α → Except ε β} {e : ε} :
    x >>= f = .error e ↔ x = .error e ∨ ∃ a, x = .ok a ∧ f a = .error e := by
  cases x with
  | ok a => simp [ok_bind]
  | error e => simp [error_bind]

/-- A chain has a value exactly if its first step has one that the rest goes on from. -/
theorem exists_bind_eq_ok {x : Except ε α} {f : α → Except ε β} :
    (∃ b, x >>= f = .ok b) ↔ ∃ a, x = .ok a ∧ ∃ b, f a = .ok b := by
  simp only [bind_eq_ok]
  constructor
  · rintro ⟨b, a, ha, hb⟩
    exact ⟨a, ha, b, hb⟩
  · rintro ⟨a, ha, b, hb⟩
    exact ⟨b, a, ha, hb⟩

/-- A check in front of a chain. -/
theorem exists_check_bind_eq_ok {x : Except ε Unit} {f : Unit → Except ε β} :
    (∃ b, x >>= f = .ok b) ↔ x = .ok () ∧ ∃ b, f () = .ok b := by
  rw [exists_bind_eq_ok]
  constructor
  · rintro ⟨⟨⟩, h⟩
    exact h
  · exact fun h => ⟨(), h⟩

theorem exists_pure_eq_ok (a : α) : ∃ b, (pure a : Except ε α) = .ok b :=
  ⟨a, rfl⟩

end Chains

section Rows

variable {ε α : Type}

/-- Steps one after another, the lists that they give joined: the first one that fails decides. -/
def joinAll : List (Except ε (List α)) → Except ε (List α)
  | [] => .ok []
  | x :: xs => do
    let part ← x
    let rest ← joinAll xs
    return part ++ rest

theorem joinAll_eq_ok_iff {xs : List (Except ε (List α))} {joined : List α} :
    joinAll xs = .ok joined ↔
      ∃ parts : List (List α), xs = parts.map .ok ∧ joined = parts.flatten := by
  induction xs generalizing joined with
  | nil =>
    constructor
    · intro h
      exact ⟨[], rfl, (Except.ok.inj h).symm⟩
    · rintro ⟨parts, h, rfl⟩
      rw [List.map_eq_nil_iff.mp h.symm]
      rfl
  | cons x xs ih =>
    rw [joinAll, bind_eq_ok]
    simp only [bind_eq_ok, ih]
    constructor
    · rintro ⟨part, hpart, rest, ⟨parts, hparts, rfl⟩, h⟩
      refine ⟨part :: parts, ?_, (Except.ok.inj h).symm⟩
      rw [hpart, hparts, List.map_cons]
    · rintro ⟨parts, h, rfl⟩
      obtain ⟨part, parts, rfl, hpart, hparts⟩ := List.map_eq_cons_iff.mp h.symm
      exact ⟨part, hpart.symm, parts.flatten, ⟨parts, hparts.symm, rfl⟩, rfl⟩

theorem joinAll_eq_error_iff {xs : List (Except ε (List α))} {e : ε} :
    joinAll xs = .error e ↔
      ∃ (parts : List (List α)) (rest : List (Except ε (List α))),
        xs = parts.map .ok ++ .error e :: rest := by
  induction xs with
  | nil =>
    constructor
    · exact fun h => nomatch h
    · rintro ⟨parts, rest, h⟩
      exact absurd h (by simp)
  | cons x xs ih =>
    rw [joinAll, bind_eq_error]
    simp only [bind_eq_error, ih]
    constructor
    · rintro (h | ⟨part, hpart, ⟨parts, rest, h⟩ | ⟨_, _, h⟩⟩)
      · exact ⟨[], _, by rw [h]; rfl⟩
      · exact ⟨part :: parts, rest, by rw [hpart, h]; rfl⟩
      · cases h
    · rintro ⟨parts, rest, h⟩
      cases parts with
      | nil => exact .inl (List.cons.inj h).1
      | cons part parts =>
        obtain ⟨hpart, h⟩ := List.cons.inj h
        exact .inr ⟨part, hpart, .inl ⟨parts, rest, h⟩⟩

/-- The first error of a row, told by its place. -/
theorem exists_first_error_iff {xs : List (Except ε α)} {e : ε} :
    (∃ (parts : List α) (rest : List (Except ε α)), xs = parts.map .ok ++ .error e :: rest) ↔
      ∃ i : Nat, xs[i]? = some (.error e) ∧ ∀ j < i, ∃ part, xs[j]? = some (.ok part) := by
  constructor
  · rintro ⟨parts, rest, rfl⟩
    refine ⟨parts.length, ?_, fun j hj => ⟨parts[j], ?_⟩⟩
    · rw [List.getElem?_append_right (by simp)]
      simp
    · rw [List.getElem?_append_left (by simpa using hj)]
      simp [hj]
  · rintro ⟨i, hi, hbefore⟩
    induction i generalizing xs with
    | zero =>
      obtain ⟨rest, rfl⟩ := List.head?_eq_some_iff.mp (List.head?_eq_getElem? ▸ hi)
      exact ⟨[], rest, rfl⟩
    | succ i ih =>
      cases xs with
      | nil => exact absurd hi (by simp)
      | cons x xs =>
        obtain ⟨part, hpart⟩ := hbefore 0 (Nat.succ_pos i)
        obtain ⟨parts, rest, rfl⟩ := ih hi fun j hj => hbefore (j + 1) (Nat.succ_lt_succ hj)
        rw [List.getElem?_cons_zero] at hpart
        exact ⟨part :: parts, rest, by rw [Option.some.inj hpart]; rfl⟩

end Rows

end TextTunnel
