import Mathlib.Logic.Function.Basic
import TextTunnel.Proofs.Except
import TextTunnel.Registry

/-!
# Registrations keep ids and variants paired

A registry can be kept as two tables: the variant and the codec under each id, and the id of each
variant. A registration writes both, one after the other, and nothing but its checks makes them fit
together; the usual table is even written without checks. Encoding goes from the variant to the id
and from there to the codec, decoding from the id, so tables that do not fit would make the two
disagree.

* `Attempt` -- a registration that may be refused; `Registry.after` -- a history of them.
* `Tables`, `shows_after` -- the two tables answer like the registry, after every history.
* `Paired`, `paired_after` -- the two tables are inverse to each other, after every history.
* `registrations_paired` -- what this means for a registry: ids and variants in bijection, which
  registrations are refused and why, and that a refused one leaves no trace.
-/

namespace TextTunnel

/-! ## 1. Histories -/

/-- A registration: of a variant with any codec, or with its own layout. -/
inductive Attempt where
  | withCodec (id : UInt32) (kind : PacketKind) (codec : Codec)
  | withLayout (id : UInt32) (kind : PacketKind)

namespace Attempt

/-- The id that is asked for. -/
def id : Attempt → UInt32
  | withCodec id _ _ => id
  | withLayout id _ => id

/-- The variant to be registered. -/
def kind : Attempt → PacketKind
  | withCodec _ kind _ => kind
  | withLayout _ kind => kind

/-- The codec to be registered. -/
def codec : Attempt → Codec
  | withCodec _ _ codec => codec
  | withLayout _ kind => Codec.ofKind kind

/-- What a registry answers: the larger registry, or a refusal. -/
def answer (a : Attempt) (r : Registry) : Except PacketError Registry :=
  match a with
  | withCodec id kind codec => r.register id kind codec
  | withLayout id kind => r.registerBody id kind

/-- The line that the registration adds. -/
def line (a : Attempt) : Registration := ⟨a.id, a.kind, a.codec⟩

theorem answer_eq_register (a : Attempt) (r : Registry) :
    a.answer r = r.register a.id a.kind a.codec := by
  cases a <;> rfl

end Attempt

namespace Registry

/-- The registry after an attempt: one that is refused leaves it as it was. -/
def attempt (r : Registry) (a : Attempt) : Registry :=
  match a.answer r with
  | .ok r' => r'
  | .error _ => r

/-- The registry after a history of attempts. -/
def after (r : Registry) (attempts : List Attempt) : Registry :=
  attempts.foldl attempt r

theorem after_concat (r : Registry) (attempts : List Attempt) (a : Attempt) :
    r.after (attempts ++ [a]) = (r.after attempts).attempt a := by
  simp [after]

theorem after_append (r : Registry) (attempts later : List Attempt) :
    r.after (attempts ++ later) = (r.after attempts).after later := by
  simp [after]

/-- **What a registration does**: a taken id is an error, and else a taken variant; if neither is
taken there is one line more. -/
theorem answer_cases (r : Registry) (a : Attempt) :
    ((r.kind a.id).isSome ∧ a.answer r = .error (.duplicateTypeId a.id)) ∨
    (r.kind a.id = none ∧ (r.typeId a.kind).isSome ∧ a.answer r = .error (.duplicateKind a.kind)) ∨
    (r.kind a.id = none ∧ r.typeId a.kind = none ∧ a.answer r = .ok ⟨r.entries ++ [a.line]⟩) := by
  rw [a.answer_eq_register]
  unfold register
  split
  · rename_i hid
    exact .inl ⟨by simpa [kind] using hid, rfl⟩
  · rename_i hid
    have hid' : r.kind a.id = none := by simpa [kind] using hid
    split
    · rename_i hkind
      exact .inr (.inl ⟨hid', by simpa [typeId] using hkind, rfl⟩)
    · rename_i hkind
      exact .inr (.inr ⟨hid', by simpa [typeId] using hkind, rfl⟩)

theorem attempt_of_error {r : Registry} {a : Attempt} {e : PacketError}
    (h : a.answer r = .error e) : r.attempt a = r := by
  simp [attempt, h]

theorem attempt_of_ok {r r' : Registry} {a : Attempt} (h : a.answer r = .ok r') :
    r.attempt a = r' := by
  simp [attempt, h]

end Registry

/-! ## 2. Two tables -/

/-- The variant and the codec under each id, and the id of each variant. -/
structure Tables where
  lines : UInt32 → Option (PacketKind × Codec)
  ids : PacketKind → Option UInt32

namespace Tables

/-- Nothing is registered. -/
def empty : Tables := ⟨fun _ => none, fun _ => none⟩

/-- Writes both tables and looks at neither. -/
def put (t : Tables) (id : UInt32) (kind : PacketKind) (codec : Codec) : Tables :=
  ⟨Function.update t.lines id (some (kind, codec)), Function.update t.ids kind (some id)⟩

/-- The usual tables, written without a check. -/
def standard : Tables :=
  (((empty.put 0 .message (Codec.ofKind .message)).put
    1 .startTwoPlayerGame (Codec.ofKind .startTwoPlayerGame)).put
    2 .putTicTacToeMark (Codec.ofKind .putTicTacToeMark)).put
    3 .putConnectFourPiece (Codec.ofKind .putConnectFourPiece)

/-- A registration: each table is asked for what is to be written into it. -/
def attempt (t : Tables) (a : Attempt) : Except PacketError Unit × Tables :=
  if (t.lines a.id).isSome then (.error (.duplicateTypeId a.id), t)
  else if (t.ids a.kind).isSome then (.error (.duplicateKind a.kind), t)
  else (.ok (), t.put a.id a.kind a.codec)

/-- The tables after a history of attempts. -/
def after (t : Tables) (attempts : List Attempt) : Tables :=
  attempts.foldl (fun t a => (t.attempt a).2) t

/-- The id of a variant and the codec under that id. -/
def codecFor (t : Tables) (kind : PacketKind) : Except PacketError (UInt32 × Codec) :=
  match t.ids kind with
  | none => .error (.unregisteredKind kind)
  | some id =>
    match t.lines id with
    | none => .error (.unregisteredKind kind)
    | some (_, codec) => .ok (id, codec)

/-- The tables answer like a registry. -/
structure Shows (t : Tables) (r : Registry) : Prop where
  lines : ∀ id, t.lines id = (r.byId? id).map fun e => (e.kind, e.codec)
  ids : ∀ kind, t.ids kind = r.typeId kind

theorem Shows.kind {t : Tables} {r : Registry} (h : t.Shows r) (id : UInt32) :
    (t.lines id).map Prod.fst = r.kind id := by
  simp [h.lines, Registry.kind, Function.comp_def]

theorem Shows.isSome_lines {t : Tables} {r : Registry} (h : t.Shows r) (id : UInt32) :
    (t.lines id).isSome = (r.kind id).isSome := by
  rw [← h.kind, Option.isSome_map]

theorem shows_empty : empty.Shows .empty :=
  ⟨fun _ => rfl, fun _ => rfl⟩

/-- A line more at the end of a registry is a place more in each table, provided that both places
were free. -/
theorem Shows.put {t : Tables} {r : Registry} (h : t.Shows r) {a : Attempt}
    (hid : r.kind a.id = none) (hkind : r.typeId a.kind = none) :
    (t.put a.id a.kind a.codec).Shows ⟨r.entries ++ [a.line]⟩ where
  lines id := by
    have hfree : r.entries.find? (fun e => e.typeId == a.id) = none := by
      simpa [Registry.kind, Registry.byId?] using hid
    simp only [Tables.put, Registry.byId?, List.find?_append]
    by_cases heq : id = a.id
    · subst heq
      simp [hfree, Attempt.line]
    · have hlines := h.lines id
      rw [Registry.byId?] at hlines
      simp [Function.update_of_ne heq, hlines, Attempt.line, Ne.symm heq]
  ids kind := by
    have hfree : r.entries.find? (fun e => e.kind == a.kind) = none := by
      simpa [Registry.typeId, Registry.byKind?] using hkind
    simp only [Tables.put, Registry.typeId, Registry.byKind?, List.find?_append]
    by_cases heq : kind = a.kind
    · subst heq
      simp [hfree, Attempt.line]
    · have hids := h.ids kind
      rw [Registry.typeId, Registry.byKind?] at hids
      simp [Function.update_of_ne heq, hids, Attempt.line, Ne.symm heq]

/-- The unchecked writes of the usual tables give what the usual registry answers. -/
theorem shows_standard : standard.Shows .standard := by
  have h0 := shows_empty.put (a := .withLayout 0 .message) rfl rfl
  have h1 := h0.put (a := .withLayout 1 .startTwoPlayerGame) rfl rfl
  have h2 := h1.put (a := .withLayout 2 .putTicTacToeMark) rfl rfl
  exact h2.put (a := .withLayout 3 .putConnectFourPiece) rfl rfl

/-- **One attempt**: the tables give the same answer as the registry, and go on answering like it. -/
theorem Shows.attempt {t : Tables} {r : Registry} (h : t.Shows r) (a : Attempt) :
    (t.attempt a).1 = (a.answer r).map (fun _ => ()) ∧ (t.attempt a).2.Shows (r.attempt a) := by
  unfold Tables.attempt
  rw [h.isSome_lines, h.ids]
  rcases r.answer_cases a with ⟨hid, hans⟩ | ⟨hid, hkind, hans⟩ | ⟨hid, hkind, hans⟩
  · rw [if_pos hid, hans, Registry.attempt_of_error hans]
    exact ⟨rfl, h⟩
  · rw [if_neg (by simp [hid]), if_pos hkind, hans, Registry.attempt_of_error hans]
    exact ⟨rfl, h⟩
  · rw [if_neg (by simp [hid]), if_neg (by simp [hkind]), hans, Registry.attempt_of_ok hans]
    exact ⟨rfl, h.put hid hkind⟩

theorem shows_after {t : Tables} {r : Registry} (h : t.Shows r) (attempts : List Attempt) :
    (t.after attempts).Shows (r.after attempts) := by
  induction attempts generalizing t r with
  | nil => exact h
  | cons a attempts ih => exact ih (h.attempt a).2

/-! ## 3. The tables are inverse to each other -/

/-- The id of a variant is the one under which the variant stands. -/
def Paired (t : Tables) : Prop :=
  ∀ kind id, t.ids kind = some id ↔ (t.lines id).map Prod.fst = some kind

theorem paired_empty : empty.Paired := by
  intro kind id
  simp [empty]

/-- Writing keeps the tables inverse to each other if both places are free. -/
theorem Paired.put {t : Tables} (h : t.Paired) (id : UInt32) (kind : PacketKind) (codec : Codec)
    (hid : t.lines id = none) (hkind : t.ids kind = none) : (t.put id kind codec).Paired := by
  intro k i
  unfold Tables.put
  by_cases hk : k = kind
  · subst hk
    by_cases hi : i = id
    · subst hi
      simp
    · -- Under another id the variant would have been registered already.
      have hold : (t.lines i).map Prod.fst ≠ some k := fun hl => by simp [(h k i).mpr hl] at hkind
      simp only [Function.update_self, Function.update_of_ne hi, Option.some.injEq]
      exact ⟨fun he => absurd he.symm hi, fun hl => absurd hl hold⟩
  · by_cases hi : i = id
    · subst hi
      have hold : t.ids k ≠ some i := fun hl => by simpa [hid] using (h k i).mp hl
      simp only [Function.update_self, Function.update_of_ne hk, Option.map_some, Option.some.injEq]
      exact ⟨fun hl => absurd hl hold, fun he => absurd he.symm hk⟩
    · simpa [Function.update_of_ne hk, Function.update_of_ne hi] using h k i

theorem paired_standard : standard.Paired := by
  have h0 := paired_empty.put 0 .message (Codec.ofKind .message) rfl rfl
  have h1 := h0.put 1 .startTwoPlayerGame (Codec.ofKind .startTwoPlayerGame) rfl rfl
  have h2 := h1.put 2 .putTicTacToeMark (Codec.ofKind .putTicTacToeMark) rfl rfl
  exact h2.put 3 .putConnectFourPiece (Codec.ofKind .putConnectFourPiece) rfl rfl

theorem Paired.attempt {t : Tables} (h : t.Paired) (a : Attempt) : (t.attempt a).2.Paired := by
  unfold Tables.attempt
  split
  · exact h
  · rename_i hid
    split
    · exact h
    · rename_i hkind
      exact h.put a.id a.kind a.codec (by simpa using hid) (by simpa using hkind)

theorem paired_after {t : Tables} (h : t.Paired) (attempts : List Attempt) :
    (t.after attempts).Paired := by
  induction attempts generalizing t with
  | nil => exact h
  | cons a attempts ih => exact ih (h.attempt a)

/-- A line that is first under its id and one that is first for its variant are the same, if each
would do for the other search. -/
theorem eq_of_find? {α : Type} {p q : α → Bool} {a b : α} {l : List α} (ha : l.find? p = some a)
    (hb : l.find? q = some b) (hpb : p b = true) (hqa : q a = true) : a = b := by
  induction l with
  | nil => simp at ha
  | cons x l ih =>
    rw [List.find?_cons] at ha hb
    cases hp : p x with
    | true =>
      simp only [hp, Option.some.injEq] at ha
      subst ha
      simpa [hqa] using hb
    | false =>
      cases hq : q x with
      | true =>
        simp only [hq, Option.some.injEq] at hb
        subst hb
        simp [hp] at hpb
      | false =>
        simp only [hp] at ha
        simp only [hq] at hb
        exact ih ha hb

/-- Going from the variant to its id and from there to the codec ends at the variant's own line. -/
theorem codecFor_eq {t : Tables} {r : Registry} (hpaired : t.Paired) (h : t.Shows r)
    (kind : PacketKind) : t.codecFor kind = (r.entryFor kind).map fun e => (e.typeId, e.codec) := by
  unfold codecFor Registry.entryFor
  cases hfind : r.byKind? kind with
  | none =>
    have hids : t.ids kind = none := by simp [h.ids, Registry.typeId, hfind]
    rw [hids]
    rfl
  | some e =>
    have hids : t.ids kind = some e.typeId := by simp [h.ids, Registry.typeId, hfind]
    obtain ⟨⟨kind', codec⟩, hline, rfl⟩ := Option.map_eq_some_iff.mp ((hpaired kind _).mp hids)
    obtain ⟨e', hfind', he'⟩ := Option.map_eq_some_iff.mp ((h.lines _).symm.trans hline)
    obtain ⟨rfl, rfl⟩ := Prod.mk.inj he'
    obtain rfl : e = e' := eq_of_find? hfind hfind' (by simp) (by simp)
    rw [hids]
    simp only [hline]
    rfl

end Tables

/-! ## 4. What a registry answers after a history -/

namespace Registry

/-- The attempts of a history that were not refused. -/
def accepted (r : Registry) : List Attempt → List Attempt
  | [] => []
  | a :: attempts =>
    match a.answer r with
    | .ok r' => a :: r'.accepted attempts
    | .error _ => r.accepted attempts

/-- A registry has the lines that it had at first, and behind them those of the accepted attempts.
-/
theorem entries_after (r : Registry) (attempts : List Attempt) :
    (r.after attempts).entries = r.entries ++ (r.accepted attempts).map Attempt.line := by
  induction attempts generalizing r with
  | nil => simp [after, accepted]
  | cons a attempts ih =>
    have hcons : r.after (a :: attempts) = (r.attempt a).after attempts := rfl
    rw [hcons, ih, accepted]
    rcases r.answer_cases a with ⟨-, h⟩ | ⟨-, -, h⟩ | ⟨-, -, h⟩
    · rw [attempt_of_error h, h]
    · rw [attempt_of_error h, h]
    · simp [attempt_of_ok h, h]

theorem entryFor_eq_error_iff {r : Registry} {kind : PacketKind} {e : PacketError} :
    r.entryFor kind = .error e ↔ e = .unregisteredKind kind ∧ ∀ l ∈ r.entries, l.kind ≠ kind := by
  unfold entryFor
  cases hfind : r.byKind? kind with
  | none =>
    have hnone := List.find?_eq_none.mp hfind
    simp only [Except.error.injEq, eq_comm (a := PacketError.unregisteredKind kind)]
    exact ⟨fun h => ⟨h, fun l hl => by simpa using hnone l hl⟩, fun h => h.1⟩
  | some l =>
    have hkind : l.kind = kind := by simpa using List.find?_some hfind
    simp only [reduceCtorEq, false_iff, not_and, not_forall]
    exact fun _ => ⟨l, List.mem_of_find?_eq_some hfind, fun h => h hkind⟩

/-- The registries that histories start from. -/
inductive Origin where
  | empty
  | standard

/-- The registry at the beginning. -/
def Origin.registry : Origin → Registry
  | empty => .empty
  | standard => .standard

/-- The same as two tables. -/
def Origin.tables : Origin → Tables
  | empty => .empty
  | standard => .standard

theorem Origin.shows (o : Origin) : o.tables.Shows o.registry := by
  cases o with
  | empty => exact Tables.shows_empty
  | standard => exact Tables.shows_standard

theorem Origin.paired (o : Origin) : o.tables.Paired := by
  cases o with
  | empty => exact Tables.paired_empty
  | standard => exact Tables.paired_standard

/-- **Ids and variants stay paired.**  Take any history of registrations, accepted and refused ones,
with any ids, variants and codecs, from the empty or from the usual registry.

* The two tables, written one after the other, answer as the registry does: under every id, for
  every variant, and with the codec to which a variant leads.
* A variant has an id exactly if the variant stands under that id; so no two variants share an id
  and no two ids a variant.
* No codec is found exactly for the variants that were not there at first and have never been
  accepted.
* A registration is accepted exactly if its id and its variant are free. If both are taken, the id
  is what is reported.
* A refused registration leaves no trace: whatever is done afterwards, the registry is the one that
  it would have been without it. -/
theorem registrations_paired (o : Origin) (attempts : List Attempt) :
    let r := o.registry.after attempts
    let t := o.tables.after attempts
    ((∀ id, r.kind id = (t.lines id).map Prod.fst) ∧ (∀ kind, r.typeId kind = t.ids kind) ∧
      ∀ kind, t.codecFor kind = (r.entryFor kind).map fun e => (e.typeId, e.codec)) ∧
    ((∀ kind id, r.typeId kind = some id ↔ r.kind id = some kind) ∧
      (∀ kind kind' id, r.typeId kind = some id → r.typeId kind' = some id → kind = kind') ∧
      ∀ id id' kind, r.kind id = some kind → r.kind id' = some kind → id = id') ∧
    (∀ kind e, r.entryFor kind = .error e ↔ e = .unregisteredKind kind ∧
      (∀ l ∈ o.registry.entries, l.kind ≠ kind) ∧
      ∀ a ∈ o.registry.accepted attempts, a.kind ≠ kind) ∧
    (∀ a : Attempt, ((∃ r', a.answer r = .ok r') ↔ r.kind a.id = none ∧ r.typeId a.kind = none) ∧
      ∀ e, a.answer r = .error e ↔ (e = .duplicateTypeId a.id ∧ r.kind a.id ≠ none) ∨
        (e = .duplicateKind a.kind ∧ r.kind a.id = none ∧ r.typeId a.kind ≠ none)) ∧
    ∀ (a : Attempt) (e : PacketError), a.answer r = .error e →
      ∀ later, o.registry.after (attempts ++ a :: later) = o.registry.after (attempts ++ later) := by
  intro r t
  have hshows : t.Shows r := Tables.shows_after o.shows attempts
  have hpaired : t.Paired := Tables.paired_after o.paired attempts
  have hiff : ∀ kind id, r.typeId kind = some id ↔ r.kind id = some kind := by
    intro kind id
    rw [← hshows.ids, ← hshows.kind]
    exact hpaired kind id
  refine ⟨⟨fun id => (hshows.kind id).symm, fun kind => (hshows.ids kind).symm,
    Tables.codecFor_eq hpaired hshows⟩, ⟨hiff, ?_, ?_⟩, ?_, ?_, ?_⟩
  · intro kind kind' id h h'
    exact Option.some.inj (((hiff kind id).mp h).symm.trans ((hiff kind' id).mp h'))
  · intro id id' kind h h'
    exact Option.some.inj (((hiff kind id).mpr h).symm.trans ((hiff kind id').mpr h'))
  · intro kind e
    rw [entryFor_eq_error_iff, entries_after, List.forall_mem_append, List.forall_mem_map]
    rfl
  · intro a
    rcases r.answer_cases a with ⟨hid, h⟩ | ⟨hid, hkind, h⟩ | ⟨hid, hkind, h⟩
    · have hid' := Option.isSome_iff_ne_none.mp hid
      simp [h, hid', eq_comm]
    · have hkind' := Option.isSome_iff_ne_none.mp hkind
      simp [h, hid, hkind', eq_comm]
    · simp [h, hid, hkind]
  · intro a e h later
    have hcons : r.after (a :: later) = (r.attempt a).after later := rfl
    rw [after_append, after_append, hcons, attempt_of_error h]

/-- Two registrations that are accepted, the first of them with the encoder of another variant, and
three between them that are refused. -/
def mixedHistory : List Attempt :=
  [.withCodec 300 .message (Codec.ofLayouts .putTicTacToeMark .message),
    .withLayout 300 .putConnectFourPiece, .withLayout 7 .message, .withLayout 300 .message,
    .withLayout 7 .putConnectFourPiece]

/-- Once more the id and the variant that are both taken: the id is reported, and a later
registration finds the registry as it was. -/
theorem registrations_paired_mixedHistory :
    (Registry.empty.after mixedHistory).kind 300 = some .message ∧
    (Attempt.withLayout 300 .message).answer (Registry.empty.after mixedHistory)
      = .error (.duplicateTypeId 300) ∧
    Registry.empty.after (mixedHistory ++ .withLayout 300 .message :: [.withLayout 2 .putTicTacToeMark])
      = Registry.empty.after (mixedHistory ++ [.withLayout 2 .putTicTacToeMark]) := by
  obtain ⟨-, ⟨hiff, -⟩, -, hanswer, hkeep⟩ := registrations_paired .empty mixedHistory
  have hkind : (Registry.empty.after mixedHistory).kind 300 = some .message :=
    (hiff .message 300).mp (by decide)
  have hne : (Registry.empty.after mixedHistory).kind 300 ≠ none := by simp [hkind]
  have htaken : (Attempt.withLayout 300 .message).answer (Registry.empty.after mixedHistory)
      = .error (.duplicateTypeId 300) :=
    ((hanswer (.withLayout 300 .message)).2 _).mpr (.inl ⟨rfl, hne⟩)
  exact ⟨hkind, htaken, hkeep _ _ htaken _⟩

end Registry

end TextTunnel
