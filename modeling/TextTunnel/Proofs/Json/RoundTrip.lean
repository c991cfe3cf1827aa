import TextTunnel.Proofs.Json.Numbers

/-!
# Documents come back

A document that follows the grammar comes back from each of its texts: the compact one, and any other
that differs from it in blanks. What comes back is the document itself, except that control
characters in strings may have been written by number.

The reader is given a depth. Whoever gives it as much as a document's tokens have characters gives
enough: a bracket costs at least as much as going one level deeper.

* `Tree.Valid` -- documents of the grammar.
* `Tree.asRead` -- what comes back.
* `Tree.IsText` -- the texts of a document; `Tree.isText_compact` -- the compact one is among them.
* `Tree.IsText.ofString?` -- it comes back from every text.
-/

namespace TextTunnel.Json

open TextTunnel.Text

/-! ## 1. Documents of the grammar -/

mutual

/-- A document whose numbers are numbers and whose numbered escapes have four digits. -/
def Tree.Valid : Tree → Prop
  | .null => True
  | .bool _ => True
  | .number n => n.Valid
  | .string units => ∀ u ∈ units, u.Valid
  | .array items => itemsValid items
  | .object members => membersValid members

/-- Items of the grammar. -/
def itemsValid : List Tree → Prop
  | [] => True
  | t :: ts => t.Valid ∧ itemsValid ts

/-- Members of the grammar. -/
def membersValid : List (List StringUnit × Tree) → Prop
  | [] => True
  | (name, t) :: ms => (∀ u ∈ name, u.Valid) ∧ t.Valid ∧ membersValid ms

end

mutual

/-- A document as it is read again. -/
def Tree.asRead : Tree → Tree
  | .null => .null
  | .bool b => .bool b
  | .number n => .number n
  | .string units => .string (units.map StringUnit.asRead)
  | .array items => .array (itemsAsRead items)
  | .object members => .object (membersAsRead members)

/-- Items as they are read again. -/
def itemsAsRead : List Tree → List Tree
  | [] => []
  | t :: ts => t.asRead :: itemsAsRead ts

/-- Members as they are read again. -/
def membersAsRead : List (List StringUnit × Tree) → List (List StringUnit × Tree)
  | [] => []
  | (name, t) :: ms => (name.map StringUnit.asRead, t.asRead) :: membersAsRead ms

end

theorem membersValid_iff {ms : List (List StringUnit × Tree)} :
    membersValid ms ↔ ∀ m ∈ ms, (∀ u ∈ m.1, u.Valid) ∧ m.2.Valid := by
  induction ms with
  | nil => simp [membersValid]
  | cons m ms ih =>
    obtain ⟨name, t⟩ := m
    rw [membersValid, ih, List.forall_mem_cons, and_assoc]

theorem membersAsRead_eq_map (ms : List (List StringUnit × Tree)) :
    membersAsRead ms = ms.map fun m => (m.1.map StringUnit.asRead, m.2.asRead) := by
  induction ms with
  | nil => rfl
  | cons m ms ih =>
    obtain ⟨name, t⟩ := m
    rw [membersAsRead, ih, List.map_cons]

/-! ## 2. The first character -/

/-- A sign or a digit is no blank, and starts nothing but a number. -/
theorem not_mem_of_numberStart {c : Char} (h : c = '-' ∨ isDigit c = true) :
    c ∉ [' ', '\t', '\n', '\r', ']', 'n', 't', 'f', '"', '[', '\x7b'] := by
  have key : [' ', '\t', '\n', '\r', ']', 'n', 't', 'f', '"', '[', '\x7b'].all
      (fun d => d ≠ '-' && !isDigit d) = true := by decide
  intro hmem
  have hc := List.all_eq_true.mp key c hmem
  rcases h with rfl | h
  · simp at hc
  · simp [h] at hc

/-- A document begins neither with a blank nor with a bracket that closes an array. -/
theorem Tree.Valid.exists_tokens_eq_cons {t : Tree} (h : t.Valid) :
    ∃ c token tokens, t.tokens = (c :: token) :: tokens ∧ isBlank c = false ∧ c ≠ ']' := by
  cases t with
  | null => exact ⟨'n', _, _, rfl, by decide, by decide⟩
  | bool b =>
    cases b with
    | true => exact ⟨'t', _, _, rfl, by decide, by decide⟩
    | false => exact ⟨'f', _, _, rfl, by decide, by decide⟩
  | number n =>
    obtain ⟨c, cs, hcs, hc⟩ := exists_numberChars_eq_cons h
    have hstart := not_mem_of_numberStart hc
    simp only [List.mem_cons, not_or] at hstart
    refine ⟨c, cs, [], congrArg ([·]) hcs, ?_, hstart.2.2.2.2.1⟩
    simp [isBlank, hstart]
  | string units => exact ⟨'"', _, _, rfl, by decide, by decide⟩
  | array items => exact ⟨'[', _, _, rfl, by decide, by decide⟩
  | object members => exact ⟨'\x7b', _, _, rfl, by decide, by decide⟩

/-- A row of items begins like its first item. -/
theorem exists_itemsTokens_eq_cons {t : Tree} {ts : List Tree} (h : itemsValid (t :: ts)) :
    ∃ c token tokens, itemsTokens (t :: ts) = (c :: token) :: tokens ∧ isBlank c = false ∧ c ≠ ']' := by
  obtain ⟨c, token, tokens, htokens, hc⟩ := h.1.exists_tokens_eq_cons
  cases ts with
  | nil => exact ⟨c, token, tokens, htokens, hc⟩
  | cons u ts =>
    refine ⟨c, token, tokens ++ [','] :: itemsTokens (u :: ts), ?_, hc⟩
    rw [itemsTokens, htokens]
    rfl

/-- A row of members begins with a quote. -/
theorem exists_membersTokens_eq_cons (m : List StringUnit × Tree)
    (ms : List (List StringUnit × Tree)) :
    ∃ token tokens, membersTokens (m :: ms) = ('"' :: token) :: tokens := by
  obtain ⟨name, t⟩ := m
  cases ms with
  | nil => exact ⟨_, _, rfl⟩
  | cons m ms => exact ⟨_, _, rfl⟩

/-- A text stays one of the same tokens when the blanks in front of it are skipped. -/
theorem Spaced.skipped {rest cs token : List Char} {c : Char} {tokens : List (List Char)}
    (h : Spaced rest ((c :: token) :: tokens) cs) (hc : isBlank c = false) :
    Spaced rest ((c :: token) :: tokens) (Json.skipBlanks cs) := by
  obtain ⟨mid, hmid, htokens⟩ := h.skipBlanks hc
  rw [hmid]
  exact @Spaced.cons _ [] _ _ _ (by simp) htokens

/-- The last token is followed by the rest. -/
theorem Spaced.last {rest cs token : List Char} {c : Char}
    (h : Spaced rest [c :: token] cs) (hc : isBlank c = false) :
    Json.skipBlanks cs = c :: (token ++ rest) := by
  obtain ⟨mid, hmid, hnil⟩ := h.skipBlanks hc
  cases hnil
  exact hmid

/-! ## 3. Documents by their first character -/

/-- A document that starts with a sign or a digit is read as a number. -/
theorem value?_number {fuel : Nat} {c : Char} {x cs : List Char} (hx : skipBlanks x = c :: cs)
    (hc : c = '-' ∨ isDigit c = true) :
    value? (fuel + 1) x = (fun r => (.number r.1, r.2)) <$> number? (c :: cs) := by
  have hstart := not_mem_of_numberStart hc
  simp only [List.mem_cons, not_or] at hstart
  rw [value?, hx]
  split <;> simp_all

/-- A string is read behind its quote. -/
theorem exists_string {cs rest : List Char} {units : List StringUnit} {tokens : List (List Char)}
    (hunits : ∀ u ∈ units, u.Valid) (h : Spaced rest (stringChars units :: tokens) cs) :
    ∃ body mid, skipBlanks cs = '"' :: body
      ∧ stringBody? body = some (units.map StringUnit.asRead, mid) ∧ Spaced rest tokens mid := by
  obtain ⟨mid, hquote, htokens⟩ := h.skipBlanks (by decide)
  refine ⟨_, mid, hquote, ?_, htokens⟩
  show stringBody? (units.flatMap unitChars ++ ['"'] ++ mid) = _
  rw [List.append_assoc]
  exact stringBody?_stringChars hunits mid

/-- Behind an opening bracket stand items, unless the closing one does. -/
theorem value?_items {fuel : Nat} {x cs : List Char} (hx : skipBlanks x = '[' :: cs)
    (hcs : (skipBlanks cs).head? ≠ some ']') :
    value? (fuel + 1) x = (fun r => (.array r.1, r.2)) <$> items? fuel (skipBlanks cs) := by
  rw [value?, hx]
  simp only
  split
  · rename_i hclose
    rw [hclose] at hcs
    exact absurd rfl hcs
  · rfl

theorem value?_members {fuel : Nat} {x cs : List Char} (hx : skipBlanks x = '\x7b' :: cs)
    (hcs : (skipBlanks cs).head? ≠ some '\x7d') :
    value? (fuel + 1) x = (fun r => (.object r.1, r.2)) <$> members? fuel (skipBlanks cs) := by
  rw [value?, hx]
  simp only
  split
  · rename_i hclose
    rw [hclose] at hcs
    exact absurd rfl hcs
  · rfl

/-! ## 4. Items and members -/

theorem items?_last {fuel : Nat} {cs after rest : List Char} {t : Tree}
    (hvalue : value? fuel cs = some (t, after)) (hclose : Spaced rest [[']']] after) :
    items? (fuel + 1) cs = some ([t], rest) := by
  rw [items?, hvalue]
  simp only [hclose.last (by decide)]
  rfl

theorem items?_more {fuel : Nat} {cs after next : List Char} {t : Tree}
    (hvalue : value? fuel cs = some (t, after)) (hcomma : Spaced next [[',']] after) :
    items? (fuel + 1) cs = (fun r => (t :: r.1, r.2)) <$> items? fuel next := by
  rw [items?, hvalue]
  simp only [hcomma.last (by decide)]
  rfl

/-- What a reader of members sees of a name and its colon. -/
theorem exists_name {cs value : List Char} {name : List StringUnit}
    (hname : ∀ u ∈ name, u.Valid) (h : Spaced value [stringChars name, [':']] cs) :
    ∃ body mid, skipBlanks cs = '"' :: body
      ∧ stringBody? body = some (name.map StringUnit.asRead, mid) ∧ skipBlanks mid = ':' :: value := by
  obtain ⟨body, mid, hquote, hbody, hcolon⟩ := exists_string hname h
  exact ⟨body, mid, hquote, hbody, hcolon.last (by decide)⟩

theorem members?_last {fuel : Nat} {cs value after rest : List Char} {name : List StringUnit}
    {t : Tree} (hname : ∀ u ∈ name, u.Valid) (h : Spaced value [stringChars name, [':']] cs)
    (hvalue : value? fuel value = some (t, after)) (hclose : Spaced rest [['\x7d']] after) :
    members? (fuel + 1) cs = some ([(name.map StringUnit.asRead, t)], rest) := by
  obtain ⟨body, mid, hquote, hbody, hcolon⟩ := exists_name hname h
  rw [members?, hquote]
  simp only [hbody, hcolon, hvalue, hclose.last (by decide)]
  rfl

theorem members?_more {fuel : Nat} {cs value after next : List Char} {name : List StringUnit}
    {t : Tree} (hname : ∀ u ∈ name, u.Valid) (h : Spaced value [stringChars name, [':']] cs)
    (hvalue : value? fuel value = some (t, after)) (hcomma : Spaced next [[',']] after) :
    members? (fuel + 1) cs
      = (fun r => ((name.map StringUnit.asRead, t) :: r.1, r.2)) <$> members? fuel next := by
  obtain ⟨body, mid, hquote, hbody, hcolon⟩ := exists_name hname h
  rw [members?, hquote]
  simp only [hbody, hcolon, hvalue, hcomma.last (by decide)]
  rfl

/-! ## 5. Whole documents -/

/-- Every document has a character, so a depth that is enough is not zero. -/
theorem Tree.Valid.exists_depth {t : Tree} (h : t.Valid) {fuel : Nat}
    (hfuel : t.tokens.flatten.length ≤ fuel) : ∃ depth, fuel = depth + 1 := by
  obtain ⟨c, token, tokens, htokens, -, -⟩ := h.exists_tokens_eq_cons
  rw [htokens, List.flatten_cons, List.cons_append, List.length_cons] at hfuel
  exact ⟨fuel - 1, by omega⟩

mutual

/-- **A document comes back** from a text of its tokens, and what stands behind it is left. -/
theorem value?_tokens : ∀ (t : Tree) (fuel : Nat) (cs rest : List Char), t.Valid →
    Spaced rest t.tokens cs → Ends rest → t.tokens.flatten.length ≤ fuel →
    value? fuel cs = some (t.asRead, rest)
  | .null, fuel, cs, rest, ht, hcs, _, hfuel => by
    obtain ⟨fuel, rfl⟩ := ht.exists_depth hfuel
    rw [value?, hcs.last (by decide)]
    simp only [afterWord?_append]
    rfl
  | .bool true, fuel, cs, rest, ht, hcs, _, hfuel => by
    obtain ⟨fuel, rfl⟩ := ht.exists_depth hfuel
    rw [value?, hcs.last (by decide)]
    simp only [afterWord?_append]
    rfl
  | .bool false, fuel, cs, rest, ht, hcs, _, hfuel => by
    obtain ⟨fuel, rfl⟩ := ht.exists_depth hfuel
    rw [value?, hcs.last (by decide)]
    simp only [afterWord?_append]
    rfl
  | .number n, fuel, cs, rest, hn, hcs, hrest, hfuel => by
    obtain ⟨fuel, rfl⟩ := hn.exists_depth hfuel
    obtain ⟨c, tail, hn', hc⟩ := exists_numberChars_eq_cons hn
    -- A number is what is left when no other first character fits.
    have hstart := not_mem_of_numberStart hc
    simp only [List.mem_cons, not_or] at hstart
    rw [Tree.tokens, hn'] at hcs
    rw [value?_number (hcs.last (by simp [isBlank, hstart])) hc, ← List.cons_append, ← hn',
      number?_numberChars hn hrest]
    rfl
  | .string units, fuel, cs, rest, hunits, hcs, _, hfuel => by
    obtain ⟨fuel, rfl⟩ := hunits.exists_depth hfuel
    obtain ⟨body, mid, hquote, hbody, hrest⟩ := exists_string hunits hcs
    cases hrest
    rw [value?, hquote]
    simp only [hbody]
    rfl
  | .array [], fuel, cs, rest, ht, hcs, _, hfuel => by
    obtain ⟨fuel, rfl⟩ := ht.exists_depth hfuel
    obtain ⟨mid, hopen, hclose⟩ := hcs.skipBlanks (by decide)
    rw [value?, hopen]
    simp only [List.nil_append, hclose.last (by decide)]
    rfl
  | .array (t :: ts), fuel, cs, rest, hts, hcs, _, hfuel => by
    obtain ⟨fuel, rfl⟩ := hts.exists_depth hfuel
    obtain ⟨mid, hopen, hitems⟩ := hcs.skipBlanks (by decide)
    obtain ⟨c, token, tokens, hfirst, hblank, hclose⟩ := exists_itemsTokens_eq_cons hts
    have hlength : (Tree.array (t :: ts)).tokens.flatten.length
        = (itemsTokens (t :: ts)).flatten.length + 2 := by
      simp [Tree.tokens]
    -- The blanks before the first item have been skipped in the search for the closing bracket; what
    -- is left is still a text of the same tokens.
    rw [hfirst] at hitems
    obtain ⟨tail, htail, -⟩ := hitems.skipBlanks hblank
    rw [value?_items hopen (by simpa [htail] using hclose),
      items?_tokens (t :: ts) fuel _ rest (by simp) hts (hfirst ▸ hitems.skipped hblank) (by omega)]
    rfl
  | .object [], fuel, cs, rest, ht, hcs, _, hfuel => by
    obtain ⟨fuel, rfl⟩ := ht.exists_depth hfuel
    obtain ⟨mid, hopen, hclose⟩ := hcs.skipBlanks (by decide)
    rw [value?, hopen]
    simp only [List.nil_append, hclose.last (by decide)]
    rfl
  | .object (m :: ms), fuel, cs, rest, hms, hcs, _, hfuel => by
    obtain ⟨fuel, rfl⟩ := hms.exists_depth hfuel
    obtain ⟨mid, hopen, hmembers⟩ := hcs.skipBlanks (by decide)
    obtain ⟨token, tokens, hfirst⟩ := exists_membersTokens_eq_cons m ms
    have hlength : (Tree.object (m :: ms)).tokens.flatten.length
        = (membersTokens (m :: ms)).flatten.length + 2 := by
      simp [Tree.tokens]
    rw [hfirst] at hmembers
    obtain ⟨tail, htail, -⟩ := hmembers.skipBlanks (by decide)
    rw [value?_members hopen (by simp [htail]), members?_tokens (m :: ms) fuel _ rest (by simp) hms
      (hfirst ▸ hmembers.skipped (by decide)) (by omega)]
    rfl

theorem items?_tokens : ∀ (ts : List Tree) (fuel : Nat) (cs rest : List Char), ts ≠ [] →
    itemsValid ts → Spaced rest (itemsTokens ts ++ [[']']]) cs →
    (itemsTokens ts).flatten.length < fuel → items? fuel cs = some (itemsAsRead ts, rest)
  | [], _, _, _, hne, _, _, _ => absurd rfl hne
  | [t], fuel, cs, rest, _, hts, hcs, hfuel => by
    obtain ⟨fuel, rfl⟩ : ∃ depth, fuel = depth + 1 := ⟨fuel - 1, by omega⟩
    obtain ⟨mid, ht, hclose⟩ := hcs.of_append
    have hvalue := value?_tokens t fuel cs mid hts.1 ht (hclose.ends (by decide))
      (Nat.le_of_lt_succ hfuel)
    exact items?_last hvalue hclose
  | t :: u :: ts, fuel, cs, rest, _, hts, hcs, hfuel => by
    obtain ⟨fuel, rfl⟩ : ∃ depth, fuel = depth + 1 := ⟨fuel - 1, by omega⟩
    rw [itemsTokens, List.append_assoc] at hcs
    obtain ⟨after, ht, hmore⟩ := hcs.of_append
    obtain ⟨next, hcomma, hitems⟩ := @Spaced.of_append _ _ [[',']] _ hmore
    have hlength : (itemsTokens (t :: u :: ts)).flatten.length
        = t.tokens.flatten.length + 1 + (itemsTokens (u :: ts)).flatten.length := by
      simp [itemsTokens, Nat.add_assoc, Nat.add_comm 1]
    have hvalue := value?_tokens t fuel cs after hts.1 ht (hmore.ends (by decide)) (by omega)
    rw [items?_more hvalue hcomma, items?_tokens (u :: ts) fuel next rest (by simp) hts.2 hitems
      (by omega)]
    rfl

theorem members?_tokens : ∀ (ms : List (List StringUnit × Tree)) (fuel : Nat) (cs rest : List Char),
    ms ≠ [] → membersValid ms → Spaced rest (membersTokens ms ++ [['\x7d']]) cs →
    (membersTokens ms).flatten.length < fuel → members? fuel cs = some (membersAsRead ms, rest)
  | [], _, _, _, hne, _, _, _ => absurd rfl hne
  | [(name, t)], fuel, cs, rest, _, hms, hcs, hfuel => by
    obtain ⟨fuel, rfl⟩ : ∃ depth, fuel = depth + 1 := ⟨fuel - 1, by omega⟩
    obtain ⟨value, hname, hmore⟩ := @Spaced.of_append _ _ [stringChars name, [':']] _ hcs
    obtain ⟨after, ht, hclose⟩ := hmore.of_append
    have hlength : (membersTokens [(name, t)]).flatten.length
        = (stringChars name).length + 1 + t.tokens.flatten.length := by
      simp [membersTokens, Nat.add_assoc, Nat.add_comm 1]
    have hvalue := value?_tokens t fuel value after hms.2.1 ht (hclose.ends (by decide)) (by omega)
    exact members?_last hms.1 hname hvalue hclose
  | (name, t) :: m :: ms, fuel, cs, rest, _, hms, hcs, hfuel => by
    obtain ⟨fuel, rfl⟩ : ∃ depth, fuel = depth + 1 := ⟨fuel - 1, by omega⟩
    have htokens : membersTokens ((name, t) :: m :: ms) ++ [['\x7d']]
        = [stringChars name, [':']]
          ++ (t.tokens ++ [[',']] ++ (membersTokens (m :: ms) ++ [['\x7d']])) := by
      simp [membersTokens]
    rw [htokens] at hcs
    obtain ⟨value, hname, hmore⟩ := hcs.of_append
    rw [List.append_assoc] at hmore
    obtain ⟨after, ht, hmore⟩ := hmore.of_append
    obtain ⟨next, hcomma, hmembers⟩ := hmore.of_append
    have hlength : (membersTokens ((name, t) :: m :: ms)).flatten.length
        = (stringChars name).length + t.tokens.flatten.length
          + (membersTokens (m :: ms)).flatten.length + 2 := by
      simp [membersTokens]
      omega
    have hvalue := value?_tokens t fuel value after hms.2.1 ht (hmore.ends (by decide)) (by omega)
    rw [members?_more hms.1 hname hvalue hcomma, members?_tokens (m :: ms) fuel next rest (by simp)
      hms.2.2 hmembers (by omega)]
    rfl

end

/-! ## 6. Whole texts -/

/-- A text of a document: its tokens, with blanks before, between and behind them. -/
def Tree.IsText (t : Tree) (s : String) : Prop :=
  ∃ blanks, (∀ c ∈ blanks, isBlank c = true) ∧ Spaced blanks t.tokens s.toList

/-- A document with the same blanks before each of its tokens. -/
def Tree.spread (blanks : List Char) (t : Tree) : String :=
  String.ofList (t.tokens.flatMap (blanks ++ ·))

theorem Tree.isText_spread {blanks : List Char} (h : ∀ c ∈ blanks, isBlank c = true) (t : Tree) :
    t.IsText (t.spread blanks) := by
  refine ⟨[], by simp, ?_⟩
  rw [Tree.spread, String.toList_ofList, ← List.append_nil (t.tokens.flatMap _)]
  exact spaced_flatMap h [] t.tokens

/-- The compact text has no blanks at all. -/
theorem Tree.spread_nil (t : Tree) : t.spread [] = t.compact := by
  rw [Tree.spread, Tree.compact, ← t.flatten_tokens]
  simp

/-- The compact text is one of the texts. -/
theorem Tree.isText_compact (t : Tree) : t.IsText t.compact := by
  rw [← t.spread_nil]
  exact t.isText_spread (by simp)

/-- **Every text of a document** is read as that document. -/
theorem Tree.IsText.ofString? {t : Tree} {s : String} (h : t.IsText s) (ht : t.Valid) :
    Tree.ofString? s = some t.asRead := by
  obtain ⟨blanks, hblanks, hcs⟩ := h
  have hlength := hcs.length_le
  unfold Tree.ofString? Tree.ofChars?
  rw [value?_tokens t _ _ blanks ht hcs (ends_of_blank hblanks) (by omega)]
  simp only [skipBlanks_eq_nil hblanks]
  rfl

end TextTunnel.Json
