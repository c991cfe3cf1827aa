import TextTunnel.Json.Read
import TextTunnel.Json.Write
import Mathlib.Tactic.SplitIfs

/-!
# Tokens and blanks

A JSON text is a row of tokens: brackets, commas and colons, words, numbers and strings. Blanks may
stand before any of them and behind the last one. The compact text has none.

* `Tree.tokens` -- the tokens of a document; `Tree.flatten_tokens` -- without blanks they are the
  compact text.
* `Spaced` -- tokens with blanks before any of them, and a rest.
* `Spaced.skipBlanks` -- a reader that skips blanks stands before the next token.
* `stringBody?_stringChars` -- strings come back, if control characters may come back by number.
-/

namespace TextTunnel.Json

open TextTunnel.Text

/-! ## 1. Tokens -/

mutual

/-- The tokens of a document. -/
def Tree.tokens : Tree → List (List Char)
  | .null => [Tree.null.chars]
  | .bool b => [(Tree.bool b).chars]
  | .number n => [numberChars n]
  | .string units => [stringChars units]
  | .array items => ['['] :: itemsTokens items ++ [[']']]
  | .object members => ['\x7b'] :: membersTokens members ++ [['\x7d']]

/-- The tokens of an array's items, with commas between them. -/
def itemsTokens : List Tree → List (List Char)
  | [] => []
  | [t] => t.tokens
  | t :: u :: ts => t.tokens ++ [','] :: itemsTokens (u :: ts)

/-- The tokens of an object's members, with commas between them. -/
def membersTokens : List (List StringUnit × Tree) → List (List Char)
  | [] => []
  | [(name, t)] => stringChars name :: [':'] :: t.tokens
  | (name, t) :: m :: ms => stringChars name :: [':'] :: t.tokens ++ [','] :: membersTokens (m :: ms)

end

mutual

/-- **The compact text** is the tokens with nothing between them. -/
theorem Tree.flatten_tokens : ∀ t : Tree, t.tokens.flatten = t.chars
  | .null => by simp [Tree.tokens]
  | .bool b => by simp [Tree.tokens]
  | .number n => by simp [Tree.tokens, Tree.chars]
  | .string units => by simp [Tree.tokens, Tree.chars]
  | .array items => by simp [Tree.tokens, Tree.chars, flatten_itemsTokens items]
  | .object members => by simp [Tree.tokens, Tree.chars, flatten_membersTokens members]

theorem flatten_itemsTokens : ∀ ts : List Tree, (itemsTokens ts).flatten = itemsChars ts
  | [] => rfl
  | [t] => by simp [itemsTokens, itemsChars, t.flatten_tokens]
  | t :: u :: ts => by
    simp [itemsTokens, itemsChars, t.flatten_tokens, flatten_itemsTokens (u :: ts)]

theorem flatten_membersTokens :
    ∀ ms : List (List StringUnit × Tree), (membersTokens ms).flatten = membersChars ms
  | [] => rfl
  | [(name, t)] => by simp [membersTokens, membersChars, t.flatten_tokens]
  | (name, t) :: m :: ms => by
    simp [membersTokens, membersChars, t.flatten_tokens, flatten_membersTokens (m :: ms)]

end

/-! ## 2. Blanks -/

/-- A text of tokens, any blanks before each of them, and a rest behind the last one. -/
inductive Spaced (rest : List Char) : List (List Char) → List Char → Prop where
  | nil : Spaced rest [] rest
  | cons {blanks token cs : List Char} {tokens : List (List Char)} :
      (∀ c ∈ blanks, isBlank c = true) → Spaced rest tokens cs →
        Spaced rest (token :: tokens) (blanks ++ (token ++ cs))

/-- The same blanks before each token. -/
theorem spaced_flatMap {blanks : List Char} (h : ∀ c ∈ blanks, isBlank c = true) (rest : List Char)
    (tokens : List (List Char)) : Spaced rest tokens (tokens.flatMap (blanks ++ ·) ++ rest) := by
  induction tokens with
  | nil => exact .nil
  | cons token tokens ih =>
    rw [List.flatMap_cons, List.append_assoc, List.append_assoc]
    exact .cons h ih

/-- What stands between two rows of tokens is the rest of the first one. -/
theorem Spaced.of_append {rest cs : List Char} {tokens more : List (List Char)}
    (h : Spaced rest (tokens ++ more) cs) :
    ∃ mid, Spaced mid tokens cs ∧ Spaced rest more mid := by
  induction tokens generalizing cs with
  | nil => exact ⟨cs, .nil, h⟩
  | cons token tokens ih =>
    cases h with
    | cons hblanks h =>
      obtain ⟨mid, hmid, hmore⟩ := ih h
      exact ⟨mid, .cons hblanks hmid, hmore⟩

theorem Spaced.length_le {rest cs : List Char} {tokens : List (List Char)}
    (h : Spaced rest tokens cs) : tokens.flatten.length ≤ cs.length := by
  induction h with
  | nil => simp
  | cons _ _ ih =>
    simp only [List.flatten_cons, List.length_append]
    omega

/-- **Skipping blanks** leads to the next token, which does not begin with one. -/
theorem Spaced.skipBlanks {rest cs token : List Char} {c : Char} {tokens : List (List Char)}
    (h : Spaced rest ((c :: token) :: tokens) cs) (hc : isBlank c = false) :
    ∃ mid, skipBlanks cs = c :: (token ++ mid) ∧ Spaced rest tokens mid := by
  cases h with
  | @cons blanks _ mid _ hblanks h =>
    refine ⟨mid, ?_, h⟩
    rw [Json.skipBlanks, List.dropWhile_append_of_pos hblanks, List.cons_append,
      List.dropWhile_cons_of_neg (by simp [hc])]

theorem skipBlanks_eq_nil {cs : List Char} (h : ∀ c ∈ cs, isBlank c = true) : skipBlanks cs = [] := by
  have hdrop := @List.dropWhile_append_of_pos _ isBlank cs [] h
  rwa [List.append_nil] at hdrop

/-! ## 3. Where a number ends -/

/-- Whether a number could go on with a character. -/
def goesOn (c : Char) : Bool := isDigit c || c = '.' || c = 'e' || c = 'E'

/-- No number goes on here. -/
def Ends (rest : List Char) : Prop := ∀ c ∈ rest.head?, goesOn c = false

theorem goesOn_of_isBlank {c : Char} (h : isBlank c = true) : goesOn c = false := by
  simp only [isBlank, Bool.or_eq_true, decide_eq_true_eq] at h
  rcases h with ((rfl | rfl) | rfl) | rfl <;> decide

theorem Ends.isDigit {rest : List Char} (h : Ends rest) : ∀ c ∈ rest.head?, isDigit c = false := by
  intro c hc
  have := h c hc
  simp only [goesOn, Bool.or_eq_false_iff] at this
  exact this.1.1.1

theorem ends_of_blank {cs : List Char} (h : ∀ c ∈ cs, isBlank c = true) : Ends cs := by
  intro c hc
  exact goesOn_of_isBlank (h c (List.mem_of_mem_head? hc))

/-- A number ends before a bracket or a comma, and before blanks in front of one. -/
theorem Spaced.ends {rest cs token : List Char} {c : Char} {tokens : List (List Char)}
    (h : Spaced rest ((c :: token) :: tokens) cs) (hc : goesOn c = false) : Ends cs := by
  cases h with
  | @cons blanks _ mid _ hblanks h =>
    cases blanks with
    | nil => simpa [Ends] using hc
    | cons b blanks => simpa [Ends] using goesOn_of_isBlank (hblanks b (by simp))

/-! ## 4. Strings -/

/-- An escape by number has four digits. -/
def StringUnit.Valid : StringUnit → Prop
  | .char _ => True
  | .code n => n < 65536

/-- Whether a character is written by number: a control character without a letter of its own. -/
def isNumbered (c : Char) : Bool :=
  c.toNat < 0x20 && ['\x08', '\x0C', '\n', '\r', '\t'].all (c ≠ ·)

/-- An element of a string as it is read again: what is written by number stays so. -/
def StringUnit.asRead : StringUnit → StringUnit
  | .char c => if isNumbered c then .code c.toNat else .char c
  | .code n => .code n

/-- The four digits of a numbered escape. -/
theorem fourDigits?_digits {n : Nat} (h : n < 65536) :
    fourDigits? (Nat.digitChar (n / 4096 % 16)) (Nat.digitChar (n / 256 % 16))
      (Nat.digitChar (n / 16 % 16)) (Nat.digitChar (n % 16)) = some n := by
  have hvalue : 4096 * (n / 4096 % 16) + 256 * (n / 256 % 16) + 16 * (n / 16 % 16) + n % 16 = n := by
    omega
  simp only [fourDigits?, hexValue?_digitChar (Nat.mod_lt _ (by decide : 0 < 16))]
  exact congrArg some hvalue

theorem stringBody?_codeEscape {n : Nat} (h : n < 65536) (cs : List Char) :
    stringBody? (codeEscape n ++ cs)
      = (stringBody? cs).map fun r => (.code n :: r.1, r.2) := by
  rw [codeEscape]
  simp only [List.cons_append, List.nil_append]
  rw [stringBody?, fourDigits?_digits h]
  cases stringBody? cs <;> rfl

theorem stringBody?_shortEscape {e c : Char} (hu : e ≠ 'u') (h : shortEscape? e = some c)
    (cs : List Char) :
    stringBody? ('\\' :: e :: cs) = (stringBody? cs).map fun r => (.char c :: r.1, r.2) := by
  rw [stringBody?.eq_4 _ _ fun _ _ _ _ _ he _ => hu he, h]
  cases stringBody? cs <;> rfl

theorem stringBody?_plain {c : Char} (hquote : c ≠ '"') (hslash : c ≠ '\\')
    (hcontrol : ¬ c.toNat < 0x20) (cs : List Char) :
    stringBody? (c :: cs) = (stringBody? cs).map fun r => (.char c :: r.1, r.2) := by
  rw [stringBody?.eq_5 _ _ hquote (fun _ _ _ _ _ h _ => hslash h) fun _ _ h _ => hslash h,
    if_neg (by simp [hslash, hcontrol])]
  cases stringBody? cs <;> rfl

/-- The three ways to write a character: with a letter, by number, and as itself. -/
theorem escapedChar_cases (c : Char) :
    (isNumbered c = false ∧ ∃ e, e ≠ 'u' ∧ shortEscape? e = some c ∧ escapedChar c = ['\\', e]) ∨
    (isNumbered c = true ∧ escapedChar c = codeEscape c.toNat) ∨
    (isNumbered c = false ∧ c ≠ '"' ∧ c ≠ '\\' ∧ ¬ c.toNat < 0x20 ∧ escapedChar c = [c]) := by
  unfold escapedChar
  split_ifs with hquote hslash hb hf hn hr ht hcontrol
  · subst hquote
    exact .inl ⟨rfl, '"', by decide, rfl, rfl⟩
  · subst hslash
    exact .inl ⟨rfl, '\\', by decide, rfl, rfl⟩
  · subst hb
    exact .inl ⟨rfl, 'b', by decide, rfl, rfl⟩
  · subst hf
    exact .inl ⟨rfl, 'f', by decide, rfl, rfl⟩
  · subst hn
    exact .inl ⟨rfl, 'n', by decide, rfl, rfl⟩
  · subst hr
    exact .inl ⟨rfl, 'r', by decide, rfl, rfl⟩
  · subst ht
    exact .inl ⟨rfl, 't', by decide, rfl, rfl⟩
  · exact .inr (.inl ⟨by simp [isNumbered, hcontrol, hb, hf, hn, hr, ht], rfl⟩)
  · exact .inr (.inr ⟨by simp [isNumbered, hcontrol], hquote, hslash, hcontrol, rfl⟩)

/-- **One element** of a string is read as it was written, a control character perhaps by number. -/
theorem stringBody?_unitChars {u : StringUnit} (hu : u.Valid) (cs : List Char) :
    stringBody? (unitChars u ++ cs)
      = (stringBody? cs).map fun r => (u.asRead :: r.1, r.2) := by
  cases u with
  | code n => exact stringBody?_codeEscape hu cs
  | char c =>
    rw [unitChars, StringUnit.asRead]
    rcases escapedChar_cases c with ⟨hc, e, he, hshort, hesc⟩ | ⟨hc, hesc⟩ |
      ⟨hc, hquote, hslash, hcontrol, hesc⟩
    · simpa [hc, hesc] using stringBody?_shortEscape he hshort cs
    · have hlt : c.toNat < 65536 := by
        simp only [isNumbered, Bool.and_eq_true, decide_eq_true_eq] at hc
        omega
      simpa [hc, hesc] using stringBody?_codeEscape hlt cs
    · simpa [hc, hesc] using stringBody?_plain hquote hslash hcontrol cs

/-- **A string** comes back, and the text behind it is left. -/
theorem stringBody?_stringChars {units : List StringUnit} (h : ∀ u ∈ units, u.Valid)
    (rest : List Char) :
    stringBody? (units.flatMap unitChars ++ '"' :: rest)
      = some (units.map StringUnit.asRead, rest) := by
  induction units with
  | nil => rfl
  | cons u units ih =>
    rw [List.flatMap_cons, List.append_assoc, stringBody?_unitChars (h u (by simp)),
      ih fun v hv => h v (by simp [hv])]
    rfl

theorem valid_of_mem_unitsOf {s : String} {u : StringUnit} (h : u ∈ unitsOf s) : u.Valid := by
  obtain ⟨c, -, rfl⟩ := List.mem_map.mp h
  trivial

/-- A numbered control character is no half of a pair. -/
theorem charsOf?_code_of_lt {n : Nat} (h : n < 0x20) (units : List StringUnit) :
    charsOf? (.code n :: units) = (Char.ofNat n :: ·) <$> charsOf? units := by
  have hhigh : isHighSurrogate n = false := by
    simp only [isHighSurrogate, Bool.and_eq_false_iff, decide_eq_false_iff_not]
    omega
  have hlow : isLowSurrogate n = false := by
    simp only [isLowSurrogate, Bool.and_eq_false_iff, decide_eq_false_iff_not]
    omega
  rw [charsOf?.eq_def]
  simp only [hhigh, hlow]
  rfl

theorem charsOf?_map_asRead (cs : List Char) :
    charsOf? (cs.map fun c => StringUnit.asRead (.char c)) = some cs := by
  induction cs with
  | nil => rfl
  | cons c cs ih =>
    rw [List.map_cons, StringUnit.asRead]
    cases hc : isNumbered c with
    | false =>
      rw [if_neg Bool.false_ne_true, charsOf?, ih]
      rfl
    | true =>
      have hlt : c.toNat < 0x20 := by
        simp only [isNumbered, Bool.and_eq_true, decide_eq_true_eq] at hc
        exact hc.1
      rw [if_pos rfl, charsOf?_code_of_lt hlt, ih, Char.ofNat_toNat]
      rfl

/-- What comes back of a text has the same characters. -/
@[simp] theorem textOf?_asRead_unitsOf (s : String) :
    textOf? ((unitsOf s).map StringUnit.asRead) = some s := by
  rw [unitsOf, List.map_map]
  simpa [textOf?] using ⟨_, charsOf?_map_asRead s.toList, String.ofList_toList⟩

end TextTunnel.Json
