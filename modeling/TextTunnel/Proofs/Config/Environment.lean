import Mathlib.Data.List.Induction
import Mathlib.Data.Nat.Digits.Defs
import TextTunnel.Config.Environment

/-!
# Overrides

A variable overrides a number if its text is one, and a text whatever it is.

* `Denotes`, `number?_eq_some_iff` -- the texts that are numbers.
* `override_override` -- overrides have no effect where they have been made already.
-/

namespace TextTunnel

/-- A text that is a number of 64 bits: decimal digits, at least one, with zeros in front or not,
and possibly behind a plus sign. -/
def Denotes (text : String) (n : Nat) : Prop :=
  ∃ ds : List Nat, ds ≠ [] ∧ (∀ d ∈ ds, d < 10) ∧ Nat.ofDigits 10 ds.reverse = n ∧ n < 2 ^ 64 ∧
    (text.toList = ds.map Nat.digitChar ∨ text.toList = '+' :: ds.map Nat.digitChar)

namespace Config

open TextTunnel.Text

/-! ## 1. Digits -/

theorem exists_digitChar {c : Char} (h : isDigit c = true) : ∃ d < 10, Nat.digitChar d = c := by
  simp only [isDigit, Bool.and_eq_true, decide_eq_true_eq] at h
  have hlow : 48 ≤ c.toNat := h.1
  have hhigh : c.toNat ≤ 57 := h.2
  have key : ∀ i : Fin 10, Nat.digitChar i.val = Char.ofNat (48 + i.val) := by decide
  refine ⟨c.toNat - 48, by omega, ?_⟩
  rw [key ⟨c.toNat - 48, by omega⟩, Nat.add_sub_cancel' hlow, Char.ofNat_toNat]

/-- A row of digit characters is one of digits. -/
theorem exists_digits {cs : List Char} (h : ∀ c ∈ cs, isDigit c = true) :
    ∃ ds : List Nat, (∀ d ∈ ds, d < 10) ∧ cs = ds.map Nat.digitChar := by
  induction cs with
  | nil => exact ⟨[], by simp, rfl⟩
  | cons c cs ih =>
    obtain ⟨d, hd, hc⟩ := exists_digitChar (h c List.mem_cons_self)
    obtain ⟨ds, hds, hcs⟩ := ih fun c' hc' => h c' (List.mem_cons_of_mem c hc')
    exact ⟨d :: ds, by simpa [hd] using hds, by rw [List.map_cons, hc, ← hcs]⟩

theorem decimal_digitChars {ds : List Nat} (h : ∀ d ∈ ds, d < 10) :
    decimal (ds.map Nat.digitChar) = Nat.ofDigits 10 ds.reverse := by
  induction ds using List.reverseRecOn with
  | nil => rfl
  | append_singleton ds d ih =>
    have hd : (Nat.digitChar d).toNat - 48 = d := by
      rw [Nat.toNat_digitChar_of_lt_ten (h d (by simp))]
      exact Nat.add_sub_cancel_left 48 d
    have hfront := ih fun d' hd' => h d' (List.mem_append_left _ hd')
    rw [decimal] at hfront ⊢
    rw [List.map_append, List.foldl_append, hfront,
      List.reverse_append, List.map_singleton, List.foldl_cons, List.foldl_nil, hd,
      List.reverse_singleton, List.singleton_append, Nat.ofDigits_cons, Nat.add_comm]

/-! ## 2. Numbers -/

/-- The text without a plus sign in front. -/
def withoutPlus (cs : List Char) : List Char :=
  match cs with
  | '+' :: cs => cs
  | cs => cs

theorem withoutPlus_digitChars {ds : List Nat} (h : ∀ d ∈ ds, d < 10) :
    withoutPlus (ds.map Nat.digitChar) = ds.map Nat.digitChar := by
  cases ds with
  | nil => rfl
  | cons d ds =>
    refine withoutPlus.eq_2 _ fun cs hcs => ?_
    have hplus : Nat.digitChar d = '+' := (List.cons.inj hcs).1
    have hdigit := isDigit_digitChar (h d List.mem_cons_self)
    rw [hplus] at hdigit
    exact absurd hdigit (by decide)

theorem eq_or_of_withoutPlus {cs digits : List Char} (h : withoutPlus cs = digits) :
    cs = digits ∨ cs = '+' :: digits := by
  unfold withoutPlus at h
  split at h
  · exact .inr (by rw [h])
  · exact .inl h

/-- **The variables that are numbers.** -/
theorem number?_eq_some_iff {text : String} {n : Nat} : number? text = some n ↔ Denotes text n := by
  have hnumber : number? text =
      if (withoutPlus text.toList).isEmpty ∨
          (withoutPlus text.toList).any (fun c => !isDigit c) then none
      else if decimal (withoutPlus text.toList) < 2 ^ 64 then
        some (decimal (withoutPlus text.toList))
      else none := rfl
  rw [hnumber]
  constructor
  · intro h
    split at h
    · exact nomatch h
    next hdigits =>
    simp only [not_or, List.any_eq_true, not_exists] at hdigits
    have hall : ∀ c ∈ withoutPlus text.toList, isDigit c = true := by
      intro c hc
      simpa [hc] using hdigits.2 c
    obtain ⟨ds, hds, hcs⟩ := exists_digits hall
    rw [hcs, decimal_digitChars hds] at h
    split at h
    · next hlt =>
      refine ⟨ds, ?_, hds, Option.some.inj h, Option.some.inj h ▸ hlt, eq_or_of_withoutPlus hcs⟩
      rintro rfl
      exact hdigits.1 (by rw [hcs]; rfl)
    · exact nomatch h
  · rintro ⟨ds, hne, hds, rfl, hlt, htext⟩
    have hcs : withoutPlus text.toList = ds.map Nat.digitChar := by
      rcases htext with htext | htext
      · rw [htext, withoutPlus_digitChars hds]
      · rw [htext]
        rfl
    have hdigits : ∀ c ∈ ds.map Nat.digitChar, isDigit c = true := by
      intro c hc
      obtain ⟨d, hd, rfl⟩ := List.mem_map.mp hc
      exact isDigit_digitChar (hds d hd)
    rw [hcs, decimal_digitChars hds, if_neg, if_pos hlt]
    rintro (hempty | hany)
    · exact hne (by simpa using hempty)
    · obtain ⟨c, hc, hnot⟩ := List.any_eq_true.mp hany
      simp [hdigits c hc] at hnot

theorem numberIn_eq_some_iff {env : Environment} {name : String} {n : Nat} :
    numberIn env name = some n ↔ ∃ text, env name = some text ∧ Denotes text n := by
  simp only [numberIn, Option.bind_eq_bind, Option.bind_eq_some_iff, number?_eq_some_iff]

/-! ## 3. All settings -/

/-- **Overriding twice is overriding once.** -/
theorem override_override (env : Environment) (c : Config) :
    override env (override env c) = override env c := by
  have hkeep : ∀ {α : Type} (o : Option α) (a : α), o.getD (o.getD a) = o.getD a := by
    intro α o a
    cases o <;> rfl
  simp only [override, hkeep]

end Config

end TextTunnel
