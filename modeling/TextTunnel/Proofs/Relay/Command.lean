import TextTunnel.Relay.Command

/-!
# How a relay cuts a text

A text is cut at its first two spaces, and how it is taken depends on what stands before the first
one. So a written whisper is taken as one if neither the command nor the name has a space in it.

* `RelayCommand.parse_write` -- a written whisper is taken as one.
* `firstWord` -- what stands before the first space.
* `parse_of_firstWord_ne`, `parse_of_few_spaces`, `exists_write_of_spaces` -- a text does not start
  with the command, or has not enough spaces, or is a written whisper.
* `parse_of_space_in_command`, `write_of_space_in_name` -- commands and names with spaces.
-/

namespace TextTunnel.RelayCommand

/-! ## 1. Written whispers -/

theorem cutAtSpace_append {cs rest : List Char} (h : ' ' ∉ cs) :
    cutAtSpace (cs ++ ' ' :: rest) = (cs, some rest) := by
  induction cs with
  | nil => rfl
  | cons c cs ih =>
    have hc : c ≠ ' ' := fun hc => h (hc ▸ List.mem_cons_self)
    have hcs : ' ' ∉ cs := fun hcs => h (List.mem_cons_of_mem c hcs)
    rw [List.cons_append, cutAtSpace, if_neg hc, ih hcs]

theorem toList_write (command name body : String) :
    (write command name body).toList
      = command.toList ++ ' ' :: (name.toList ++ ' ' :: body.toList) := by
  simp [write, String.toList_append]

/-- A written whisper is taken as one if neither the command nor the name has a space in it. -/
theorem parse_write {command name body : String} (hcommand : ' ' ∉ command.toList)
    (hname : ' ' ∉ name.toList) :
    parse command (write command name body) = .whisper name body := by
  rw [parse, toList_write, cutAtSpace_append hcommand]
  simp only [ne_eq, not_true_eq_false, if_false, Option.map_some, cutAtSpace_append hname,
    String.ofList_toList]

theorem body?_write {command name : String} (hcommand : ' ' ∉ command.toList)
    (hname : ' ' ∉ name.toList) (body : String) : body? (write command name body) = some body := by
  rw [body?, toList_write, cutAtSpace_append hcommand]
  simp only [Option.map_some, cutAtSpace_append hname, String.ofList_toList]

/-! ## 2. Words -/

theorem cutAtSpace_of_not_mem {cs : List Char} (h : ' ' ∉ cs) : cutAtSpace cs = (cs, none) := by
  induction cs with
  | nil => rfl
  | cons c cs ih =>
    have hc : c ≠ ' ' := fun hc => h (hc ▸ List.mem_cons_self)
    have hcs : ' ' ∉ cs := fun hcs => h (List.mem_cons_of_mem c hcs)
    rw [cutAtSpace, if_neg hc, ih hcs]

/-- What stands before the first space of a text; all of it, if there is no space. -/
def firstWord (text : String) : String :=
  String.ofList (text.toList.takeWhile (· ≠ ' '))

theorem cutAtSpace_fst (cs : List Char) : (cutAtSpace cs).1 = cs.takeWhile (· ≠ ' ') := by
  induction cs with
  | nil => rfl
  | cons c cs ih =>
    rw [cutAtSpace]
    split
    · next hc => simp [hc]
    · next hc => simp [hc, ih]

theorem space_not_mem_cutAtSpace (cs : List Char) : ' ' ∉ (cutAtSpace cs).1 := by
  rw [cutAtSpace_fst]
  intro hmem
  exact absurd (List.all_eq_true.mp List.all_takeWhile _ hmem) (by simp)

theorem cutAtSpace_fst_eq_iff {command text : String} :
    (cutAtSpace text.toList).1 = command.toList ↔ firstWord text = command := by
  rw [cutAtSpace_fst, firstWord, ← String.toList_inj, String.toList_ofList]

/-- A text that does not start with the command is no whisper. -/
theorem parse_of_firstWord_ne {command text : String} (h : firstWord text ≠ command) :
    parse command text = .broadcast := by
  rw [parse]
  exact if_pos (mt cutAtSpace_fst_eq_iff.mp h)

/-- A whisper needs two spaces. -/
theorem parse_of_few_spaces {command text : String} (h : firstWord text = command)
    (hspaces : text.toList.count ' ' < 2) : parse command text = .incomplete := by
  have hfirst : ¬ (cutAtSpace text.toList).1 ≠ command.toList :=
    not_not_intro (cutAtSpace_fst_eq_iff.mpr h)
  rw [parse]
  dsimp only
  rw [if_neg hfirst]
  by_cases hone : ' ' ∈ text.toList
  · obtain ⟨before, after, htext, hbefore⟩ := List.eq_append_cons_of_mem hone
    have hafter : ' ' ∉ after := by
      intro hmem
      have := List.count_pos_iff.mpr hmem
      rw [htext, List.count_append, List.count_cons_self] at hspaces
      omega
    rw [htext, cutAtSpace_append hbefore]
    simp only [Option.map_some, cutAtSpace_of_not_mem hafter]
  · rw [cutAtSpace_of_not_mem hone]
    rfl

/-- And what starts with the command and has two spaces is a written whisper. -/
theorem exists_write_of_spaces {command text : String} (h : firstWord text = command)
    (hspaces : 2 ≤ text.toList.count ' ') :
    ∃ name body, ' ' ∉ command.toList ∧ ' ' ∉ name.toList ∧ text = write command name body := by
  obtain ⟨first, rest, htext, hfirst⟩ :=
    List.eq_append_cons_of_mem (List.count_pos_iff.mp (Nat.lt_of_lt_of_le Nat.two_pos hspaces))
  have hrest : ' ' ∈ rest := by
    rw [htext, List.count_append, List.count_eq_zero_of_not_mem hfirst, List.count_cons_self]
      at hspaces
    exact List.count_pos_iff.mp (by omega)
  obtain ⟨name, body, hcut, hname⟩ := List.eq_append_cons_of_mem hrest
  have hcommand : first = command.toList := by
    rw [← cutAtSpace_fst_eq_iff, htext, cutAtSpace_append hfirst] at h
    exact h
  refine ⟨String.ofList name, String.ofList body, hcommand ▸ hfirst, ?_, ?_⟩
  · rwa [String.toList_ofList]
  · apply String.toList_injective
    rw [toList_write, String.toList_ofList, String.toList_ofList, htext, hcut, hcommand]

/-! ## 3. Commands and names with spaces -/

/-- No text starts with a whisper command that has a space in it. -/
theorem parse_of_space_in_command {command : String} (h : ' ' ∈ command.toList) (text : String) :
    parse command text = .broadcast := by
  refine parse_of_firstWord_ne fun heq => ?_
  exact space_not_mem_cutAtSpace text.toList (cutAtSpace_fst_eq_iff.mpr heq ▸ h)

/-- A space in the name moves what is behind it over to the body. -/
theorem write_of_space_in_name (command first rest body : String) :
    write command (first ++ " " ++ rest) body = write command first (rest ++ " " ++ body) := by
  simp only [write, String.append_assoc]

theorem exists_split_at_space {name : String} (h : ' ' ∈ name.toList) :
    ∃ first rest, ' ' ∉ first.toList ∧ name = first ++ " " ++ rest := by
  obtain ⟨before, after, hname, hbefore⟩ := List.eq_append_cons_of_mem h
  refine ⟨String.ofList before, String.ofList after, ?_, ?_⟩
  · rwa [String.toList_ofList]
  · apply String.toList_injective
    simp [hname]

end TextTunnel.RelayCommand
