import Mathlib.Data.List.Induction
import TextTunnel.Files.Tree
import TextTunnel.Proofs.Except

/-!
# What operations do to a tree

A path is followed through directories only. So a path that leads somewhere leads there still after
a file has been put where no directory was. Making directories adds directories, and does nothing
else, also if it fails half-way.

Where a path leads can be said from its parts alone, going up one part at each `..`; the tree says
only whether it gets there. It is with `..` that making directories can matter: `a/../b` leads
nowhere while there is no `a`, though `b` stands there.

* `Grows`, `grows_makeDirs` -- only directories are new.
* `Keeps`, `Keeps.follow` -- what every path needs that leads somewhere.
* `namedPlace`, `namedPlace_of_resolve` -- where a path leads, by its parts.
* `newPlace_eq_ok`, `resolve_putAt` -- the place of a file to be written, and that its path leads
  there afterwards.
* `Sound.exists_of_entryAt` -- in a sound tree a path without `..` leads to what stands at its place.
-/

namespace TextTunnel.FileTree

variable {t t' t'' : FileTree} {place q : List String} {path part : String}
  {parts : List String} {e : FileEntry}

/-! ## 1. Entries -/

theorem entryAt_of_ne_nil (t : FileTree) (h : place ≠ []) :
    t.entryAt place = (t.entries.find? fun e => e.1 == place).map (·.2) := by
  rw [entryAt, if_neg (by simpa using h)]

theorem ne_nil_of_entryAt (h : t.entryAt place ≠ some .directory) : place ≠ [] := by
  rintro rfl
  exact h rfl

theorem entryAt_putAt_self (t : FileTree) (e : FileEntry) (h : place ≠ []) :
    (t.putAt place e).entryAt place = some e := by
  simp [entryAt_of_ne_nil _ h, putAt]

theorem entryAt_putAt_of_ne (t : FileTree) (e : FileEntry) (h : q ≠ place) :
    (t.putAt place e).entryAt q = t.entryAt q := by
  by_cases hq : q = []
  · rw [hq]
    rfl
  have hskip : (fun e : List String × FileEntry =>
      decide ((e.1 != place) = true ∧ (e.1 == q) = true)) = fun e => e.1 == q := by
    funext e
    by_cases he : e.1 = q
    · simp [he, h]
    · simp [he]
  rw [entryAt_of_ne_nil _ hq, entryAt_of_ne_nil _ hq, putAt,
    List.find?_cons_of_neg (by simpa using Ne.symm h), List.find?_filter, hskip]

/-! ## 2. Trees that only grow -/

/-- Directories may be new, and everything else is as it was. -/
structure Grows (t t' : FileTree) : Prop where
  workingDir_eq : t'.workingDir = t.workingDir
  entryAt_cases : ∀ q, t'.entryAt q = t.entryAt q ∨
    t.entryAt q = none ∧ t'.entryAt q = some .directory

theorem Grows.refl (t : FileTree) : t.Grows t where
  workingDir_eq := rfl
  entryAt_cases _ := .inl rfl

theorem Grows.entryAt (h : t.Grows t') (hq : t.entryAt q = some e) : t'.entryAt q = some e := by
  rcases h.entryAt_cases q with heq | ⟨hnone, -⟩
  · rw [heq, hq]
  · rw [hq] at hnone
    exact nomatch hnone

theorem Grows.trans (h : t.Grows t') (h' : t'.Grows t'') : t.Grows t'' where
  workingDir_eq := h'.workingDir_eq.trans h.workingDir_eq
  entryAt_cases q := by
    rcases h'.entryAt_cases q with heq | ⟨hnone, hdir⟩
    · rw [heq]
      exact h.entryAt_cases q
    · refine .inr ⟨?_, hdir⟩
      rcases h.entryAt_cases q with heq | ⟨hnone', -⟩
      · rw [← heq, hnone]
      · exact hnone'

theorem Grows.start_eq (h : t.Grows t') (path : String) : t'.start path = t.start path := by
  rw [start, start, h.workingDir_eq]

theorem grows_putAt (h : t.entryAt place = none) : t.Grows (t.putAt place .directory) where
  workingDir_eq := rfl
  entryAt_cases q := by
    by_cases hq : q = place
    · subst hq
      exact .inr ⟨h, entryAt_putAt_self t _ (ne_nil_of_entryAt (by rw [h]; simp))⟩
    · exact .inl (entryAt_putAt_of_ne t _ hq)

/-! ## 3. Following a path -/

/-- A part that names something in a directory. -/
def IsName (part : String) : Prop :=
  part ≠ "" ∧ part ≠ "." ∧ part ≠ ".."

/-- Where a part leads. -/
def leads (place : List String) (part : String) : List String :=
  if part == "" || part == "." then place
  else if part == ".." then place.dropLast
  else place ++ [part]

/-- Where the parts of a path lead. -/
def walk (place : List String) (parts : List String) : List String :=
  parts.foldl leads place

/-- Where a path leads by its parts, each `..` going up by one. -/
def namedPlace (t : FileTree) (path : String) : List String :=
  walk (t.start path) (pathParts path)

theorem leads_of_isName (h : IsName part) : leads place part = place ++ [part] := by
  obtain ⟨hempty, hdot, hdots⟩ := h
  simp [leads, hempty, hdot, hdots]

/-- Only `..` goes up. -/
theorem prefix_leads (h : part ≠ "..") : place <+: leads place part := by
  rw [leads]
  split
  · exact List.prefix_rfl
  · rw [if_neg (by simpa using h)]
    exact List.prefix_append _ _

theorem prefix_walk (h : ".." ∉ parts) : place <+: walk place parts := by
  induction parts generalizing place with
  | nil => exact List.prefix_rfl
  | cons part parts ih =>
    rw [List.mem_cons, not_or] at h
    exact (prefix_leads (Ne.symm h.1)).trans (ih h.2)

/-- One part more: it needs a directory to stand in, and a name has to be taken there. -/
theorem follow_cons_eq_ok :
    t.follow place (part :: parts) = .ok q ↔
      t.entryAt place = some .directory ∧
        (IsName part → ∃ e, t.entryAt (place ++ [part]) = some e) ∧
        t.follow (leads place part) parts = .ok q := by
  rw [follow]
  split
  · next h => simp [h]
  · next h => simp [h]
  · next h =>
    rw [leads]
    split
    · next hstay =>
      have hname : ¬ IsName part := by
        rintro ⟨hempty, hdot, -⟩
        simp [hempty, hdot] at hstay
      simp [h, hname]
    · split
      · next hup =>
        have hname : ¬ IsName part := fun hname => hname.2.2 (by simpa using hup)
        simp [h, hname]
      · next hstay hup =>
        have hname : IsName part := by
          simp only [Bool.or_eq_true, beq_iff_eq, not_or] at hstay hup
          exact ⟨hstay.1, hstay.2, hup⟩
        cases hnext : t.entryAt (place ++ [part]) with
        | none => simp [hname, hnext]
        | some e => simp [h, hname, hnext]

theorem walk_of_follow (h : t.follow place parts = .ok q) : q = walk place parts := by
  induction parts generalizing place with
  | nil => exact (Except.ok.inj h).symm
  | cons part parts ih => exact ih (follow_cons_eq_ok.mp h).2.2

/-- The last part of a path. -/
theorem follow_concat_eq_ok :
    t.follow place (parts ++ [part]) = .ok q ↔
      ∃ parent, t.follow place parts = .ok parent ∧ t.entryAt parent = some .directory ∧
        (IsName part → ∃ e, t.entryAt (parent ++ [part]) = some e) ∧ leads parent part = q := by
  induction parts generalizing place with
  | nil =>
    rw [List.nil_append, follow_cons_eq_ok]
    simp [follow]
  | cons first parts ih =>
    rw [List.cons_append, follow_cons_eq_ok, ih]
    simp only [follow_cons_eq_ok, and_assoc, exists_and_left]

theorem namedPlace_of_resolve (h : t.resolve path = .ok q) : q = t.namedPlace path := by
  rw [resolve] at h
  split at h
  · exact nomatch h
  · exact walk_of_follow h

/-- A path leads to something if it can be followed and something stands at its end. -/
theorem exists?_eq_true :
    t.exists? path = true ↔ ∃ q e, t.resolve path = .ok q ∧ t.entryAt q = some e := by
  have hok : t.exists? path = true ↔ ∃ e, t.lookUp path = .ok e := by
    rw [exists?]
    split
    · next e he => simp [he]
    · next e he => simp [he]
  rw [hok]
  constructor
  · rintro ⟨e, he⟩
    obtain ⟨q, hq, he⟩ := bind_eq_ok.mp he
    split at he
    · next e' he' => exact ⟨q, e', hq, he'⟩
    · exact nomatch he
  · rintro ⟨q, e, hq, he⟩
    exact ⟨e, by rw [lookUp, hq, ok_bind, he]⟩

/-- Everything that can be followed can be followed still. -/
structure Keeps (t t' : FileTree) : Prop where
  directory : ∀ {q}, t.entryAt q = some .directory → t'.entryAt q = some .directory
  something : ∀ {q e}, t.entryAt q = some e → ∃ e', t'.entryAt q = some e'

theorem keeps_putAt (h : t.entryAt place ≠ some .directory) (e : FileEntry) :
    t.Keeps (t.putAt place e) where
  directory hq := by rwa [entryAt_putAt_of_ne t e (by rintro rfl; exact h hq)]
  something {q e'} hq := by
    by_cases hplace : q = place
    · subst hplace
      exact ⟨e, entryAt_putAt_self t e (ne_nil_of_entryAt h)⟩
    · exact ⟨e', by rwa [entryAt_putAt_of_ne t e hplace]⟩

theorem Keeps.follow (hk : t.Keeps t') (h : t.follow place parts = .ok q) :
    t'.follow place parts = .ok q := by
  induction parts generalizing place with
  | nil => exact h
  | cons part parts ih =>
    obtain ⟨hplace, hname, hrest⟩ := follow_cons_eq_ok.mp h
    refine follow_cons_eq_ok.mpr ⟨hk.directory hplace, fun hpart => ?_, ih hrest⟩
    obtain ⟨e, he⟩ := hname hpart
    exact hk.something he

/-! ## 4. Making directories -/

/-- The place of something new is a name in a directory that can be followed. -/
theorem newPlace_eq_ok (h : t.newPlace path = .ok place) :
    ∃ parts name parent, path ≠ "" ∧ pathParts path = parts ++ [name] ∧ IsName name ∧
      t.follow (t.start path) parts = .ok parent ∧ t.entryAt parent = some .directory ∧
      place = parent ++ [name] := by
  rw [newPlace] at h
  split at h
  · exact nomatch h
  next hpath =>
  obtain ⟨parent, hparent, h⟩ := bind_eq_ok.mp h
  split at h
  · exact nomatch h
  · exact nomatch h
  next hdir =>
  split at h
  · exact nomatch h
  next hname =>
  have hparts : pathParts path ≠ [] := by
    intro hnil
    simp [hnil] at hname
  refine ⟨(pathParts path).dropLast, (pathParts path).getLast?.getD "", parent, ?_, ?_, ?_,
    hparent, hdir, (Except.ok.inj h).symm⟩
  · rintro rfl
    exact hpath rfl
  · rw [List.getLast?_eq_some_getLast hparts, Option.getD_some,
      List.dropLast_concat_getLast hparts]
  · simp only [Bool.or_eq_true, beq_iff_eq, not_or] at hname
    exact ⟨hname.1.1, hname.1.2, hname.2⟩

theorem makeDir_eq_ok (h : t.makeDir path = .ok t') :
    ∃ place, t.newPlace path = .ok place ∧ t.entryAt place = none ∧
      t' = t.putAt place .directory := by
  rw [makeDir] at h
  split at h
  · exact nomatch h
  · exact nomatch h
  next place hplace =>
  split at h
  · exact nomatch h
  next hfree =>
  exact ⟨place, hplace, by simpa using hfree, (Except.ok.inj h).symm⟩

theorem grows_ensureDir (t : FileTree) (path : String) : t.Grows (t.ensureDir path).2 := by
  rw [ensureDir]
  split
  · next t' h =>
    obtain ⟨place, -, hfree, rfl⟩ := makeDir_eq_ok h
    exact grows_putAt hfree
  · exact .refl t

theorem grows_makeDirsFrom (fuel : Nat) (t : FileTree) (path : String) :
    t.Grows (makeDirsFrom fuel t path).2 := by
  induction fuel generalizing t path with
  | zero => exact .refl t
  | succ fuel ih =>
    rw [makeDirsFrom]
    split
    · exact .refl t
    split
    · split
      · exact .refl t
      next parent _ =>
      have habove := ih t parent
      -- The directories above are there, and then this one, or only some of them.
      split
      · next t' h =>
        rw [h] at habove
        exact habove.trans (grows_ensureDir t' path)
      · next h =>
        rw [h] at habove
        exact habove
    · exact grows_ensureDir t path

theorem grows_makeDirs (t : FileTree) (path : String) : t.Grows (t.makeDirs path).2 :=
  grows_makeDirsFrom _ t path

/-! ## 5. Writing a file -/

theorem write_eq_ok {content : Bytes} (h : t.write path content = .ok t') :
    ∃ place, t.newPlace path = .ok place ∧ t.entryAt place ≠ some .directory ∧
      t' = t.putAt place (.file content) := by
  obtain ⟨place, hplace, h⟩ := bind_eq_ok.mp h
  split at h
  · exact nomatch h
  next hdir => exact ⟨place, hplace, hdir, (Except.ok.inj h).symm⟩

/-- A new file is found under its path. -/
theorem resolve_putAt (hplace : t.newPlace path = .ok place)
    (hdir : t.entryAt place ≠ some .directory) (e : FileEntry) :
    (t.putAt place e).resolve path = .ok place := by
  have hself := entryAt_putAt_self t e (ne_nil_of_entryAt hdir)
  obtain ⟨parts, name, parent, hpath, hparts, hname, hparent, hinside, rfl⟩ :=
    newPlace_eq_ok hplace
  have hk := keeps_putAt hdir e
  rw [resolve, if_neg (by simpa using hpath), hparts, follow_concat_eq_ok]
  exact ⟨parent, hk.follow hparent, hk.directory hinside, fun _ => ⟨e, hself⟩,
    leads_of_isName hname⟩

theorem namedPlace_of_newPlace (h : t.newPlace path = .ok place) :
    place = t.namedPlace path := by
  obtain ⟨parts, name, parent, -, hparts, hname, hparent, -, rfl⟩ := newPlace_eq_ok h
  have hlast : walk parent [name] = parent ++ [name] := leads_of_isName hname
  rw [namedPlace, hparts, walk, List.foldl_append, ← hlast, walk_of_follow hparent]
  rfl

/-! ## 6. Sound trees -/

/-- Whatever stands in the tree stands in a directory. -/
def Sound (t : FileTree) : Prop :=
  ∀ place name e, t.entryAt (place ++ [name]) = some e → t.entryAt place = some .directory

theorem Sound.directory_of_prefix (ht : t.Sound) (h : place <+: q)
    (hq : t.entryAt q = some .directory) : t.entryAt place = some .directory := by
  obtain ⟨below, rfl⟩ := h
  induction below using List.reverseRecOn with
  | nil => rwa [List.append_nil] at hq
  | append_singleton below name ih =>
    rw [← List.append_assoc] at hq
    exact ih (ht _ _ _ hq)

/-- Without `..`, a directory can be followed to from everything above it. -/
theorem Sound.follow_walk (ht : t.Sound) (hparts : ".." ∉ parts)
    (hend : t.entryAt (walk place parts) = some .directory) :
    t.follow place parts = .ok (walk place parts) := by
  induction parts generalizing place with
  | nil => rfl
  | cons part parts ih =>
    have hplace := ht.directory_of_prefix (prefix_walk hparts) hend
    have hrest : ".." ∉ parts := fun h => hparts (List.mem_cons_of_mem _ h)
    refine follow_cons_eq_ok.mpr ⟨hplace, fun hname => ?_, ih hrest hend⟩
    rw [← leads_of_isName hname]
    exact ⟨_, ht.directory_of_prefix (prefix_walk hrest) hend⟩

/-- Without `..`, a path whose place is taken leads there, also in the tree as it was before some
directories came. -/
theorem Sound.exists_of_entryAt (ht : t.Sound) (hg : t.Grows t')
    (hdots : ".." ∉ pathParts path) (hplace : t'.newPlace path = .ok place)
    (hq : t.entryAt place = some e) : t.exists? path = true := by
  obtain ⟨parts, name, parent, hpath, hparts, hname, hparent, -, rfl⟩ := newPlace_eq_ok hplace
  have hinside : t.entryAt parent = some .directory := ht _ _ _ hq
  have hdots : ".." ∉ parts := fun h => hdots (hparts ▸ List.mem_append_left _ h)
  obtain rfl := walk_of_follow hparent
  rw [hg.start_eq] at hinside hq
  refine exists?_eq_true.mpr ⟨_, e, ?_, hq⟩
  rw [resolve, if_neg (by simpa using hpath), hparts, follow_concat_eq_ok]
  exact ⟨_, ht.follow_walk hdots hinside, hinside, fun _ => ⟨e, hq⟩, leads_of_isName hname⟩

end TextTunnel.FileTree
