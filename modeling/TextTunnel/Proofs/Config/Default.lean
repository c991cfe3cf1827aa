import TextTunnel.Config.Load
import TextTunnel.Proofs.Field.RoundTrip
import TextTunnel.Proofs.Files.Tree

/-!
# Writing the defaults

The defaults are written only where the path of the configuration leads nowhere. But that is asked
before the directories above it are made, and these can be what it takes to follow the path: with
`etc/../notes.txt` and no `etc`, the path leads nowhere until `etc` has been made, and then to
`notes.txt`, which may be there.

* `writeDefault_cases` -- the three things that a call can do.
* `load_putAt` -- the defaults come back from where they are written.
* `writeDefault_effect` -- what a call answers, what it leaves alone, and what it does not.
* `writeDefault_overwrites` -- one call that costs a file its content.
-/

namespace TextTunnel.Config

variable {env : Environment} {t t' : FileTree} {path text : String} {place q : List String}
  {e : FileEntry}

/-! ## 1. What a call can do -/

/-- The content of a file with all defaults. -/
def defaultContent : Bytes :=
  Field.utf8 (toToml {})

theorem grows_makeParents (t : FileTree) (path : String) : t.Grows (makeParents t path).2 := by
  rw [makeParents]
  split
  · exact .refl t
  · exact FileTree.grows_makeDirs _ _

/-- A file is written at the place to which its path leads once the directories above are there. -/
theorem writeFile_cases (t : FileTree) (path text : String) :
    (∃ e t', writeFile t path text = (.error e, t') ∧ t.Grows t') ∨
    (∃ t' place, t.Grows t' ∧ t'.newPlace path = .ok place ∧
      t'.entryAt place ≠ some .directory ∧
      writeFile t path text = (.ok (), t'.putAt place (.file (Field.utf8 text)))) := by
  have hgrows := grows_makeParents t path
  rw [writeFile]
  split
  · next e t' h =>
    rw [h] at hgrows
    exact .inl ⟨e, t', rfl, hgrows⟩
  · next t' h =>
    rw [h] at hgrows
    split
    · next e _ => exact .inl ⟨e, t', rfl, hgrows⟩
    · next hwrite =>
      obtain ⟨place, hplace, hdir, rfl⟩ := FileTree.write_eq_ok hwrite
      exact .inr ⟨t', place, hgrows, hplace, hdir, rfl⟩

/-- A call finds something, or fails when it has made some directories, or writes the file behind
them. -/
theorem writeDefault_cases (env : Environment) (t : FileTree) :
    (t.exists? (filePath env) = true ∧ writeDefault env t = (.ok (filePath env), t)) ∨
    (t.exists? (filePath env) = false ∧ ∃ cause t', t.Grows t' ∧
      writeDefault env t = (.error (.writeFailed (filePath env) cause), t')) ∨
    (t.exists? (filePath env) = false ∧ ∃ t' place, t.Grows t' ∧
      t'.newPlace (filePath env) = .ok place ∧ t'.entryAt place ≠ some .directory ∧
      writeDefault env t = (.ok (filePath env), t'.putAt place (.file defaultContent))) := by
  rw [writeDefault]
  split
  · next h => exact .inl ⟨h, rfl⟩
  next h =>
  have hmissing : t.exists? (filePath env) = false := by simpa using h
  rcases writeFile_cases t (filePath env) (toToml {}) with
    ⟨e, t', hfail, hgrows⟩ | ⟨t', place, hgrows, hplace, hdir, hok⟩
  · rw [hfail]
    exact .inr (.inl ⟨hmissing, e, t', hgrows, rfl⟩)
  · rw [hok]
    exact .inr (.inr ⟨hmissing, t', place, hgrows, hplace, hdir, rfl⟩)

theorem writeDefault_fst (env : Environment) (t : FileTree) :
    (writeDefault env t).1 = .ok (filePath env) ∨
      ∃ cause, (writeDefault env t).1 = .error (.writeFailed (filePath env) cause) := by
  rcases writeDefault_cases env t with
    ⟨-, hcall⟩ | ⟨-, cause, t', -, hcall⟩ | ⟨-, t', place, -, -, -, hcall⟩
  · exact .inl (congrArg Prod.fst hcall)
  · exact .inr ⟨cause, congrArg Prod.fst hcall⟩
  · exact .inl (congrArg Prod.fst hcall)

/-! ## 2. The file that is written -/

theorem ofToml?_default : ofToml? (toToml {}) = some {} := by
  decide +kernel

theorem readText_of_resolve (hplace : t.resolve path = .ok place)
    (hfile : t.entryAt place = some (.file (Field.utf8 text))) : t.readText path = .ok text := by
  have htext : String.fromUTF8? (ByteArray.mk (Field.utf8 text).toArray) = some text :=
    textOfUtf8?_utf8 text
  have hentry : t.lookUp path = .ok (.file (Field.utf8 text)) := by
    rw [FileTree.lookUp, hplace, ok_bind, hfile]
  rw [FileTree.readText, hentry, ok_bind]
  simp only [htext]

/-- The defaults come back from where they are written, under the overrides. -/
theorem load_putAt (hplace : t.newPlace (filePath env) = .ok place)
    (hdir : t.entryAt place ≠ some .directory) :
    (t.putAt place (.file defaultContent)).exists? (filePath env) = true ∧
      load env (t.putAt place (.file defaultContent)) = .ok (override env {}) := by
  have hresolve := FileTree.resolve_putAt hplace hdir (.file defaultContent)
  have hself : (t.putAt place (.file defaultContent)).entryAt place = some (.file defaultContent) :=
    FileTree.entryAt_putAt_self t _ (FileTree.ne_nil_of_entryAt hdir)
  have hexists : (t.putAt place (.file defaultContent)).exists? (filePath env) = true :=
    FileTree.exists?_eq_true.mpr ⟨place, _, hresolve, hself⟩
  refine ⟨hexists, ?_⟩
  rw [load, if_pos hexists, fromFile, readText_of_resolve hresolve hself]
  simp only [ofToml?_default]
  rfl

/-! ## 3. Calls that write and calls that do not -/

/-- The path led nowhere, and the call succeeds. -/
def Written (env : Environment) (t : FileTree) : Prop :=
  t.exists? (filePath env) = false ∧ (writeDefault env t).1 = .ok (filePath env)

theorem not_written_of_exists (h : t.exists? (filePath env) = true) : ¬ Written env t := by
  rintro ⟨hmissing, -⟩
  rw [h] at hmissing
  exact nomatch hmissing

theorem not_written_of_error {e : ConfigError} (h : (writeDefault env t).1 = .error e) :
    ¬ Written env t := by
  rintro ⟨-, hok⟩
  rw [h] at hok
  exact nomatch hok

/-- Without the file, a call makes directories at most. -/
theorem grows_of_not_written (h : ¬ Written env t) : t.Grows (writeDefault env t).2 := by
  rcases writeDefault_cases env t with
    ⟨-, hcall⟩ | ⟨-, cause, t', hgrows, hcall⟩ | ⟨hmissing, t', place, -, -, -, hcall⟩
  · rw [hcall]
    exact .refl t
  · rw [hcall]
    exact hgrows
  · exact absurd ⟨hmissing, congrArg Prod.fst hcall⟩ h

/-- The file is put at the place that its path names, once there are the directories above. -/
theorem Written.exists_putAt (h : Written env t) :
    ∃ t', t.Grows t' ∧ t'.newPlace (filePath env) = .ok (t.namedPlace (filePath env)) ∧
      t'.entryAt (t.namedPlace (filePath env)) ≠ some .directory ∧
      (writeDefault env t).2 = t'.putAt (t.namedPlace (filePath env)) (.file defaultContent) := by
  rcases writeDefault_cases env t with
    ⟨hfound, -⟩ | ⟨-, cause, t', -, hcall⟩ | ⟨-, t', place, hgrows, hplace, hdir, hcall⟩
  · exact absurd h (not_written_of_exists hfound)
  · exact absurd h (not_written_of_error (congrArg Prod.fst hcall))
  · have hnamed : place = t.namedPlace (filePath env) := by
      rw [FileTree.namedPlace, ← hgrows.start_eq]
      exact FileTree.namedPlace_of_newPlace hplace
    rw [← hnamed, hcall]
    exact ⟨t', hgrows, hplace, hdir, rfl⟩

theorem Written.entryAt_self (h : Written env t) :
    (writeDefault env t).2.entryAt (t.namedPlace (filePath env))
      = some (.file defaultContent) := by
  obtain ⟨t', -, -, hdir, heq⟩ := h.exists_putAt
  rw [heq]
  exact FileTree.entryAt_putAt_self t' _ (FileTree.ne_nil_of_entryAt hdir)

theorem Written.entryAt_of_ne (h : Written env t) (hne : q ≠ t.namedPlace (filePath env))
    (hq : t.entryAt q = some e) : (writeDefault env t).2.entryAt q = some e := by
  obtain ⟨t', hgrows, -, -, heq⟩ := h.exists_putAt
  rw [heq, FileTree.entryAt_putAt_of_ne t' _ hne]
  exact hgrows.entryAt hq

theorem Written.namedPlace_ne (h : Written env t) (hq : t.entryAt q = some .directory) :
    q ≠ t.namedPlace (filePath env) := by
  obtain ⟨t', hgrows, -, hdir, -⟩ := h.exists_putAt
  rintro rfl
  exact hdir (hgrows.entryAt hq)

/-- In a sound tree, and without `..`, nothing stood where the file is written. -/
theorem Written.namedPlace_ne_of_sound (h : Written env t) (hsound : t.Sound)
    (hdots : ".." ∉ FileTree.pathParts (filePath env)) (hq : t.entryAt q = some e) :
    q ≠ t.namedPlace (filePath env) := by
  obtain ⟨t', hgrows, hplace, -, -⟩ := h.exists_putAt
  rintro rfl
  exact not_written_of_exists (hsound.exists_of_entryAt hgrows hdots hplace hq) h

theorem Written.load (h : Written env t) :
    (writeDefault env t).2.exists? (filePath env) = true ∧
      load env (writeDefault env t).2 = .ok (override env {}) := by
  obtain ⟨t', -, hplace, hdir, heq⟩ := h.exists_putAt
  rw [heq]
  exact load_putAt hplace hdir

/-- The file that a call names is there afterwards. -/
theorem exists?_of_ok (h : (writeDefault env t).1 = .ok (filePath env)) :
    (writeDefault env t).2.exists? (filePath env) = true := by
  cases hfound : t.exists? (filePath env) with
  | true => rwa [writeDefault, if_pos hfound]
  | false => exact (Written.load ⟨hfound, h⟩).1

theorem writeDefault_of_exists (h : t.exists? (filePath env) = true) :
    writeDefault env t = (.ok (filePath env), t) := by
  rw [writeDefault, if_pos h]

/-! ## 4. All calls -/

/-- **What writing the defaults does**, for every environment and every tree of files.

A file that is there already keeps its content, except for one case: the path led nowhere, the call
succeeds, and the file stands at the place which the path names, each `..` going up by one. Then it
holds the defaults. In a sound tree this takes a path with `..` in it. -/
theorem writeDefault_effect (env : Environment) (t : FileTree) :
    let path := filePath env
    let answer := (writeDefault env t).1
    let after := (writeDefault env t).2
    (answer = .ok path ∨ ∃ cause, answer = .error (.writeFailed path cause)) ∧
    -- What is found is left as it is.
    (t.exists? path = true → answer = .ok path ∧ after = t) ∧
    -- With a path for an answer, this path leads to something, and a further call changes nothing;
    -- and if the call has written the file, the defaults come back from it.
    (answer = .ok path → after.exists? path = true ∧ writeDefault env after = (.ok path, after)) ∧
    (answer = .ok path → t.exists? path = false → load env after = .ok (override env {})) ∧
    -- Directories stay, and with an error everything does.
    (∀ q, t.entryAt q = some .directory → after.entryAt q = some .directory) ∧
    (∀ e, answer = .error e → ∀ q e', t.entryAt q = some e' → after.entryAt q = some e') ∧
    -- The files whose content changes, and what they hold then.
    (∀ q content, t.entryAt q = some (.file content) →
      (after.entryAt q = some (.file content) ↔
        ¬ (Written env t ∧ q = t.namedPlace path ∧ content ≠ defaultContent))) ∧
    (Written env t → after.entryAt (t.namedPlace path) = some (.file defaultContent)) ∧
    (t.Sound → ".." ∉ FileTree.pathParts path →
      ∀ q e, t.entryAt q = some e → after.entryAt q = some e) := by
  intro path answer after
  have hkeep : ∀ q e, (Written env t → q ≠ t.namedPlace path) → t.entryAt q = some e →
      after.entryAt q = some e := by
    intro q e hne hq
    by_cases h : Written env t
    · exact h.entryAt_of_ne (hne h) hq
    · exact (grows_of_not_written h).entryAt hq
  refine ⟨writeDefault_fst env t, fun h => ?_, fun h => ?_,
    fun h hmissing => (Written.load ⟨hmissing, h⟩).2,
    fun q hq => hkeep q _ (fun h => h.namedPlace_ne hq) hq, fun e herror q e' hq => ?_,
    fun q content hq => ?_, Written.entryAt_self, fun hsound hdots q e hq => ?_⟩
  · have hcall := writeDefault_of_exists h
    exact ⟨congrArg Prod.fst hcall, congrArg Prod.snd hcall⟩
  · have hexists := exists?_of_ok h
    exact ⟨hexists, writeDefault_of_exists hexists⟩
  · exact hkeep q e' (fun h => absurd h (not_written_of_error herror)) hq
  · constructor
    · rintro hstays ⟨h, rfl, hdiffers⟩
      have hself := h.entryAt_self
      rw [show (writeDefault env t).2.entryAt (t.namedPlace path) = _ from hstays] at hself
      cases hself
      exact hdiffers rfl
    · intro hnot
      by_cases hsame : content = defaultContent
      · by_cases h : Written env t ∧ q = t.namedPlace path
        · rw [h.2, hsame]
          exact h.1.entryAt_self
        · exact hkeep q _ (fun hw hne => h ⟨hw, hne⟩) hq
      · exact hkeep q _ (fun hw hne => hnot ⟨hw, hne, hsame⟩) hq
  · exact hkeep q e (fun h => h.namedPlace_ne_of_sound hsound hdots hq) hq

/-- The path of the configuration goes through a directory and out of it again. -/
def dotsEnv : Environment := fun name =>
  if name = "RELAYTUN_CONFIG" then some "etc/../notes.txt" else none

/-- A file, and no directory beside it. -/
def notesTree : FileTree where
  entries := [(["home"], .directory), (["home", "notes.txt"], .file (Field.utf8 "# my notes\n"))]
  workingDir := ["home"]

/-- **A file can lose its content.**  The path leads nowhere as there is no `etc`, which is made;
then the path leads to the notes. -/
theorem writeDefault_overwrites :
    notesTree.exists? (filePath dotsEnv) = false ∧
      notesTree.entryAt ["home", "notes.txt"] = some (.file (Field.utf8 "# my notes\n")) ∧
      (writeDefault dotsEnv notesTree).1.toOption = some "etc/../notes.txt" ∧
      (writeDefault dotsEnv notesTree).2.entryAt ["home", "notes.txt"] =
        some (.file defaultContent) ∧
      defaultContent ≠ Field.utf8 "# my notes\n" := by
  decide +kernel

end TextTunnel.Config
