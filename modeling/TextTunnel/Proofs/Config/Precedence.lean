import TextTunnel.Config.Load
import TextTunnel.Proofs.Config.Environment

/-!
# Which layer a setting comes from

A setting has three layers: its variable, its place in the file, and its default. The first of them
that says something decides, for each setting by itself. Only the file as a whole can be in the way:
one that cannot be read, or that has a known setting of the wrong kind, is an error, whatever the
variables say.

* `Setting` -- one setting with its layers; `Setting.maxMessageLen` and four more are all there are.
* `Setting.Chooses` -- the value on which the layers settle.
* `Usable`, `ofEntries?_eq_some_iff` -- the documents that can be read, and what is read from them.
* `load_precedence` -- loading, for every environment and every file.
-/

namespace TextTunnel

open Toml (Value)

/-! ## 1. Settings and their layers -/

/-- A setting, by its three layers. -/
structure Setting (α : Type) where
  /-- The variable that overrides it. -/
  variableName : String
  /-- What the text of the variable says, if anything. -/
  denotes : String → α → Prop
  /-- The section of the file that it is in. -/
  sectionName : String
  key : String
  /-- Where it stands if the section is an array. -/
  position : Nat
  /-- Its values as they stand in a file. -/
  written : α → Value
  written_inj : ∀ a b, written a = written b → a = b
  default : α

/-- What a section has for a setting: what stands under its key in a table, and at its position in
an array. -/
def foundIn (key : String) (position : Nat) : Option Value → Option Value
  | some (.table entries) => Toml.lookup key entries
  | some (.array items) => items[position]?
  | _ => none

namespace Setting

variable {α : Type} {s : Setting α} {env : Environment} {entries : List (String × Value)} {a b : α}

/-- A number, not negative in a file and of 64 bits in a variable. -/
def number (variableName sectionName key : String) (position default : Nat) : Setting Nat where
  variableName
  denotes := Denotes
  sectionName
  key
  position
  written n := .integer n
  written_inj _ _ h := Int.ofNat.inj (Value.integer.inj h)
  default

/-- Longest relay message. -/
def maxMessageLen : Setting Nat :=
  number "RELAYTUN_RELAY__MAX_MESSAGE_LEN" "relay" "max_message_len" 0 Wire.defaultMaxMessageLen

/-- The command for one recipient. The variable may have any text. -/
def whisperCommand : Setting String where
  variableName := "RELAYTUN_RELAY__WHISPER_COMMAND"
  denotes text command := command = text
  sectionName := "relay"
  key := "whisper_command"
  position := 1
  written := .string
  written_inj _ _ := Value.string.inj
  default := Wire.defaultWhisperCommand

/-- Seconds for which an envelope is remembered. -/
def windowSecs : Setting Nat :=
  number "RELAYTUN_ECHO__WINDOW_SECS" "echo" "window_secs" 0 Wire.defaultEchoWindowSecs

/-- Most envelopes remembered. -/
def capacity : Setting Nat :=
  number "RELAYTUN_ECHO__CAPACITY" "echo" "capacity" 1 Wire.defaultEchoCapacity

/-- Longest decompressed packet. -/
def maxDecompressedLen : Setting Nat :=
  number "RELAYTUN_LIMITS__MAX_DECOMPRESSED_LEN" "limits" "max_decompressed_len" 0
    Wire.defaultMaxDecompressedLen

/-- The variable is set and says something. -/
def Overridden (s : Setting α) (env : Environment) (a : α) : Prop :=
  ∃ text, env s.variableName = some text ∧ s.denotes text a

/-- What stands in a document for the setting. -/
def found? (s : Setting α) (entries : List (String × Value)) : Option Value :=
  foundIn s.key s.position (Toml.lookup s.sectionName entries)

/-- The value without variables: the document's, or the default if it has none. -/
def InFile (s : Setting α) (entries : List (String × Value)) (a : α) : Prop :=
  s.found? entries = some (s.written a) ∨ s.found? entries = none ∧ a = s.default

/-- What stands in the document is of the kind of the setting, if anything does. -/
def Fits (s : Setting α) (entries : List (String × Value)) : Prop :=
  ∀ v, s.found? entries = some v → ∃ a, v = s.written a

/-- The value on which the layers of a setting settle: what its variable says, or else what stands in
the document, or else the default. No other setting is asked. -/
inductive Chooses (s : Setting α) (env : Environment) (entries : List (String × Value)) : α → Prop
  | overridden {a : α} : s.Overridden env a → s.Chooses env entries a
  | written {a : α} : (∀ b, ¬ s.Overridden env b) → s.found? entries = some (s.written a) →
      s.Chooses env entries a
  | missing : (∀ b, ¬ s.Overridden env b) → s.found? entries = none →
      s.Chooses env entries s.default

theorem fits_iff : s.Fits entries ↔ ∃ a, s.InFile entries a := by
  rw [Fits]
  cases h : s.found? entries with
  | none => simp [InFile, h]
  | some v => simp [InFile, h]

theorem InFile.unique (h : s.InFile entries a) (h' : s.InFile entries b) : a = b := by
  rcases h with h | ⟨h, rfl⟩ <;> rcases h' with h' | ⟨h', rfl⟩
  · rw [h] at h'
    exact s.written_inj a b (Option.some.inj h')
  · rw [h] at h'
    exact nomatch h'
  · rw [h] at h'
    exact nomatch h'
  · rfl

theorem chooses_of_not_overridden (h : ∀ b, ¬ s.Overridden env b) :
    s.Chooses env entries a ↔ s.InFile entries a := by
  constructor
  · rintro (hover | ⟨-, hfound⟩ | ⟨-, hfound⟩)
    · exact absurd hover (h a)
    · exact .inl hfound
    · exact .inr ⟨hfound, rfl⟩
  · rintro (hfound | ⟨hfound, rfl⟩)
    · exact .written h hfound
    · exact .missing h hfound

/-- A variable in front of what there is without it. -/
theorem chooses_iff {o : Option α} {inFile : α} (ho : ∀ a, o = some a ↔ s.Overridden env a)
    (hfile : s.InFile entries inFile) : s.Chooses env entries a ↔ o.getD inFile = a := by
  cases o with
  | some b =>
    rw [Option.getD_some]
    constructor
    · rintro (hover | ⟨hnone, -⟩ | ⟨hnone, -⟩)
      · exact Option.some.inj ((ho a).mpr hover)
      · exact absurd ((ho b).mp rfl) (hnone b)
      · exact absurd ((ho b).mp rfl) (hnone b)
    · rintro rfl
      exact .overridden ((ho b).mp rfl)
  | none =>
    have hnone : ∀ b, ¬ s.Overridden env b := fun b hb => nomatch (ho b).mpr hb
    rw [Option.getD_none, chooses_of_not_overridden hnone]
    constructor
    · exact hfile.unique
    · rintro rfl
      exact hfile

end Setting

/-! ## 2. Reading a document -/

/-- A section that can be read: a table, an array of settings, or a date, which has none. -/
def IsSection : Value → Prop
  | .table _ => True
  | .array _ => True
  | .datetime _ => True
  | _ => False

/-- The three sections can be read, where they are there. -/
def SectionsRead (entries : List (String × Value)) : Prop :=
  ∀ name ∈ ["relay", "echo", "limits"], ∀ v, Toml.lookup name entries = some v → IsSection v

/-- A document that can be read: its sections can, and what it has for a setting is of the right
kind. Everything else in it may be anything. -/
structure Usable (entries : List (String × Value)) : Prop where
  sections : SectionsRead entries
  maxMessageLen : Setting.maxMessageLen.Fits entries
  whisperCommand : Setting.whisperCommand.Fits entries
  windowSecs : Setting.windowSecs.Fits entries
  capacity : Setting.capacity.Fits entries
  maxDecompressedLen : Setting.maxDecompressedLen.Fits entries

namespace Config

variable {v : Value} {entries : List (String × Value)}

theorem settings?_of_isSection (h : IsSection v) (names : List String) :
    settings? names v = some (names.zipIdx.map fun (name, i) => foundIn name i (some v)) := by
  have hnames : ∀ f : String → Option Value,
      names.map f = names.zipIdx.map fun (name, _) => f name := by
    intro f
    conv_lhs => rw [← List.zipIdx_map_fst 0 names, List.map_map]
    rfl
  cases v with
  | table entries => exact congrArg some (hnames fun name => Toml.lookup name entries)
  | array items => rfl
  | datetime text => exact congrArg some (hnames fun _ => none)
  | _ => exact h.elim

theorem settings?_of_not_isSection (h : ¬ IsSection v) (names : List String) :
    settings? names v = none := by
  cases v with
  | table entries => exact absurd trivial h
  | array items => exact absurd trivial h
  | datetime text => exact absurd trivial h
  | _ => rfl

theorem natural?_eq_some_iff {n : Nat} : natural? v = some n ↔ v = .integer n := by
  cases v with
  | integer i =>
    rw [natural?]
    simp [Value.integer?]
    omega
  | _ => simp [natural?, Value.integer?]

theorem string?_eq_some_iff {text : String} : v.string? = some text ↔ v = .string text := by
  cases v <;> simp [Value.string?]

theorem orDefault_eq_some_iff {α : Type} (s : Setting α) {read : Value → Option α} {a : α}
    (hread : ∀ v, read v = some a ↔ v = s.written a) :
    orDefault read s.default (s.found? entries) = some a ↔ s.InFile entries a := by
  rw [Setting.InFile]
  cases s.found? entries with
  | none => simp [orDefault, eq_comm]
  | some v => simp [orDefault, hread]

/-- A section is read from what is found for each of its settings; without the section nothing is
found. -/
theorem orDefault_section {β : Type} (read : Value → Option β) (default : β) {r : β}
    {found : Option Value} (names : List String) {build : List (Option Value) → Option β}
    (hread : ∀ v, read v = settings? names v >>= build)
    (hnone : build (names.map fun _ => none) = some default) :
    orDefault read default found = some r ↔
      (∀ v, found = some v → IsSection v) ∧
        build (names.zipIdx.map fun (name, i) => foundIn name i found) = some r := by
  cases found with
  | none =>
    have hnames : (names.zipIdx.map fun (name, i) => foundIn name i none)
        = names.map fun _ => none := by
      conv_rhs => rw [← List.zipIdx_map_fst 0 names, List.map_map]
      rfl
    rw [orDefault, hnames, hnone]
    exact (and_iff_right fun v hv => nomatch hv).symm
  | some v =>
    rw [orDefault, hread]
    by_cases h : IsSection v
    · simp [settings?_of_isSection h, h]
    · simp [settings?_of_not_isSection h, h]

theorem orDefault_relay? {relay : RelayConfig} :
    orDefault relay? {} (Toml.lookup "relay" entries) = some relay ↔
      (∀ v, Toml.lookup "relay" entries = some v → IsSection v) ∧
        Setting.maxMessageLen.InFile entries relay.maxMessageLen ∧
        Setting.whisperCommand.InFile entries relay.whisperCommand := by
  obtain ⟨len, command⟩ := relay
  rw [orDefault_section relay? {} ["max_message_len", "whisper_command"] (fun _ => rfl) rfl,
    ← orDefault_eq_some_iff Setting.maxMessageLen fun _ => natural?_eq_some_iff,
    ← orDefault_eq_some_iff Setting.whisperCommand fun _ => string?_eq_some_iff]
  simp [Option.bind_eq_some_iff, Setting.found?, Setting.maxMessageLen, Setting.number,
    Setting.whisperCommand]

theorem orDefault_echo? {echo : EchoConfig} :
    orDefault echo? {} (Toml.lookup "echo" entries) = some echo ↔
      (∀ v, Toml.lookup "echo" entries = some v → IsSection v) ∧
        Setting.windowSecs.InFile entries echo.windowSecs ∧
        Setting.capacity.InFile entries echo.capacity := by
  obtain ⟨secs, capacity⟩ := echo
  rw [orDefault_section echo? {} ["window_secs", "capacity"] (fun _ => rfl) rfl,
    ← orDefault_eq_some_iff Setting.windowSecs fun _ => natural?_eq_some_iff,
    ← orDefault_eq_some_iff Setting.capacity fun _ => natural?_eq_some_iff]
  simp [Option.bind_eq_some_iff, Setting.found?, Setting.windowSecs, Setting.capacity,
    Setting.number]

theorem orDefault_limits? {limits : LimitsConfig} :
    orDefault limits? {} (Toml.lookup "limits" entries) = some limits ↔
      (∀ v, Toml.lookup "limits" entries = some v → IsSection v) ∧
        Setting.maxDecompressedLen.InFile entries limits.maxDecompressedLen := by
  obtain ⟨len⟩ := limits
  rw [orDefault_section limits? {} ["max_decompressed_len"] (fun _ => rfl) rfl,
    ← orDefault_eq_some_iff Setting.maxDecompressedLen fun _ => natural?_eq_some_iff]
  simp [Option.bind_eq_some_iff, Setting.found?, Setting.maxDecompressedLen,
    Setting.number]

/-- **What is read from a document**: each setting from its own place. -/
theorem ofEntries?_eq_some_iff {c : Config} :
    ofEntries? entries = some c ↔
      SectionsRead entries ∧ Setting.maxMessageLen.InFile entries c.relay.maxMessageLen ∧
        Setting.whisperCommand.InFile entries c.relay.whisperCommand ∧
        Setting.windowSecs.InFile entries c.echo.windowSecs ∧
        Setting.capacity.InFile entries c.echo.capacity ∧
        Setting.maxDecompressedLen.InFile entries c.limits.maxDecompressedLen := by
  obtain ⟨relay, echo, limits⟩ := c
  have hsections : ofEntries? entries = some ⟨relay, echo, limits⟩ ↔
      orDefault relay? {} (Toml.lookup "relay" entries) = some relay ∧
      orDefault echo? {} (Toml.lookup "echo" entries) = some echo ∧
      orDefault limits? {} (Toml.lookup "limits" entries) = some limits := by
    simp [ofEntries?, Option.bind_eq_some_iff]
  rw [hsections, orDefault_relay?, orDefault_echo?, orDefault_limits?, SectionsRead]
  simp only [List.mem_cons, List.not_mem_nil, or_false, forall_eq_or_imp, forall_eq]
  tauto

/-- A document is usable exactly if a configuration can be read from it. -/
theorem usable_iff : Usable entries ↔ ∃ c, ofEntries? entries = some c := by
  constructor
  · rintro ⟨hsections, hlen, hcommand, hsecs, hcapacity, hbytes⟩
    obtain ⟨len, hlen⟩ := Setting.fits_iff.mp hlen
    obtain ⟨command, hcommand⟩ := Setting.fits_iff.mp hcommand
    obtain ⟨secs, hsecs⟩ := Setting.fits_iff.mp hsecs
    obtain ⟨capacity, hcapacity⟩ := Setting.fits_iff.mp hcapacity
    obtain ⟨bytes, hbytes⟩ := Setting.fits_iff.mp hbytes
    exact ⟨⟨⟨len, command⟩, ⟨secs, capacity⟩, ⟨bytes⟩⟩,
      ofEntries?_eq_some_iff.mpr ⟨hsections, hlen, hcommand, hsecs, hcapacity, hbytes⟩⟩
  · rintro ⟨c, hc⟩
    obtain ⟨hsections, hlen, hcommand, hsecs, hcapacity, hbytes⟩ := ofEntries?_eq_some_iff.mp hc
    exact ⟨hsections, Setting.fits_iff.mpr ⟨_, hlen⟩, Setting.fits_iff.mpr ⟨_, hcommand⟩,
      Setting.fits_iff.mpr ⟨_, hsecs⟩, Setting.fits_iff.mpr ⟨_, hcapacity⟩,
      Setting.fits_iff.mpr ⟨_, hbytes⟩⟩

/-! ## 3. Variables -/

variable {env : Environment}

theorem overridden_number {variableName sectionName key : String} {position default : Nat}
    (n : Nat) :
    numberIn env variableName = some n ↔
      (Setting.number variableName sectionName key position default).Overridden env n :=
  numberIn_eq_some_iff

theorem overridden_text (text : String) :
    env Setting.whisperCommand.variableName = some text ↔
      Setting.whisperCommand.Overridden env text := by
  constructor
  · exact fun h => ⟨text, h, rfl⟩
  · rintro ⟨_, h, rfl⟩
    exact h

/-! ## 4. Loading -/

/-- The document in effect: that of the file, or an empty one where there is no file. -/
def InEffect (t : FileTree) (path : String) (entries : List (String × Value)) : Prop :=
  (t.exists? path = false ∧ entries = []) ∨
  (t.exists? path = true ∧ ∃ text, t.readText path = .ok text ∧ Toml.ofString? text = some entries)

variable {t : FileTree} {c : Config}

/-- Without variables, the settings are what is read from the document in effect. -/
theorem load_of_inEffect (h : InEffect t (filePath env) entries)
    (hc : ofEntries? entries = some c) : load env t = .ok (override env c) := by
  rcases h with ⟨hmissing, rfl⟩ | ⟨hfound, text, htext, hentries⟩
  · obtain rfl : {} = c := Option.some.inj hc
    rw [load, hmissing]
    rfl
  · have hread : ofToml? text = some c := by
      rw [ofToml?, hentries]
      exact hc
    rw [load, if_pos hfound, fromFile, htext]
    simp only [hread]
    rfl

/-- A file that cannot be read decides. -/
theorem load_of_readText_error {e : FileError} (hfound : t.exists? (filePath env) = true)
    (h : t.readText (filePath env) = .error e) :
    load env t = .error (.readFailed (filePath env) e) := by
  rw [load, if_pos hfound, fromFile, h]
  rfl

/-- A file that is no usable document decides. -/
theorem load_of_not_usable {text : String} (hfound : t.exists? (filePath env) = true)
    (htext : t.readText (filePath env) = .ok text)
    (h : ∀ entries, Toml.ofString? text = some entries → ¬ Usable entries) :
    load env t = .error (.parseFailed (filePath env)) := by
  have hread : ofToml? text = none := by
    rw [ofToml?, Option.bind_eq_bind, Option.bind_eq_none_iff]
    intro entries hentries
    rw [Option.eq_none_iff_forall_ne_some]
    exact fun c hc => h entries hentries (usable_iff.mpr ⟨c, hc⟩)
  rw [load, if_pos hfound, fromFile, htext]
  simp only [hread]
  rfl

/-- **Where a configuration comes from**, for every environment and every tree of files.

A file that cannot be read, or is no usable document, is an error whatever the variables are.
Otherwise there is a configuration, and each of its settings is the one value on which the layers of
this setting settle: its variable, its place in the document, its default. -/
theorem load_precedence (env : Environment) (t : FileTree) :
    let path := filePath env
    (∀ e, t.exists? path = true → t.readText path = .error e →
      load env t = .error (.readFailed path e)) ∧
    (∀ text, t.exists? path = true → t.readText path = .ok text →
      (∀ entries, Toml.ofString? text = some entries → ¬ Usable entries) →
      load env t = .error (.parseFailed path)) ∧
    (∀ entries, InEffect t path entries → Usable entries →
      ∃ c, load env t = .ok c ∧
        (∀ len, Setting.maxMessageLen.Chooses env entries len ↔ c.relay.maxMessageLen = len) ∧
        (∀ command, Setting.whisperCommand.Chooses env entries command ↔
          c.relay.whisperCommand = command) ∧
        (∀ secs, Setting.windowSecs.Chooses env entries secs ↔ c.echo.windowSecs = secs) ∧
        (∀ capacity, Setting.capacity.Chooses env entries capacity ↔
          c.echo.capacity = capacity) ∧
        (∀ len, Setting.maxDecompressedLen.Chooses env entries len ↔
          c.limits.maxDecompressedLen = len) ∧
        override env c = c) ∧
    ∀ c, override env (override env c) = override env c := by
  refine ⟨fun e => load_of_readText_error, fun text => load_of_not_usable, ?_,
    override_override env⟩
  intro entries heffect husable
  obtain ⟨c, hc⟩ := usable_iff.mp husable
  obtain ⟨-, hlen, hcommand, hsecs, hcapacity, hbytes⟩ := ofEntries?_eq_some_iff.mp hc
  refine ⟨override env c, load_of_inEffect heffect hc, fun _ => ?_, fun _ => ?_, fun _ => ?_,
    fun _ => ?_, fun _ => ?_, override_override env c⟩
  · exact Setting.chooses_iff overridden_number hlen
  · exact Setting.chooses_iff overridden_text hcommand
  · exact Setting.chooses_iff overridden_number hsecs
  · exact Setting.chooses_iff overridden_number hcapacity
  · exact Setting.chooses_iff overridden_number hbytes

/-- One setting from a variable, which the file has too; one from the file; one whose variable says
nothing; and two that stand nowhere. -/
example :
    let settings := "[relay]\nmax_message_len = 100\n[echo]\ncapacity = 8\n"
    let tree : FileTree := ⟨[(["settings"], .file settings.toUTF8.toList)], []⟩
    let env : Environment := fun name =>
      if name = "RELAYTUN_CONFIG" then some "/settings"
      else if name = "RELAYTUN_ECHO__CAPACITY" then some "+007"
      else if name = "RELAYTUN_ECHO__WINDOW_SECS" then some "soon"
      else none
    (load env tree).toOption = some ⟨⟨100, "w"⟩, ⟨30, 7⟩, ⟨65536⟩⟩ := by
  decide +kernel

end Config

end TextTunnel
