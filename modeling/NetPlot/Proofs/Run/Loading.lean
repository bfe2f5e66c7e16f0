/-
  Loading settings, and loading them again.

  1. **Made** — where no configuration is named and nothing is next to the model, the default text
     is written there.  It says what holds anyway, so settings always come of it
     (`defaultMade_of_ensureConfig`), and loading ends with an error only where nothing was
     made (`files_of_error`).

  2. **Again** — what was made is there for the next load, which reads the text that was written:
     loading from the files that a load leaves gives what it gave (`loadSettings_again`).
-/
import NetPlot.Proofs.CommandLine.Frame
import NetPlot.Proofs.Config.DefaultText

namespace NetPlot

open NetPlot.Config

/-- The path names a model file. -/
def Path.NamesModel (p : Path) : Prop := ∃ stem, p.stem? = some stem ∧ stem ≠ ""

/-- Loading made the default configuration at a location and touched no other one; the settings are
the ones without a configuration, with the values of the command line on top. -/
structure DefaultMade (fs : Files) (r : LoadRequest) (x : Loading) (l : Location) : Prop
    extends ConfigMade fs x.files r l where
  model : r.input.NamesModel
  home : x.files.home = fs.home
  others : ∀ k, k ≠ l → x.files.find? k = fs.find? k
  text : x.files.readText (configBeside r.input.directory) = .ok defaultText
  settings : ∃ s, x.result = .ok s ∧
    Settings.new? r.input r.outputDir (Config.default.apply r.overrides).1 = some s

/-! ## Making the default configuration

Two loads have to be compared, and the second starts from the files that the first has left.  So
each way through a load is stated as an equation, for what it needs of the files. -/

section

variable {fs : Files} {p : Path} {l : Location}

/-- There are settings for a path that names a model file. -/
theorem Settings.isSome_new? (input : Path) (outputDir : Option Path) (c : Config) :
    (new? input outputDir c).isSome = true ↔ input.NamesModel := by
  rw [new?, Path.NamesModel]
  split
  next hstem => simp [hstem]
  next stem hstem =>
    split
    next hempty => simp [hstem, hempty]
    next hne => simp [hstem, hne]

theorem fromUTF8?_toUTF8 (s : String) : String.fromUTF8? s.toUTF8 = some s := by
  unfold String.fromUTF8?
  rw [String.toUTF8_eq_toByteArray, dif_pos s.isValidUTF8]
  rfl

theorem readText_of_find? {text : String} {executable : Bool} (hl : fs.locate p = .ok l)
    (h : fs.find? l = some (.file text.toUTF8 executable)) : fs.readText p = .ok text := by
  rw [Files.readText, Files.read, hl]
  simp only [h, fromUTF8?_toUTF8]

theorem exists_of_find? {e : Entry} (hl : fs.locate p = .ok l) (h : fs.find? l = some e) :
    fs.exists p = true := by
  rw [Files.exists, hl]
  simp only [h, Option.isSome_some]

/-- What a text that was put where nothing was looks like from its path. -/
theorem readText_put (hl : fs.locate p = .ok l) (habsent : fs.find? l = none) (text : String) :
    (fs.put l (.file text.toUTF8 false)).exists p = true ∧
      (fs.put l (.file text.toUTF8 false)).readText p = .ok text := by
  have hfind : (fs.put l (.file text.toUTF8 false)).find? l = some (.file text.toUTF8 false) := by
    rw [Files.find?_put fs (Files.ne_nil_of_find?_eq_none habsent), if_pos rfl]
  have hl' : (fs.put l (.file text.toUTF8 false)).locate p = .ok l :=
    (Files.locate_put_iff habsent (by simp)).2 hl
  exact ⟨exists_of_find? hl' hfind, readText_of_find? hl' hfind⟩

/-- Where nothing is, the default configuration is written if the path leads anywhere. -/
theorem ensureConfig_of_absent (h : fs.exists p = false) :
    (∃ l, fs.locate p = .ok l ∧ fs.find? l = none ∧
      ensureConfig fs p = .ok (fs.put l (.file defaultText.toUTF8 false))) ∨
    ∃ e, fs.locate p = .error e ∧
      ensureConfig fs p = .error (.unwritable p (fs.reasonAgainst p e)) := by
  rw [ensureConfig, if_neg (by simp [h]), writeDefault, Files.writeText, Files.write]
  rw [Files.exists] at h
  cases hl : fs.locate p with
  | error e => exact .inr ⟨e, rfl, rfl⟩
  | ok l =>
    have habsent : fs.find? l = none := by simpa [hl] using h
    exact .inl ⟨l, rfl, habsent, by simp only [habsent]; rfl⟩

/-- The settings that come of a text which is read without a warning. -/
theorem loadConfig_of_read {text : String} {c : Config} {base : Settings} {o : Overrides}
    (htext : fs.readText p = .ok text) (hread : Config.read text = ⟨[], .ok c⟩) :
    loadConfig fs base p o = ⟨fs, (c.apply o).2, .ok { base with config := (c.apply o).1 }⟩ := by
  rw [loadConfig, htext]
  simp only [withConfig, hread, List.nil_append]

end

section

variable {fs : Files} {r : LoadRequest}

/-- Where no configuration is named, the one next to the model is read once it is made sure of. -/
theorem loadSettings_of_ensured {base : Settings} {after : Files} (hunnamed : r.config = none)
    (hbase : Settings.new? r.input r.outputDir .default = some base)
    (h : ensureConfig fs (configBeside r.input.directory) = .ok after) :
    loadSettings fs r = loadConfig after base (configBeside r.input.directory) r.overrides := by
  rw [loadSettings, hbase, hunnamed]
  simp only [Settings.inDir_of_new? hbase, h]

/-- A default configuration that cannot be made ends the load before anything is changed. -/
theorem loadSettings_of_not_ensured {base : Settings} {e : LoadError} (hunnamed : r.config = none)
    (hbase : Settings.new? r.input r.outputDir .default = some base)
    (h : ensureConfig fs (configBeside r.input.directory) = .error e) :
    loadSettings fs r = ⟨fs, [], .error e⟩ := by
  rw [loadSettings, hbase, hunnamed]
  simp only [Settings.inDir_of_new? hbase, h]

/-- Where there is no configuration, the default one is put next to the model and read, or nothing
happens if it cannot be written. -/
theorem loadSettings_of_absent {base : Settings} (hunnamed : r.config = none)
    (hbase : Settings.new? r.input r.outputDir .default = some base)
    (habsent : fs.exists (configBeside r.input.directory) = false) :
    (∃ l, fs.locate (configBeside r.input.directory) = .ok l ∧ fs.find? l = none ∧
      loadSettings fs r = loadConfig (fs.put l (.file defaultText.toUTF8 false)) base
        (configBeside r.input.directory) r.overrides) ∨
    ∃ e, fs.locate (configBeside r.input.directory) = .error e ∧ loadSettings fs r =
      ⟨fs, [], .error (.unwritable (configBeside r.input.directory)
        (fs.reasonAgainst (configBeside r.input.directory) e))⟩ := by
  rcases ensureConfig_of_absent habsent with ⟨l, hl, hnone, hensure⟩ | ⟨e, he, hensure⟩
  · exact .inl ⟨l, hl, hnone, loadSettings_of_ensured hunnamed hbase hensure⟩
  · exact .inr ⟨e, he, loadSettings_of_not_ensured hunnamed hbase hensure⟩

/-- Where something is next to the model, it is read. -/
theorem loadSettings_of_exists {base : Settings} (hunnamed : r.config = none)
    (hbase : Settings.new? r.input r.outputDir .default = some base)
    (hexists : fs.exists (configBeside r.input.directory) = true) :
    loadSettings fs r = loadConfig fs base (configBeside r.input.directory) r.overrides :=
  loadSettings_of_ensured hunnamed hbase (by rw [ensureConfig, if_pos hexists])

/-- A load leaves the files as they were, or reads the default configuration that it has put next to
the model. -/
theorem loadSettings_cases (fs : Files) (r : LoadRequest) : (loadSettings fs r).files = fs ∨
    ∃ l base, r.config = none ∧ Settings.new? r.input r.outputDir .default = some base ∧
      fs.locate (configBeside r.input.directory) = .ok l ∧ fs.find? l = none ∧
      loadSettings fs r = loadConfig (fs.put l (.file defaultText.toUTF8 false)) base
        (configBeside r.input.directory) r.overrides := by
  cases hconfig : r.config with
  | some path => exact .inl (files_loadSettings_of_config fs r hconfig)
  | none =>
    cases hbase : Settings.new? r.input r.outputDir .default with
    | none =>
      rw [loadSettings, hbase]
      exact .inl rfl
    | some base =>
      -- only here anything can be written, if nothing is there yet
      cases hexists : fs.exists (configBeside r.input.directory) with
      | true =>
        rw [loadSettings_of_exists hconfig hbase hexists]
        exact .inl (files_loadConfig ..)
      | false =>
        rcases loadSettings_of_absent hconfig hbase hexists with
          ⟨l, hl, hnone, hload⟩ | ⟨e, -, hload⟩
        · exact .inr ⟨l, base, rfl, rfl, hl, hnone, hload⟩
        · exact .inl (by rw [hload])

/-- The default configuration that was put next to the model is made there. -/
theorem defaultMade_of_eq {l : Location} {base : Settings} (hunnamed : r.config = none)
    (hbase : Settings.new? r.input r.outputDir .default = some base)
    (hl : fs.locate (configBeside r.input.directory) = .ok l) (hnone : fs.find? l = none)
    (hload : loadSettings fs r = loadConfig (fs.put l (.file defaultText.toUTF8 false)) base
      (configBeside r.input.directory) r.overrides) :
    DefaultMade fs r (loadSettings fs r) l := by
  obtain ⟨-, htext⟩ := readText_put hl hnone defaultText
  have hfind := Files.find?_put fs (Files.ne_nil_of_find?_eq_none hnone)
    (.file defaultText.toUTF8 false)
  -- the text just written is read back, and the default text is a configuration
  rw [hload, loadConfig_of_read htext read_defaultText]
  exact {
    unnamed := hunnamed
    beside := hl
    absent := hnone
    made := (hfind l).trans (if_pos rfl)
    model := (Settings.isSome_new? r.input r.outputDir .default).1 (by rw [hbase]; rfl)
    home := rfl
    others := fun k hk => (hfind k).trans (if_neg hk)
    text := htext
    settings := ⟨_, rfl, by rw [Settings.new?_eq_map, hbase, Option.map_some]⟩ }

/-! ## Loading again

What a load writes is read by the next one, and it reads as the defaults.  These are what the first
load went on with, so both give the same settings. -/

/-- Loading from the files that a load leaves gives what it gave. -/
theorem loadSettings_again (fs : Files) (r : LoadRequest) :
    loadSettings (loadSettings fs r).files r = loadSettings fs r := by
  rcases loadSettings_cases fs r with hfiles | ⟨l, base, hunnamed, hbase, hl, hnone, hload⟩
  · rw [hfiles]
  · obtain ⟨hexists, -⟩ := readText_put hl hnone defaultText
    rw [hload, files_loadConfig, loadSettings_of_exists hunnamed hbase hexists]

/-- Loading settings changes at most the default configuration next to the model: it is made where
none is named and nothing is there, unless it cannot be written.  A load that ends with an error
leaves the files as they were, and one that gives settings gives them again from the files that it
leaves, and changes nothing more. -/
theorem loadSettings_settles (fs : Files) (r : LoadRequest) :
    ((loadSettings fs r).files = fs ∨ ∃ l, DefaultMade fs r (loadSettings fs r) l) ∧
    (r.config = none → r.input.NamesModel →
      fs.exists (configBeside r.input.directory) = false →
      (∃ l, DefaultMade fs r (loadSettings fs r) l) ∨
        ∃ e, fs.locate (configBeside r.input.directory) = .error e ∧
          (loadSettings fs r).files = fs ∧ (loadSettings fs r).result =
            .error (.unwritable (configBeside r.input.directory)
              (fs.reasonAgainst (configBeside r.input.directory) e))) ∧
    (∀ e, (loadSettings fs r).result = .error e → (loadSettings fs r).files = fs) ∧
    ∀ s, (loadSettings fs r).result = .ok s →
      (loadSettings (loadSettings fs r).files r).result = .ok s ∧
        (loadSettings (loadSettings fs r).files r).files = (loadSettings fs r).files := by
  -- the frame holds on every way through the run, and the rest is read off it
  have hframe : (loadSettings fs r).files = fs ∨ ∃ l, DefaultMade fs r (loadSettings fs r) l := by
    rcases loadSettings_cases fs r with hfiles | ⟨l, base, hunnamed, hbase, hl, hnone, hload⟩
    · exact .inl hfiles
    · exact .inr ⟨l, defaultMade_of_eq hunnamed hbase hl hnone hload⟩
  refine ⟨hframe, fun hunnamed hmodel habsent => ?_, fun e he => ?_, fun s hs => ?_⟩
  · obtain ⟨base, hbase⟩ := Option.isSome_iff_exists.1
      ((Settings.isSome_new? r.input r.outputDir .default).2 hmodel)
    rcases loadSettings_of_absent hunnamed hbase habsent with
      ⟨l, hl, hnone, hload⟩ | ⟨e, he, hload⟩
    · exact .inl ⟨l, defaultMade_of_eq hunnamed hbase hl hnone hload⟩
    · exact .inr ⟨e, he, by rw [hload], by rw [hload]⟩
  · -- where the default configuration was made, there are settings
    rcases hframe with hfiles | ⟨l, hmade⟩
    · exact hfiles
    · obtain ⟨s, hs, -⟩ := hmade.settings
      cases hs.symm.trans he
  -- a second run finds the files the first has left and reads the same settings
  · rw [loadSettings_again]
    exact ⟨hs, rfl⟩

/-- In an empty directory the default configuration is made. -/
theorem defaultMade_empty : ∃ l, DefaultMade .empty ⟨⟨"m.xml"⟩, none, none, .none⟩
    (loadSettings .empty ⟨⟨"m.xml"⟩, none, none, .none⟩) l := by
  obtain ⟨-, habsent, -⟩ := loadSettings_settles .empty ⟨⟨"m.xml"⟩, none, none, .none⟩
  have hl : (Files.empty.locate (configBeside (Path.mk "m.xml").directory)).isOk = true := by
    decide +kernel
  rcases habsent rfl ⟨"m", by decide +kernel, by decide⟩ (by decide +kernel) with
    hmade | ⟨e, he, -⟩
  · exact hmade
  · cases (congrArg Except.isOk he).symm.trans hl

end

end NetPlot
