/-
  What a run changes.

  1. **Loading** — the files are left as they are, but for the default configuration, which is made
     next to the model if no other is named and there is none (`files_loadSettings`).  Settings come
     of the text in the configuration file, with the values of the command line on top
     (`loadSettings_eq_ok_iff`).

  2. **Plotting** — a run is `Drawn` if loading and compiling give settings and a graph
     (`plot_of_drawn`), and else it ends before anything is put out (`plot_of_not_drawn`).

  3. **Frame** — so a run that puts out DOT text or a dump changes at most two locations, the second
     one only if a graph was there to be written (`frame_of_run`).

  **The crux** — the two locations are never the same, because the names that they end in differ
  (`ne_of_configMade`).  So the DOT text cannot take the place of the configuration, whatever paths
  are given.
-/
import NetPlot.CommandLine.Run
import NetPlot.Proofs.Answer
import NetPlot.Proofs.Host.Places

namespace NetPlot

open NetPlot.Config NetPlot.Network

/-! ## Loading

There is one place where loading writes, `ensureConfig`, and it does so only where nothing is. So
the files before and after differ in one location at most, and that location is known. -/

/-- The configuration file of a run: the one that is named, or else the one next to the model. -/
def LoadRequest.configPath (r : LoadRequest) : Path :=
  r.config.getD (configBeside r.input.directory)

/-- The default configuration is made at a location: next to the model, where nothing was, and with
no other configuration named. -/
structure ConfigMade (fs after : Files) (r : LoadRequest) (l : Location) : Prop where
  unnamed : r.config = none
  beside : fs.locate (configBeside r.input.directory) = .ok l
  absent : fs.find? l = none
  made : after.find? l = some (.file defaultText.toUTF8 false)

/-- Components are looked for next to the model. -/
theorem Settings.inDir_of_new? {input : Path} {outputDir : Option Path} {c : Config} {s : Settings}
    (h : new? input outputDir c = some s) : s.inDir = input.directory := by
  rw [new?] at h
  split at h
  · cases h
  · split at h <;> cases h
    rfl

/-- The configuration of settings has no part in whether there are any. -/
theorem Settings.new?_eq_map (input : Path) (outputDir : Option Path) (c : Config) :
    new? input outputDir c =
      (new? input outputDir .default).map fun s => { s with config := c } := by
  rw [new?, new?]
  split
  · rfl
  · split <;> rfl

/-- Reading a configuration writes nothing. -/
theorem files_loadConfig (fs : Files) (s : Settings) (path : Path) (o : Overrides) :
    (loadConfig fs s path o).files = fs := by
  rw [loadConfig]
  split <;> rfl

/-- Settings are loaded from a file if its text is a configuration. -/
theorem loadConfig_eq_ok_iff {fs : Files} {base s : Settings} {path : Path} {o : Overrides} :
    (loadConfig fs base path o).result = .ok s ↔
      ∃ text c, fs.readText path = .ok text ∧ (Config.read text).result = .ok c ∧
        { base with config := (c.apply o).1 } = s := by
  rw [loadConfig]
  cases fs.readText path with
  | error e => simp
  | ok text =>
    simp only [withConfig]
    cases hc : (Config.read text).result with
    | error e => simp [hc]
    | ok c => simp [hc]

/-- A configuration is made only where nothing is. -/
theorem ensureConfig_eq_ok {fs after : Files} {p : Path} (h : ensureConfig fs p = .ok after) :
    after = fs ∨ ∃ l, fs.locate p = .ok l ∧ fs.find? l = none ∧
      after = fs.put l (.file defaultText.toUTF8 false) := by
  rw [ensureConfig] at h
  -- either there is a file at the path and nothing is done, or the default text is written
  split at h
  · cases h
    exact .inl rfl
  next hexists =>
    rw [Files.exists] at hexists
    rw [writeDefault, Files.writeText, Files.write] at h
    split at hexists
    next e hl =>
      rw [hl] at h
      cases h
    -- the path leads to a place where there was nothing, and that place is all that is written
    next l hl =>
      have habsent : fs.find? l = none := by simpa using hexists
      simp only [hl, habsent] at h
      cases h
      exact .inr ⟨l, hl, habsent, rfl⟩

/-- Where no configuration could be made, none can be read. -/
theorem readText_of_ensureConfig_error {fs : Files} {p : Path} {e : LoadError}
    (h : ensureConfig fs p = .error e) : ∃ cause, fs.readText p = .error cause := by
  rw [ensureConfig] at h
  split at h
  · cases h
  next hexists =>
    rw [Files.exists] at hexists
    rw [Files.readText, Files.read]
    split at hexists
    -- the path leads nowhere, or to a place where there is nothing to read
    next cause hl => exact ⟨cause, rfl⟩
    next l hl =>
      have habsent : fs.find? l = none := by simpa using hexists
      exact ⟨.notFound, by simp only [habsent]⟩

/-- Loading leaves the files as they are, or makes a default configuration where there is none. -/
theorem files_loadSettings (fs : Files) (r : LoadRequest) : (loadSettings fs r).files = fs ∨
    ∃ l, r.config = none ∧ fs.locate (configBeside r.input.directory) = .ok l ∧
      fs.find? l = none ∧ (loadSettings fs r).files = fs.put l (.file defaultText.toUTF8 false) := by
  cases hconfig : r.config with
  -- a configuration that is named is only read
  | some path => exact .inl (files_loadSettings_of_config fs r hconfig)
  | none =>
    rw [loadSettings]
    split
    · exact .inl rfl
    next base hbase =>
      rw [Settings.inDir_of_new? hbase, hconfig]
      dsimp only
      split
      · exact .inl rfl
      next after hafter =>
        -- reading changes nothing, so only the default made before it can show
        rw [files_loadConfig]
        rcases ensureConfig_eq_ok hafter with h | ⟨l, hl, habsent, h⟩
        · exact .inl h
        · exact .inr ⟨l, rfl, hl, habsent, h⟩

section

variable {fs : Files} {r : LoadRequest}

/-- What loading changes is the default configuration that it makes. -/
theorem configMade_of_loadSettings {l : Location}
    (h : (loadSettings fs r).files.find? l ≠ fs.find? l) :
    ConfigMade fs (loadSettings fs r).files r l := by
  rcases files_loadSettings fs r with heq | ⟨k, hunnamed, hk, habsent, heq⟩
  · exact absurd (by rw [heq]) h
  · have hfind := Files.find?_put fs (Files.ne_nil_of_find?_eq_none habsent)
      (.file defaultText.toUTF8 false) l
    rw [← heq] at hfind
    -- the one place that was written is this one, since any other reads as before
    by_cases hl : l = k
    · subst hl
      rw [if_pos rfl] at hfind
      exact ⟨hunnamed, hk, habsent, hfind⟩
    · rw [if_neg hl] at hfind
      exact absurd hfind h

/-- Loading changes where no path leads. -/
theorem locate_loadSettings {p : Path} {l : Location} :
    (loadSettings fs r).files.locate p = .ok l ↔ fs.locate p = .ok l := by
  rcases files_loadSettings fs r with heq | ⟨k, -, -, habsent, heq⟩
  · rw [heq]
  · rw [heq]
    exact Files.locate_put_iff habsent (by simp)

/-- Settings are loaded if the configuration file has a configuration in it, and they have that
configuration with the values of the command line on top. -/
theorem loadSettings_eq_ok_iff {s : Settings} : (loadSettings fs r).result = .ok s ↔
    ∃ text c, (loadSettings fs r).files.readText r.configPath = .ok text ∧
      (Config.read text).result = .ok c ∧
      Settings.new? r.input r.outputDir (c.apply r.overrides).1 = some s := by
  simp only [Settings.new?_eq_map r.input r.outputDir (Config.apply _ _).1]
  rw [loadSettings, LoadRequest.configPath]
  cases hbase : Settings.new? r.input r.outputDir .default with
  | none => simp
  | some base =>
    simp only [Option.map_some, Option.some.injEq, ← Settings.inDir_of_new? hbase]
    cases r.config with
    | some path => simp only [files_loadConfig, Option.getD_some, loadConfig_eq_ok_iff]
    | none =>
      simp only [Option.getD_none]
      -- where no default can be made there is no text to read either, so the right side fails as
      -- well
      cases hensure : ensureConfig fs (configBeside base.inDir) with
      | error e =>
        obtain ⟨cause, hcause⟩ := readText_of_ensureConfig_error hensure
        simp [hcause]
      | ok after => simp only [files_loadConfig, loadConfig_eq_ok_iff]

end

namespace CommandLine

/-! ## Plotting

A run is split at the graph.  Up to there only the settings are loaded, and whatever is put out
later is put out of that graph. -/

/-- The DOT file of a run: the name of the model's root, where the output goes. -/
def dotFile? (o : Options) (input : String) : Option Path :=
  (Settings.new? ⟨input⟩ (o.output.map Path.mk) .default).map (·.outputFile "dot")

/-- The files when the settings are loaded. -/
def settled (fs : Files) (o : Options) (input : String) : Files :=
  (loadSettings fs (loadRequest o input)).files

/-- Loading and compiling give settings and a graph: the settings have the configuration of the file
with the values of the command line on top. -/
structure Drawn (fs : Files) (o : Options) (input : String) (s : Settings) (g : Graph) : Prop where
  settings : ∃ text c, (settled fs o input).readText (loadRequest o input).configPath = .ok text ∧
    (Config.read text).result = .ok c ∧
    Settings.new? ⟨input⟩ (o.output.map Path.mk) (c.apply o.overrides).1 = some s
  graph : (compileAs o.mode (settled fs o input).source s).outcome = .ok g

section

variable (launch : Launcher) {fs : Files} {o : Options} {input : String} {s : Settings} {g : Graph}

/-- A graph is drawn exactly if loading gives the settings and compiling under them gives the graph.
-/
theorem drawn_iff : Drawn fs o input s g ↔
    (loadSettings fs (loadRequest o input)).result = .ok s ∧
      compileModel (settled fs o input) o.mode s = .ok g := by
  have hcompile : compileModel (settled fs o input) o.mode s = .ok g ↔
      (compileAs o.mode (settled fs o input).source s).outcome = .ok g := by
    rw [compileModel]
    cases (compileAs o.mode (settled fs o input).source s).outcome with
    | error t => exact ⟨nofun, nofun⟩
    | ok g' => exact ⟨fun h => congrArg _ (Except.ok.inj h), fun h => congrArg _ (Except.ok.inj h)⟩
  rw [hcompile, loadSettings_eq_ok_iff]
  exact ⟨fun h => ⟨h.settings, h.graph⟩, fun h => ⟨h.1, h.2⟩⟩

/-- The configuration has no part in where the DOT file is. -/
theorem Drawn.dotFile?_eq (h : Drawn fs o input s g) :
    dotFile? o input = some (s.outputFile "dot") := by
  obtain ⟨_, c, -, -, hs⟩ := h.settings
  rw [Settings.new?_eq_map] at hs
  obtain ⟨base, hbase, rfl⟩ := Option.map_eq_some_iff.1 hs
  rw [dotFile?, hbase]
  rfl

/-- A graph that is drawn is put out. -/
theorem plot_of_drawn (h : Drawn fs o input s g) :
    (plot launch fs o input).files = (emit launch (settled fs o input) o s g).1 ∧
      (plot launch fs o input).result = (emit launch (settled fs o input) o s g).2 := by
  obtain ⟨hload, hcompile⟩ := drawn_iff.1 h
  -- the plot compiles with the files that loading has left
  rw [settled] at hcompile ⊢
  rw [plot]
  simp only [hload, hcompile]
  exact ⟨trivial, trivial⟩

/-- Without a graph nothing is put out. -/
theorem plot_of_not_drawn (h : ∀ s g, ¬ Drawn fs o input s g) :
    (plot launch fs o input).files = settled fs o input ∧
      ∃ messages, (plot launch fs o input).result = .error messages := by
  rw [plot, settled]
  dsimp only
  split
  next e _ => exact ⟨rfl, e.messages, rfl⟩
  next s hload =>
    split
    next messages _ => exact ⟨rfl, messages, rfl⟩
    next g hcompile => exact absurd (drawn_iff.2 ⟨hload, hcompile⟩) (h s g)

end

/-! ## The run -/

section

variable (launch : Launcher) (fs : Files) {args : List String} {o : Options}

/-- Arguments that do not ask for a configuration name a model. -/
theorem exists_input_of_read (h : read args = .ok o) (hgenerate : o.generateConfig = false) :
    ∃ input, o.input = some input := by
  rw [read] at h
  split at h
  · cases h
  -- a command line without a model is refused unless it asks for a configuration
  next d _ =>
    split at h
    · cases h
    next hinput =>
      cases h
      rw [hgenerate, Bool.not_false, Bool.and_true, Option.isNone_iff_eq_none] at hinput
      exact Option.ne_none_iff_exists'.1 hinput

/-- A command line that is not accepted, or asks for help, changes nothing. -/
theorem files_run_of_stop {stop : Stop} (h : read args = .error stop) :
    (run launch fs args).files = fs := by
  rw [run, h]
  cases stop <;> rfl

/-- Without a log, a run leaves the files as its plot leaves them, and its exit code says whether
that came out. -/
theorem run_of_read {input : String} (h : read args = .ok o) (hinput : o.input = some input)
    (hgenerate : o.generateConfig = false) (hlog : o.log = false) :
    (run launch fs args).files = (plot launch fs o input).files ∧
      (run launch fs args).exitCode =
        if (plot launch fs o input).result.isOk then 0 else 1 := by
  have hlogFile : logFile? o = none := by rw [logFile?, hlog]; rfl
  rw [run, h]
  simp only [runOptions, openLog, hlogFile, perform, hgenerate, hinput, finish]
  cases (plot launch fs o input).result <;> exact ⟨rfl, rfl⟩

end

/-! ## Frame

`Spared` is what holds once the settings are loaded, and `Framed` what holds at the end.  Both speak
about the locations whose contents differ from before, so a location that no one mentions is one
that stays as it was. -/

/-- The DOT text of a graph is in the DOT file, and the graph is what loading and compiling gave. -/
def DotWritten (fs after : Files) (o : Options) (input : String) (l : Location) : Prop :=
  ∃ s g p executable, Drawn fs o input s g ∧ dotFile? o input = some p ∧ fs.locate p = .ok l ∧
    after.find? l = some (.file g.toDot.toUTF8 executable)

/-- At most a default configuration is made: what there was is left as it was, and so is the place of
the DOT file. -/
structure Spared (fs after : Files) (o : Options) (input : String) : Prop where
  changes : ∀ l, after.find? l ≠ fs.find? l → ConfigMade fs after (loadRequest o input) l
  entries : ∀ l e, fs.find? l = some e → after.find? l = some e
  output : ∀ p l, dotFile? o input = some p → fs.locate p = .ok l → after.find? l = fs.find? l

/-- At most a default configuration is made and the DOT file written; without a graph not even
that.  A run that ends well has the DOT text of its graph in the DOT file, unless whatever is
written there gets lost. -/
structure Framed (fs : Files) (o : Options) (input : String) (x : Outcome) : Prop where
  changes : ∀ l, x.files.find? l ≠ fs.find? l →
    ConfigMade fs x.files (loadRequest o input) l ∨ DotWritten fs x.files o input l
  output : ∀ p l, dotFile? o input = some p → fs.locate p = .ok l →
    x.files.find? l ≠ fs.find? l → DotWritten fs x.files o input l
  failing : (∀ s g, ¬ Drawn fs o input s g) → x.exitCode = 1 ∧ Spared fs x.files o input
  success : x.exitCode = 0 → ∃ p l, dotFile? o input = some p ∧ fs.locate p = .ok l ∧
    (DotWritten fs x.files o input l ∨ fs.find? l = some .void)

section

variable {launch : Launcher} {fs : Files} {o : Options} {input : String}

/-- No configuration is made where the DOT file is. -/
theorem ne_of_configMade {after : Files} {p : Path} {k l : Location}
    (hk : ConfigMade fs after (loadRequest o input) k) (hp : dotFile? o input = some p)
    (hl : fs.locate p = .ok l) : l ≠ k := by
  obtain ⟨s, hs, rfl⟩ := Option.map_eq_some_iff.1 hp
  have hdot := Files.getLast?_of_locate_join hl (Settings.isPlain_dot hs)
  have hconfig : k.getLast? = some fileName :=
    Files.getLast?_of_locate_join hk.beside ⟨by decide, by decide, by decide, by decide⟩
  rintro rfl
  rw [hdot, Option.some.injEq] at hconfig
  -- the name of the DOT file ends in another letter
  have hlast : (s.rootName ++ "." ++ "dot").toList.getLast? = some 't' := by
    rw [String.toList_append, List.getLast?_append]
    rfl
  rw [hconfig] at hlast
  revert hlast
  decide

/-- Loading spares the files. -/
theorem spared_settled : Spared fs (settled fs o input) o input where
  changes _ h := configMade_of_loadSettings h
  entries l e he := by
    -- what differs has been made, and things are made only where nothing was
    refine Classical.byContradiction fun hne => ?_
    have hmade : ConfigMade fs (settled fs o input) (loadRequest o input) l :=
      configMade_of_loadSettings fun heq => hne (heq.trans he)
    rw [hmade.absent] at he
    cases he
  output p l hp hl := by
    refine Classical.byContradiction fun hne => ?_
    exact ne_of_configMade (configMade_of_loadSettings hne) hp hl rfl

/-- A graph as DOT text is written to the DOT file, or else nothing is. -/
theorem emit_of_raw (launch : Launcher) (gs : Files) (s : Settings) (g : Graph)
    (hdump : o.dumpGraph = false) (hraw : o.raw = true) :
    ((emit launch gs o s g).1 = gs ∧ ∃ messages, (emit launch gs o s g).2 = .error messages) ∨
      gs.writeText (s.outputFile "dot") g.toDot = .ok (emit launch gs o s g).1 := by
  simp only [emit, writeSource, outputFile, hdump, hraw, if_true, Bool.false_eq_true, if_false]
  cases gs.writeText (s.outputFile "dot") g.toDot with
  | error e => exact .inl ⟨rfl, _, rfl⟩
  | ok fs => exact .inr rfl

/-- A graph that is written is in the DOT file, unless what is written there gets lost, and all else
is as loading left it. -/
theorem dotWritten_of_writeText {after : Files} {s : Settings} {g : Graph}
    (hdrawn : Drawn fs o input s g)
    (hwrite : (settled fs o input).writeText (s.outputFile "dot") g.toDot = .ok after) :
    ∃ l, fs.locate (s.outputFile "dot") = .ok l ∧
      ((fs.find? l = some .void ∧ after = settled fs o input) ∨
        DotWritten fs after o input l ∧
          ∀ k, k ≠ l → after.find? k = (settled fs o input).find? k) := by
  obtain ⟨l, hl, hafter⟩ := Files.find?_write hwrite
  replace hl : fs.locate (s.outputFile "dot") = .ok l := locate_loadSettings.1 hl
  refine ⟨l, hl, ?_⟩
  -- a place that keeps nothing, or the text with all other places as they were
  rcases hafter with ⟨hvoid, heq⟩ | ⟨executable, hfind⟩
  · rw [spared_settled.output _ l hdrawn.dotFile?_eq hl] at hvoid
    exact .inl ⟨hvoid, heq⟩
  · have hfile : after.find? l = some (.file g.toDot.toUTF8 executable) := by
      rw [hfind, if_pos rfl]
    have hothers : ∀ k, k ≠ l → after.find? k = (settled fs o input).find? k := fun k hk => by
      rw [hfind, if_neg hk]
    exact .inr ⟨⟨s, g, _, executable, hdrawn, hdrawn.dotFile?_eq, hl, hfile⟩, hothers⟩

/-- A run that stops when its settings are loaded changes no more than loading does. -/
theorem framed_of_settled {x : Outcome} (hfiles : x.files = settled fs o input)
    (hcode : x.exitCode = 1) : Framed fs o input x where
  changes l h := .inl (hfiles ▸ spared_settled.changes l (hfiles ▸ h))
  output p l hp hl h := absurd (spared_settled.output p l hp hl) (hfiles ▸ h)
  failing _ := ⟨hcode, hfiles ▸ spared_settled⟩
  success h := absurd (hcode.symm.trans h) (by decide)

/-- A run that writes its graph changes the DOT file beside that. -/
theorem framed_of_written {x : Outcome} {s : Settings} {g : Graph} (hdrawn : Drawn fs o input s g)
    (hwrite : (settled fs o input).writeText (s.outputFile "dot") g.toDot = .ok x.files) :
    Framed fs o input x := by
  obtain ⟨l, hl, hwritten⟩ := dotWritten_of_writeText hdrawn hwrite
  -- a changed place is the one the drawing went to, or was changed before while the settings were
  -- read
  have hchanges : ∀ k, x.files.find? k ≠ fs.find? k →
      ConfigMade fs x.files (loadRequest o input) k ∨ DotWritten fs x.files o input k := by
    intro k hk
    rcases hwritten with ⟨-, heq⟩ | ⟨hdot, hothers⟩
    · rw [heq] at hk ⊢
      exact .inl (spared_settled.changes k hk)
    · by_cases hkl : k = l
      · exact .inr (hkl ▸ hdot)
      · rw [hothers k hkl] at hk
        obtain ⟨hunnamed, hbeside, habsent, hmade⟩ := spared_settled.changes k hk
        exact .inl ⟨hunnamed, hbeside, habsent, (hothers k hkl).trans hmade⟩
  -- the drawing has gone to its place, unless the place is one that keeps nothing
  refine ⟨hchanges, fun p k hp hk hne => ?_, fun hnot => absurd hdrawn (hnot s g), fun _ => ?_⟩
  · exact (hchanges k hne).resolve_left fun hmade => ne_of_configMade hmade hp hk rfl
  · refine ⟨_, l, hdrawn.dotFile?_eq, hl, ?_⟩
    rcases hwritten with ⟨hvoid, -⟩ | ⟨hdot, -⟩
    · exact .inr hvoid
    · exact .inl hdot

/-- Whatever comes of a plot of DOT text, it keeps within its frame. -/
theorem framed_plot {x : Outcome} (hdump : o.dumpGraph = false) (hraw : o.raw = true)
    (hfiles : x.files = (plot launch fs o input).files)
    (hcode : x.exitCode = if (plot launch fs o input).result.isOk then 0 else 1) :
    Framed fs o input x := by
  -- a graph is written or refused by the system; without one nothing is tried
  by_cases hdrawn : ∃ s g, Drawn fs o input s g
  · obtain ⟨s, g, hdrawn⟩ := hdrawn
    obtain ⟨hplot, hresult⟩ := plot_of_drawn launch hdrawn
    rcases emit_of_raw launch (settled fs o input) s g hdump hraw with
      ⟨hemit, messages, hfailed⟩ | hwrite
    · refine framed_of_settled (hfiles.trans (hplot.trans hemit)) ?_
      rw [hcode, hresult, hfailed]
      rfl
    · rw [← hplot, ← hfiles] at hwrite
      exact framed_of_written hdrawn hwrite
  · have hnot : ∀ s g, ¬ Drawn fs o input s g := fun s g h => hdrawn ⟨s, g, h⟩
    obtain ⟨hplot, messages, hfailed⟩ := plot_of_not_drawn launch hnot
    refine framed_of_settled (hfiles.trans hplot) ?_
    rw [hcode, hfailed]
    rfl

/-- A plot that is dumped is not put into files. -/
theorem spared_plot (hdump : o.dumpGraph = true) :
    Spared fs (plot launch fs o input).files o input := by
  have hplot : (plot launch fs o input).files = settled fs o input := by
    by_cases hdrawn : ∃ s g, Drawn fs o input s g
    · obtain ⟨s, g, hdrawn⟩ := hdrawn
      rw [(plot_of_drawn launch hdrawn).1, emit, hdump]
      rfl
    · exact (plot_of_not_drawn launch fun s g h => hdrawn ⟨s, g, h⟩).1
  rw [hplot]
  exact spared_settled

end

/-- **Frame.**  A run for DOT text changes at most two files: the default configuration next to the
model, which is made only if no other is named and nothing is there, and the DOT file, which then
has the text of the graph that loading and compiling gave.  If they give none, the run fails and
leaves all that there was and the DOT file as they were; so does a run for a dump, whatever comes of
it, and arguments that cannot be understood change nothing at all. -/
theorem frame_of_run (launch : Launcher) (fs : Files) (args : List String) :
    (∀ stop, read args = .error stop → (run launch fs args).files = fs) ∧
    ∀ o, read args = .ok o → o.generateConfig = false → o.log = false →
      ∃ input, o.input = some input ∧
        (o.dumpGraph = false → o.raw = true → Framed fs o input (run launch fs args)) ∧
        (o.dumpGraph = true → Spared fs (run launch fs args).files o input) := by
  refine ⟨fun _ => files_run_of_stop launch fs, fun o h hgenerate hlog => ?_⟩
  obtain ⟨input, hinput⟩ := exists_input_of_read h hgenerate
  obtain ⟨hfiles, hcode⟩ := run_of_read launch fs h hinput hgenerate hlog
  refine ⟨input, hinput, fun hdump hraw => framed_plot hdump hraw hfiles hcode, fun hdump => ?_⟩
  rw [hfiles]
  exact spared_plot hdump

/-- A model with a configuration beside it. -/
def sampleFiles : Files where
  home := ["home"]
  entries :=
    [(["home"], .directory),
     (["home", "c.toml"], .file "".toUTF8 false),
     (["home", "m.xml"], .file
       ("<applicationGraph><sdf><actor name=\"A\"/></sdf></applicationGraph>").toUTF8 false)]

/-- The options of a run with that configuration. -/
def sampleOptions : Options :=
  { Options.default with
    input := some "m.xml", mode := .application, raw := true, config := some "c.toml" }

/-- The DOT text of the model is written beside it, and the model stays as it was. -/
theorem frame_of_run_sample :
    let after := (run Launcher.none sampleFiles ["m.xml", "--raw", "--mode=sdf3", "-cc.toml"]).files
    DotWritten sampleFiles after sampleOptions "m.xml" ["home", "m.dot"] ∧
      after.find? ["home", "m.xml"] = sampleFiles.find? ["home", "m.xml"] := by
  have hread : read ["m.xml", "--raw", "--mode=sdf3", "-cc.toml"] = .ok sampleOptions :=
    eq_ok_of_toOption (by decide +kernel)
  have hcode : (run Launcher.none sampleFiles
      ["m.xml", "--raw", "--mode=sdf3", "-cc.toml"]).exitCode = 0 := by decide +kernel
  have hplace : sampleFiles.locate ⟨"./m.dot"⟩ = .ok ["home", "m.dot"] :=
    eq_ok_of_toOption (by decide +kernel)
  obtain ⟨input, hinput, hframed, -⟩ :=
    (frame_of_run Launcher.none sampleFiles _).2 sampleOptions hread rfl rfl
  obtain rfl : "m.xml" = input := Option.some.inj hinput
  obtain ⟨hchanges, -, -, hsuccess⟩ := hframed rfl rfl
  have hdot : dotFile? sampleOptions "m.xml" = some ⟨"./m.dot"⟩ := by decide +kernel
  -- the only place the run may write to beside the made configuration
  have hplaces : ∀ {p l}, dotFile? sampleOptions "m.xml" = some p → sampleFiles.locate p = .ok l →
      l = ["home", "m.dot"] := by
    intro p l hp hl
    obtain rfl := Option.some.inj (hdot.symm.trans hp)
    exact Except.ok.inj (hl.symm.trans hplace)
  constructor
  · obtain ⟨p, l, hp, hl, hwritten⟩ := hsuccess hcode
    obtain rfl := hplaces hp hl
    refine hwritten.resolve_right ?_
    decide +kernel
  · refine Classical.byContradiction fun hne => ?_
    rcases hchanges _ hne with hmade | ⟨_, _, p, _, -, hp, hl, -⟩
    · cases hmade.unnamed
    · exact absurd (hplaces hp hl) (by decide)

end CommandLine

end NetPlot
