import LocaleAudit.CommandLine.Commands
import LocaleAudit.Proofs.Sync.Growth

namespace LocaleAudit

/-!
# Checks that stop with a fault

A check that cannot run leaves the files alone, with one exception: patterns of source files are
read only after missing keys have been added, so a pattern that is none stops the check too late.
-/

open Directory (Grows)

namespace SessionM

variable {α β : Type} {s s' : Session} {fault : CommandFault}

theorem run_bind (x : SessionM α) (f : α → SessionM β) (s : Session) :
    (x >>= f).run.run s =
      match x.run.run s with
      | (.ok a, s') => (f a).run.run s'
      | (.error fault, s') => (.error fault, s') := by
  rw [ExceptT.run_bind, StateT.run_bind]
  cases hx : x.run.run s with
  | mk result s' => cases result <;> rfl

theorem cases_of_run_bind {x : SessionM α} {f : α → SessionM β}
    (h : (x >>= f).run.run s = (.error fault, s')) :
    x.run.run s = (.error fault, s') ∨
      ∃ a s₁, x.run.run s = (.ok a, s₁) ∧ (f a).run.run s₁ = (.error fault, s') := by
  rw [run_bind] at h
  split at h
  · rename_i a s₁ hx
    exact Or.inr ⟨a, s₁, hx, h⟩
  · rename_i fault' s₁ hx
    cases h
    exact Or.inl hx

theorem of_run_bind_ok {x : SessionM α} {f : α → SessionM β} {b : β}
    (h : (x >>= f).run.run s = (.ok b, s')) :
    ∃ a s₁, x.run.run s = (.ok a, s₁) ∧ (f a).run.run s₁ = (.ok b, s') := by
  rw [run_bind] at h
  split at h
  · rename_i a s₁ hx
    exact ⟨a, s₁, hx, h⟩
  · cases h

/-- A run is evaluated to see that it stops with a fault, and what is there then. -/
theorem exists_fault_of_run {f : CommandFault → Session → β} {x : SessionM α} {b : β}
    (h : (match x.run.run s with
      | (.ok _, _) => none
      | (.error fault, s') => some (f fault s')) = some b) :
    ∃ fault s', x.run.run s = (.error fault, s') ∧ f fault s' = b := by
  split at h
  · cases h
  · rename_i fault s' hrun
    exact ⟨fault, s', hrun, Option.some.inj h⟩

/-- A part of a command that looks at the session and does not change it. -/
def Reads (x : SessionM α) : Prop :=
  ∀ s, (x.run.run s).2 = s

theorem Reads.eq {x : SessionM α} (h : Reads x) {result : Except CommandFault α}
    (hrun : x.run.run s = (result, s')) : s' = s := by
  rw [← h s, hrun]

theorem reads_attempt (result : Except CommandFault α) : Reads (attempt result) :=
  fun _ => rfl

theorem Reads.bind {x : SessionM α} {f : α → SessionM β} (hx : Reads x) (hf : ∀ a, Reads (f a)) :
    Reads (x >>= f) := by
  intro s
  rw [run_bind]
  split
  · rename_i a s₁ hrun
    rw [hf a s₁, hx.eq hrun]
  · rename_i fault s₁ hrun
    exact hx.eq hrun

theorem reads_requireDirectory (what path : String) : Reads (requireDirectory what path) :=
  fun _ => rfl

theorem isDirectory_of_requireDirectory {what path : String}
    (h : (requireDirectory what path).run.run s = (.ok (), s')) :
    s.files.isDirectory path = true := by
  have hcheck : Precondition.directory s.files what path = .ok () := congrArg Prod.fst h
  rw [Precondition.directory] at hcheck
  split at hcheck
  · cases hcheck
  split at hcheck
  · cases hcheck
  · rename_i hdirectory
    simpa using hdirectory

theorem of_run_perform_error {activity : Activity} {operation : Directory → Except Error α}
    (h : (perform activity operation).run.run s = (.error fault, s')) :
    ∃ e, operation s.files = .error e ∧ fault = .failed activity e ∧ s' = s := by
  rw [run_perform] at h
  cases hresult : operation s.files with
  | error e =>
    rw [hresult] at h
    cases h
    exact ⟨e, rfl, rfl, rfl⟩
  | ok b =>
    rw [hresult] at h
    cases h

/-- A part of a command that prints something, which neither fails nor touches the files. -/
def Tells (x : SessionM Unit) : Prop :=
  ∀ s, ∃ s', x.run.run s = (.ok (), s') ∧ s'.files = s.files

theorem tells_print (line : String) : Tells (print line) :=
  fun _ => ⟨_, rfl, rfl⟩

theorem tells_notify (line : String) : Tells (notify line) :=
  fun _ => ⟨_, rfl, rfl⟩

theorem Tells.bind {x : SessionM Unit} {f : Unit → SessionM Unit} (hx : Tells x)
    (hf : Tells (f ())) : Tells (x >>= f) := by
  intro s
  obtain ⟨s₁, hrun, hfiles⟩ := hx s
  obtain ⟨s₂, hrun', hfiles'⟩ := hf s₁
  refine ⟨s₂, ?_, hfiles'.trans hfiles⟩
  rw [run_bind, hrun]
  exact hrun'

theorem tells_forM {α : Type} {f : α → SessionM Unit} (hf : ∀ a, Tells (f a)) (items : List α) :
    Tells (items.forM f) := by
  induction items with
  | nil => exact fun s => ⟨s, rfl, rfl⟩
  | cons a items ih => exact (hf a).bind ih

end SessionM

namespace Command

open SessionM

variable {config : Config} {o : CheckOptions} {p : Project} {s s' : Session}
  {fault : CommandFault} {maxItems : Nat}

theorem ofConfig_of_openProject (h : (openProject config).run.run s = (.ok p, s')) :
    Project.ofConfig config = .ok p := by
  have hresult : (Project.ofConfig config).mapError CommandFault.invalidConfig = .ok p :=
    congrArg Prod.fst h
  cases hopen : Project.ofConfig config with
  | error e =>
    rw [hopen] at hresult
    cases hresult
  | ok p' =>
    rw [hopen] at hresult
    cases hresult
    rfl

theorem reads_requireInputs (config : Config) : Reads (requireInputs config) := by
  refine (reads_requireDirectory _ _).bind fun _ => ?_
  split
  · exact reads_requireDirectory _ _
  · exact fun _ => rfl

theorem isDirectory_of_requireInputs (h : (requireInputs config).run.run s = (.ok (), s'))
    (hsources : (config.checkReferences || config.reportUnused) = true) :
    s.files.isDirectory config.sourceDir = true := by
  obtain ⟨_, s₁, hcatalogs, hrest⟩ := of_run_bind_ok h
  obtain rfl := (reads_requireDirectory _ _).eq hcatalogs
  rw [if_pos hsources] at hrest
  exact isDirectory_of_requireDirectory hrest

/-- Missing keys are added unless that fails before anything is written. -/
theorem runFix_cases (p : Project) (o : CheckOptions) (s : Session) :
    (∃ fault, (runFix p o).run.run s = (.error fault, s)) ∨
      ∃ state s', (runFix p o).run.run s = (.ok (), s') ∧
        p.sync s.files o.dryRun = .ok state ∧ s'.files = state.files := by
  unfold runFix
  cases hsync : p.sync s.files o.dryRun with
  | error e =>
    refine Or.inl ⟨.failed .fix e, ?_⟩
    rw [run_bind, run_perform, hsync]
    rfl
  | ok state =>
    have htells : Tells (if o.json then (state.outcome.lines p.store o.dryRun).forM notify
        else do
          (state.outcome.lines p.store o.dryRun).forM print
          print "") := by
      split
      · exact tells_forM tells_notify _
      · exact (tells_forM tells_print _).bind (tells_print _)
    obtain ⟨s', hrun, hfiles⟩ := htells { s with files := state.files }
    refine Or.inr ⟨state, s', ?_, rfl, hfiles⟩
    rw [run_bind, run_perform, hsync]
    exact hrun

theorem reportOn_error (h : (reportOn p o maxItems).run.run s = (.error fault, s')) :
    s' = s ∧ ∃ e, p.check s.files = .error e ∧ fault = .failed .check e := by
  rcases cases_of_run_bind h with hfailed | ⟨outcome, s₁, _, hrest⟩
  · obtain ⟨e, hcheck, rfl, rfl⟩ := of_run_perform_error hfailed
    exact ⟨rfl, e, hcheck, rfl⟩
  · -- A report that was made is printed.
    cases hrest

/-! ## Checks after a run -/

/-- The source files can be found when their directory is there, unless a pattern is none. -/
theorem scanSources_error {files : Directory} {e : Error}
    (hsources : files.isDirectory p.config.sourceDir = true)
    (hscan : p.scanSources files = .error e) :
    p.config.includes.mapM (Glob.parse? .strict) = none ∧ e = .pattern := by
  rw [Project.scanSources, Project.sourceFiles, SourceWalker.new] at hscan
  cases hpatterns : p.config.includes.mapM (Glob.parse? .strict) with
  | none =>
    rw [hpatterns] at hscan
    cases hscan
    exact ⟨rfl, rfl⟩
  | some includes =>
    obtain ⟨names, hlocate, d, hd⟩ := Directory.isDirectory_iff.mp hsources
    have hfiles : ∃ found,
        SourceWalker.files ⟨p.config.sourceDir, includes, p.config.excludeDirs⟩ files =
          .ok found := by
      rw [SourceWalker.files]
      simp only [hlocate, hd]
      exact ⟨_, rfl⟩
    obtain ⟨found, hfound⟩ := hfiles
    rw [hpatterns] at hscan
    have hok := (congrArg (Except.map (SourceScan.ofFiles p.extractor files
      p.config.defaultNamespace)) hfound).symm.trans hscan
    cases hok

/-- When the catalogs could be reconciled and the sources are there, only a pattern can be wrong. -/
theorem check_error_after {files : Directory} {state : Project.SyncState} {dryRun : Bool}
    {e : Error} (hsync : p.sync files dryRun = .ok state)
    (hsources : (p.config.checkReferences || p.config.reportUnused) = true →
      files.isDirectory p.config.sourceDir = true)
    (hcheck : p.check state.files = .error e) :
    (p.config.checkReferences || p.config.reportUnused) = true ∧
      p.config.includes.mapM (Glob.parse? .strict) = none ∧ e = .pattern := by
  have hgrows := Project.grows_sync hsync
  obtain ⟨set, hset⟩ := Project.exists_loadCatalogs hgrows hsync
  rw [Project.check, hset] at hcheck
  cases huses : p.config.checkReferences || p.config.reportUnused with
  | false =>
    rw [huses] at hcheck
    cases hcheck
  | true =>
    rw [huses] at hcheck
    cases hscan : p.scanSources state.files with
    | ok scan =>
      rw [hscan] at hcheck
      cases hcheck
    | error e' =>
      rw [hscan] at hcheck
      cases hcheck
      exact ⟨rfl, scanSources_error (hgrows.isDirectory (hsources huses)) hscan⟩

/-- What a check that stops has done to the files: nothing, unless a pattern of source files is none
and missing keys were to be added. Then they have been. -/
theorem runCheck_fault (h : (runCheck config o).run.run s = (.error fault, s')) :
    s'.files = s.files ∨
      (o.fix = true ∧ o.dryRun = false ∧
        (config.checkReferences || config.reportUnused) = true ∧
        config.includes.mapM (Glob.parse? .strict) = none ∧ fault = .failed .check .pattern ∧
        ∃ p state, Project.ofConfig config = .ok p ∧ p.sync s.files false = .ok state ∧
          s'.files = state.files) := by
  unfold runCheck at h
  rcases cases_of_run_bind h with hinputs | ⟨_, s₁, hinputs, hafterInputs⟩
  · rw [(reads_requireInputs config).eq hinputs]
    exact Or.inl rfl
  obtain rfl := (reads_requireInputs config).eq hinputs
  rcases cases_of_run_bind hafterInputs with hmax | ⟨_, s₂, hmax, hafterMax⟩
  · rw [(reads_attempt _).eq hmax]
    exact Or.inl rfl
  obtain rfl := (reads_attempt _).eq hmax
  rcases cases_of_run_bind hafterMax with hopen | ⟨p, s₃, hopen, hwork⟩
  · rw [(reads_attempt _).eq hopen]
    exact Or.inl rfl
  obtain rfl := (reads_attempt _).eq hopen
  have hconfig := ofConfig_of_openProject hopen
  obtain ⟨rfl, _⟩ := Project.of_ofConfig hconfig
  cases hfix : o.fix with
  | false =>
    simp only [hfix, Bool.false_eq_true, if_false] at hwork
    rw [(reportOn_error hwork).1]
    exact Or.inl rfl
  | true =>
    simp only [hfix, if_true] at hwork
    rcases runFix_cases p o s₃ with ⟨fault', hfailed⟩ | ⟨state, s₄, hfixed, hsync, hfiles⟩
    · rw [run_bind, hfailed] at hwork
      cases hwork
      exact Or.inl rfl
    rw [run_bind, hfixed] at hwork
    obtain ⟨rfl, e, hcheck, rfl⟩ := reportOn_error hwork
    rw [hfiles] at hcheck ⊢
    cases hdry : o.dryRun with
    | true =>
      rw [hdry] at hsync
      exact Or.inl (Project.files_sync_dry hsync)
    | false =>
      rw [hdry] at hsync
      obtain ⟨huses, hpatterns, rfl⟩ :=
        check_error_after hsync (isDirectory_of_requireInputs hinputs) hcheck
      exact Or.inr ⟨rfl, rfl, huses, hpatterns, rfl, p, state, hconfig, hsync, rfl⟩

/-- The translation lacks a key. -/
def lackingFiles : Directory :=
  [("locales", .directory
    [("en", .directory [("app.json", .file "\x7b\"a\": \"Hi\"\x7d".toUTF8)]),
      ("uk", .directory [("app.json", .file "\x7b\x7d".toUTF8)])]),
    ("src", .directory [])]

/-- The one pattern of source files has a class without an end. -/
def openPattern : Config :=
  { (Project.listing "en" ["en", "uk"]).config with sourceDir := "/src", includes := ["["] }

theorem runCheck_fault_openPattern :
    ∃ after, (runCheck openPattern ⟨true, false, false, none⟩).run.run { files := lackingFiles } =
        (.error (.failed .check .pattern), after) ∧
      ∃ p state, Project.ofConfig openPattern = .ok p ∧ p.sync lackingFiles false = .ok state ∧
        after.files = state.files := by
  obtain ⟨fault, after, hrun, hafter⟩ := exists_fault_of_run
    (f := fun fault after => (fault, (after.files.readBytes "/locales/uk/app.json").toOption))
    (x := runCheck openPattern ⟨true, false, false, none⟩) (s := { files := lackingFiles })
    (b := (.failed .check .pattern, some "\x7b\n  \"a\": \"[EN] Hi\"\n\x7d\n".toUTF8))
    (by decide +kernel)
  rw [Prod.mk.injEq] at hafter
  obtain ⟨rfl, hbytes⟩ := hafter
  refine ⟨after, hrun, ?_⟩
  rcases runCheck_fault hrun with hsame | ⟨_, _, _, _, _, hstate⟩
  · rw [hsame] at hbytes
    exact absurd hbytes (by decide)
  · exact hstate

/-- The key is added, and then the check stops. -/
theorem written_before_fault :
    ∃ fault after, (runCheck openPattern ⟨true, false, false, none⟩).run.run
        { files := lackingFiles } = (.error fault, after) ∧
      after.files.readBytes "/locales/uk/app.json" ≠
        lackingFiles.readBytes "/locales/uk/app.json" := by
  obtain ⟨fault, after, hrun, hafter⟩ := exists_fault_of_run
    (f := fun _ after => (after.files.readBytes "/locales/uk/app.json").toOption)
    (x := runCheck openPattern ⟨true, false, false, none⟩) (s := { files := lackingFiles })
    (b := some "\x7b\n  \"a\": \"[EN] Hi\"\n\x7d\n".toUTF8) (by decide +kernel)
  refine ⟨fault, after, hrun, fun hsame => ?_⟩
  rw [hsame] at hafter
  exact absurd hafter (by decide)

end Command

end LocaleAudit
