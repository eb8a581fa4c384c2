import Rollbook.Proofs.Engine
/-
  Rollbook.Proofs.Starting — what a run of the installer does before its work.

  A run reads its settings, makes the folder of its log and opens the log; then it works
  under the path that the settings spell (`work_of_starts`). What it made for the log is
  there when it starts again, as long as no folder was lost, so the second start changes
  nothing but for a log that is gone (`starts_again`).
-/

namespace Rollbook

namespace Installer

open Disk

variable {d d' d₁ : Disk} {env : Environment} {s : Settings} {arguments : List String}

/-- The settings that a run reads. -/
def settings? (d : Disk) (env : Environment) : Except Abort Settings := ((Program.start d env).init ".env").1

/-- A run reads settings and opens the log, which leads to the disk that it works on. -/
structure Starts (d : Disk) (env : Environment) (s : Settings) (d₁ : Disk) : Prop where
  settings : settings? d env = .ok s
  folder : (makeFolder s.logFile d).result = .ok ()
  log : (makeFolder s.logFile d).disk.openForAppend (Path.ofText s.logFile) = .ok d₁

/-! ## The start of a program -/

theorem makeFolderOf_eq (p : Program) (file : String) : p.makeFolderOf file =
    ((makeFolder file p.disk).result.mapError fun _ => Abort.noLogFolder,
      { p with disk := (makeFolder file p.disk).disk }) := by
  unfold Program.makeFolderOf makeFolder
  cases (Path.ofText file).parent? with
  | none => rfl
  | some folder =>
    dsimp only
    rcases p.disk.makeFolders folder with ⟨_ | _, d⟩ <;> rfl

theorem ensureFolderOf_of_hasFolder {p : Program} {file : String} (h : HasFolder file p.disk) :
    p.ensureFolderOf file = (.ok (), p) := by
  unfold Program.ensureFolderOf
  split
  · rfl
  · split
    · rfl
    · rw [makeFolderOf_eq, makeFolder_of_hasFolder h]
      rfl

/-- Nothing but the environment changes when a file of variables is loaded. -/
theorem loadFile_start (d : Disk) (env : Environment) (name : String) :
    ∃ r env', (Program.start d env).loadFile name = (r, Program.start d env') := by
  unfold Program.loadFile
  split
  · exact ⟨_, env, rfl⟩
  · exact ⟨_, _, rfl⟩

theorem readSettings_start (d : Disk) (env : Environment) : (Program.start d env).readSettings =
    let s := Settings.ofEnvironment env
    let made := Program.start (makeFolder s.logFile d).disk env
    match (makeFolder s.logFile d).result with
    | .ok () => (.ok s, { made with settings := some s })
    | .error _ => (.error .noLogFolder, made) := by
  unfold Program.readSettings
  dsimp only [Program.start]
  rw [makeFolderOf_eq]
  dsimp only
  cases (makeFolder (Settings.ofEnvironment env).logFile d).result <;> rfl

/-- Settings are read together with the folder of the log. -/
theorem init_of_settings? (h : settings? d env = .ok s) : (makeFolder s.logFile d).result = .ok () ∧
    ∃ env', (Program.start d env).init ".env" =
      (.ok s, { Program.start (makeFolder s.logFile d).disk env' with settings := some s }) := by
  obtain ⟨r, env', hload⟩ := loadFile_start d env ".env"
  unfold settings? Program.init at h
  unfold Program.init
  rw [hload] at h ⊢
  cases r with
  | error e => cases h
  | ok _ =>
    change ((Program.start d env').readSettings).1 = _ at h
    show _ ∧ ∃ env'', (Program.start d env').readSettings = _
    rw [readSettings_start] at h ⊢
    dsimp only at h ⊢
    cases hresult : (makeFolder (Settings.ofEnvironment env').logFile d).result with
    | error e => rw [hresult] at h; cases h
    | ok _ =>
      rw [hresult] at h
      cases h
      exact ⟨hresult, env', rfl⟩

theorem initLogger_of_hasFolder (p : Program) (level file : String) (hfolder : HasFolder file p.disk)
    (hlogger : p.logger = none) : p.initLogger level file =
      match p.disk.openForAppend (Path.ofText file) with
      | .error _ => (.error .noLogFile, p)
      | .ok disk =>
        let loudest := (LogLevel.ofSetting level).max .warn
        (.ok loudest, { p with disk, logger := some loudest }) := by
  unfold Program.initLogger
  rw [ensureFolderOf_of_hasFolder hfolder]
  dsimp only
  cases p.disk.openForAppend (Path.ofText file) with
  | error e => rfl
  | ok disk =>
    dsimp only
    rw [hlogger]

/-! ## Runs -/

/-- What a run does once its settings are read. -/
theorem exists_work (hd : d.Grounded) (h : settings? d env = .ok s) (arguments : List String) : ∃ env',
    work arguments d env =
      match (makeFolder s.logFile d).disk.openForAppend (Path.ofText s.logFile) with
      | .error _ => ⟨[], .aborted .noLogFile, (makeFolder s.logFile d).disk, env'⟩
      | .ok d₁ =>
        let w := perform (.ofArguments arguments) (pathOf s.database) d₁
        match w.result with
        | .ok () => ⟨w.lines, .success, w.disk, env'⟩
        | .error why => ⟨w.lines, .failure why, w.disk, env'⟩ := by
  obtain ⟨hmade, env', hinit⟩ := init_of_settings? h
  have hlogger := initLogger_of_hasFolder { Program.start (makeFolder s.logFile d).disk env' with settings := some s }
    s.logLevel s.logFile ((extends_of_makeFolder hd).2 hmade) rfl
  refine ⟨env', ?_⟩
  unfold work
  rw [hinit]
  dsimp only
  rw [hlogger]
  dsimp only [Program.start]
  cases (makeFolder s.logFile d).disk.openForAppend (Path.ofText s.logFile) <;> rfl

/-- The work of a run that has started. -/
theorem work_of_starts (hd : d.Grounded) (h : Starts d env s d₁) (arguments : List String) :
    let w := perform (.ofArguments arguments) (pathOf s.database) d₁
    ((work arguments d env).ending = .success ↔ w.result = .ok ()) ∧ (work arguments d env).disk = w.disk := by
  obtain ⟨env', hwork⟩ := exists_work hd h.settings arguments
  rw [h.log] at hwork
  dsimp only at hwork ⊢
  cases hresult : (perform (.ofArguments arguments) (pathOf s.database) d₁).result with
  | error why =>
    rw [hresult] at hwork
    rw [hwork]
    exact ⟨⟨nofun, nofun⟩, rfl⟩
  | ok _ =>
    rw [hresult] at hwork
    rw [hwork]
    exact ⟨⟨fun _ => rfl, fun _ => rfl⟩, rfl⟩

theorem perform_plain (path : String) (d : Disk) : perform (.ofArguments []) path d = prepare path d := rfl

theorem perform_clean (path : String) (d : Disk) : perform (.ofArguments ["clean"]) path d = deleteFile path d := rfl

theorem perform_fresh (path : String) (d : Disk) :
    perform (.ofArguments ["fresh"]) path d = (deleteFile path d).andThen (prepare path) := rfl

theorem starts_of_success (hd : d.Grounded) (hs : settings? d env = .ok s)
    (h : (work arguments d env).ending = .success) : ∃ d₁, Starts d env s d₁ := by
  obtain ⟨env', hwork⟩ := exists_work hd hs arguments
  cases hlog : (makeFolder s.logFile d).disk.openForAppend (Path.ofText s.logFile) with
  | error e =>
    rw [hlog] at hwork
    rw [hwork] at h
    cases h
  | ok d₁ => exact ⟨d₁, hs, (init_of_settings? hs).1, hlog⟩

/-- What starting a run leaves: what was there, and a log. -/
theorem Starts.extends (hd : d.Grounded) (h : Starts d env s d₁) :
    d.Extends d₁ ∧ ∃ x c, d₁.resolve (Path.ofText s.logFile) = .ok (x, some (.file c)) := by
  have hmade := (@extends_of_makeFolder s.logFile d hd).1
  obtain ⟨hopened, hlog⟩ := extends_of_openForAppend (hmade.retains.grounded hd) h.log
  exact ⟨hmade.trans hopened, hlog⟩

/-- A run that starts again where no folder was lost makes nothing but the log, and that only if it is gone. -/
theorem starts_again (hd : d.Grounded) (h : Starts d env s d₁) (hretains : d₁.Retains d')
    (hsettings : settings? d' env = .ok s) : ∃ x c, d₁.resolve (Path.ofText s.logFile) = .ok (x, some (.file c)) ∧
      ((∃ c', d'.sight x = .file c') → Starts d' env s d') ∧
      (d'.sight x = .nothing → Starts d' env s (d'.put x (.file (.text "")))) := by
  obtain ⟨hextends, x, c, hlog⟩ := h.extends hd
  have hd₁ := hextends.retains.grounded hd
  have hmade := @extends_of_makeFolder s.logFile d hd
  have hopened := (extends_of_openForAppend (hmade.1.retains.grounded hd) h.log).1
  -- the folder of the log was there after the first start, and no folder was lost since
  have hfolder : HasFolder s.logFile d' := by
    intro r hr
    refine (hmade.2 h.folder r hr).imp_right fun hr => ?_
    exact hretains.isFolder hd₁ (hopened.retains.isFolder (hmade.1.retains.grounded hd) hr)
  have hmake := makeFolder_of_hasFolder hfolder
  refine ⟨x, c, hlog, fun ⟨c', hx⟩ => ⟨hsettings, by rw [hmake], ?_⟩, fun hx => ⟨hsettings, by rw [hmake], ?_⟩⟩
  · have hresolve := hretains.resolve hd₁ hlog
    rw [file?_of_sight hx] at hresolve
    rw [hmake]
    exact openForAppend_of_resolve hresolve
  · have hresolve := hretains.resolve hd₁ hlog
    rw [Sight.of_eq_nothing.1 hx] at hresolve
    rw [hmake]
    exact openForAppend_of_free (of_resolve_file hd₁ hlog).2.1 hresolve

/-- Whether there may be a run at all depends on the environment only. -/
theorem run_eq_work {arguments' : List String} (h : (run arguments d env).ending = .success) :
    run arguments' d' env = work arguments' d' env := by
  unfold run at h ⊢
  split
  · rfl
  · rename_i text htext
    rw [htext] at h
    dsimp only at h
    split at h
    · rename_i husable
      rw [if_pos husable]
    · cases h

end Installer

end Rollbook
