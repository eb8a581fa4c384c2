import Rollbook.Proofs.Locator
/-
  Rollbook.Proofs.Opened — the service opens the database that the installer prepares.

  Each of the two programs makes its own locator of the setting, and a success of either
  says that its locator names a file that could be opened. The names are the same
  (`opened_of_prepared`), whatever the setting is: a path or a locator, with parameters or
  without, with escapes that are replaced only once the names are known.

  There is one kind of setting that the two read differently. The installer takes off one
  scheme, and the driver, when it is shown the installer's locator, takes off a long scheme
  that is left; the service shows it the whole setting, where the short scheme in front
  comes off last and the slashes of the other stay. The first then prepares a file of the
  working folder, and the second opens one at the root (`exists_opened_elsewhere`).
-/

namespace Rollbook

open Text

namespace Installer

variable {path : String} {d : Disk}

/-- A database is opened by every command but `clean`. -/
theorem openLocator_of_perform {command : Command} (hcommand : command ≠ .clean)
    (h : (perform command path d).result = .ok ()) : ∃ d c d', Disk.openLocator d (locatorOf path) = .ok (c, d') := by
  cases command with
  | clean => exact absurd rfl hcommand
  | fresh => exact ⟨_, openLocator_of_applySchema (result_of_andThen (result_of_andThen h).2).2⟩
  | prepare => exact ⟨_, openLocator_of_applySchema (result_of_andThen h).2⟩

end Installer

theorem Program.openLocator_of_connect {p : Program} {c : Connection} (h : p.connect.1 = .ok c) :
    ∃ d d', Disk.openLocator d (Locator.ofSetting p.get.1.database) = .ok (c, d') := by
  unfold connect at h
  dsimp only at h
  split at h
  · rename_i c' d' hopen
    cases h
    exact ⟨_, d', hopen⟩
  · cases h

/-- The service opens the database that the installer prepares, where both succeed: whatever the setting is, they have
    the same name of a file in their locators, unless it begins with a scheme and a long one behind it. They also open
    the same path then, except that the installer takes a name for a locator of its own if that begins like one, which
    the service does not if it has something to say beside the name. -/
theorem opened_of_prepared {p : Program} {command : Installer.Command} {d : Disk} {c : Connection} {setting : String}
    (hsetting : p.get.1.database = setting) (hpostgres : ¬ "postgres://".toList <+: setting.toList)
    (hmysql : ¬ "mysql://".toList <+: setting.toList) (honce : ¬ "sqlite:sqlite://".toList <+: setting.toList)
    (hcommand : command ≠ .clean)
    (hprepared : (Installer.perform command (Installer.pathOf setting) d).result = .ok ())
    (hconnected : p.connect.1 = .ok c) :
    ∃ prepared opened, OpenOptions.ofLocator? (Installer.locatorOf (Installer.pathOf setting)) = .ok prepared ∧
      OpenOptions.ofLocator? (Locator.ofSetting setting) = .ok opened ∧ prepared.name = opened.name ∧
      (opened.IsPlain ∨ ¬ Opening.fileScheme <+: Text.Utf8.encode opened.name.toList → ∀ path manner path' manner',
        Locator.target? (Installer.locatorOf (Installer.pathOf setting)) = .ok (.file path manner) →
        Locator.target? (Locator.ofSetting setting) = .ok (.file path' manner') → path = path') := by
  obtain ⟨d₁, c₁, d₂, hopen⟩ := Installer.openLocator_of_perform hcommand hprepared
  obtain ⟨d₃, d₄, hopen'⟩ := Program.openLocator_of_connect hconnected
  rw [hsetting] at hopen'
  obtain ⟨t, ht, -⟩ := Disk.target?_of_openLocator hopen
  obtain ⟨t', ht', -⟩ := Disk.target?_of_openLocator hopen'
  obtain ⟨o, q, ho, hq, htarget⟩ := Locator.target?_eq_ok ht
  obtain ⟨o', q', ho', hq', htarget'⟩ := Locator.target?_eq_ok ht'
  have hname : o.name = o'.name := by
    obtain ⟨o₀, ho₀, hsame⟩ := OpenOptions.name_of_ofLocator? ho
    obtain ⟨o₁, ho₁, hsame'⟩ := OpenOptions.name_of_ofLocator? ho'
    rw [(Locator.written_ofSetting hpostgres hmysql).2 honce, ho₁] at ho₀
    cases ho₀
    rw [hsame, hsame']
  have hplain := OpenOptions.isPlain_locatorOf (Locator.mark_not_mem_pathOf setting) ho
  refine ⟨o, o', ho, ho', hname, fun hread path manner path' manner' hpath hpath' => ?_⟩
  rw [ht] at hpath
  rw [ht'] at hpath'
  cases hpath
  cases hpath'
  rw [Opening.path_of_target htarget, Opening.path_of_target htarget',
    Opening.name_eq_of_name_eq hname hplain hread hq hq']

/-! ## Two settings -/

theorem Installer.perform_prepare {path : String} {d d₁ d₂ : Disk} {c : Connection}
    (hfolder : makeFolder path d = ⟨[], .ok (), d₁⟩) (hopen : d₁.openLocator (locatorOf path) = .ok (c, d₂)) :
    (perform .prepare path d).result = (applySteps 1 Migration.all.length c d₂ Migration.all).result ∧
      (perform .prepare path d).disk = (applySteps 1 Migration.all.length c d₂ Migration.all).disk := by
  obtain ⟨hresult, hdisk⟩ := andThen_of_ok (applySchema path) (by rw [hfolder] : (makeFolder path d).result = .ok ())
  rw [hfolder] at hresult hdisk
  obtain ⟨hresult', hdisk'⟩ := applySchema_of_openLocator hopen
  unfold perform prepare
  rw [hfolder]
  exact ⟨hresult.trans hresult', hdisk.trans hdisk'⟩

theorem Program.connect_of_isLocator {p : Program} {c : Connection} {d : Disk} {setting : String}
    (hsetting : p.get.1.database = setting) (hlocator : Locator.isLocator setting)
    (hopen : p.get.2.disk.openLocator setting = .ok (c, d)) : p.connect.1 = .ok c := by
  unfold connect Locator.ofSetting
  dsimp only
  rw [hsetting, if_pos hlocator, if_pos hlocator, hopen]

/-- A working folder with a folder in it. -/
def twoFolders : Disk := ⟨.folder [("work", .folder [("tmp", .folder [])])], ["work"]⟩

/-- The service with nothing set but the database. -/
def serviceOn (d : Disk) (setting : String) : Program := .start d (.ofPairs [("DATABASE_URL", setting)])

/-- The tree after a database was prepared where there was none. -/
def preparedAt (place : Place) (d : Disk) : Disk :=
  (Installer.applySteps 1 Migration.all.length (Installer.openAt place) (d.put place (.file (.text ""))) Migration.all).disk

namespace Spaced

/-! A name with an escape, in a locator with the short scheme. -/

def place : Place := ["work", "tmp", "a b.db"]

theorem target_locatorOf :
    Locator.target? (Installer.locatorOf "tmp/a%20b.db") = .ok (.file "tmp/a b.db" ⟨.create, false, .many, none⟩) := by
  unfold Locator.target?
  rw [OpenOptions.ofLocator?_locatorOf (by decide), Locator.bare_of_absent (by decide)]
  rfl

theorem makeFolder_eq : Installer.makeFolder "tmp/a%20b.db" twoFolders = ⟨[], .ok (), twoFolders⟩ := by
  have hparent : (Path.ofText "tmp/a%20b.db").parent? = some ⟨.name, ["tmp"]⟩ := rfl
  unfold Installer.makeFolder
  rw [hparent]
  dsimp only
  rw [Disk.makeFolders]
  rfl

theorem perform_prepare : (Installer.perform .prepare "tmp/a%20b.db" twoFolders).result = .ok () ∧
    (Installer.perform .prepare "tmp/a%20b.db" twoFolders).disk = preparedAt place twoFolders := by
  have hopen : twoFolders.openLocator (Installer.locatorOf "tmp/a%20b.db") =
      .ok (Installer.openAt place, twoFolders.put place (.file (.text ""))) := by
    rw [Disk.openLocator_of_target target_locatorOf]
    rfl
  obtain ⟨hresult, hdisk⟩ := Installer.perform_prepare makeFolder_eq hopen
  rw [hresult, hdisk]
  exact ⟨rfl, rfl⟩

theorem connect_eq :
    (serviceOn (preparedAt place twoFolders) "sqlite:tmp/a%20b.db?mode=rw").connect.1 = .ok (Installer.openAt place) := by
  have hbare : Locator.bare "sqlite:tmp/a%20b.db?mode=rw".toList = "tmp/a%20b.db?mode=rw".toList := by
    show Locator.bare (Locator.scheme ++ "tmp/a%20b.db?mode=rw".toList) = _
    rw [Locator.bare_scheme (by decide), OpenOptions.stripAll_of_absent (by decide)]
  have htarget : Locator.target? "sqlite:tmp/a%20b.db?mode=rw" =
      .ok (.file "tmp/a b.db" ⟨.write, false, .many, none⟩) := by
    unfold Locator.target?
    rw [Locator.ofLocator?_of_bare hbare]
    rfl
  have hopen : (preparedAt place twoFolders).openLocator "sqlite:tmp/a%20b.db?mode=rw" =
      .ok (Installer.openAt place, preparedAt place twoFolders) := by
    rw [Disk.openLocator_of_target htarget]
    rfl
  have hsetting : (serviceOn (preparedAt place twoFolders) "sqlite:tmp/a%20b.db?mode=rw").get.1.database =
      "sqlite:tmp/a%20b.db?mode=rw" := rfl
  exact Program.connect_of_isLocator hsetting rfl hopen

end Spaced

theorem opened_of_prepared_spaced :
    (Installer.perform .prepare "tmp/a%20b.db" twoFolders).result = .ok () ∧
      ∃ p : Program, p.disk = (Installer.perform .prepare "tmp/a%20b.db" twoFolders).disk ∧
        p.get.1.database = "sqlite:tmp/a%20b.db?mode=rw" ∧ p.connect.1 = .ok (Installer.openAt Spaced.place) ∧
        ∃ prepared opened, OpenOptions.ofLocator? (Installer.locatorOf "tmp/a%20b.db") = .ok prepared ∧
          OpenOptions.ofLocator? "sqlite:tmp/a%20b.db?mode=rw" = .ok opened ∧ prepared.name = opened.name := by
  have hsetting : (serviceOn (preparedAt Spaced.place twoFolders) "sqlite:tmp/a%20b.db?mode=rw").get.1.database =
      "sqlite:tmp/a%20b.db?mode=rw" := rfl
  have hprepared := Spaced.perform_prepare.1
  obtain ⟨prepared, opened, hp, ho, hname, -⟩ := opened_of_prepared hsetting (by decide) (by decide) (by decide)
    (by decide) hprepared Spaced.connect_eq
  exact ⟨hprepared, _, Spaced.perform_prepare.2.symm, hsetting, Spaced.connect_eq, prepared, opened, hp, ho, hname⟩

namespace Doubled

/-! A scheme and the long scheme behind it. -/

theorem ofLocator?_locatorOf : OpenOptions.ofLocator? (Installer.locatorOf "sqlite://x.db") =
    .ok ⟨"x.db", false, false, true, false, none⟩ := by
  have hbare : Locator.bare "sqlite://x.db".toList = "x.db".toList := by
    show Locator.bare (Locator.longScheme ++ "x.db".toList) = _
    rw [Locator.bare_longScheme, Locator.bare_of_absent (by decide)]
  rw [OpenOptions.ofLocator?_locatorOf (by decide), hbare]
  rfl

theorem ofLocator?_eq : OpenOptions.ofLocator? "sqlite:sqlite://x.db?mode=rwc" =
    .ok ⟨"//x.db", false, false, true, false, none⟩ := by
  have hbare : Locator.bare "sqlite:sqlite://x.db?mode=rwc".toList = "//x.db?mode=rwc".toList := by
    show Locator.bare (Locator.scheme ++ (Locator.scheme ++ "//x.db?mode=rwc".toList)) = _
    rw [Locator.bare_scheme (by decide), OpenOptions.stripAll_append (by decide),
      OpenOptions.stripAll_of_absent (by decide)]
  rw [Locator.ofLocator?_of_bare hbare]
  rfl

/-- What was made for the path: a folder with the name of the scheme. -/
def withFolder : Disk := twoFolders.put ["work", "sqlite:"] (.folder [])

theorem makeFolder_eq : Installer.makeFolder "sqlite://x.db" twoFolders = ⟨[], .ok (), withFolder⟩ := by
  have hparent : (Path.ofText "sqlite://x.db").parent? = some ⟨.name, ["sqlite:"]⟩ := rfl
  unfold Installer.makeFolder
  rw [hparent]
  dsimp only
  rw [Disk.makeFolders]
  rfl

theorem perform_prepare : (Installer.perform .prepare "sqlite://x.db" twoFolders).result = .ok () ∧
    (Installer.perform .prepare "sqlite://x.db" twoFolders).disk = preparedAt ["work", "x.db"] withFolder := by
  have hopen : withFolder.openLocator (Installer.locatorOf "sqlite://x.db") =
      .ok (Installer.openAt ["work", "x.db"], withFolder.put ["work", "x.db"] (.file (.text ""))) := by
    unfold Disk.openLocator Locator.target?
    rw [ofLocator?_locatorOf]
    rfl
  obtain ⟨hresult, hdisk⟩ := Installer.perform_prepare makeFolder_eq hopen
  rw [hresult, hdisk]
  exact ⟨rfl, rfl⟩

theorem connect_eq (d : Disk) (hd : d = preparedAt ["work", "x.db"] withFolder) :
    (serviceOn d "sqlite:sqlite://x.db?mode=rwc").connect.1 = .ok (Installer.openAt ["x.db"]) := by
  have hopen : d.openLocator "sqlite:sqlite://x.db?mode=rwc" =
      .ok (Installer.openAt ["x.db"], d.put ["x.db"] (.file (.text ""))) := by
    unfold Disk.openLocator Locator.target?
    rw [ofLocator?_eq, hd]
    rfl
  have hsetting : (serviceOn d "sqlite:sqlite://x.db?mode=rwc").get.1.database = "sqlite:sqlite://x.db?mode=rwc" := rfl
  exact Program.connect_of_isLocator hsetting rfl hopen

end Doubled

theorem exists_opened_elsewhere : ∃ (setting : String) (d : Disk) (p : Program) (c : Connection),
    p.get.1.database = setting ∧ ¬ "postgres://".toList <+: setting.toList ∧ ¬ "mysql://".toList <+: setting.toList ∧
      (Installer.perform .prepare (Installer.pathOf setting) d).result = .ok () ∧
      p.disk = (Installer.perform .prepare (Installer.pathOf setting) d).disk ∧ p.connect.1 = .ok c ∧
      ∃ prepared opened, OpenOptions.ofLocator? (Installer.locatorOf (Installer.pathOf setting)) = .ok prepared ∧
        OpenOptions.ofLocator? (Locator.ofSetting setting) = .ok opened ∧ prepared.name ≠ opened.name :=
  ⟨"sqlite:sqlite://x.db?mode=rwc", twoFolders, serviceOn _ _, Installer.openAt ["x.db"], rfl, by decide, by decide,
    Doubled.perform_prepare.1, rfl, Doubled.connect_eq _ Doubled.perform_prepare.2, _, _, Doubled.ofLocator?_locatorOf,
    Doubled.ofLocator?_eq, by decide⟩

end Rollbook
