import DeepinServiceManager.ConfigScans

namespace DeepinServiceManager.UninitialisedPolicys

open ConfigScans PluginLoader

/-- Some scan hands the object made of this file, with this memory under it, to `createService`. -/
def PassedOn (file : QFileInfo) (u : Uninitialised) : Prop :=
  ∃ (host : Host) (loader : PluginLoader) (memory : PolicyPtr → Uninitialised) (i : PolicyPtr),
    (host.configDir loader.m_type)[i]? = some file ∧ memory i = u ∧
      ((∃ timerFires group loaded, loader.loadByGroup host memory timerFires group = some loaded ∧ i ∈ loaded.created) ∨
        ∃ name, i ∈ (loader.loadByName host memory name).created)

/-- What is passed on does not depend on the memory the object was given. -/
def DeterminedByFile (file : QFileInfo) : Prop :=
  ∀ u v, PassedOn file u → (Policy.new u).parseConfig file = (Policy.new v).parseConfig file

/-- The member `pluginType` is "qt" or "sd", or it is missing or no string. -/
def PluginTypeKnown (file : QFileInfo) : Prop :=
  ∃ rootObj, file.rootObj = some rootObj ∧
    ∀ s, rootObj.value "pluginType" = some (.string s) → s = "qt" ∨ s = "sd"

variable {file : QFileInfo} {rootObj : QJsonObject}

theorem parseConfig_congr {p q : Policy} (hread : file.rootObj = some rootObj)
    (h : p.readScalars rootObj = q.readScalars rootObj) : p.parseConfig file = q.parseConfig file := by
  rw [Policy.parseConfig_some p hread, Policy.parseConfig_some q hread, Policy.parseRoot, Policy.parseRoot, h]

theorem pluginType_known_iff : (∀ s, rootObj.value "pluginType" = some (.string s) → s = "qt" ∨ s = "sd") ↔
    (jsonGetString rootObj "pluginType" "qt").2 = "qt" ∨ (jsonGetString rootObj "pluginType" "qt").2 = "sd" := by
  unfold jsonGetString
  cases rootObj.value "pluginType" with
  | none => simp
  | some v => cases v <;> simp

theorem readScalars_known (h : ∀ s, rootObj.value "pluginType" = some (.string s) → s = "qt" ∨ s = "sd")
    (u v : Uninitialised) : (Policy.new u).readScalars rootObj = (Policy.new v).readScalars rootObj := by
  rcases pluginType_known_iff.mp h with htype | htype
  · simp only [Policy.readScalars, htype, if_true]
    rfl
  · simp only [Policy.readScalars, htype]
    rfl

theorem created_configFile {host : Host} {loader : PluginLoader} {memory : PolicyPtr → Uninitialised} {i : PolicyPtr}
    (hfile : (host.configDir loader.m_type)[i]? = some file)
    (hcreated : (∃ timerFires group loaded,
        loader.loadByGroup host memory timerFires group = some loaded ∧ i ∈ loaded.created) ∨
      ∃ name, i ∈ (loader.loadByName host memory name).created) : file.isConfig = true := by
  have hmem : i ∈ configFiles (host.configDir loader.m_type) := by
    rcases hcreated with ⟨timerFires, group, loaded, hload, hi⟩ | ⟨name, hi⟩
    · exact (mem_groupPolicys.mp (loadByGroup_created hload hi).1).1
    · exact (loadByNameFile_eq.mp (mem_loadByName.mp hi)).1
  obtain ⟨file', hfile', hconfig⟩ := mem_configFiles.mp hmem
  rw [hfile] at hfile'
  cases hfile'
  exact hconfig

theorem matchesEnvironment_unknown (p : Policy) : p.matchesEnvironment ⟨"", "", "", id⟩ = true := by
  rw [Policy.matchesEnvironment]
  split_ifs
  · rfl
  · rfl

-- A policy of the SD back end is not checked for its Qt version.
theorem passedOn_sd (hconfig : file.isConfig = true) (hsd : ((Policy.new ⟨.SD, 0, 0⟩).parseConfig file).sdkType = .SD) :
    PassedOn file ⟨.SD, 0, 0⟩ := by
  let host : Host := ⟨⟨"", "", "", id⟩, fun _ => [file], fun _ => true⟩
  let memory : PolicyPtr → Uninitialised := fun _ => ⟨.SD, 0, 0⟩
  have hfile : (host.configDir .SessionBus)[0]? = some file := rfl
  refine ⟨host, ⟨.SessionBus, true⟩, memory, 0, hfile, rfl, .inr ⟨((Policy.new ⟨.SD, 0, 0⟩).parseConfig file).name, ?_⟩⟩
  rw [mem_loadByName, loadByNameFile_eq, nameAccepts_iff]
  refine ⟨mem_configFiles.mpr ⟨file, hfile, hconfig⟩, ⟨rfl, matchesEnvironment_unknown _, ?_⟩, fun j _ hlt => ?_⟩
  · have hqt : (parsedPolicys (host.configDir .SessionBus) memory 0).sdkType ≠ .QT := by
      rw [parsedPolicys_eq hfile, hsd]
      decide
    simp [qtVersionOk, hqt]
  · exact absurd hlt (Nat.not_lt_zero j)

theorem parseConfig_sdkType (u : Uninitialised) (hunknown : ¬ PluginTypeKnown file) :
    ((Policy.new u).parseConfig file).sdkType = u.sdkType := by
  rw [(Policy.parseConfig_new u file).1.sdkType, Policy.settings]
  cases hread : file.rootObj with
  | none => rfl
  | some rootObj =>
    have hknown := mt pluginType_known_iff.mpr (fun h => hunknown ⟨rootObj, hread, h⟩)
    rw [not_or] at hknown
    simp only [Policy.readScalars, if_neg hknown.1, if_neg hknown.2]
    rfl

theorem determinedByFile_iff (file : QFileInfo) :
    DeterminedByFile file ↔ (file.isConfig = true → PluginTypeKnown file) := by
  constructor
  · intro hdetermined hconfig
    by_contra hunknown
    have hsd := parseConfig_sdkType ⟨.SD, 0, 0⟩ hunknown
    have hqt := parseConfig_sdkType ⟨.QT, 0, 0⟩ hunknown
    have hsame := hdetermined ⟨.SD, 0, 0⟩ ⟨.QT, 0, 0⟩ (passedOn_sd hconfig hsd)
    rw [hsame, hqt] at hsd
    cases hsd
  · rintro hknown u v ⟨host, loader, memory, i, hfile, -, hcreated⟩
    obtain ⟨rootObj, hread, htype⟩ := hknown (created_configFile hfile hcreated)
    exact parseConfig_congr hread (readScalars_known htype u v)

def dbusFile : QFileInfo := configFile
  [("name", .string "org.deepin.demo"), ("pluginPath", .string "demo.so"), ("pluginType", .string "dbus")]

theorem unknown_type_undetermined :
    let host := sampleHost "x11" [dbusFile]
    let loader : PluginLoader := ⟨.SessionBus, true⟩
    loader.loadByGroup host (fun _ => ⟨.QT, 0, 0⟩) (fun _ => true) "app" = some ⟨[0], [0]⟩ ∧
      loader.loadByGroup host (fun _ => ⟨.unset 2, 0, 0⟩) (fun _ => true) "app" = some ⟨[0], []⟩ ∧
      createService ((Policy.new ⟨.QT, 0, 0⟩).parseConfig dbusFile) = some .ServiceQtDBus ∧
      createService ((Policy.new ⟨.unset 2, 0, 0⟩).parseConfig dbusFile) = none ∧ ¬ DeterminedByFile dbusFile := by
  intro host loader
  have hload : loader.loadByGroup host (fun _ => ⟨.QT, 0, 0⟩) (fun _ => true) "app" = some ⟨[0], [0]⟩ := by decide
  refine ⟨hload, by decide, by decide, by decide, fun h => ?_⟩
  have hsame := h ⟨.QT, 0, 0⟩ ⟨.SD, 0, 0⟩
    ⟨host, loader, fun _ => ⟨.QT, 0, 0⟩, 0, rfl, rfl, .inl ⟨fun _ => true, "app", _, hload, by decide⟩⟩
  have hbackend : createService ((Policy.new ⟨.QT, 0, 0⟩).parseConfig dbusFile) ≠
      createService ((Policy.new ⟨.SD, 0, 0⟩).parseConfig dbusFile) := by decide
  exact hbackend (congrArg createService hsame)

end DeepinServiceManager.UninitialisedPolicys
