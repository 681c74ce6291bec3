import DeepinServiceManager.ConfigScans

namespace DeepinServiceManager.NameLookup

open PluginLoader ConfigScans

variable {host : Host} {loader : PluginLoader} {memory memory' : PolicyPtr → Uninitialised} {name : String}

def FirstAccepted (host : Host) (dir : List QFileInfo) (memory : PolicyPtr → Uninitialised) (name : String)
    (i : PolicyPtr) : Prop :=
  i ∈ configFiles dir ∧ nameAccepts host name (parsedPolicys dir memory i) = true ∧
    ∀ j ∈ configFiles dir, j < i → nameAccepts host name (parsedPolicys dir memory j) = false

theorem getGroup_firstNamed (loader : PluginLoader) {f : PolicyPtr}
    (hf : FirstNamed (host.configDir loader.m_type) memory' name f)
    (hmatch : (parsedPolicys (host.configDir loader.m_type) memory' f).matchesEnvironment host.env = true) :
    loader.getGroup host memory name = (parsedPolicys (host.configDir loader.m_type) memory' f).group := by
  have hagree := parsedPolicys_agree (host.configDir loader.m_type) memory memory' f
  have hfile : loader.getGroupFile host memory name = some f :=
    getGroupFile_eq.mpr ⟨hf.congr memory, by rw [Policy.matchesEnvironment_congr _ hagree.condition, hmatch]⟩
  rw [getGroup, hfile]
  exact hagree.group

theorem getGroup_nonempty (memory' : PolicyPtr → Uninitialised) (h : loader.getGroup host memory name ≠ "") :
    ∃ f, FirstNamed (host.configDir loader.m_type) memory' name f ∧
      (parsedPolicys (host.configDir loader.m_type) memory' f).matchesEnvironment host.env = true := by
  rw [getGroup] at h
  cases hfile : loader.getGroupFile host memory name with
  | none => simp [hfile] at h
  | some f =>
    obtain ⟨hf, hmatch⟩ := getGroupFile_eq.mp hfile
    refine ⟨f, hf.congr memory', ?_⟩
    rw [Policy.matchesEnvironment_congr _ (parsedPolicys_agree _ memory' memory f).condition, hmatch]

theorem loadByName_registers {type : BusType} {memory'' : PolicyPtr → Uninitialised} {q : PolicyPtr}
    {group : String} (hgroup : group ≠ "")
    (hget : ∀ memory, PluginLoader.getGroup host ⟨type, false⟩ memory name = group)
    (hq : PluginLoader.loadByNameFile host ⟨type, false⟩ memory'' name = some q) :
    ∃ loaded, PluginManager.loadByName host type memory memory' memory'' name = some (group, loaded) ∧
      loaded.created = [q] := by
  refine ⟨PluginLoader.loadByName host ⟨type, false⟩ memory'' name, ?_, ?_⟩
  · rw [PluginManager.loadByName]
    simp only [hget, String.isEmpty_iff, hgroup, if_false]
  · rw [PluginLoader.loadByName, hq]

theorem loadByName_group_iff (host : Host) (type : BusType) (memory memory' memory'' : PolicyPtr → Uninitialised)
    (name : String) :
    let loader : PluginLoader := ⟨type, false⟩
    let heap := parsedPolicys (host.configDir type) memory''
    (∀ q, loader.loadByNameFile host memory'' name = some q → (heap q).group ≠ "" →
      loader.getGroup host memory name = (heap q).group ∧
        ∃ loaded, PluginManager.loadByName host type memory memory' memory'' name = some ((heap q).group, loaded) ∧
          loaded.created = [q]) ↔
      ∀ f q, FirstNamed (host.configDir type) memory'' name f →
        FirstAccepted host (host.configDir type) memory'' name q → (heap q).group ≠ "" →
          f = q ∨ (heap f).matchesEnvironment host.env = true ∧ (heap f).group = (heap q).group := by
  intro loader heap
  constructor
  · intro h f q hf hq hgroup
    obtain ⟨hget, -⟩ := h q (loadByNameFile_eq.mpr hq) hgroup
    obtain ⟨f', hf', hmatch⟩ := getGroup_nonempty memory'' (hget ▸ hgroup)
    obtain rfl := hf.unique hf'
    refine .inr ⟨hmatch, ?_⟩
    rw [← hget]
    exact (getGroup_firstNamed loader hf hmatch).symm
  · intro h q hq hgroup
    have haccept := loadByNameFile_eq.mp hq
    obtain ⟨hname, hqmatch, -⟩ := nameAccepts_iff.mp haccept.2.1
    obtain ⟨f, hf⟩ := exists_firstNamed haccept.1 hname
    have hf' : (heap f).matchesEnvironment host.env = true ∧ (heap f).group = (heap q).group := by
      rcases h f q hf haccept hgroup with rfl | hf'
      · exact ⟨hqmatch, rfl⟩
      · exact hf'
    have hget (memory : PolicyPtr → Uninitialised) : loader.getGroup host memory name = (heap q).group := by
      rw [← hf'.2]
      exact getGroup_firstNamed loader hf hf'.1
    exact ⟨hget memory, loadByName_registers hgroup hget hq⟩

def sessionFile (session group : String) : QFileInfo := configFile
  [("name", .string "demo"), ("group", .string group), ("pluginPath", .string "demo.so"),
    ("condition", .object [("sessionType", .string session)])]

theorem loadByName_group_lost :
    let host := sampleHost "wayland" [sessionFile "x11" "dde", sessionFile "wayland" "app"]
    let loader : PluginLoader := ⟨.SessionBus, false⟩
    let memory : PolicyPtr → Uninitialised := fun _ => ⟨.QT, 0, 0⟩
    loader.loadByNameFile host memory "demo" = some 1 ∧
      (parsedPolicys (host.configDir .SessionBus) memory 1).group = "app" ∧
      loader.getGroup host memory "demo" = "" ∧
      PluginManager.loadByName host .SessionBus memory memory memory "demo" = none := by
  decide

end DeepinServiceManager.NameLookup
