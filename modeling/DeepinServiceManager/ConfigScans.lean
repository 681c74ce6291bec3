import Mathlib.Data.List.TakeWhile
import DeepinServiceManager.OrderedScans
import DeepinServiceManager.PluginLoader

namespace DeepinServiceManager.ConfigScans

open AcyclicRelations OrderedScans PluginLoader ServiceManager SortPolicy

variable {host : Host} {loader : PluginLoader} {dir : List QFileInfo} {memory : PolicyPtr → Uninitialised}

theorem configFiles_sorted (dir : List QFileInfo) : (configFiles dir).Pairwise (· < ·) :=
  List.pairwise_lt_range.filter _

theorem mem_configFiles {i : PolicyPtr} : i ∈ configFiles dir ↔ ∃ file, dir[i]? = some file ∧ file.isConfig = true := by
  rw [configFiles, List.mem_filter, List.mem_range]
  constructor
  · rintro ⟨hi, h⟩
    exact ⟨dir[i], List.getElem?_eq_getElem hi, by simpa [List.getElem?_eq_getElem hi] using h⟩
  · rintro ⟨file, hfile, h⟩
    exact ⟨(List.getElem?_eq_some_iff.mp hfile).1, by simpa [hfile] using h⟩

theorem parsedPolicys_eq {i : PolicyPtr} {file : QFileInfo} (h : dir[i]? = some file)
    (memory : PolicyPtr → Uninitialised) : parsedPolicys dir memory i = (Policy.new (memory i)).parseConfig file := by
  rw [parsedPolicys, h]

theorem parsedPolicys_settings {i : PolicyPtr} {file : QFileInfo} (h : dir[i]? = some file)
    (memory : PolicyPtr → Uninitialised) :
    (parsedPolicys dir memory i).SameSettings (Policy.settings (memory i) file) := by
  rw [parsedPolicys_eq h]
  exact (Policy.parseConfig_new (memory i) file).1

structure Agree (p q : Policy) : Prop where
  name : p.name = q.name
  group : p.group = q.group
  pluginPath : p.pluginPath = q.pluginPath
  startType : p.startType = q.startType
  dependencies : p.dependencies = q.dependencies
  condition : p.condition = q.condition

theorem parsedPolicys_agree (dir : List QFileInfo) (memory memory' : PolicyPtr → Uninitialised) (i : PolicyPtr) :
    Agree (parsedPolicys dir memory i) (parsedPolicys dir memory' i) := by
  cases hfile : dir[i]? with
  | none =>
    simp only [parsedPolicys, hfile]
    constructor <;> rfl
  | some file =>
    have h := parsedPolicys_settings hfile memory
    have h' := parsedPolicys_settings hfile memory'
    have heq := Policy.settings_eq (memory i) (memory' i) file
    constructor
    · rw [h.name, h'.name, heq]
    · rw [h.group, h'.group, heq]
    · rw [h.pluginPath, h'.pluginPath, heq]
    · rw [h.startType, h'.startType, heq]
    · rw [h.dependencies, h'.dependencies, heq]
    · rw [parsedPolicys_eq hfile, parsedPolicys_eq hfile, (Policy.parseConfig_new (memory i) file).2,
        (Policy.parseConfig_new (memory' i) file).2]

theorem groupPolicys_nodup (group : String) : (groupPolicys host loader memory group).Nodup :=
  ((configFiles_sorted _).filter _).nodup

theorem mem_groupPolicys {group : String} {i : PolicyPtr} : i ∈ groupPolicys host loader memory group ↔
    i ∈ configFiles (host.configDir loader.m_type) ∧
      groupAccepts host loader group (parsedPolicys (host.configDir loader.m_type) memory i) = true :=
  List.mem_filter

theorem groupAccepts_iff {group : String} {policy : Policy} : groupAccepts host loader group policy = true ↔
    policy.group = group ∧ loader.m_isResident = policy.isResident ∧
      policy.matchesEnvironment host.env = true ∧ qtVersionOk host policy = true := by
  simp [groupAccepts, and_assoc]

theorem nameAccepts_iff {name : String} {policy : Policy} : nameAccepts host name policy = true ↔
    policy.name = name ∧ policy.matchesEnvironment host.env = true ∧ qtVersionOk host policy = true := by
  simp [nameAccepts, and_assoc]

def GroupDepends (host : Host) (loader : PluginLoader) (memory : PolicyPtr → Uninitialised) (group : String) :
    PolicyPtr → PolicyPtr → Prop :=
  Depends (parsedPolicys (host.configDir loader.m_type) memory) (groupPolicys host loader memory group)

def GroupFits (host : Host) (loader : PluginLoader) (memory : PolicyPtr → Uninitialised) (group : String) : Prop :=
  EdgesFit (parsedPolicys (host.configDir loader.m_type) memory) (groupPolicys host loader memory group)

instance (group : String) : Decidable (GroupFits host loader memory group) :=
  inferInstanceAs (Decidable (EdgesFit _ _))

theorem loadByGroup_isSome_iff {timerFires : ℤ → Bool} {group : String} :
    (loader.loadByGroup host memory timerFires group).isSome = true ↔ GroupFits host loader memory group := by
  rw [GroupFits, ← sortPolicy_isSome_iff _ (groupPolicys_nodup group), PluginLoader.loadByGroup]
  cases sortPolicy (parsedPolicys (host.configDir loader.m_type) memory) (groupPolicys host loader memory group) <;> rfl

theorem loadByGroup_defined {timerFires : ℤ → Bool} {group : String} {loaded : Loaded}
    (hload : loader.loadByGroup host memory timerFires group = some loaded) : GroupFits host loader memory group :=
  loadByGroup_isSome_iff.mp (Option.isSome_iff_exists.mpr ⟨loaded, hload⟩)

theorem loadByGroup_spec (timerFires : ℤ → Bool) {group : String} (hfits : GroupFits host loader memory group) :
    let heap := parsedPolicys (host.configDir loader.m_type) memory
    ∃ sorted, loader.loadByGroup host memory timerFires group =
        some ⟨startLoop timerFires heap sorted,
          (startLoop timerFires heap sorted).filter (fun policy => addsPlugin (heap policy))⟩ ∧
      (Acyclic (GroupDepends host loader memory group) → sorted.Perm (groupPolicys host loader memory group)) ∧
      (¬ Acyclic (GroupDepends host loader memory group) → sorted = []) := by
  intro heap
  by_cases hac : Acyclic (GroupDepends host loader memory group)
  · obtain ⟨sorted, hsort, hperm, -⟩ := sortPolicy_acyclic (groupPolicys_nodup group) hfits hac
    refine ⟨sorted, ?_, fun _ => hperm, fun hcyc => absurd hac hcyc⟩
    rw [PluginLoader.loadByGroup, hsort]
    rfl
  · refine ⟨[], ?_, fun h => absurd h hac, fun _ => rfl⟩
    rw [PluginLoader.loadByGroup, sortPolicy_cyclic (groupPolicys_nodup group) hfits hac]
    rfl

theorem loadByGroup_created {timerFires : ℤ → Bool} {group : String} {loaded : Loaded}
    (hload : loader.loadByGroup host memory timerFires group = some loaded) {i : PolicyPtr} (hi : i ∈ loaded.created) :
    i ∈ groupPolicys host loader memory group ∧ Acyclic (GroupDepends host loader memory group) := by
  obtain ⟨sorted, hload', hac, hcyc⟩ := loadByGroup_spec timerFires (loadByGroup_defined hload)
  obtain rfl := Option.some.inj (hload.symm.trans hload')
  have hi : i ∈ sorted := (List.takeWhile_prefix _).subset hi
  by_cases h : Acyclic (GroupDepends host loader memory group)
  · exact ⟨(hac h).mem_iff.mp hi, h⟩
  · rw [hcyc h] at hi
    cases hi

theorem loadByGroup_all (timerFires : ℤ → Bool) {group : String} (hfits : GroupFits host loader memory group)
    (hac : Acyclic (GroupDepends host loader memory group))
    (hfires : ∀ i ∈ groupPolicys host loader memory group,
      timerFires (startDelayMsec (parsedPolicys (host.configDir loader.m_type) memory i)) = true) :
    ∃ sorted, sorted.Perm (groupPolicys host loader memory group) ∧
      loader.loadByGroup host memory timerFires group = some ⟨sorted, sorted.filter (fun policy =>
        addsPlugin (parsedPolicys (host.configDir loader.m_type) memory policy))⟩ := by
  obtain ⟨sorted, hload, hperm, -⟩ := loadByGroup_spec timerFires hfits
  have hall : startLoop timerFires (parsedPolicys (host.configDir loader.m_type) memory) sorted = sorted :=
    List.takeWhile_eq_self_iff.mpr (fun i hi => hfires i ((hperm hac).mem_iff.mp hi))
  rw [hall] at hload
  exact ⟨sorted, hperm hac, hload⟩

theorem loadByNameFile_eq {name : String} {i : PolicyPtr} : loader.loadByNameFile host memory name = some i ↔
    i ∈ configFiles (host.configDir loader.m_type) ∧
      nameAccepts host name (parsedPolicys (host.configDir loader.m_type) memory i) = true ∧
      ∀ j ∈ configFiles (host.configDir loader.m_type), j < i →
        nameAccepts host name (parsedPolicys (host.configDir loader.m_type) memory j) = false :=
  find?_eq_some_iff_first (configFiles_sorted _) _ i

theorem mem_loadByName {name : String} {i : PolicyPtr} :
    i ∈ (loader.loadByName host memory name).created ↔ loader.loadByNameFile host memory name = some i := by
  rw [PluginLoader.loadByName]
  cases loader.loadByNameFile host memory name with
  | none => simp
  | some j => simpa using eq_comm

def FirstNamed (dir : List QFileInfo) (memory : PolicyPtr → Uninitialised) (name : String) (i : PolicyPtr) : Prop :=
  i ∈ configFiles dir ∧ (parsedPolicys dir memory i).name = name ∧
    ∀ j ∈ configFiles dir, j < i → (parsedPolicys dir memory j).name ≠ name

theorem find?_named {name : String} {i : PolicyPtr} :
    (configFiles dir).find? (fun j => (parsedPolicys dir memory j).name = name) = some i ↔
      FirstNamed dir memory name i := by
  rw [find?_eq_some_iff_first (configFiles_sorted dir)]
  simp only [FirstNamed, decide_eq_true_eq, decide_eq_false_iff_not, ne_eq]

theorem getGroupFile_eq {name : String} {i : PolicyPtr} : loader.getGroupFile host memory name = some i ↔
    FirstNamed (host.configDir loader.m_type) memory name i ∧
      (parsedPolicys (host.configDir loader.m_type) memory i).matchesEnvironment host.env = true := by
  rw [← find?_named, getGroupFile]
  cases hfind : (configFiles (host.configDir loader.m_type)).find?
      (fun i => (parsedPolicys (host.configDir loader.m_type) memory i).name = name) with
  | none => simp
  | some j =>
    simp only [Option.some.injEq]
    constructor
    · intro h
      split_ifs at h with hmatch
      · cases h; exact ⟨rfl, hmatch⟩
    · rintro ⟨rfl, hmatch⟩
      rw [if_pos hmatch]

theorem FirstNamed.congr {name : String} {i : PolicyPtr} (h : FirstNamed dir memory name i)
    (memory' : PolicyPtr → Uninitialised) : FirstNamed dir memory' name i := by
  have hname (j : PolicyPtr) := (parsedPolicys_agree dir memory' memory j).name
  refine ⟨h.1, by rw [hname, h.2.1], fun j hj hlt => ?_⟩
  rw [hname]
  exact h.2.2 j hj hlt

theorem FirstNamed.unique {name : String} {i j : PolicyPtr} (hi : FirstNamed dir memory name i)
    (hj : FirstNamed dir memory name j) : i = j := by
  rcases lt_trichotomy i j with hlt | heq | hlt
  · exact absurd hi.2.1 (hj.2.2 i hi.1 hlt)
  · exact heq
  · exact absurd hj.2.1 (hi.2.2 j hj.1 hlt)

theorem exists_firstNamed {name : String} {i : PolicyPtr} (hi : i ∈ configFiles dir)
    (hname : (parsedPolicys dir memory i).name = name) : ∃ f, FirstNamed dir memory name f := by
  have hsome : ((configFiles dir).find? (fun j => (parsedPolicys dir memory j).name = name)).isSome = true :=
    List.find?_isSome.mpr ⟨i, hi, by simpa using hname⟩
  obtain ⟨f, hf⟩ := Option.isSome_iff_exists.mp hsome
  exact ⟨f, find?_named.mp hf⟩

def asciiLower (s : String) : String := String.ofList (s.toList.map Char.toLower)

def sampleHost (session : String) (dir : List QFileInfo) : Host where
  env := ⟨session, "", ":0", asciiLower⟩
  configDir := fun _ => dir
  pluginQtVersion := fun _ => true

def configFile (rootObj : QJsonObject) : QFileInfo where
  absoluteFilePath := "/usr/share/deepin-service-manager/user/demo.json"
  isFile := true
  jsonSuffix := true
  content := .document (.object rootObj)

end DeepinServiceManager.ConfigScans
