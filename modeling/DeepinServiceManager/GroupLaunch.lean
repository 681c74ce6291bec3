import DeepinServiceManager.FileUse
import DeepinServiceManager.GroupOrder
import DeepinServiceManager.ListBuilding

namespace DeepinServiceManager.GroupLaunch

open AcyclicRelations PluginLoader ServiceManager SortPolicy ConfigScans FileUse ListBuilding WeakOrders GroupOrder

/-- The calls of `addPlugin` in the main process, then those in the process of each group that it starts. -/
def addPluginCalls (host : Host) (sort : Sorter) (type : BusType) (memory coreMemory : PolicyPtr → Uninitialised)
    (groupMemory : String → PolicyPtr → Uninitialised) (timerFires : ℤ → Bool) : Option (List PolicyPtr) := do
  let launch ← initGroup host sort type memory coreMemory timerFires
  let groups ← launch.startUnits.mapM (fun group =>
    PluginManager.loadByGroup host type (groupMemory group) timerFires group)
  return launch.coreAdded ++ groups.flatMap Loaded.added

def selected (host : Host) (policy : Policy) : Bool :=
  policy.startType = "Resident" && policy.group ≠ "" && policy.pluginPath ≠ "" &&
    policy.matchesEnvironment host.env && (policy.sdkType ≠ .QT || checkPluginQtVersion host policy.pluginPath)

def collected (host : Host) (type : BusType) (memory : PolicyPtr → Uninitialised) : List String :=
  collectGroups host (parsedPolicys (host.configDir type) memory) (configFiles (host.configDir type))

/-- `addPlugin` is called once for each selected file, and for no other. -/
def ExactlyOnce (host : Host) (sort : Sorter) (type : BusType) (memory coreMemory : PolicyPtr → Uninitialised)
    (groupMemory : String → PolicyPtr → Uninitialised) (timerFires : ℤ → Bool) : Prop :=
  ∃ calls, addPluginCalls host sort type memory coreMemory groupMemory timerFires = some calls ∧ calls.Nodup ∧
    ∀ i, i ∈ calls ↔ i ∈ configFiles (host.configDir type) ∧
      selected host (parsedPolicys (host.configDir type) memory i) = true

structure Startable (timerFires : ℤ → Bool) (file : QFileInfo) : Prop where
  pluginType : ∀ rootObj, file.rootObj = some rootObj → rootObj.value "pluginType" = none ∨
    rootObj.value "pluginType" = some (.string "qt") ∨ rootObj.value "pluginType" = some (.string "sd")
  startDelay : ∀ rootObj, file.rootObj = some rootObj →
    timerFires (((jsonGetInt rootObj "startDelay" 0).2 * 1000).bmod (2 ^ 32)) = true

variable {host : Host} {type : BusType} {timerFires : ℤ → Bool} {file : QFileInfo} {i : PolicyPtr}
  {memory memory' : PolicyPtr → Uninitialised}

theorem settings_startable (h : Startable timerFires file) {rootObj : QJsonObject}
    (hroot : file.rootObj = some rootObj) :
    (∃ t, (t = .QT ∨ t = .SD) ∧ ∀ u, (Policy.settings u file).sdkType = t) ∧
      ∀ u, timerFires (startDelayMsec (Policy.settings u file)) = true := by
  simp only [Policy.settings, hroot, startDelayMsec]
  refine ⟨?_, fun u => h.startDelay rootObj hroot⟩
  rcases h.pluginType rootObj hroot with htype | htype | htype
  · exact ⟨.QT, .inl rfl, fun u => by simp [Policy.readScalars, jsonGetString, htype]⟩
  · exact ⟨.QT, .inl rfl, fun u => by simp [Policy.readScalars, jsonGetString, htype]⟩
  · exact ⟨.SD, .inr rfl, fun u => by simp [Policy.readScalars, jsonGetString, htype]⟩

theorem resident_startable {dir : List QFileInfo} (hfile : dir[i]? = some file) (h : Startable timerFires file)
    (hresident : (parsedPolicys dir memory i).isResident = true) :
    (∃ t, (t = .QT ∨ t = .SD) ∧ ∀ memory, (parsedPolicys dir memory i).sdkType = t) ∧
      ∀ memory, timerFires (startDelayMsec (parsedPolicys dir memory i)) = true := by
  have hsettings (memory : PolicyPtr → Uninitialised) := parsedPolicys_settings hfile memory
  cases hroot : file.rootObj with
  | none =>
    have hunread : (parsedPolicys dir memory i).startType = "" := by
      rw [(hsettings memory).startType, Policy.settings, hroot]
      rfl
    rw [Policy.isResident, hunread] at hresident
    cases hresident
  | some rootObj =>
    obtain ⟨⟨t, ht, htype⟩, hdelay⟩ := settings_startable h hroot
    refine ⟨⟨t, ht, fun memory => by rw [(hsettings memory).sdkType, htype]⟩, fun memory => ?_⟩
    rw [startDelayMsec, (hsettings memory).startDelay]
    exact hdelay (memory i)

def AllStartable (timerFires : ℤ → Bool) (dir : List QFileInfo) : Prop :=
  ∀ (i : ℕ) (file : QFileInfo), dir[i]? = some file → file.isConfig = true → Startable timerFires file

theorem groupAccepts_agree {dir : List QFileInfo} (hall : AllStartable timerFires dir) (group : String)
    (hi : i ∈ configFiles dir) :
    groupAccepts host ⟨type, true⟩ group (parsedPolicys dir memory i) =
      groupAccepts host ⟨type, true⟩ group (parsedPolicys dir memory' i) := by
  have hagree := parsedPolicys_agree dir memory memory' i
  rw [Bool.eq_iff_iff, groupAccepts_iff, groupAccepts_iff, hagree.group,
    Policy.isResident_eq hagree.startType, Policy.matchesEnvironment_congr _ hagree.condition]
  refine and_congr_right fun _ => and_congr_right fun hresident => and_congr_right fun _ => ?_
  obtain ⟨file, hfile, hconfig⟩ := mem_configFiles.mp hi
  obtain ⟨⟨t, -, htype⟩, -⟩ := resident_startable hfile (hall i file hfile hconfig) hresident.symm
  rw [qtVersionOk, qtVersionOk, htype, htype, hagree.pluginPath]

theorem groupPolicys_agree (hall : AllStartable timerFires (host.configDir type))
    (memory memory' : PolicyPtr → Uninitialised) (group : String) :
    groupPolicys host ⟨type, true⟩ memory group = groupPolicys host ⟨type, true⟩ memory' group :=
  List.filter_congr fun _ hi => groupAccepts_agree hall group hi

theorem groupDepends_agree (hall : AllStartable timerFires (host.configDir type))
    (memory memory' : PolicyPtr → Uninitialised) (group : String) :
    GroupDepends host ⟨type, true⟩ memory group = GroupDepends host ⟨type, true⟩ memory' group := by
  have hagree := parsedPolicys_agree (host.configDir type) memory memory'
  unfold GroupDepends Depends
  rw [groupPolicys_agree hall memory memory' group,
    dependencyEdges_congr (fun i => (hagree i).name) (fun i => (hagree i).dependencies)]

theorem groupFits_agree (hall : AllStartable timerFires (host.configDir type))
    (memory memory' : PolicyPtr → Uninitialised) (group : String) :
    GroupFits host ⟨type, true⟩ memory group ↔ GroupFits host ⟨type, true⟩ memory' group := by
  have hagree := parsedPolicys_agree (host.configDir type) memory memory'
  unfold GroupFits EdgesFit
  rw [groupPolicys_agree hall memory memory' group,
    dependencyEdges_congr (fun i => (hagree i).name) (fun i => (hagree i).dependencies)]

theorem selected_iff {policy : Policy} : selected host policy = true ↔ policy.isResident = true ∧
    policy.group ≠ "" ∧ policy.pluginPath ≠ "" ∧ policy.matchesEnvironment host.env = true ∧
      qtVersionOk host policy = true := by
  simp [selected, Policy.isResident, qtVersionOk, and_assoc]

theorem addsPlugin_iff {policy : Policy} (htype : policy.sdkType = .QT ∨ policy.sdkType = .SD) :
    addsPlugin policy = true ↔ policy.pluginPath ≠ "" := by
  rcases htype with htype | htype <;> simp [addsPlugin, createService, htype]

theorem loadByGroup_added (hall : AllStartable timerFires (host.configDir type)) (memory : PolicyPtr → Uninitialised)
    {group : String} (hgroup : group ≠ "") (hac : Acyclic (GroupDepends host ⟨type, true⟩ memory group))
    (hfits : GroupFits host ⟨type, true⟩ memory group) (memory' : PolicyPtr → Uninitialised) :
    ∃ loaded, PluginManager.loadByGroup host type memory' timerFires group = some loaded ∧ loaded.added.Nodup ∧
      ∀ i, i ∈ loaded.added ↔ i ∈ configFiles (host.configDir type) ∧
        selected host (parsedPolicys (host.configDir type) memory i) = true ∧
        (parsedPolicys (host.configDir type) memory i).group = group := by
  set dir := host.configDir type
  have hknown : ∀ i ∈ configFiles dir, (parsedPolicys dir memory i).isResident = true →
      (∃ t, (t = .QT ∨ t = .SD) ∧ ∀ memory, (parsedPolicys dir memory i).sdkType = t) ∧
        ∀ memory, timerFires (startDelayMsec (parsedPolicys dir memory i)) = true := by
    intro i hi hresident
    obtain ⟨file, hfile, hconfig⟩ := mem_configFiles.mp hi
    exact resident_startable hfile (hall i file hfile hconfig) hresident
  have hkept : ∀ i, i ∈ groupPolicys host ⟨type, true⟩ memory' group ↔ i ∈ configFiles dir ∧
      groupAccepts host ⟨type, true⟩ group (parsedPolicys dir memory i) = true := by
    intro i
    rw [groupPolicys_agree hall memory' memory]
    exact mem_groupPolicys
  rw [groupDepends_agree hall memory memory'] at hac
  rw [groupFits_agree hall memory memory'] at hfits
  obtain ⟨sorted, hperm, hload⟩ := loadByGroup_all timerFires hfits hac (by
    intro i hi
    obtain ⟨hconfig, haccept⟩ := (hkept i).mp hi
    exact (hknown i hconfig (groupAccepts_iff.mp haccept).2.1.symm).2 memory')
  refine ⟨_, hload, (hperm.nodup_iff.mpr (groupPolicys_nodup group)).filter _, fun i => ?_⟩
  rw [List.mem_filter, hperm.mem_iff, hkept, groupAccepts_iff, selected_iff]
  have hpath : (parsedPolicys dir memory' i).pluginPath = (parsedPolicys dir memory i).pluginPath :=
    (parsedPolicys_agree dir memory' memory i).pluginPath
  constructor
  · rintro ⟨⟨hconfig, rfl, hresident, hmatch, hqt⟩, hadds⟩
    obtain ⟨⟨t, ht, htype⟩, -⟩ := hknown i hconfig hresident.symm
    rw [addsPlugin_iff ((htype memory').symm ▸ ht), hpath] at hadds
    exact ⟨hconfig, ⟨hresident.symm, hgroup, hadds, hmatch, hqt⟩, rfl⟩
  · rintro ⟨hconfig, ⟨hresident, -, hplugin, hmatch, hqt⟩, rfl⟩
    obtain ⟨⟨t, ht, htype⟩, -⟩ := hknown i hconfig hresident
    refine ⟨⟨hconfig, rfl, hresident.symm, hmatch, hqt⟩, ?_⟩
    rw [addsPlugin_iff ((htype memory').symm ▸ ht), hpath]
    exact hplugin

theorem addPluginCalls_perm (sort : Sorter) (memory coreMemory : PolicyPtr → Uninitialised) (groupMemory : String → PolicyPtr → Uninitialised)
    {groups : List String} (hgroups : sort groupLess (collected host type memory) = some groups) (hdistinct : groups.Nodup) (loaded : String → Loaded)
    (hcore : "core" ∈ groups → PluginManager.loadByGroup host type coreMemory timerFires "core" = some (loaded "core"))
    (hload : ∀ group ∈ groups, group ≠ "core" →
      PluginManager.loadByGroup host type (groupMemory group) timerFires group = some (loaded group)) :
    ∃ calls, addPluginCalls host sort type memory coreMemory groupMemory timerFires = some calls ∧
      calls.Perm (groups.flatMap (fun group => (loaded group).added)) := by
  have hunits : (groups.erase "core").mapM (fun group =>
      PluginManager.loadByGroup host type (groupMemory group) timerFires group) =
        some ((groups.erase "core").map loaded) := by
    apply mapM_eq_some
    intro group hgroup
    obtain ⟨hne, hmem⟩ := hdistinct.mem_erase_iff.mp hgroup
    exact hload group hmem hne
  rw [collected] at hgroups
  rw [addPluginCalls, initGroup]
  simp only [hgroups, List.contains_iff_mem, Option.bind_eq_bind, Option.bind_some]
  by_cases hmem : "core" ∈ groups
  · rw [PluginManager.loadByGroup] at hcore
    simp only [hmem, if_true, hcore hmem, Option.bind_some, Option.pure_def, hunits, List.flatMap_map]
    refine ⟨_, rfl, ?_⟩
    have hperm := (List.perm_cons_erase hmem).flatMap_right (fun group => (loaded group).added)
    rw [List.flatMap_cons] at hperm
    exact hperm.symm
  · rw [List.erase_of_not_mem hmem] at hunits
    simp only [hmem, if_false, Option.bind_some, Option.pure_def, hunits, List.flatMap_map, List.nil_append]
    exact ⟨_, rfl, List.Perm.refl _⟩

section

variable {sort : Sorter} {coreMemory : PolicyPtr → Uninitialised} {groupMemory : String → PolicyPtr → Uninitialised}
  {groups : List String}

theorem mem_collected {group : String} : group ∈ collected host type memory ↔ group ≠ "" ∧
    ∃ j ∈ configFiles (host.configDir type),
      (parsedPolicys (host.configDir type) memory j).matchesEnvironment host.env = true ∧
        (parsedPolicys (host.configDir type) memory j).group = group := mem_collectGroups

theorem exactlyOnce_of_fits (hgroups : sort groupLess (collected host type memory) = some groups)
    (hsorted : groups.Perm (collected host type memory)) (hstartable : AllStartable timerFires (host.configDir type))
    (hac : ∀ group, group ≠ "" → Acyclic (GroupDepends host ⟨type, true⟩ memory group))
    (hfits : ∀ group ∈ collected host type memory, GroupFits host ⟨type, true⟩ memory group) :
    ExactlyOnce host sort type memory coreMemory groupMemory timerFires := by
  set heap := parsedPolicys (host.configDir type) memory
  have hdistinct : groups.Nodup := hsorted.nodup_iff.mpr (collectGroups_nodup _)
  have hmemGroups : ∀ group, group ∈ groups ↔ group ∈ collected host type memory := fun group => hsorted.mem_iff
  have hnonempty : ∀ group ∈ groups, group ≠ "" :=
    fun group hgroup => (mem_collected.mp ((hmemGroups group).mp hgroup)).1
  choose! loaded hload hnodup hmem using fun (group : String) (hgroup : group ∈ groups) =>
    loadByGroup_added hstartable memory (hnonempty group hgroup) (hac group (hnonempty group hgroup))
      (hfits group ((hmemGroups group).mp hgroup))
  -- the main process loads the core group with objects of its own
  let objects (group : String) := if group = "core" then coreMemory else groupMemory group
  obtain ⟨calls, hcalls, hperm⟩ := addPluginCalls_perm sort memory coreMemory groupMemory hgroups hdistinct
    (fun group => loaded group (objects group))
    (fun hcore => by simpa [objects] using hload "core" hcore coreMemory)
    (fun group hgroup hne => by simpa [objects, hne] using hload group hgroup (groupMemory group))
  obtain ⟨hnodupCalls, hmemCalls⟩ := flatMap_labelled (fun i => (heap i).group)
    (fun i => i ∈ configFiles (host.configDir type) ∧ selected host (heap i) = true) hdistinct
    (fun group hgroup => hnodup group hgroup (objects group))
    (fun group hgroup i => (hmem group hgroup _ i).trans and_assoc.symm)
  refine ⟨calls, hcalls, hperm.nodup_iff.mpr hnodupCalls, ?_⟩
  intro i
  rw [hperm.mem_iff, hmemCalls]
  constructor
  · exact And.left
  · intro h
    obtain ⟨-, hgroup, -, hmatch, -⟩ := selected_iff.mp h.2
    exact ⟨h, (hmemGroups _).mpr (mem_collected.mpr ⟨hgroup, i, h.1, hmatch, rfl⟩)⟩

theorem initGroup_spec {launch : Launch} (h : initGroup host sort type memory coreMemory timerFires = some launch) :
    ∃ groups, sort groupLess (collected host type memory) = some groups ∧ launch.startUnits = groups.erase "core" ∧
      ("core" ∈ groups → ∃ loaded, PluginManager.loadByGroup host type coreMemory timerFires "core" = some loaded) := by
  obtain ⟨groups, hgroups, h⟩ := Option.bind_eq_some_iff.mp h
  refine ⟨groups, hgroups, ?_⟩
  simp only [List.contains_iff_mem] at h
  split_ifs at h with hcore
  · obtain ⟨loaded, hload, h⟩ := Option.bind_eq_some_iff.mp h
    cases h
    exact ⟨rfl, fun _ => ⟨loaded, hload⟩⟩
  · cases h
    exact ⟨(List.erase_of_not_mem hcore).symm, fun h => absurd h hcore⟩

theorem addPluginCalls_fits (hstartable : AllStartable timerFires (host.configDir type)) {calls : List PolicyPtr}
    (h : addPluginCalls host sort type memory coreMemory groupMemory timerFires = some calls) :
    ∃ groups, sort groupLess (collected host type memory) = some groups ∧
      ∀ group ∈ groups, GroupFits host ⟨type, true⟩ memory group := by
  obtain ⟨launch, hlaunch, h⟩ := Option.bind_eq_some_iff.mp h
  obtain ⟨units, hunits, -⟩ := Option.bind_eq_some_iff.mp h
  obtain ⟨groups, hgroups, hstart, hcore⟩ := initGroup_spec hlaunch
  refine ⟨groups, hgroups, fun group hgroup => ?_⟩
  obtain ⟨memory', loaded, hload⟩ : ∃ memory' loaded,
      PluginManager.loadByGroup host type memory' timerFires group = some loaded := by
    by_cases hne : group = "core"
    · subst hne
      exact ⟨coreMemory, hcore hgroup⟩
    · rw [hstart] at hunits
      exact ⟨groupMemory group, mapM_mem hunits ((List.mem_erase_of_ne hne).mpr hgroup)⟩
  exact (groupFits_agree hstartable memory memory' group).mpr (loadByGroup_defined hload)

theorem exactlyOnce_iff (hgroups : sort groupLess (collected host type memory) = some groups)
    (hsorted : groups.Perm (collected host type memory)) (hstartable : AllStartable timerFires (host.configDir type))
    (hac : ∀ group, group ≠ "" → Acyclic (GroupDepends host ⟨type, true⟩ memory group)) :
    ExactlyOnce host sort type memory coreMemory groupMemory timerFires ↔
      ∀ group ∈ collected host type memory, GroupFits host ⟨type, true⟩ memory group := by
  constructor
  · rintro ⟨calls, hcalls, -⟩ group hgroup
    obtain ⟨groups', hgroups', hfits⟩ := addPluginCalls_fits hstartable hcalls
    rw [hgroups] at hgroups'
    cases hgroups'
    exact hfits group (hsorted.mem_iff.mpr hgroup)
  · exact exactlyOnce_of_fits hgroups hsorted hstartable hac

end

/-- Where the sort leaves a permutation of the collected groups, each file is added once exactly when none of the groups
has more dependency edges than policies. For all sorts that keep to their documentation it is so exactly when their
precondition holds as well. -/
theorem addPlugin_exactly_once_iff (host : Host) (type : BusType) (memory coreMemory : PolicyPtr → Uninitialised)
    (groupMemory : String → PolicyPtr → Uninitialised) (timerFires : ℤ → Bool)
    (hstartable : AllStartable timerFires (host.configDir type))
    (hac : ∀ group, group ≠ "" → Acyclic (GroupDepends host ⟨type, true⟩ memory group)) :
    (∀ (sort : Sorter) groups, sort groupLess (collected host type memory) = some groups →
      groups.Perm (collected host type memory) →
        (ExactlyOnce host sort type memory coreMemory groupMemory timerFires ↔
          ∀ group ∈ collected host type memory, GroupFits host ⟨type, true⟩ memory group)) ∧
    ((∀ sort : Sorter, SortsWeakOrders sort →
        ExactlyOnce host sort type memory coreMemory groupMemory timerFires) ↔
      OneKind (collected host type memory) ∧
        ∀ group ∈ collected host type memory, GroupFits host ⟨type, true⟩ memory group) := by
  refine ⟨fun sort groups hgroups hsorted => exactlyOnce_iff hgroups hsorted hstartable hac, ?_⟩
  rw [← groupLess_weakOrder_iff]
  constructor
  · intro hall
    have horder : StrictWeakOrderOn groupLess (collected host type memory) := by
      by_contra hnot
      obtain ⟨sort, hsort, hundefined⟩ := exists_partial_sort (α := String)
      obtain ⟨calls, hcalls, -⟩ := hall sort hsort
      obtain ⟨groups, hgroups, -⟩ := addPluginCalls_fits hstartable hcalls
      rw [hundefined _ _ hnot] at hgroups
      cases hgroups
    refine ⟨horder, ?_⟩
    exact (exactlyOnce_iff rfl (mergeSort_outcome horder).perm hstartable hac).mp (hall _ mergeSort_sorts)
  · rintro ⟨horder, hfits⟩ sort hsort
    obtain ⟨groups, hgroups, houtcome⟩ := hsort groupLess _ horder
    exact (exactlyOnce_iff hgroups houtcome.perm hstartable hac).mpr hfits

def launchDir : List QFileInfo :=
  [configFile [("name", .string "a"), ("group", .string "core"), ("pluginPath", .string "a.so")],
    configFile [("name", .string "b"), ("pluginPath", .string "b.so"), ("startType", .string "OnDemand")],
    configFile [("name", .string "c"), ("group", .string "core"), ("pluginPath", .string "c.so"),
      ("pluginType", .string "sd"), ("dependencies", .array [.string "a"])]]

theorem launchDir_startable : AllStartable (fun delay => 0 ≤ delay) launchDir := by
  intro i file hfile _
  match i with
  | 0 | 1 =>
    cases hfile
    constructor <;> rintro _ ⟨⟩
    · exact .inl rfl
    · decide
  | 2 =>
    cases hfile
    constructor <;> rintro _ ⟨⟩
    · exact .inr (.inr rfl)
    · decide
  | i + 3 => cases hfile

/-- Each dependency that is found comes from a file before the dependent one. -/
theorem acyclic_of_files {loader : PluginLoader} (group : String)
    (h : ∀ b ∈ configFiles (host.configDir loader.m_type),
      ∀ name ∈ (parsedPolicys (host.configDir loader.m_type) memory b).dependencies,
        ∀ a ∈ configFiles (host.configDir loader.m_type),
          (parsedPolicys (host.configDir loader.m_type) memory a).name = name → a < b) :
    Acyclic (GroupDepends host loader memory group) := by
  apply acyclic_of_rank id
  intro a b hab
  obtain ⟨hb, name, hname, hfind⟩ := mem_dependencyEdges.mp hab
  have ha := List.mem_of_find?_eq_some hfind
  exact h b (mem_groupPolicys.mp hb).1 name hname a (mem_groupPolicys.mp ha).1 (by simpa using List.find?_some hfind)

theorem launchDir_acyclic (group : String) :
    Acyclic (GroupDepends (sampleHost "x11" launchDir) ⟨.SystemBus, true⟩ (fun _ => ⟨.QT, 0, 0⟩) group) :=
  acyclic_of_files group (by decide)

theorem launchDir_fits : OneKind (collected (sampleHost "x11" launchDir) .SystemBus (fun _ => ⟨.QT, 0, 0⟩)) ∧
    ∀ group ∈ collected (sampleHost "x11" launchDir) .SystemBus (fun _ => ⟨.QT, 0, 0⟩),
      GroupFits (sampleHost "x11" launchDir) ⟨.SystemBus, true⟩ (fun _ => ⟨.QT, 0, 0⟩) group :=
  ⟨.inl (by decide), by decide⟩

theorem addPlugin_exactly_once_sample : ∃ calls,
    addPluginCalls (sampleHost "x11" launchDir) (fun less groups => some (groups.mergeSort fun a b => !less b a))
      .SystemBus (fun _ => ⟨.QT, 0, 0⟩) (fun _ => ⟨.SD, 7, 0⟩) (fun _ _ => ⟨.unset 0, -1, 0⟩) (fun delay => 0 ≤ delay) =
        some calls ∧ calls.Nodup ∧ 0 ∈ calls ∧ 1 ∉ calls ∧ 2 ∈ calls := by
  obtain ⟨calls, hcalls, hnodup, hmem⟩ := (addPlugin_exactly_once_iff (sampleHost "x11" launchDir) .SystemBus
    (fun _ => ⟨.QT, 0, 0⟩) (fun _ => ⟨.SD, 7, 0⟩) (fun _ _ => ⟨.unset 0, -1, 0⟩) (fun delay => 0 ≤ delay)
    launchDir_startable (fun group _ => launchDir_acyclic group)).2.mpr launchDir_fits _ mergeSort_sorts
  exact ⟨calls, hcalls, hnodup, (hmem 0).mpr (by decide), fun h => absurd ((hmem 1).mp h) (by decide),
    (hmem 2).mpr (by decide)⟩

def chainFile (name : String) (dependencies : List String) : QFileInfo := configFile
  [("name", .string name), ("group", .string "dde"), ("pluginPath", .string "demo.so"),
    ("dependencies", .array (dependencies.map .string))]

def chainDir : List QFileInfo :=
  [chainFile "a" [], chainFile "b" ["a"], chainFile "c" ["a", "b"], chainFile "d" ["a", "b", "c"]]

theorem chainFile_startable (name : String) (dependencies : List String) :
    Startable (fun delay => 0 ≤ delay) (chainFile name dependencies) := by
  constructor
  · rintro _ ⟨⟩
    exact .inl rfl
  · rintro _ ⟨⟩
    rfl

theorem chainDir_startable : AllStartable (fun delay => 0 ≤ delay) chainDir := by
  intro i file hfile _
  have hmem := List.mem_of_getElem? hfile
  simp only [chainDir, List.mem_cons, List.not_mem_nil, or_false] at hmem
  rcases hmem with rfl | rfl | rfl | rfl <;> exact chainFile_startable _ _

theorem chained_not_added :
    let host := sampleHost "x11" chainDir
    let memory : PolicyPtr → Uninitialised := fun _ => ⟨.QT, 0, 0⟩
    AllStartable (fun delay => 0 ≤ delay) chainDir ∧
      (∀ group, Acyclic (GroupDepends host ⟨.SystemBus, true⟩ memory group)) ∧
      OneKind (collected host .SystemBus memory) ∧ selected host (parsedPolicys chainDir memory 0) = true ∧
      ∀ sort : Sorter, SortsWeakOrders sort →
        ¬ ExactlyOnce host sort .SystemBus memory memory (fun _ => memory) (fun delay => 0 ≤ delay) := by
  intro host memory
  have hcollected : collected host .SystemBus memory = ["dde"] := by decide
  have horder : OneKind (collected host .SystemBus memory) := .inl (by decide)
  refine ⟨chainDir_startable, fun group => acyclic_of_files group (by decide), horder, by decide, ?_⟩
  rintro sort hsort ⟨calls, hcalls, -⟩
  obtain ⟨groups, hgroups, hfits⟩ := addPluginCalls_fits chainDir_startable hcalls
  obtain ⟨sorted, hsorted, houtcome⟩ := hsort groupLess _ ((groupLess_weakOrder_iff _).mpr horder)
  rw [hgroups] at hsorted
  cases hsorted
  have hmem : "dde" ∈ groups := houtcome.perm.mem_iff.mpr (by simp [hcollected])
  exact absurd (hfits "dde" hmem) (by decide)

end DeepinServiceManager.GroupLaunch
