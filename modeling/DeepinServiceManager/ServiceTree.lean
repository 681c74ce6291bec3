import DeepinServiceManager.GroupLaunch

namespace DeepinServiceManager

open AcyclicRelations ServiceManager ConfigScans FileUse ListBuilding GroupLaunch SortedMaps WeakOrders GroupOrder

namespace Main

/-- The user of a process and the answers it gets from `sd_pid_get_owner_uid` and `sd_pid_get_unit`, where `none` is
a negative result. -/
structure Context where
  processUid : ℕ
  ownerUid : Option ℕ
  unit : Option String

def detectScopeBySystemd (c : Context) : String :=
  match c.ownerUid with
  | some ownerUid => if ownerUid = c.processUid then "user" else "system"
  | none =>
    match c.unit with
    | some _ => "system"
    | none => if c.processUid < 1000 then "system" else "user"

structure Options where
  elfQtVerCheckOption : Option String := none
  groupOption : Option String := none
  nameOption : Option String := none
  scopeOption : Option String := none

inductive Start
  | qtVersionFromSo (filePath : String)
  | invalidScope (typeValue : String)
  | loadByName (type : BusType) (name : String)
  | loadByGroup (type : BusType) (group : String)
  | serviceManager (type : BusType)
  deriving DecidableEq

def busTypeMap : SortedMap String BusType := (SortedMap.empty.insert "system" .SystemBus).insert "user" .SessionBus

-- A key that is not in the map gives the first enumerator.
def busType (typeValue : String) : BusType := (busTypeMap.find? typeValue).getD .SessionBus

def main (toLower : String → String) (c : Context) (options : Options) : Start :=
  match options.elfQtVerCheckOption with
  | some filePath => .qtVersionFromSo filePath
  | none =>
    let typeValue := match options.scopeOption with
      | some scope => toLower scope
      | none => detectScopeBySystemd c
    if options.scopeOption.isSome ∧ typeValue ≠ "system" ∧ typeValue ≠ "user" then .invalidScope typeValue
    else
      match options.nameOption, options.groupOption with
      | some name, _ => .loadByName (busType typeValue) name
      | none, some group => .loadByGroup (busType typeValue) group
      | none, none => .serviceManager (busType typeValue)

end Main

namespace ServiceTree

open Main

inductive Systemd
  | system
  | user (uid : ℕ)

/-- The one that answers on the bus; `uid` is the user of the session bus. -/
def systemdOn (uid : ℕ) : BusType → Systemd
  | .SystemBus => .system
  | .SessionBus => .user uid

-- A unit of the system manager may run as any user.
def StartedBy : Systemd → Context → Prop
  | .system, c => c.ownerUid = none ∧ c.unit.isSome
  | .user uid, c => c.processUid = uid ∧ c.ownerUid = some uid

/-- What the processes find outside them: how the parser reads a command line, for which groups systemd starts the
unit, and what the process of a unit finds. -/
structure World where
  host : Host
  sort : ServiceManager.Sorter
  timerFires : ℤ → Bool
  parse : List String → Options
  unitStarts : String → Bool
  unitContext : String → Context

structure Effects where
  added : List PolicyPtr
  startUnits : List String

/-- `memory` has the objects of each scan that the process makes. -/
def effects (w : World) (memory : ℕ → PolicyPtr → Uninitialised) : Start → Option Effects
  | .qtVersionFromSo _ | .invalidScope _ => some ⟨[], []⟩
  | .loadByName type name =>
    some ⟨((PluginManager.loadByName w.host type (memory 0) (memory 1) (memory 2) name).map
      fun loaded => loaded.2.added).getD [], []⟩
  | .loadByGroup type group =>
    (PluginManager.loadByGroup w.host type (memory 0) w.timerFires group).map fun loaded => ⟨loaded.added, []⟩
  | .serviceManager type =>
    (initGroup w.host w.sort type (memory 0) (memory 1) w.timerFires).map fun launch =>
      ⟨launch.coreAdded, launch.startUnits⟩

/-- The process of `deepin-service-group@<group>.service`. -/
def unitProcess (w : World) (group : String) : Start :=
  main w.host.env.toLower (w.unitContext group) (w.parse ["-g", group])

/-- The calls of `addPlugin` in a process and in the processes of the units that it starts. -/
def serviceTree (w : World) (memory : ℕ → PolicyPtr → Uninitialised)
    (unitMemory : String → ℕ → PolicyPtr → Uninitialised) (start : Start) : Option (List PolicyPtr) := do
  let own ← effects w memory start
  let units ← (own.startUnits.filter w.unitStarts).mapM fun group =>
    effects w (unitMemory group) (unitProcess w group)
  return own.added ++ units.flatMap Effects.added

theorem busType_detectScope {uid : ℕ} {type : BusType} {c : Context} (h : StartedBy (systemdOn uid type) c) :
    busType (detectScopeBySystemd c) = type := by
  cases type with
  | SystemBus =>
    obtain ⟨hnone, hunit⟩ := h
    obtain ⟨unit, hunit⟩ := Option.isSome_iff_exists.mp hunit
    rw [detectScopeBySystemd, hnone, hunit]
    rfl
  | SessionBus =>
    obtain ⟨huid, howner⟩ := h
    rw [detectScopeBySystemd, howner, huid]
    simp only [if_true]
    rfl

variable {w : World} {uid : ℕ} {type : BusType} {memory : ℕ → PolicyPtr → Uninitialised}
  {unitMemory : String → ℕ → PolicyPtr → Uninitialised}

/-- systemd starts the units with the command line of the unit file, in the instance that was asked. -/
structure Installed (w : World) (uid : ℕ) (type : BusType) : Prop where
  parse : ∀ group, w.unitStarts group = true → w.parse ["-g", group] = { groupOption := some group }
  context : ∀ group, w.unitStarts group = true → StartedBy (systemdOn uid type) (w.unitContext group)

theorem unitProcess_eq (h : Installed w uid type) {group : String} (hstarts : w.unitStarts group = true) :
    unitProcess w group = .loadByGroup type group := by
  have hscope := busType_detectScope (h.context group hstarts)
  rw [unitProcess, h.parse group hstarts, main]
  simp only [Option.isSome_none, Bool.false_eq_true, false_and, if_false, hscope]

theorem initGroup_eq {groups : List String} (memory coreMemory : PolicyPtr → Uninitialised)
    (hgroups : w.sort groupLess (collected w.host type memory) = some groups) {loaded : Loaded}
    (hcore : "core" ∈ groups →
      PluginManager.loadByGroup w.host type coreMemory w.timerFires "core" = some loaded) :
    initGroup w.host w.sort type memory coreMemory w.timerFires =
      some ⟨if "core" ∈ groups then loaded.added else [], groups.erase "core"⟩ := by
  rw [PluginManager.loadByGroup] at hcore
  rw [collected] at hgroups
  rw [initGroup]
  simp only [hgroups, List.contains_iff_mem, Option.bind_eq_bind, Option.bind_some]
  by_cases hmem : "core" ∈ groups
  · simp only [hmem, if_true, hcore hmem]
    rfl
  · simp only [hmem, if_false, List.erase_of_not_mem hmem]
    rfl

/-- The groups whose plugins are loaded: `core` in the manager itself, the others where the unit starts. -/
def loadedGroups (w : World) (groups : List String) : List String :=
  (if "core" ∈ groups then ["core"] else []) ++ (groups.erase "core").filter w.unitStarts

theorem mem_loadedGroups {groups : List String} (hdistinct : groups.Nodup) {group : String} :
    group ∈ loadedGroups w groups ↔ group ∈ groups ∧ (group = "core" ∨ w.unitStarts group = true) := by
  have hcore : group ∈ (if "core" ∈ groups then ["core"] else []) ↔ group = "core" ∧ group ∈ groups := by
    split_ifs with hmem
    · simp only [List.mem_singleton, iff_self_and]
      rintro rfl
      exact hmem
    · simp only [List.not_mem_nil, false_iff, not_and]
      rintro rfl
      exact hmem
  rw [loadedGroups, List.mem_append, hcore, List.mem_filter, hdistinct.mem_erase_iff]
  by_cases hgroup : group = "core" <;> simp [hgroup]

theorem loadedGroups_nodup {groups : List String} (hdistinct : groups.Nodup) : (loadedGroups w groups).Nodup := by
  rw [loadedGroups]
  apply List.Nodup.append
  · split_ifs <;> simp
  · exact (hdistinct.erase "core").filter _
  · intro group hgroup hrest
    split_ifs at hgroup
    · rw [List.mem_singleton] at hgroup
      exact (hdistinct.mem_erase_iff.mp (List.mem_filter.mp hrest).1).1 hgroup
    · cases hgroup

theorem serviceTree_eq {groups : List String} (hinstalled : Installed w uid type)
    (hgroups : w.sort groupLess (collected w.host type (memory 0)) = some groups)
    (objects : String → PolicyPtr → Uninitialised) (hcore : objects "core" = memory 1)
    (hunit : ∀ group, group ≠ "core" → objects group = unitMemory group 0) (hdistinct : groups.Nodup)
    (loaded : String → Loaded) (hload : ∀ group ∈ groups, group = "core" ∨ w.unitStarts group = true →
      PluginManager.loadByGroup w.host type (objects group) w.timerFires group = some (loaded group)) :
    serviceTree w memory unitMemory (.serviceManager type) =
      some ((loadedGroups w groups).flatMap fun group => (loaded group).added) := by
  have hinit := initGroup_eq (memory 0) (memory 1) hgroups fun hmem => hcore ▸ hload "core" hmem (.inl rfl)
  have hunits : ((groups.erase "core").filter w.unitStarts).mapM (fun group =>
      effects w (unitMemory group) (unitProcess w group)) =
        some (((groups.erase "core").filter w.unitStarts).map fun group => ⟨(loaded group).added, []⟩) := by
    apply mapM_eq_some
    intro group hgroup
    obtain ⟨hmem, hstarts⟩ := List.mem_filter.mp hgroup
    obtain ⟨hne, hmem⟩ := hdistinct.mem_erase_iff.mp hmem
    rw [unitProcess_eq hinstalled hstarts, effects, ← hunit group hne,
      hload group hmem (.inr hstarts)]
    rfl
  have hown : effects w memory (.serviceManager type) =
      some ⟨if "core" ∈ groups then (loaded "core").added else [], groups.erase "core"⟩ := by
    rw [effects, hinit]
    rfl
  simp only [serviceTree, hown, Option.bind_eq_bind, Option.bind_some, hunits, loadedGroups, List.flatMap_append,
    List.flatMap_map]
  split_ifs <;> simp

/-- However the manager was started, the processes of its units work on its bus, and the plugin of each selected file
is added once in the whole tree when its group is `core` or has a unit that starts, and otherwise not at all. -/
theorem serviceTree_exactly_once (w : World) (uid : ℕ) (type : BusType) (c : Context) (options : Options)
    (memory : ℕ → PolicyPtr → Uninitialised) (unitMemory : String → ℕ → PolicyPtr → Uninitialised)
    (hmain : main w.host.env.toLower c options = .serviceManager type) (hinstalled : Installed w uid type)
    (hsort : SortsWeakOrders w.sort) (horder : OneKind (collected w.host type (memory 0)))
    (hstartable : AllStartable w.timerFires (w.host.configDir type))
    (hac : ∀ group, group ≠ "" → Acyclic (GroupDepends w.host ⟨type, true⟩ (memory 0) group))
    (hfits : ∀ group ∈ collected w.host type (memory 0), group = "core" ∨ w.unitStarts group = true →
      GroupFits w.host ⟨type, true⟩ (memory 0) group) :
    (∀ group, w.unitStarts group = true → unitProcess w group = .loadByGroup type group) ∧
    ∃ calls, serviceTree w memory unitMemory (main w.host.env.toLower c options) = some calls ∧ calls.Nodup ∧
      ∀ i, i ∈ calls ↔ i ∈ configFiles (w.host.configDir type) ∧
        selected w.host (parsedPolicys (w.host.configDir type) (memory 0) i) = true ∧
          ((parsedPolicys (w.host.configDir type) (memory 0) i).group = "core" ∨
            w.unitStarts (parsedPolicys (w.host.configDir type) (memory 0) i).group = true) := by
  set heap := parsedPolicys (w.host.configDir type) (memory 0)
  obtain ⟨groups, hgroups, houtcome⟩ := hsort groupLess _ ((groupLess_weakOrder_iff _).mpr horder)
  have hmemGroups : ∀ group, group ∈ groups ↔ group ∈ collected w.host type (memory 0) :=
    fun group => houtcome.perm.mem_iff
  have hdistinct : groups.Nodup := houtcome.perm.nodup_iff.mpr (collectGroups_nodup _)
  have hfit : ∀ group ∈ loadedGroups w groups, group ≠ "" ∧ GroupFits w.host ⟨type, true⟩ (memory 0) group := by
    intro group hgroup
    obtain ⟨hmem, hloaded⟩ := (mem_loadedGroups hdistinct).mp hgroup
    have hcollected := (hmemGroups group).mp hmem
    exact ⟨(mem_collected.mp hcollected).1, hfits group hcollected hloaded⟩
  choose! loaded hload hnodup hmem using fun (group : String) (hgroup : group ∈ loadedGroups w groups) =>
    loadByGroup_added hstartable (memory 0) (hfit group hgroup).1 (hac group (hfit group hgroup).1) (hfit group hgroup).2
  let objects (group : String) := if group = "core" then memory 1 else unitMemory group 0
  have htree := serviceTree_eq hinstalled hgroups objects rfl (fun group hne => if_neg hne) hdistinct
    (fun group => loaded group (objects group))
    (fun group hgroup hloaded => hload group ((mem_loadedGroups hdistinct).mpr ⟨hgroup, hloaded⟩) _)
  obtain ⟨hnodupCalls, hmemCalls⟩ := flatMap_labelled (fun i => (heap i).group)
    (fun i => i ∈ configFiles (w.host.configDir type) ∧ selected w.host (heap i) = true)
    (loadedGroups_nodup hdistinct) (fun group hgroup => hnodup group hgroup (objects group))
    (fun group hgroup i => (hmem group hgroup _ i).trans and_assoc.symm)
  refine ⟨fun group hstarts => unitProcess_eq hinstalled hstarts, _, hmain ▸ htree, hnodupCalls, ?_⟩
  intro i
  rw [hmemCalls, mem_loadedGroups hdistinct, and_assoc]
  refine and_congr_right fun hconfig => and_congr_right fun hselected => ?_
  obtain ⟨-, hgroup, -, hmatch, -⟩ := selected_iff.mp hselected
  rw [and_iff_right ((hmemGroups _).mpr (mem_collected.mpr ⟨hgroup, i, hconfig, hmatch, rfl⟩))]

def launchWorld : World where
  host := sampleHost "x11" launchDir
  sort := fun less groups => some (groups.mergeSort fun a b => !less b a)
  timerFires := fun delay => 0 ≤ delay
  parse := fun
    | ["-g", group] => { groupOption := some group }
    | _ => {}
  unitStarts := fun group => group ≠ "app"
  unitContext := fun group => ⟨980, none, some ("deepin-service-group@" ++ group ++ ".service")⟩

theorem serviceTree_exactly_once_sample : ∃ calls,
    serviceTree launchWorld (fun _ _ => ⟨.QT, 0, 0⟩) (fun _ _ _ => ⟨.unset 0, -1, 0⟩)
      (main asciiLower ⟨0, none, some "deepin-service-manager.service"⟩ {}) = some calls ∧
        calls.Nodup ∧ 0 ∈ calls ∧ 1 ∉ calls ∧ 2 ∈ calls := by
  obtain ⟨-, calls, hcalls, hnodup, hmem⟩ := serviceTree_exactly_once launchWorld 0 .SystemBus
    ⟨0, none, some "deepin-service-manager.service"⟩ {} (fun _ _ => ⟨.QT, 0, 0⟩) (fun _ _ _ => ⟨.unset 0, -1, 0⟩) rfl
    ⟨fun _ _ => rfl, fun _ _ => ⟨rfl, rfl⟩⟩ mergeSort_sorts launchDir_fits.1 launchDir_startable
    (fun group _ => launchDir_acyclic group) (fun group hgroup _ => launchDir_fits.2 group hgroup)
  exact ⟨calls, hcalls, hnodup, (hmem 0).mpr (by decide), fun h => absurd ((hmem 1).mp h) (by decide),
    (hmem 2).mpr (by decide)⟩

end ServiceTree

end DeepinServiceManager
