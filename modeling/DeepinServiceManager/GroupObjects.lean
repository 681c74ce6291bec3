import DeepinServiceManager.GroupRegistry

namespace DeepinServiceManager

namespace QDBusUtil

def isValidCharacterNoDash (c : Char) : Bool := c.isAlphanum || c = '_'

def isValidPartOfObjectPath (part : List Char) : Bool := !part.isEmpty && part.all isValidCharacterNoDash

def isValidObjectPath (path : String) : Bool :=
  match path.toList with
  | [] => false
  | c :: rest => c = '/' && (rest.isEmpty || (rest.splitOn '/').all isValidPartOfObjectPath)

end QDBusUtil

namespace GroupObjects

open QDBusUtil SortedMaps TransitionRuns GroupManager

inductive Object
  | publicService
  | privateService
  | groupManager (m : ℕ)
  deriving DecidableEq

abbrev Objects := List (String × Object)

def ServiceManagerPath : String := "/org/deepin/ServiceManager1"

def ServiceManagerPrivatePath : String := "/org/deepin/ServiceManager1/Private"

def ServiceGroupPath : String := "/org/deepin/Group1/"

-- A path that is not valid, or that is in use, is refused.
def registerObject (objects : Objects) (path : String) (object : Object) : Objects :=
  if isValidObjectPath path ∧ path ∉ objects.map Prod.fst then objects ++ [(path, object)] else objects

/-- The service manager with the objects of its connection. -/
structure State where
  registry : GroupRegistry.State
  objects : Objects

def init : State where
  registry := GroupRegistry.init
  objects := registerObject (registerObject [] ServiceManagerPath .publicService) ServiceManagerPrivatePath
    .privateService

-- The object of a group is registered when its manager is made, and the outcome is only logged.
def addGroup (s : State) (group : String) : Objects :=
  match s.registry.m_groups.find? group with
  | some _ => s.objects
  | none => registerObject s.objects (ServiceGroupPath ++ group) (.groupManager s.registry.allocated)

def step (processes : GroupRegistry.Processes) (s : State) (e : Event) : Option State := do
  let registry ← GroupRegistry.step processes s.registry e
  match e with
  | .registerGroup p => return ⟨registry, addGroup s (processes.group p)⟩
  | _ => return ⟨registry, s.objects⟩

def objectAt (objects : Objects) (path : String) : Option Object :=
  (objects.find? (fun entry => entry.1 = path)).map Prod.snd

/-- What a client gets that reads the property `plugins` at a path. -/
def readPlugins (s : State) (path : String) : Option (List String) :=
  match objectAt s.objects path with
  | some (.groupManager m) => some (s.registry.managers m)
  | _ => none

def Exportable (group : String) : Prop := (group.toList.splitOn '/').all isValidPartOfObjectPath = true

instance (group : String) : Decidable (Exportable group) := inferInstanceAs (Decidable (_ = true))

variable {processes : GroupRegistry.Processes} {s t : State} {objects : Objects} {path group : String}
  {object : Object}

theorem groupPath_valid (group : String) :
    isValidObjectPath (ServiceGroupPath ++ group) = true ↔ Exportable group := by
  have hchars : (ServiceGroupPath ++ group).toList =
      '/' :: ("org".toList ++ '/' :: ("deepin".toList ++ '/' :: ("Group1".toList ++ '/' :: group.toList))) := by
    rw [String.toList_append]
    rfl
  have horg : ("org".toList.splitOn '/').all isValidPartOfObjectPath = true := by decide
  have hdeepin : ("deepin".toList.splitOn '/').all isValidPartOfObjectPath = true := by decide
  have hgroup : ("Group1".toList.splitOn '/').all isValidPartOfObjectPath = true := by decide
  rw [isValidObjectPath, hchars, Exportable]
  simp only [List.splitOn_append_cons_self, List.all_append, horg, hdeepin, hgroup, Bool.true_and]
  simp

theorem objectAt_none : objectAt objects path = none ↔ path ∉ objects.map Prod.fst := by
  simp only [objectAt, Option.map_eq_none_iff, List.find?_eq_none, List.mem_map, decide_eq_true_eq, not_exists,
    not_and]

theorem objectAt_registerObject (hfree : path ∉ objects.map Prod.fst) (path' : String) :
    objectAt (registerObject objects path object) path' =
      if path' = path ∧ isValidObjectPath path = true then some object else objectAt objects path' := by
  by_cases hvalid : isValidObjectPath path = true
  · rw [registerObject, if_pos ⟨hvalid, hfree⟩]
    by_cases hpath : path' = path
    · subst hpath
      rw [if_pos ⟨rfl, hvalid⟩]
      have hnone := objectAt_none.mpr hfree
      simp only [objectAt, Option.map_eq_none_iff] at hnone ⊢
      simp [List.find?_append, hnone]
    · rw [if_neg fun h => hpath h.1, objectAt, objectAt, List.find?_append]
      simp [Ne.symm hpath]
  · rw [registerObject, if_neg fun h => hvalid h.1, if_neg fun h => hvalid h.2]

theorem addGroup_objectAt
    (hfree : s.registry.m_groups.find? group = none → objectAt s.objects (ServiceGroupPath ++ group) = none)
    (path : String) : objectAt (addGroup s group) path =
      if s.registry.m_groups.find? group = none ∧ path = ServiceGroupPath ++ group ∧ Exportable group then
        some (.groupManager s.registry.allocated)
      else objectAt s.objects path := by
  unfold addGroup
  split
  · rename_i m hm
    simp [hm]
  · rename_i hnone
    rw [objectAt_registerObject (objectAt_none.mp (hfree hnone))]
    simp [hnone, groupPath_valid]

theorem step_cases {e : Event} (hstep : step processes s e = some t) :
    GroupRegistry.step processes s.registry e = some t.registry ∧
      ((∃ group, t.objects = addGroup s group ∧
          t.registry.m_groups = (GroupRegistry.addGroup s.registry group).2.m_groups) ∨
        t.objects = s.objects ∧ t.registry.m_groups = s.registry.m_groups) := by
  obtain ⟨registry, hregistry, ht⟩ := Option.bind_eq_some_iff.mp hstep
  rcases GroupRegistry.step_groups hregistry with ⟨p, rfl, hgroups, -⟩ | ⟨hother, hgroups, -⟩
  · cases ht
    exact ⟨hregistry, .inl ⟨_, rfl, hgroups⟩⟩
  · cases e with
    | registerGroup p => exact absurd rfl (hother p)
    | launch p | createService p name | addPlugin p name | registerService p name | idleSignal p name | die p
      | deliver p | deliverOwnerChange =>
      cases ht
      exact ⟨hregistry, .inr ⟨rfl, hgroups⟩⟩

structure Exported (s : State) : Prop where
  groups : ∀ group, objectAt s.objects (ServiceGroupPath ++ group) =
    if Exportable group then (s.registry.m_groups.find? group).map .groupManager else none
  managers : ∀ path m, objectAt s.objects path = some (.groupManager m) →
    ∃ group, s.registry.m_groups.find? group = some m ∧ path = ServiceGroupPath ++ group

theorem Exported.free (h : Exported s) (hnone : s.registry.m_groups.find? group = none) :
    objectAt s.objects (ServiceGroupPath ++ group) = none := by
  rw [h.groups, hnone]
  simp

theorem Exported.congr (h : Exported s) (hobjects : t.objects = s.objects)
    (hgroups : t.registry.m_groups = s.registry.m_groups) : Exported t := by
  obtain ⟨hfound, hmanagers⟩ := h
  constructor <;> simpa only [hobjects, hgroups]

theorem addGroup_exported (h : Exported s) (hobjects : t.objects = addGroup s group)
    (hgroups : t.registry.m_groups = (GroupRegistry.addGroup s.registry group).2.m_groups) : Exported t := by
  cases hfind : s.registry.m_groups.find? group with
  | some m =>
    apply h.congr
    · simp [hobjects, addGroup, hfind]
    · simp [hgroups, GroupRegistry.addGroup, hfind]
  | none =>
    have hlookup : ∀ path, objectAt t.objects path =
        if path = ServiceGroupPath ++ group ∧ Exportable group then some (.groupManager s.registry.allocated)
        else objectAt s.objects path := by
      intro path
      rw [hobjects, addGroup_objectAt fun hnone => h.free hnone]
      simp [hfind]
    have hmap : ∀ group', t.registry.m_groups.find? group' =
        if group' = group then some s.registry.allocated else s.registry.m_groups.find? group' := by
      intro group'
      rw [hgroups, GroupRegistry.addGroup_find?]
      simp [GroupRegistry.addGroup, hfind]
    constructor
    · intro group'
      simp only [hlookup, hmap, String.append_right_inj, h.groups]
      by_cases hg : group' = group
      · subst hg
        by_cases hexportable : Exportable group' <;> simp [hexportable]
      · simp [hg]
    · intro path m hpath
      rw [hlookup] at hpath
      split_ifs at hpath with hnew
      · cases hpath
        exact ⟨group, by rw [hmap, if_pos rfl], hnew.1⟩
      · obtain ⟨group', hold, rfl⟩ := h.managers path m hpath
        refine ⟨group', ?_, rfl⟩
        have hne : group' ≠ group := by
          rintro rfl
          rw [hfind] at hold
          cases hold
        rw [hmap, if_neg hne, hold]

theorem step_exported {e : Event} (h : Exported s) (hstep : step processes s e = some t) : Exported t := by
  obtain ⟨-, ⟨group, hobjects, hgroups⟩ | ⟨hobjects, hgroups⟩⟩ := step_cases hstep
  · exact addGroup_exported h hobjects hgroups
  · exact h.congr hobjects hgroups

theorem groupPath_ne (group : String) {path : String} (hpath : path.toList[12]? = some 'S') :
    ServiceGroupPath ++ group ≠ path := by
  rintro rfl
  rw [String.toList_append, List.getElem?_append_left (by decide)] at hpath
  exact absurd hpath (by decide)

theorem init_exported : Exported init := by
  have hobjects : init.objects =
      [(ServiceManagerPath, .publicService), (ServiceManagerPrivatePath, .privateService)] := by decide
  constructor
  · intro group
    have hnone : objectAt init.objects (ServiceGroupPath ++ group) = none := by
      rw [objectAt_none, hobjects]
      have hpublic : ServiceGroupPath ++ group ≠ ServiceManagerPath := groupPath_ne group (by decide)
      have hprivate : ServiceGroupPath ++ group ≠ ServiceManagerPrivatePath := groupPath_ne group (by decide)
      simp [hpublic, hprivate]
    rw [hnone]
    simp [init, GroupRegistry.init]
  · intro path m hpath
    simp only [hobjects, objectAt, Option.map_eq_some_iff] at hpath
    obtain ⟨entry, hfind, hentry⟩ := hpath
    have hmem := List.mem_of_find?_eq_some hfind
    simp only [List.mem_cons, List.not_mem_nil, or_false] at hmem
    rcases hmem with rfl | rfl <;> cases hentry

theorem reachable_exported (h : Reachable (step processes) init s) :
    Exported s ∧ GroupRegistry.Inv processes s.registry := by
  apply h.invariant (fun s => Exported s ∧ GroupRegistry.Inv processes s.registry)
    ⟨init_exported, GroupRegistry.init_inv⟩
  rintro s e t ⟨hexported, hinv⟩ hstep
  exact ⟨step_exported hexported hstep, GroupRegistry.step_inv hinv (step_cases hstep).1⟩

theorem Exported.readPlugins (h : Exported s) (hinv : GroupRegistry.Inv processes s.registry) (group : String) :
    readPlugins s (ServiceGroupPath ++ group) =
      if group ∈ s.registry.groups ∧ Exportable group then some (GroupRegistry.plugins s.registry group)
      else none := by
  have hknown := hinv.directory.known group
  simp only [GroupObjects.readPlugins, h.groups, GroupRegistry.plugins]
  by_cases hexportable : Exportable group
  · cases hfind : s.registry.m_groups.find? group <;> simp [hexportable, hknown, hfind]
  · simp [hexportable]

/-- A group is listed whether its object could be registered or not. -/
theorem groups_exported (processes : GroupRegistry.Processes) (s : State) (h : Reachable (step processes) init s) :
    (∀ group, readPlugins s (ServiceGroupPath ++ group) =
      if group ∈ s.registry.groups ∧ Exportable group then some (GroupRegistry.plugins s.registry group)
      else none) ∧
    (∀ path m_plugins, readPlugins s path = some m_plugins →
      ∃ group ∈ s.registry.groups, path = ServiceGroupPath ++ group) ∧
    ((∀ group ∈ s.registry.groups, readPlugins s (ServiceGroupPath ++ group) ≠ none) ↔
      ∀ p, (s.registry.process p).registered = true → Exportable (processes.group p)) := by
  obtain ⟨hexported, hinv⟩ := reachable_exported h
  have hread := hexported.readPlugins hinv
  have hregistered : ∀ group, group ∈ s.registry.groups ↔
      ∃ p, (s.registry.process p).registered = true ∧ processes.group p = group :=
    fun group => (hinv.directory.known group).trans (hinv.hooked.registered group)
  refine ⟨hread, ?_, ?_⟩
  · intro path m_plugins hpath
    unfold readPlugins at hpath
    split at hpath
    · rename_i m hm
      obtain ⟨group, hgroup, rfl⟩ := hexported.managers path m hm
      exact ⟨group, (hinv.directory.known group).mpr ⟨m, hgroup⟩, rfl⟩
    · cases hpath
  · constructor
    · intro hall p hp
      have hsome := hall (processes.group p) ((hregistered _).mpr ⟨p, hp, rfl⟩)
      rw [hread] at hsome
      by_contra hexportable
      exact hsome (if_neg fun hboth => hexportable hboth.2)
    · intro hall group hgroup
      obtain ⟨p, hp, rfl⟩ := (hregistered group).mp hgroup
      rw [hread, if_pos ⟨hgroup, hall p hp⟩]
      exact Option.some_ne_none _

def siralProcesses : GroupRegistry.Processes :=
  ⟨fun p => if p = 0 then "core" else if p = 1 then "deepin-daemon" else "dde", rfl⟩

def siralRun : List Event :=
  [.registerGroup 0, .launch 1, .registerGroup 1, .createService 1 "power", .addPlugin 1 "power", .deliver 1]

def siralEnd : State := (siralRun.foldlM (step siralProcesses) init).getD init

theorem siralEnd_reachable : Reachable (step siralProcesses) init siralEnd := by
  have hsome : (siralRun.foldlM (step siralProcesses) init).isSome = true := by decide
  have hrun : siralRun.foldlM (step siralProcesses) init = some siralEnd := by
    obtain ⟨s, hs⟩ := Option.isSome_iff_exists.mp hsome
    rw [siralEnd, hs, Option.getD_some]
  exact Reachable.refl.of_visited (mem_visited_of_foldlM hrun)

theorem groups_exported_siral : siralEnd.registry.groups = ["core", "deepin-daemon"] ∧
    GroupRegistry.plugins siralEnd.registry "deepin-daemon" = ["power"] ∧
    readPlugins siralEnd (ServiceGroupPath ++ "core") = some [] ∧
    readPlugins siralEnd (ServiceGroupPath ++ "deepin-daemon") = none := by
  obtain ⟨hread, -, -⟩ := groups_exported siralProcesses siralEnd siralEnd_reachable
  exact ⟨by decide, by decide, (hread "core").trans (by decide), (hread "deepin-daemon").trans (by decide)⟩

end GroupObjects

end DeepinServiceManager
