import Mathlib.Data.String.Basic
import DeepinServiceManager.PluginsMirror
import DeepinServiceManager.SortedMaps

namespace DeepinServiceManager

namespace ServiceManagerPublic

def addGroup (m_groups : List String) (groupName : String) : List String :=
  if !m_groups.contains groupName then m_groups ++ [groupName] else m_groups

end ServiceManagerPublic

namespace GroupRegistry

open SortedMaps TransitionRuns GroupManager

/-- The group of each process: the argument of `-g`, or the group that `getGroup` found for `-n`. Process 0 is the
service manager itself, which loads the core group. -/
structure Processes where
  group : ℕ → String
  main : group 0 = "core"

/-- The processes of all groups, the bus, and the service manager. `managers` holds the `m_plugins` of each
`GroupManager` by its address, `groups` is the `m_groups` of the public service, `pluginHooks` are the senders
connected to the slots of a group manager, and `ownerHooks` the group managers that get `NameOwnerChanged`.
`listed` records the process of every `PluginAdded` that came over the bus. -/
structure State where
  process : ℕ → Process
  loads : List (ℕ × String)
  owners : List (ℕ × String)
  ownerChanges : List NameOwnerChanged
  m_groups : SortedMap String ℕ
  groups : List String
  managers : ℕ → List String
  allocated : ℕ
  pluginHooks : List (ℕ × ℕ)
  ownerHooks : List ℕ
  listed : List (ℕ × String)

def init : State where
  process := Function.update GroupManager.init.process 0 ⟨.running, false, [], [], []⟩
  loads := []
  owners := []
  ownerChanges := []
  m_groups := .empty
  groups := []
  managers := fun _ => []
  allocated := 0
  pluginHooks := []
  ownerHooks := []
  listed := []

def State.setProcess (s : State) (p : ℕ) (process : Process) : State :=
  { s with process := Function.update s.process p process }

-- Connecting a slot to a signal that it is connected to already changes nothing.
def connect {α : Type} [DecidableEq α] (hooks : List α) (hook : α) : List α :=
  if hook ∈ hooks then hooks else hooks ++ [hook]

def notify (managers : ℕ → List String) (receivers : List ℕ) (slot : List String → List String) : ℕ → List String :=
  receivers.foldl (fun managers m => Function.update managers m (slot (managers m))) managers

def addGroup (s : State) (group : String) : ℕ × State :=
  match s.m_groups.find? group with
  | some groupManager => (groupManager, s)
  | none => (s.allocated, { s with
      managers := Function.update s.managers s.allocated []
      allocated := s.allocated + 1
      m_groups := s.m_groups.insert group s.allocated
      groups := ServiceManagerPublic.addGroup s.groups group })

def onRegisterGroup (s : State) (groupName : String) (serviceName : ℕ) : State :=
  let (groupManager, s) := addGroup s groupName
  { s with
    ownerHooks := connect s.ownerHooks groupManager
    pluginHooks := connect s.pluginHooks (serviceName, groupManager) }

def receivers (s : State) (p : ℕ) : List ℕ := (s.pluginHooks.filter (fun hook => hook.1 = p)).map Prod.snd

def deliverSignal (s : State) (p : ℕ) : PluginSignal → State
  | .PluginAdded name => { s with
      managers := notify s.managers (receivers s p) (fun m_plugins => GroupManager.addPlugin m_plugins name)
      listed := s.listed ++ [(p, name)] }
  | .PluginRemoved name => { s with
      managers := notify s.managers (receivers s p) (fun m_plugins => removePlugin m_plugins name)
      listed := s.listed.erase (p, name) }

def deliverChange (s : State) (change : NameOwnerChanged) : State :=
  { s with
    managers := notify s.managers s.ownerHooks (fun m_plugins => onNameOwnerChanged m_plugins change)
    listed := match change with
      | .acquired _ _ => s.listed
      | .lost name p => s.listed.erase (p, name) }

/-- The loader of the core group hands each name to the group manager itself. Its plugins are resident, and nothing is
connected to its `PluginRemoved`. -/
def coreAddPlugin (s : State) (name : String) : Option State := do
  let groupManager ← s.m_groups.find? "core"
  return { s.setProcess 0 { s.process 0 with m_pluginMap := (s.process 0).m_pluginMap ++ [name] } with
    managers := notify s.managers [groupManager] (fun m_plugins => GroupManager.addPlugin m_plugins name) }

/-- The events are those of one group, under the same assumptions: plugin names are unique over all configuration files,
and a plugin is loaded by at most one live process. The run ends when the service manager does. -/
def step (processes : Processes) (s : State) : Event → Option State
  | .launch p =>
    if (s.process p).phase = .unborn then some (s.setProcess p { s.process p with phase := .running }) else none
  | .registerGroup p =>
    if (s.process p).phase = .running then
      let t := if p = 0 then (addGroup s "core").2 else onRegisterGroup s (processes.group p) p
      some (t.setProcess p { t.process p with registered := true })
    else none
  | .createService p name =>
    if (s.process p).phase = .running ∧ (s.process p).registered ∧ name ∉ s.loads.map Prod.snd then
      some { s with loads := s.loads ++ [(p, name)] }
    else none
  | .addPlugin p name =>
    if (s.process p).phase = .running ∧ s.loads.contains (p, name) ∧ name ∉ (s.process p).m_pluginMap then
      if p = 0 then coreAddPlugin s name else some (s.setProcess p ((s.process p).pluginAdded name))
    else none
  | .registerService p name =>
    if s.loads.contains (p, name) ∧ name ∉ s.owners.map Prod.snd then
      some { s with owners := s.owners ++ [(p, name)], ownerChanges := s.ownerChanges ++ [.acquired name p] }
    else none
  | .idleSignal p name =>
    if (s.process p).phase = .running ∧ name ∈ (s.process p).m_plugins then
      some (s.setProcess p ((s.process p).pluginRemoved name))
    else none
  | .die p =>
    if p ≠ 0 ∧ (s.process p).phase = .running then
      some { s.setProcess p { s.process p with phase := .dead } with
        loads := s.loads.filter (fun load => load.1 ≠ p)
        owners := s.owners.filter (fun owner => owner.1 ≠ p)
        ownerChanges := s.ownerChanges ++
          (s.owners.filter (fun owner => owner.1 = p)).map (fun owner => .lost owner.2 p) }
    else none
  | .deliver p =>
    match (s.process p).signals with
    | [] => none
    | signal :: rest => some (deliverSignal (s.setProcess p { s.process p with signals := rest }) p signal)
  | .deliverOwnerChange =>
    match s.ownerChanges with
    | [] => none
    | change :: rest => some (deliverChange { s with ownerChanges := rest } change)

def plugins (s : State) (group : String) : List String :=
  match s.m_groups.find? group with
  | some groupManager => s.managers groupManager
  | none => []

def Quiet (s : State) : Prop := (∀ p, (s.process p).signals = []) ∧ s.ownerChanges = []

/-! The two lists of groups agree, and each registered process is connected to the manager of its group. -/

structure Directory (s : State) : Prop where
  known : ∀ group, group ∈ s.groups ↔ ∃ m, s.m_groups.find? group = some m
  nodup : s.groups.Nodup
  allocated : ∀ group m, s.m_groups.find? group = some m → m < s.allocated
  distinct : ∀ group group' m, s.m_groups.find? group = some m → s.m_groups.find? group' = some m → group' = group

structure Hooked (processes : Processes) (s : State) : Prop where
  registered : ∀ group, (∃ m, s.m_groups.find? group = some m) ↔
    ∃ p, (s.process p).registered = true ∧ processes.group p = group
  hooks : ∀ p m, (p, m) ∈ s.pluginHooks ↔
    p ≠ 0 ∧ (s.process p).registered = true ∧ s.m_groups.find? (processes.group p) = some m
  hooks_nodup : s.pluginHooks.Nodup
  watched : ∀ m, m ∈ s.ownerHooks ↔ ∃ p, (p, m) ∈ s.pluginHooks
  watched_nodup : s.ownerHooks.Nodup

structure Parties (s : State) : Prop where
  main : (s.process 0).phase = .running ∧ (s.process 0).signals = [] ∧ (s.process 0).m_plugins = []
  loads : ∀ load ∈ s.loads, (s.process load.1).registered = true
  unregistered : ∀ p, (s.process p).registered = false → (s.process p).signals = [] ∧ (s.process p).m_plugins = []
  listed : ∀ entry ∈ s.listed, entry.1 ≠ 0 ∧ (s.process entry.1).registered = true

structure Inv (processes : Processes) (s : State) : Prop where
  directory : Directory s
  hooked : Hooked processes s
  parties : Parties s

section Lists

variable {α : Type} [DecidableEq α] {hooks : List α} {hook : α}

theorem mem_connect {x : α} : x ∈ connect hooks hook ↔ x ∈ hooks ∨ x = hook := by
  unfold connect
  split_ifs with h
  · exact ⟨.inl, fun hx => hx.elim id fun heq => heq ▸ h⟩
  · simp

theorem connect_nodup (h : hooks.Nodup) : (connect hooks hook).Nodup := by
  unfold connect
  split_ifs with hmem
  · exact h
  · exact ListBuilding.nodup_snoc h hmem

theorem notify_apply {managers : ℕ → List String} {receivers : List ℕ} (h : receivers.Nodup)
    (slot : List String → List String) (m : ℕ) :
    notify managers receivers slot m = if m ∈ receivers then slot (managers m) else managers m := by
  unfold notify
  induction receivers generalizing managers with
  | nil => rfl
  | cons r receivers ih =>
    obtain ⟨hr, hrest⟩ := List.nodup_cons.mp h
    rw [List.foldl_cons, ih hrest]
    by_cases hm : m = r
    · subst hm
      simp [hr]
    · simp [hm]

end Lists

variable {processes : Processes} {group : String} {s t : State}

theorem addGroup_find? (s : State) (group group' : String) : (addGroup s group).2.m_groups.find? group' =
    if group' = group then some (addGroup s group).1 else s.m_groups.find? group' := by
  unfold addGroup
  split
  · rename_i m hm
    split_ifs with h
    · rw [h, hm]
    · rfl
  · exact SortedMap.find?_insert _ _ _ _

theorem addGroup_frame (s : State) (group : String) :
    (addGroup s group).2.process = s.process ∧ (addGroup s group).2.loads = s.loads ∧
      (addGroup s group).2.owners = s.owners ∧ (addGroup s group).2.ownerChanges = s.ownerChanges ∧
      (addGroup s group).2.pluginHooks = s.pluginHooks ∧ (addGroup s group).2.ownerHooks = s.ownerHooks ∧
      (addGroup s group).2.listed = s.listed := by
  unfold addGroup
  split <;> simp

theorem Directory.addGroup (h : Directory s) (group : String) : Directory (addGroup s group).2 := by
  unfold GroupRegistry.addGroup
  split
  · exact h
  rename_i hnone
  have hnew : group ∉ s.groups := by
    rw [h.known, hnone]
    simp
  have hadd : ServiceManagerPublic.addGroup s.groups group = s.groups ++ [group] := by
    simp [ServiceManagerPublic.addGroup, hnew]
  have hold : ∀ g m, s.m_groups.find? g = some m → m ≠ s.allocated := fun g m hm => (h.allocated g m hm).ne
  refine ⟨fun g => ?_, ?_, fun g m hm => ?_, fun g g' m hm hm' => ?_⟩
  · simp only [hadd, List.mem_append, List.mem_singleton, SortedMap.find?_insert, h.known]
    by_cases hg : g = group
    · simp [hg]
    · simp [hg]
  · simp only [hadd]
    exact ListBuilding.nodup_snoc h.nodup hnew
  · simp only [SortedMap.find?_insert] at hm
    split_ifs at hm with hg
    · cases hm
      exact Nat.lt_succ_self _
    · exact Nat.lt_succ_of_lt (h.allocated g m hm)
  · simp only [SortedMap.find?_insert] at hm hm'
    split_ifs at hm hm' with hg hg' hg'
    · exact hg'.trans hg.symm
    · cases hm
      exact absurd rfl (hold g' _ hm')
    · cases hm'
      exact absurd rfl (hold g _ hm)
    · exact h.distinct g g' m hm hm'

theorem addGroup_mono {group group' : String} {m : ℕ} (h : s.m_groups.find? group' = some m) :
    (addGroup s group).2.m_groups.find? group' = some m := by
  unfold addGroup
  split
  · exact h
  · rename_i hnone
    have hne : group' ≠ group := by
      rintro rfl
      rw [hnone] at h
      cases h
    rw [SortedMap.find?_insert, if_neg hne, h]

theorem Hooked.find?_addGroup (h : Hooked processes s) {q : ℕ} (hq : (s.process q).registered = true)
    (group : String) :
    (addGroup s group).2.m_groups.find? (processes.group q) = s.m_groups.find? (processes.group q) := by
  obtain ⟨m, hm⟩ := (h.registered (processes.group q)).mpr ⟨q, hq, rfl⟩
  rw [hm, addGroup_mono hm]

theorem setProcess_registered {p : ℕ} {P : Process} (hP : P.registered = (s.process p).registered) (q : ℕ) :
    ((s.setProcess p P).process q).registered = (s.process q).registered := by
  by_cases hq : q = p
  · subst hq
    simpa [State.setProcess] using hP
  · simp [State.setProcess, hq]

theorem Hooked.congr (h : Hooked processes s) (hgroups : t.m_groups = s.m_groups)
    (hhooks : t.pluginHooks = s.pluginHooks) (howners : t.ownerHooks = s.ownerHooks)
    (hregistered : ∀ p, (t.process p).registered = (s.process p).registered) : Hooked processes t := by
  refine ⟨fun group => ?_, fun p m => ?_, hhooks ▸ h.hooks_nodup, fun m => ?_, howners ▸ h.watched_nodup⟩
  · simp only [hgroups, hregistered, h.registered]
  · simp only [hgroups, hhooks, hregistered, h.hooks]
  · simp only [hhooks, howners, h.watched]

theorem Parties.setProcess (h : Parties s) {p : ℕ} {P : Process}
    (hregistered : (s.process p).registered = true → P.registered = true)
    (hmain : p = 0 → P.phase = .running ∧ P.signals = [] ∧ P.m_plugins = [])
    (hsilent : P.registered = false → P.signals = [] ∧ P.m_plugins = []) : Parties (s.setProcess p P) := by
  have hkeep : ∀ q, (s.process q).registered = true → ((s.setProcess p P).process q).registered = true := by
    intro q hq
    by_cases hqp : q = p
    · subst hqp
      simpa [State.setProcess] using hregistered hq
    · simpa [State.setProcess, hqp] using hq
  refine ⟨?_, fun load hload => hkeep _ (h.loads load hload), fun q => ?_, fun entry hentry => ?_⟩
  · by_cases hp : p = 0
    · subst hp
      simpa [State.setProcess] using hmain rfl
    · simpa [State.setProcess, Ne.symm hp] using h.main
  · by_cases hqp : q = p
    · subst hqp
      simpa [State.setProcess] using hsilent
    · simpa [State.setProcess, hqp] using h.unregistered q
  · exact ⟨(h.listed entry hentry).1, hkeep _ (h.listed entry hentry).2⟩

theorem Inv.setProcess (h : Inv processes s) {p : ℕ} {P : Process}
    (hregistered : P.registered = (s.process p).registered)
    (hmain : p = 0 → P.phase = .running ∧ P.signals = [] ∧ P.m_plugins = [])
    (hsilent : P.registered = false → P.signals = [] ∧ P.m_plugins = []) : Inv processes (s.setProcess p P) where
  directory := ⟨h.directory.known, h.directory.nodup, h.directory.allocated, h.directory.distinct⟩
  hooked := h.hooked.congr rfl rfl rfl (setProcess_registered hregistered)
  parties := h.parties.setProcess (fun hp => hregistered.trans hp) hmain hsilent

theorem registerGroup_registered (h : Hooked processes s) {p : ℕ} {group' : String}
    (hgroup : processes.group p = group') {process : ℕ → Process}
    (hp : (process p).registered = true) (hq : ∀ q, q ≠ p → process q = s.process q) (group : String) :
    (∃ m, (addGroup s group').2.m_groups.find? group = some m) ↔
      ∃ q, (process q).registered = true ∧ processes.group q = group := by
  rw [addGroup_find?]
  by_cases hg : group = group'
  · rw [if_pos hg]
    exact iff_of_true ⟨_, rfl⟩ ⟨p, hp, hgroup.trans hg.symm⟩
  · rw [if_neg hg, h.registered]
    have hother : ∀ q, processes.group q = group → q ≠ p := by
      rintro q rfl rfl
      exact hg hgroup
    exact exists_congr fun q => and_congr_left fun hqg => by rw [hq q (hother q hqg)]

theorem registerGroup_hooks (h : Hooked processes s) {p : ℕ} (hp0 : p ≠ 0) {process : ℕ → Process}
    (hp : (process p).registered = true) (hq : ∀ q, q ≠ p → process q = s.process q) (q m : ℕ) :
    (q, m) ∈ connect s.pluginHooks (p, (addGroup s (processes.group p)).1) ↔ q ≠ 0 ∧ (process q).registered = true ∧
      (addGroup s (processes.group p)).2.m_groups.find? (processes.group q) = some m := by
  rw [mem_connect, h.hooks]
  by_cases hqp : q = p
  · subst hqp
    rw [addGroup_find?, if_pos rfl, hp]
    constructor
    · rintro (⟨-, hreg, hm⟩ | heq)
      · have hkept := h.find?_addGroup hreg (processes.group q)
        rw [addGroup_find?, if_pos rfl, hm] at hkept
        exact ⟨hp0, rfl, hkept⟩
      · cases heq
        exact ⟨hp0, rfl, rfl⟩
    · rintro ⟨-, -, hm⟩
      cases hm
      exact .inr rfl
  · have hne : (q, m) ≠ (p, (addGroup s (processes.group p)).1) := fun heq => hqp (congrArg Prod.fst heq)
    rw [hq q hqp]
    simp only [hne, or_false]
    exact and_congr_right fun _ => and_congr_right fun hreg => by rw [h.find?_addGroup hreg]

theorem Parties.addGroup (h : Parties s) (group : String) : Parties (addGroup s group).2 := by
  obtain ⟨hprocess, hloads, -, -, -, -, hlisted⟩ := addGroup_frame s group
  obtain ⟨hmain, hl, hs, hlist⟩ := h
  constructor <;> simpa only [hprocess, hloads, hlisted]

theorem registerMain_inv (h : Inv processes s) :
    Inv processes ((addGroup s "core").2.setProcess 0 { (addGroup s "core").2.process 0 with registered := true }) := by
  obtain ⟨hprocess, -, -, -, hplugin, howner, -⟩ := addGroup_frame s "core"
  have hother : ∀ q, q ≠ 0 → Function.update (addGroup s "core").2.process 0
      { (addGroup s "core").2.process 0 with registered := true } q = s.process q := by
    intro q hq
    rw [Function.update_of_ne hq, hprocess]
  have hregistered := registerGroup_registered h.hooked processes.main (by simp) hother
  obtain ⟨hknown, hnodup, halloc, hdistinct⟩ := h.directory.addGroup "core"
  have hparties := h.parties.addGroup "core"
  refine ⟨⟨hknown, hnodup, halloc, hdistinct⟩, ⟨hregistered, ?_, hplugin.symm ▸ h.hooked.hooks_nodup, ?_,
    howner.symm ▸ h.hooked.watched_nodup⟩, ?_⟩
  · intro q m
    simp only [State.setProcess, hplugin, h.hooked.hooks]
    refine and_congr_right fun hq => ?_
    rw [hother q hq]
    exact and_congr_right fun hreg => by rw [h.hooked.find?_addGroup hreg]
  · simpa only [State.setProcess, hplugin, howner] using h.hooked.watched
  · exact hparties.setProcess (fun _ => rfl) (fun _ => hparties.main) (fun hfalse => nomatch hfalse)

theorem registerOther_inv (h : Inv processes s) {p : ℕ} (hp : p ≠ 0) :
    Inv processes ((onRegisterGroup s (processes.group p) p).setProcess p
      { (onRegisterGroup s (processes.group p) p).process p with registered := true }) := by
  obtain ⟨hprocess, -, -, -, hplugin, howner, -⟩ := addGroup_frame s (processes.group p)
  have hother : ∀ q, q ≠ p → Function.update (addGroup s (processes.group p)).2.process p
      { (addGroup s (processes.group p)).2.process p with registered := true } q = s.process q := by
    intro q hq
    rw [Function.update_of_ne hq, hprocess]
  have hregistered := registerGroup_registered h.hooked rfl (by simp) hother
  have hhooks := registerGroup_hooks h.hooked hp (by simp) hother
  obtain ⟨hknown, hnodup, halloc, hdistinct⟩ := h.directory.addGroup (processes.group p)
  obtain ⟨hmain, hloads, hunregistered, hlisted⟩ := h.parties.addGroup (processes.group p)
  have hparties : Parties (onRegisterGroup s (processes.group p) p) := ⟨hmain, hloads, hunregistered, hlisted⟩
  refine ⟨⟨hknown, hnodup, halloc, hdistinct⟩, ⟨hregistered, ?_, ?_, fun m => ?_, ?_⟩, ?_⟩
  · intro q m
    simp only [onRegisterGroup, State.setProcess, hplugin]
    exact hhooks q m
  · simp only [onRegisterGroup, State.setProcess, hplugin]
    exact connect_nodup h.hooked.hooks_nodup
  · simp only [onRegisterGroup, State.setProcess, hplugin, howner, mem_connect, h.hooked.watched, Prod.mk.injEq,
      exists_or]
    simp
  · simp only [onRegisterGroup, State.setProcess, howner]
    exact connect_nodup h.hooked.watched_nodup
  · exact hparties.setProcess (fun _ => rfl) (fun hp0 => absurd hp0 hp) (fun hfalse => nomatch hfalse)

theorem Inv.relist (h : Inv processes s) (managers : ℕ → List String) (ownerChanges : List NameOwnerChanged)
    {listed : List (ℕ × String)}
    (hlisted : ∀ entry ∈ listed, entry.1 ≠ 0 ∧ (s.process entry.1).registered = true) :
    Inv processes { s with managers := managers, ownerChanges := ownerChanges, listed := listed } where
  directory := ⟨h.directory.known, h.directory.nodup, h.directory.allocated, h.directory.distinct⟩
  hooked := h.hooked.congr rfl rfl rfl fun _ => rfl
  parties := ⟨h.parties.main, h.parties.loads, h.parties.unregistered, hlisted⟩

theorem Inv.sender (h : Inv processes s) {p : ℕ} (hsignals : (s.process p).signals ≠ []) :
    p ≠ 0 ∧ (s.process p).registered = true := by
  constructor
  · rintro rfl
    exact hsignals h.parties.main.2.1
  · by_contra hfalse
    exact hsignals (h.parties.unregistered p (by simpa using hfalse)).1

theorem deliver_inv (h : Inv processes s) {p : ℕ} (hstep : step processes s (.deliver p) = some t) :
    Inv processes t := by
  simp only [step] at hstep
  split at hstep
  · cases hstep
  rename_i signal rest hsignals
  cases hstep
  obtain ⟨hp, hregistered⟩ := h.sender (p := p) (by simp [hsignals])
  have hset : Inv processes (s.setProcess p { s.process p with signals := rest }) :=
    h.setProcess (P := { s.process p with signals := rest }) rfl (fun hp0 => absurd hp0 hp) (by simp [hregistered])
  cases signal with
  | PluginAdded name =>
    apply hset.relist
    intro entry hentry
    rcases List.mem_append.mp hentry with hentry | hentry
    · exact hset.parties.listed entry hentry
    · rw [List.mem_singleton.mp hentry]
      exact ⟨hp, by simpa [State.setProcess] using hregistered⟩
  | PluginRemoved name =>
    exact hset.relist _ _ fun entry hentry => hset.parties.listed entry (List.mem_of_mem_erase hentry)

theorem deliverOwnerChange_inv (h : Inv processes s) (hstep : step processes s .deliverOwnerChange = some t) :
    Inv processes t := by
  simp only [step] at hstep
  split at hstep
  · cases hstep
  rename_i change rest hchanges
  cases hstep
  cases change with
  | acquired name owner => exact h.relist _ _ h.parties.listed
  | lost name p => exact h.relist _ _ fun entry hentry => h.parties.listed entry (List.mem_of_mem_erase hentry)

theorem Inv.rebus (h : Inv processes s) (owners : List (ℕ × String)) (ownerChanges : List NameOwnerChanged)
    {loads : List (ℕ × String)} (hloads : ∀ load ∈ loads, (s.process load.1).registered = true) :
    Inv processes { s with loads := loads, owners := owners, ownerChanges := ownerChanges } where
  directory := ⟨h.directory.known, h.directory.nodup, h.directory.allocated, h.directory.distinct⟩
  hooked := h.hooked.congr rfl rfl rfl fun _ => rfl
  parties := ⟨h.parties.main, hloads, h.parties.unregistered, h.parties.listed⟩

theorem addPlugin_inv (h : Inv processes s) {p : ℕ} {name : String}
    (hstep : step processes s (.addPlugin p name) = some t) : Inv processes t := by
  simp only [step] at hstep
  split_ifs at hstep with hguard hp
  · obtain ⟨groupManager, -, ht⟩ := Option.bind_eq_some_iff.mp hstep
    cases ht
    have hset : Inv processes (s.setProcess 0 { s.process 0 with m_pluginMap := (s.process 0).m_pluginMap ++ [name] }) :=
      h.setProcess (P := { s.process 0 with m_pluginMap := _ }) rfl (fun _ => h.parties.main) (h.parties.unregistered 0)
    exact hset.relist _ _ hset.parties.listed
  · cases hstep
    have hregistered := h.parties.loads (p, name) (List.contains_iff_mem.mp hguard.2.1)
    exact h.setProcess (P := (s.process p).pluginAdded name) rfl (fun hp0 => absurd hp0 hp)
      fun hfalse => absurd hregistered (by simpa [Process.pluginAdded] using hfalse)

theorem step_inv {e : Event} (h : Inv processes s) (hstep : step processes s e = some t) : Inv processes t := by
  cases e with
  | launch p =>
    simp only [step] at hstep
    split_ifs at hstep with hphase
    cases hstep
    exact h.setProcess (P := { s.process p with phase := .running }) rfl
      (fun hp => ⟨rfl, (hp ▸ h.parties.main).2⟩) (h.parties.unregistered p)
  | registerGroup p =>
    simp only [step] at hstep
    split_ifs at hstep with hphase hp
    · cases hstep
      exact hp ▸ registerMain_inv h
    · cases hstep
      exact registerOther_inv h hp
  | createService p name =>
    simp only [step] at hstep
    split_ifs at hstep with hguard
    cases hstep
    refine h.rebus _ _ fun load hload => ?_
    rcases List.mem_append.mp hload with hload | hload
    · exact h.parties.loads load hload
    · rw [List.mem_singleton.mp hload]
      exact hguard.2.1
  | addPlugin p name => exact addPlugin_inv h hstep
  | registerService p name =>
    simp only [step] at hstep
    split_ifs at hstep with hguard
    cases hstep
    exact h.rebus _ _ h.parties.loads
  | idleSignal p name =>
    simp only [step] at hstep
    split_ifs at hstep with hguard
    cases hstep
    have hp : p ≠ 0 := by
      rintro rfl
      simp [h.parties.main.2.2] at hguard
    have hregistered : (s.process p).registered = true := by
      by_contra hfalse
      simp [(h.parties.unregistered p (by simpa using hfalse)).2] at hguard
    exact h.setProcess (P := (s.process p).pluginRemoved name) rfl (fun hp0 => absurd hp0 hp)
      fun hfalse => absurd hregistered (by simpa [Process.pluginRemoved] using hfalse)
  | die p =>
    simp only [step] at hstep
    split_ifs at hstep with hguard
    cases hstep
    have hset : Inv processes (s.setProcess p { s.process p with phase := .dead }) :=
      h.setProcess (P := { s.process p with phase := .dead }) rfl (fun hp0 => absurd hp0 hguard.1)
        (h.parties.unregistered p)
    exact hset.rebus _ _ fun load hload => hset.parties.loads load (List.mem_of_mem_filter hload)
  | deliver p => exact deliver_inv h hstep
  | deliverOwnerChange => exact deliverOwnerChange_inv h hstep

theorem init_inv : Inv processes init := by
  have hunregistered : ∀ p, (init.process p).registered = false := by
    intro p
    by_cases hp : p = 0 <;> simp [init, GroupManager.init, hp]
  have hnone : ∀ group m, init.m_groups.find? group ≠ some m := by simp [init]
  refine ⟨⟨?_, List.nodup_nil, ?_, ?_⟩, ⟨?_, ?_, List.nodup_nil, ?_, List.nodup_nil⟩, ⟨?_, ?_, ?_, ?_⟩⟩
  · simp [init]
  · exact fun group m hm => absurd hm (hnone group m)
  · exact fun group group' m hm => absurd hm (hnone group m)
  · simp [hunregistered, hnone]
  · intro p m
    simp only [hnone, and_false, iff_false]
    exact List.not_mem_nil
  · simp [init]
  · exact ⟨rfl, rfl, rfl⟩
  · simp [init]
  · intro p _
    by_cases hp : p = 0 <;> simp [init, GroupManager.init, hp]
  · simp [init]

theorem reachable_inv (h : Reachable (step processes) init s) : Inv processes s :=
  h.invariant (Inv processes) init_inv fun _ _ _ hs hstep => step_inv hs hstep

theorem addGroup_grows (s : State) (group : String) : s.groups <+: (addGroup s group).2.groups := by
  unfold addGroup
  split
  · exact List.prefix_rfl
  · simp only [ServiceManagerPublic.addGroup]
    split_ifs
    · exact List.prefix_append _ _
    · exact List.prefix_rfl

/-- The two lists of groups change in `addGroup` only. -/
theorem step_groups {e : Event} (hstep : step processes s e = some t) :
    (∃ p, e = .registerGroup p ∧ t.m_groups = (addGroup s (processes.group p)).2.m_groups ∧
      t.groups = (addGroup s (processes.group p)).2.groups) ∨
    (∀ p, e ≠ .registerGroup p) ∧ t.m_groups = s.m_groups ∧ t.groups = s.groups := by
  cases e with
  | registerGroup p =>
    simp only [step] at hstep
    refine .inl ⟨p, rfl, ?_⟩
    split_ifs at hstep with hphase hp
    · cases hstep
      rw [hp, processes.main]
      exact ⟨rfl, rfl⟩
    · cases hstep
      exact ⟨rfl, rfl⟩
  | addPlugin p name =>
    simp only [step] at hstep
    refine .inr ⟨fun _ => Event.noConfusion, ?_⟩
    split_ifs at hstep
    · obtain ⟨groupManager, -, ht⟩ := Option.bind_eq_some_iff.mp hstep
      cases ht
      exact ⟨rfl, rfl⟩
    · cases hstep
      exact ⟨rfl, rfl⟩
  | deliver p =>
    simp only [step] at hstep
    refine .inr ⟨fun _ => Event.noConfusion, ?_⟩
    split at hstep
    · cases hstep
    · rename_i signal rest hsignals
      cases hstep
      cases signal <;> exact ⟨rfl, rfl⟩
  | deliverOwnerChange =>
    simp only [step] at hstep
    refine .inr ⟨fun _ => Event.noConfusion, ?_⟩
    split at hstep <;> cases hstep
    exact ⟨rfl, rfl⟩
  | launch p | createService p name | registerService p name | idleSignal p name | die p =>
    simp only [step] at hstep
    refine .inr ⟨fun _ => Event.noConfusion, ?_⟩
    split_ifs at hstep
    cases hstep
    exact ⟨rfl, rfl⟩

theorem step_grows {e : Event} (hstep : step processes s e = some t) :
    s.groups <+: t.groups ∧ ∀ group m, s.m_groups.find? group = some m → t.m_groups.find? group = some m := by
  rcases step_groups hstep with ⟨p, -, hmap, hgroups⟩ | ⟨-, hmap, hgroups⟩
  · rw [hmap, hgroups]
    exact ⟨addGroup_grows s _, fun _ _ => addGroup_mono⟩
  · rw [hmap, hgroups]
    exact ⟨List.prefix_rfl, fun _ _ => id⟩

theorem reachable_grows (h : Reachable (step processes) s t) :
    s.groups <+: t.groups ∧ ∀ group m, s.m_groups.find? group = some m → t.m_groups.find? group = some m := by
  induction h with
  | refl => exact ⟨List.prefix_rfl, fun _ _ => id⟩
  | tail _ hstep ih =>
    obtain ⟨hgroups, hfind⟩ := step_grows hstep
    exact ⟨ih.1.trans hgroups, fun group m hm => hfind group m (ih.2 group m hm)⟩

theorem Hooked.receivers_eq (h : Hooked processes s) {p : ℕ} (hp : p ≠ 0) (hregistered : (s.process p).registered = true)
    {m : ℕ} (hm : s.m_groups.find? (processes.group p) = some m) : receivers s p = [m] := by
  have hmem : ∀ m', m' ∈ receivers s p ↔ m' = m := by
    intro m'
    simp only [receivers, List.mem_map, List.mem_filter, Prod.exists, h.hooks]
    constructor
    · rintro ⟨q, m'', ⟨⟨-, -, hm''⟩, hq⟩, rfl⟩
      rw [decide_eq_true_eq] at hq
      subst hq
      rw [hm] at hm''
      exact (Option.some.inj hm'').symm
    · rintro rfl
      exact ⟨p, m', ⟨⟨hp, hregistered, hm⟩, by simp⟩, rfl⟩
  have hnodup : (receivers s p).Nodup := by
    apply (h.hooks_nodup.filter _).map_on
    rintro ⟨q, a⟩ ha ⟨q', b⟩ hb (rfl : a = b)
    simp only [List.mem_filter, decide_eq_true_eq] at ha hb
    rw [ha.2, hb.2]
  exact List.perm_singleton.mp ((List.perm_ext_iff_of_nodup hnodup (List.nodup_singleton m)).mpr (by simp [hmem]))

theorem Hooked.receivers_nil (h : Hooked processes s) {p : ℕ} (hregistered : (s.process p).registered = false) :
    receivers s p = [] := by
  rw [receivers, List.map_eq_nil_iff, List.filter_eq_nil_iff]
  rintro ⟨q, m⟩ hmem hq
  rw [decide_eq_true_eq] at hq
  subst hq
  obtain ⟨-, hq', -⟩ := (h.hooks q m).mp hmem
  rw [hregistered] at hq'
  cases hq'

theorem plugins_addGroup (h : Directory s) (group' : String) :
    plugins (addGroup s group').2 group = plugins s group := by
  unfold addGroup
  split
  · rfl
  rename_i hnone
  simp only [plugins, SortedMap.find?_insert]
  by_cases hg : group = group'
  · subst hg
    simp [hnone]
  · rw [if_neg hg]
    cases hm : s.m_groups.find? group with
    | none => rfl
    | some m => exact Function.update_of_ne (h.allocated group m hm).ne _ _

theorem plugins_notify {m : ℕ} (hm : s.m_groups.find? group = some m) {receivers : List ℕ} (hnodup : receivers.Nodup)
    (slot : List String → List String) :
    plugins { s with managers := notify s.managers receivers slot } group =
      if m ∈ receivers then slot (plugins s group) else plugins s group := by
  simp only [plugins, hm, notify_apply hnodup]

theorem plugins_unknown (h : s.m_groups.find? group = none) : plugins s group = [] := by
  simp only [plugins, h]

theorem plugins_notify_other {receivers : List ℕ} (hnodup : receivers.Nodup)
    (hother : ∀ m ∈ receivers, s.m_groups.find? group ≠ some m) (slot : List String → List String) :
    plugins { s with managers := notify s.managers receivers slot } group = plugins s group := by
  cases hm : s.m_groups.find? group with
  | none => simp only [plugins, hm]
  | some m => rw [plugins_notify hm hnodup, if_neg fun hmem => hother m hmem hm]

theorem plugins_deliver (h : Inv processes s) {p : ℕ} (hp : p ≠ 0)
    (hregistered : (s.process p).registered = true) (slot : List String → List String) :
    plugins { s with managers := notify s.managers (receivers s p) slot } group =
      if processes.group p = group then slot (plugins s group) else plugins s group := by
  obtain ⟨m, hm⟩ := (h.hooked.registered (processes.group p)).mpr ⟨p, hregistered, rfl⟩
  rw [h.hooked.receivers_eq hp hregistered hm]
  split_ifs with hown
  · rw [hown] at hm
    rw [plugins_notify hm (List.nodup_singleton m), if_pos (List.mem_singleton_self m)]
  · apply plugins_notify_other (List.nodup_singleton m)
    intro m' hm' hfind
    rw [List.mem_singleton.mp hm'] at hfind
    exact hown (h.directory.distinct group _ m hfind hm)

theorem groups_registered (processes : Processes) (s : State) (h : Reachable (step processes) init s) :
    s.groups.Nodup ∧
    (∀ group, group ∈ s.groups ↔ ∃ p, (s.process p).registered = true ∧ processes.group p = group) ∧
    (∀ group ∈ s.groups, ∃ m, s.m_groups.find? group = some m ∧
      (∀ group', s.m_groups.find? group' = some m → group' = group) ∧
      ∀ p ≠ 0, receivers s p = [m] ↔ (s.process p).registered = true ∧ processes.group p = group) ∧
    ∀ t, Reachable (step processes) s t → s.groups <+: t.groups ∧
      ∀ group m, s.m_groups.find? group = some m → t.m_groups.find? group = some m := by
  have hinv := reachable_inv h
  refine ⟨hinv.directory.nodup, fun group => (hinv.directory.known group).trans (hinv.hooked.registered group), ?_,
    fun t ht => reachable_grows ht⟩
  intro group hgroup
  obtain ⟨m, hm⟩ := (hinv.directory.known group).mp hgroup
  refine ⟨m, hm, fun group' hm' => hinv.directory.distinct group group' m hm hm', fun p hp => ?_⟩
  cases hregistered : (s.process p).registered with
  | false => simp [hinv.hooked.receivers_nil hregistered]
  | true =>
    obtain ⟨m', hm'⟩ := (hinv.hooked.registered (processes.group p)).mpr ⟨p, hregistered, rfl⟩
    rw [hinv.hooked.receivers_eq hp hregistered hm']
    constructor
    · rintro ⟨⟩
      exact ⟨rfl, hinv.directory.distinct group _ m hm hm'⟩
    · rintro ⟨-, rfl⟩
      rw [hm] at hm'
      rw [Option.some.inj hm']

def sampleProcesses : Processes := ⟨fun p => if p = 0 then "core" else if p % 2 = 1 then "dde" else "app", rfl⟩

-- Two processes of one group and one of another; the second one of the group is still starting its plugin.
def registerRun : List Event :=
  [.registerGroup 0, .createService 0 "power", .addPlugin 0 "power", .launch 1, .registerGroup 1, .launch 2,
    .registerGroup 2, .createService 1 "dock", .addPlugin 1 "dock", .deliver 1, .launch 3, .registerGroup 3,
    .createService 3 "panel", .addPlugin 3 "panel"]

def registerEnd : State := (registerRun.foldlM (step sampleProcesses) init).getD init

theorem registerEnd_reachable : Reachable (step sampleProcesses) init registerEnd := by
  have hsome : (registerRun.foldlM (step sampleProcesses) init).isSome = true := by decide
  have hrun : registerRun.foldlM (step sampleProcesses) init = some registerEnd := by
    obtain ⟨s, hs⟩ := Option.isSome_iff_exists.mp hsome
    rw [registerEnd, hs, Option.getD_some]
  exact Reachable.refl.of_visited (mem_visited_of_foldlM hrun)

theorem groups_registered_sample : registerEnd.groups = ["core", "dde", "app"] ∧ registerEnd.groups.Nodup ∧
    ∃ m, receivers registerEnd 1 = [m] ∧ receivers registerEnd 3 = [m] := by
  obtain ⟨hnodup, -, hmanagers, -⟩ := groups_registered sampleProcesses registerEnd registerEnd_reachable
  obtain ⟨m, -, -, hreceivers⟩ := hmanagers "dde" (by decide)
  exact ⟨by decide, hnodup, m, (hreceivers 1 (by decide)).mpr (by decide),
    (hreceivers 3 (by decide)).mpr (by decide)⟩

end GroupRegistry

end DeepinServiceManager
