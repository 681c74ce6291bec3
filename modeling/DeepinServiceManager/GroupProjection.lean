import DeepinServiceManager.GroupRegistry

namespace DeepinServiceManager.GroupProjection

open SortedMaps TransitionRuns GroupManager GroupRegistry

/-- What one group sees of a process: a process of another group takes names on the bus and adds no plugins. -/
def view (processes : Processes) (group : String) (p : ℕ) (P : Process) : Process :=
  if processes.group p = group then P else { P with m_pluginMap := [], m_plugins := [], signals := [] }

def project (processes : Processes) (group : String) (s : GroupRegistry.State) : GroupManager.State where
  process p := view processes group p (s.process p)
  loads := s.loads
  owners := s.owners
  ownerChanges := s.ownerChanges
  m_plugins := plugins s group
  listed := s.listed.filter (fun entry => processes.group entry.1 = group)

def projectEvent (processes : Processes) (group : String) : Event → List Event
  | .addPlugin p name => if processes.group p = group then [.addPlugin p name] else []
  | .idleSignal p name => if processes.group p = group then [.idleSignal p name] else []
  | .deliver p => if processes.group p = group then [.deliver p] else []
  | e => [e]

variable {processes : Processes} {group : String} {s t : GroupRegistry.State}

theorem view_phase (p : ℕ) (P : Process) : (view processes group p P).phase = P.phase := by
  unfold view
  split <;> rfl

theorem view_registered (p : ℕ) (P : Process) : (view processes group p P).registered = P.registered := by
  unfold view
  split <;> rfl

theorem view_own {p : ℕ} (h : processes.group p = group) (P : Process) : view processes group p P = P := if_pos h

theorem view_other {p : ℕ} (h : processes.group p ≠ group) {P Q : Process} (hphase : P.phase = Q.phase)
    (hregistered : P.registered = Q.registered) : view processes group p P = view processes group p Q := by
  simp only [view, if_neg h, hphase, hregistered]

theorem project_setProcess (p : ℕ) (P : Process) : project processes group (s.setProcess p P) =
    (project processes group s).setProcess p (view processes group p P) := by
  simp only [project, GroupRegistry.State.setProcess, GroupManager.State.setProcess, plugins,
    GroupManager.State.mk.injEq, and_self, and_true]
  funext q
  by_cases hq : q = p
  · subst hq
    simp
  · simp [hq]

theorem setProcess_self (s : GroupManager.State) (p : ℕ) : s.setProcess p (s.process p) = s := by
  simp [GroupManager.State.setProcess]

theorem project_other {p : ℕ} (h : processes.group p ≠ group) {P : Process} (hphase : P.phase = (s.process p).phase)
    (hregistered : P.registered = (s.process p).registered) :
    project processes group (s.setProcess p P) = project processes group s := by
  rw [project_setProcess, view_other h hphase hregistered]
  exact setProcess_self (project processes group s) p

theorem view_setPhase (p : ℕ) (P : Process) (phase : Phase) :
    view processes group p { P with phase := phase } = { view processes group p P with phase := phase } := by
  unfold view
  split <;> rfl

theorem view_setRegistered (p : ℕ) (P : Process) :
    view processes group p { P with registered := true } = { view processes group p P with registered := true } := by
  unfold view
  split <;> rfl

theorem foldlM_one {a b : GroupManager.State} {e : Event} :
    [e].foldlM GroupManager.step a = some b ↔ GroupManager.step a e = some b := by
  simp

theorem launch_project {p : ℕ} (hstep : GroupRegistry.step processes s (.launch p) = some t) :
    GroupManager.step (project processes group s) (.launch p) = some (project processes group t) := by
  simp only [GroupRegistry.step] at hstep
  split_ifs at hstep with hphase
  cases hstep
  have hview : ((project processes group s).process p).phase = .unborn := (view_phase p _).trans hphase
  rw [project_setProcess, view_setPhase, GroupManager.step, if_pos hview]
  rfl

theorem project_congr (hprocess : t.process = s.process) (hloads : t.loads = s.loads) (howners : t.owners = s.owners)
    (hchanges : t.ownerChanges = s.ownerChanges) (hplugins : plugins t group = plugins s group)
    (hlisted : t.listed = s.listed) : project processes group t = project processes group s := by
  simp only [project, hprocess, hloads, howners, hchanges, hplugins, hlisted]

theorem addGroup_project (h : Directory s) (group' : String) :
    project processes group (GroupRegistry.addGroup s group').2 = project processes group s := by
  obtain ⟨hprocess, hloads, howners, hchanges, -, -, hlisted⟩ := addGroup_frame s group'
  exact project_congr hprocess hloads howners hchanges (plugins_addGroup h group') hlisted

theorem registerGroup_project (h : GroupRegistry.Inv processes s) {p : ℕ}
    (hstep : GroupRegistry.step processes s (.registerGroup p) = some t) :
    GroupManager.step (project processes group s) (.registerGroup p) = some (project processes group t) := by
  simp only [GroupRegistry.step] at hstep
  have hset : ∀ u : GroupRegistry.State, project processes group u = project processes group s →
      (project processes group s).setProcess p { (project processes group s).process p with registered := true } =
        project processes group (u.setProcess p { u.process p with registered := true }) := by
    intro u hu
    rw [project_setProcess, view_setRegistered, ← hu]
    rfl
  have hregister : ∀ group', project processes group (onRegisterGroup s group' p) = project processes group s :=
    fun group' => addGroup_project h.directory group'
  split_ifs at hstep with hphase hp
  all_goals
    cases hstep
    have hview : ((project processes group s).process p).phase = .running := (view_phase p _).trans hphase
    rw [GroupManager.step, if_pos hview]
  · exact congrArg some (hset _ (addGroup_project h.directory "core"))
  · exact congrArg some (hset _ (hregister _))

theorem createService_project {p : ℕ} {name : String}
    (hstep : GroupRegistry.step processes s (.createService p name) = some t) :
    GroupManager.step (project processes group s) (.createService p name) = some (project processes group t) := by
  simp only [GroupRegistry.step] at hstep
  split_ifs at hstep with hguard
  cases hstep
  have hguard' : ((project processes group s).process p).phase = .running ∧
      ((project processes group s).process p).registered = true ∧
        name ∉ (project processes group s).loads.map Prod.snd :=
    ⟨(view_phase p _).trans hguard.1, (view_registered p _).trans hguard.2.1, hguard.2.2⟩
  rw [GroupManager.step, if_pos hguard']
  rfl

theorem registerService_project {p : ℕ} {name : String}
    (hstep : GroupRegistry.step processes s (.registerService p name) = some t) :
    GroupManager.step (project processes group s) (.registerService p name) = some (project processes group t) := by
  simp only [GroupRegistry.step] at hstep
  split_ifs at hstep with hguard
  cases hstep
  rw [List.contains_iff_mem] at hguard
  rw [GroupManager.step, if_pos (by exact hguard)]
  rfl

theorem die_project {p : ℕ} (hstep : GroupRegistry.step processes s (.die p) = some t) :
    GroupManager.step (project processes group s) (.die p) = some (project processes group t) := by
  simp only [GroupRegistry.step] at hstep
  split_ifs at hstep with hguard
  cases hstep
  have hview : ((project processes group s).process p).phase = .running := (view_phase p _).trans hguard.2
  have hset : project processes group (s.setProcess p { s.process p with phase := .dead }) =
      (project processes group s).setProcess p { (project processes group s).process p with phase := .dead } := by
    rw [project_setProcess, view_setPhase]
    rfl
  rw [GroupManager.step, if_pos hview]
  exact congrArg (fun u : GroupManager.State => some { u with
    loads := s.loads.filter (fun load => load.1 ≠ p)
    owners := s.owners.filter (fun owner => owner.1 ≠ p)
    ownerChanges := s.ownerChanges ++
      (s.owners.filter (fun owner : ℕ × String => owner.1 = p)).map
        (fun owner : ℕ × String => NameOwnerChanged.lost owner.2 p) }) hset.symm

theorem project_received (p : ℕ) (P : Process) (managers : ℕ → List String) (listed : List (ℕ × String)) :
    project processes group { s.setProcess p P with managers := managers, listed := listed } =
      { (project processes group s).setProcess p (view processes group p P) with
        m_plugins := plugins { s with managers := managers } group
        listed := listed.filter (fun entry => processes.group entry.1 = group) } :=
  congrArg (fun u : GroupManager.State => { u with
    m_plugins := plugins { s with managers := managers } group
    listed := listed.filter (fun entry => processes.group entry.1 = group) }) (project_setProcess p P)

theorem received_other {p : ℕ} (h : processes.group p ≠ group) {P : Process}
    (hphase : P.phase = (s.process p).phase) (hregistered : P.registered = (s.process p).registered)
    {managers : ℕ → List String} {listed : List (ℕ × String)}
    (hplugins : plugins { s with managers := managers } group = plugins s group)
    (hlisted : listed.filter (fun entry => processes.group entry.1 = group) =
      s.listed.filter (fun entry => processes.group entry.1 = group)) :
    project processes group { s.setProcess p P with managers := managers, listed := listed } =
      project processes group s := by
  rw [project_received, hplugins, hlisted, view_other h hphase hregistered]
  exact setProcess_self (project processes group s) p

theorem received_own {p : ℕ} (h : processes.group p = group) {P : Process} {managers : ℕ → List String}
    {m_plugins : List String} {listed listed' : List (ℕ × String)}
    (hplugins : plugins { s with managers := managers } group = m_plugins)
    (hlisted : listed.filter (fun entry => processes.group entry.1 = group) = listed') :
    project processes group { s.setProcess p P with managers := managers, listed := listed } =
      { (project processes group s).setProcess p P with m_plugins := m_plugins, listed := listed' } := by
  rw [project_received, hplugins, hlisted, view_own h]

theorem addPlugin_project (h : GroupRegistry.Inv processes s) (hgroup : group ≠ "core") {p : ℕ} {name : String}
    (hstep : GroupRegistry.step processes s (.addPlugin p name) = some t) :
    (projectEvent processes group (.addPlugin p name)).foldlM GroupManager.step (project processes group s) =
      some (project processes group t) := by
  simp only [GroupRegistry.step] at hstep
  split_ifs at hstep with hguard hp
  · subst hp
    have hother : processes.group 0 ≠ group := fun heq => hgroup (heq.symm.trans processes.main)
    obtain ⟨groupManager, hcore, ht⟩ := Option.bind_eq_some_iff.mp hstep
    cases ht
    have hdistinct : ∀ m ∈ [groupManager], s.m_groups.find? group ≠ some m := by
      intro m hm hfind
      rw [List.mem_singleton.mp hm] at hfind
      exact hgroup (h.directory.distinct "core" group groupManager hcore hfind)
    have hplugins := plugins_notify_other (List.nodup_singleton groupManager) hdistinct
      (fun m_plugins => GroupManager.addPlugin m_plugins name)
    rw [projectEvent, if_neg hother]
    have hlisted : s.listed.filter (fun entry => processes.group entry.1 = group) =
        s.listed.filter (fun entry => processes.group entry.1 = group) := rfl
    exact congrArg some (received_other hother
      (P := { s.process 0 with m_pluginMap := (s.process 0).m_pluginMap ++ [name] }) rfl rfl hplugins hlisted).symm
  · cases hstep
    rw [projectEvent]
    split_ifs with hown
    · have hguard' : ((project processes group s).process p).phase = .running ∧
          (p, name) ∈ (project processes group s).loads ∧
            name ∉ ((project processes group s).process p).m_pluginMap := by
        rw [List.contains_iff_mem] at hguard
        simpa only [project, view_own hown] using hguard
      rw [foldlM_one, GroupManager.step, if_pos hguard', project_setProcess, view_own hown]
      simp only [project, view_own hown]
    · exact congrArg some (project_other (P := (s.process p).pluginAdded name) hown rfl rfl).symm

theorem idleSignal_project {p : ℕ} {name : String}
    (hstep : GroupRegistry.step processes s (.idleSignal p name) = some t) :
    (projectEvent processes group (.idleSignal p name)).foldlM GroupManager.step (project processes group s) =
      some (project processes group t) := by
  simp only [GroupRegistry.step] at hstep
  split_ifs at hstep with hguard
  cases hstep
  rw [projectEvent]
  split_ifs with hown
  · have hguard' : ((project processes group s).process p).phase = .running ∧
        name ∈ ((project processes group s).process p).m_plugins := by
      simpa only [project, view_own hown] using hguard
    rw [foldlM_one, GroupManager.step, if_pos hguard', project_setProcess, view_own hown]
    simp only [project, view_own hown]
  · exact congrArg some (project_other (P := (s.process p).pluginRemoved name) hown rfl rfl).symm

theorem deliver_project (h : GroupRegistry.Inv processes s) {p : ℕ}
    (hstep : GroupRegistry.step processes s (.deliver p) = some t) :
    (projectEvent processes group (.deliver p)).foldlM GroupManager.step (project processes group s) =
      some (project processes group t) := by
  simp only [GroupRegistry.step] at hstep
  split at hstep
  · cases hstep
  rename_i signal rest hsignals
  cases hstep
  obtain ⟨hp, hregistered⟩ := h.sender (p := p) (by simp [hsignals])
  have hplugins (slot : List String → List String) :
      plugins { s with managers := notify s.managers (receivers s p) slot } group =
        if processes.group p = group then slot (plugins s group) else plugins s group :=
    plugins_deliver h hp hregistered slot
  rw [projectEvent]
  split_ifs with hown
  · have hsignals' : ((project processes group s).process p).signals = signal :: rest := by
      simpa only [project, view_own hown] using hsignals
    simp only [foldlM_one, GroupManager.step, hsignals']
    have hprocess : (project processes group s).process p = s.process p := view_own hown _
    rw [hprocess]
    cases signal with
    | PluginAdded name =>
      have hlisted : (s.listed ++ [(p, name)]).filter (fun entry => processes.group entry.1 = group) =
          s.listed.filter (fun entry => processes.group entry.1 = group) ++ [(p, name)] := by simp [hown]
      have hadded := hplugins (fun m_plugins => GroupManager.addPlugin m_plugins name)
      exact congrArg some (received_own (P := { s.process p with signals := rest }) hown
        (hadded.trans (if_pos hown)) hlisted).symm
    | PluginRemoved name =>
      have hlisted := List.erase_filter (f := fun entry : ℕ × String => processes.group entry.1 = group)
        (l := s.listed) (a := (p, name))
      have hremoved := hplugins (fun m_plugins => removePlugin m_plugins name)
      exact congrArg some (received_own (P := { s.process p with signals := rest }) hown
        (hremoved.trans (if_pos hown)) hlisted.symm).symm
  · cases signal with
    | PluginAdded name =>
      have hlisted : (s.listed ++ [(p, name)]).filter (fun entry => processes.group entry.1 = group) =
          s.listed.filter (fun entry => processes.group entry.1 = group) := by simp [hown]
      exact congrArg some (received_other (P := { s.process p with signals := rest }) hown rfl rfl
        ((hplugins _).trans (if_neg hown)) hlisted).symm
    | PluginRemoved name =>
      have hlisted : (s.listed.erase (p, name)).filter (fun entry => processes.group entry.1 = group) =
          s.listed.filter (fun entry => processes.group entry.1 = group) := by
        rw [← List.erase_filter, List.erase_of_not_mem (by simp [hown])]
      exact congrArg some (received_other (P := { s.process p with signals := rest }) hown rfl rfl
        ((hplugins _).trans (if_neg hown)) hlisted).symm

theorem plugins_ownerChange (h : GroupRegistry.Inv processes s) (hgroup : group ≠ "core")
    (change : NameOwnerChanged) :
    plugins { s with managers := notify s.managers s.ownerHooks (fun m_plugins => onNameOwnerChanged m_plugins change) }
      group = onNameOwnerChanged (plugins s group) change := by
  cases hm : s.m_groups.find? group with
  | none =>
    rw [plugins_unknown hm]
    cases change <;> simp [plugins, hm, onNameOwnerChanged]
  | some m =>
    obtain ⟨p, hregistered, hp⟩ := (h.hooked.registered group).mp ⟨m, hm⟩
    have hp0 : p ≠ 0 := by
      rintro rfl
      exact hgroup (hp.symm.trans processes.main)
    have hwatched : m ∈ s.ownerHooks :=
      (h.hooked.watched m).mpr ⟨p, (h.hooked.hooks p m).mpr ⟨hp0, hregistered, hp ▸ hm⟩⟩
    rw [plugins_notify hm h.hooked.watched_nodup, if_pos hwatched]

theorem deliverOwnerChange_project (h : GroupRegistry.Inv processes s) (hgroup : group ≠ "core")
    (hstep : GroupRegistry.step processes s .deliverOwnerChange = some t) :
    GroupManager.step (project processes group s) .deliverOwnerChange = some (project processes group t) := by
  simp only [GroupRegistry.step] at hstep
  split at hstep
  · cases hstep
  rename_i change rest hchanges
  cases hstep
  have hplugins := plugins_ownerChange h hgroup change
  have hchanges' : (project processes group s).ownerChanges = change :: rest := hchanges
  simp only [GroupManager.step, hchanges']
  cases change with
  | acquired name owner =>
    exact congrArg (fun m_plugins => some { project processes group s with
      ownerChanges := rest, m_plugins := m_plugins }) hplugins.symm
  | lost name p =>
    have hlisted := List.erase_filter (f := fun entry : ℕ × String => processes.group entry.1 = group)
      (l := s.listed) (a := (p, name))
    exact congrArg₂ (fun m_plugins listed => some { project processes group s with
      ownerChanges := rest, m_plugins := m_plugins, listed := listed }) hplugins.symm hlisted

theorem step_project {e : Event} (h : GroupRegistry.Inv processes s) (hgroup : group ≠ "core")
    (hstep : GroupRegistry.step processes s e = some t) :
    (projectEvent processes group e).foldlM GroupManager.step (project processes group s) =
      some (project processes group t) := by
  cases e with
  | launch p => exact foldlM_one.mpr (launch_project hstep)
  | registerGroup p => exact foldlM_one.mpr (registerGroup_project h hstep)
  | createService p name => exact foldlM_one.mpr (createService_project hstep)
  | addPlugin p name => exact addPlugin_project h hgroup hstep
  | registerService p name => exact foldlM_one.mpr (registerService_project hstep)
  | idleSignal p name => exact idleSignal_project hstep
  | die p => exact foldlM_one.mpr (die_project hstep)
  | deliver p => exact deliver_project h hstep
  | deliverOwnerChange => exact foldlM_one.mpr (deliverOwnerChange_project h hgroup hstep)

theorem init_project (group : String) :
    GroupManager.step GroupManager.init (.launch 0) = some (project processes group GroupRegistry.init) := by
  have hprocess : (project processes group GroupRegistry.init).process = GroupRegistry.init.process := by
    funext p
    by_cases hp : p = 0 <;> simp [project, view, GroupRegistry.init, GroupManager.init, hp]
  have hproject : project processes group GroupRegistry.init =
      { GroupManager.init with process := GroupRegistry.init.process } := by
    rw [← hprocess]
    rfl
  rw [hproject]
  rfl

theorem group_refines (processes : Processes) (group : String) (hgroup : group ≠ "core") (s : GroupRegistry.State)
    (h : Reachable (GroupRegistry.step processes) GroupRegistry.init s) :
    Reachable GroupManager.step GroupManager.init (project processes group s) := by
  induction h with
  | refl => exact Reachable.refl.tail (init_project group)
  | @tail s t e hs hstep ih =>
    have hproject := step_project (reachable_inv hs) hgroup hstep
    exact ih.of_visited (mem_visited_of_foldlM hproject)

theorem group_refines_sample : Reachable GroupManager.step GroupManager.init
    (project sampleProcesses "dde" registerEnd) ∧ (project sampleProcesses "dde" registerEnd).m_plugins = ["dock"] :=
  ⟨group_refines sampleProcesses "dde" (by decide) registerEnd registerEnd_reachable, by decide⟩

/-! The steps that keep the lists of all groups right. -/

def TakesOwn (processes : Processes) (s : GroupRegistry.State) (group : String) (p : ℕ) (name : String) : Prop :=
  (processes.group p = group ∧ (p, name) ∈ s.listed) ∨ name ∉ plugins s group

def SignalGuarded (processes : Processes) (s : GroupRegistry.State) (p : ℕ) : List PluginSignal → Prop
  | .PluginRemoved name :: _ => TakesOwn processes s (processes.group p) p name
  | _ => True

def ChangeGuarded (processes : Processes) (s : GroupRegistry.State) : List NameOwnerChanged → Prop
  | .lost name p :: _ => (∀ group ∈ s.groups, group ≠ "core" → TakesOwn processes s group p name) ∧
      (.PluginAdded name ∈ (s.process p).signals → .PluginRemoved name ∈ (s.process p).signals)
  | _ => True

/-- A process that dies owns the names of all its plugins; a removal takes out the entry of its own process, in every
group; and a lost name is not reported before the process's own `PluginAdded`, unless a `PluginRemoved` follows. -/
def Guarded (processes : Processes) (s : GroupRegistry.State) : Event → Prop
  | .die p => ∀ name ∈ (s.process p).m_plugins, (p, name) ∈ s.owners
  | .deliver p => SignalGuarded processes s p (s.process p).signals
  | .deliverOwnerChange => ChangeGuarded processes s s.ownerChanges
  | _ => True

theorem takesOwn_project {p : ℕ} {name : String} (h : TakesOwn processes s group p name) :
    PluginsMirror.TakesOwn (project processes group s) p name :=
  h.imp_left fun ⟨hgroup, hlisted⟩ => List.mem_filter.mpr ⟨hlisted, by simpa using hgroup⟩

theorem takesOwn_unknown (h : GroupRegistry.Inv processes s) (hunknown : group ∉ s.groups) (p : ℕ) (name : String) :
    PluginsMirror.TakesOwn (project processes group s) p name := by
  have hnone : s.m_groups.find? group = none := by
    rw [h.directory.known, ← Option.isSome_iff_exists] at hunknown
    exact Option.not_isSome_iff_eq_none.mp hunknown
  refine .inr ?_
  rw [project, plugins_unknown hnone]
  exact List.not_mem_nil

theorem guarded_project {e : Event} (h : GroupRegistry.Inv processes s) (hgroup : group ≠ "core")
    (hguard : Guarded processes s e) (he : e ∈ projectEvent processes group e) :
    PluginsMirror.Guarded (project processes group s) e := by
  have hmem_view : ∀ p P name, (name ∈ (view processes group p P).m_plugins → name ∈ P.m_plugins) := by
    intro p P name
    unfold view
    split <;> simp
  cases e with
  | die p => exact fun name hname => hguard name (hmem_view p _ name hname)
  | deliver p =>
    rw [projectEvent] at he
    split_ifs at he with hown
    · have hsignals : ((project processes group s).process p).signals = (s.process p).signals :=
        congrArg Process.signals (view_own hown _)
      rw [PluginsMirror.Guarded, hsignals]
      rw [Guarded] at hguard
      cases hs : (s.process p).signals with
      | nil => trivial
      | cons signal rest =>
        cases signal with
        | PluginAdded name => trivial
        | PluginRemoved name =>
          rw [hs, SignalGuarded, hown] at hguard
          exact takesOwn_project hguard
    · cases he
  | deliverOwnerChange =>
    rw [Guarded] at hguard
    show PluginsMirror.ChangeGuarded _ s.ownerChanges
    cases hs : s.ownerChanges with
    | nil => trivial
    | cons change rest =>
      cases change with
      | acquired name owner => trivial
      | lost name p =>
        rw [hs] at hguard
        constructor
        · by_cases hknown : group ∈ s.groups
          · exact takesOwn_project (hguard.1 group hknown hgroup)
          · exact takesOwn_unknown h hknown p name
        · by_cases hown : processes.group p = group
          · simpa only [project, view_own hown] using hguard.2
          · simp [project, view, hown]
  | launch p | registerGroup p | createService p name | addPlugin p name | registerService p name
    | idleSignal p name => trivial

theorem projectEvent_cases (processes : Processes) (group : String) (e : Event) :
    projectEvent processes group e = [] ∨ projectEvent processes group e = [e] := by
  cases e with
  | addPlugin p name | idleSignal p name | deliver p =>
    by_cases hown : processes.group p = group <;> simp [projectEvent, hown]
  | launch p | registerGroup p | createService p name | registerService p name | die p | deliverOwnerChange =>
    exact .inr rfl

def AllGroups (processes : Processes) (s : GroupRegistry.State) : Prop :=
  GroupRegistry.Inv processes s ∧ ∀ group ≠ "core", PluginsMirror.Inv (project processes group s)

theorem allGroups_step {e : Event} (h : AllGroups processes s) (hguard : Guarded processes s e)
    (hstep : GroupRegistry.step processes s e = some t) : AllGroups processes t := by
  refine ⟨step_inv h.1 hstep, fun group hgroup => ?_⟩
  have hproject := step_project h.1 hgroup hstep
  rcases projectEvent_cases processes group e with hnil | hone
  · rw [hnil] at hproject
    rw [← Option.some.inj hproject]
    exact h.2 group hgroup
  · rw [hone, foldlM_one] at hproject
    exact PluginsMirror.step_inv (h.2 group hgroup) (guarded_project h.1 hgroup hguard (by simp [hone])) hproject

theorem allGroups_init : AllGroups processes GroupRegistry.init :=
  ⟨init_inv, fun group _ =>
    PluginsMirror.step_inv (e := .launch 0) PluginsMirror.init_inv trivial (init_project group)⟩

theorem quiet_project (h : GroupRegistry.Quiet s) : GroupManager.Quiet (project processes group s) := by
  refine ⟨fun p => ?_, h.2⟩
  by_cases hown : processes.group p = group
  · simpa only [project, view_own hown] using h.1 p
  · simp [project, view, hown]

def Lists (processes : Processes) (s : GroupRegistry.State) (group name : String) (p : ℕ) : Prop :=
  processes.group p = group ∧ (s.process p).phase = .running ∧ name ∈ (s.process p).m_plugins

theorem lists_project {name : String} {p : ℕ} : Lists processes s group name p ↔
    ((project processes group s).process p).phase = .running ∧
      name ∈ ((project processes group s).process p).m_plugins := by
  by_cases hown : processes.group p = group
  · simp only [Lists, project, view_own hown, hown, true_and]
  · simp [Lists, project, view, hown]

theorem AllGroups.listed (h : AllGroups processes s) (hquiet : GroupRegistry.Quiet s) (hgroup : group ≠ "core")
    {name : String} (hname : name ∈ plugins s group) : ∃ p, Lists processes s group name p ∧ (p, name) ∈ s.loads := by
  have hinv := h.2 group hgroup
  have hmirror := hinv.mirrors (quiet_project hquiet) name
  by_contra hnone
  refine hmirror.2 (fun p hrunning hp => hnone ⟨p, lists_project.mpr ⟨hrunning, hp⟩, ?_⟩) hname
  exact hinv.loads p hrunning name ((hinv.process p).plugins name hp)

theorem AllGroups.once (h : AllGroups processes s) (hquiet : GroupRegistry.Quiet s) (hgroup : group ≠ "core")
    {name : String} {p : ℕ} (hlists : Lists processes s group name p) : (plugins s group).count name = 1 := by
  obtain ⟨hrunning, hp⟩ := lists_project.mp hlists
  exact ((h.2 group hgroup).mirrors (quiet_project hquiet) name).1 p hrunning hp

theorem groups_mirrored (processes : Processes) (events : List Event)
    (hguard : ∀ q ∈ taken (GroupRegistry.step processes) GroupRegistry.init events, Guarded processes q.1 q.2) :
    ∀ s ∈ visited (GroupRegistry.step processes) GroupRegistry.init events, GroupRegistry.Quiet s →
      ∀ group ≠ "core", ∀ name,
        (∀ p, Lists processes s group name p → (plugins s group).count name = 1) ∧
        (name ∈ plugins s group → ∃ p, Lists processes s group name p) ∧
        ∀ group' ≠ "core", name ∈ plugins s group → name ∈ plugins s group' → group' = group := by
  intro s hs hquiet group hgroup name
  have hall : AllGroups processes s := visited_invariant (AllGroups processes) (Guarded processes)
    (fun _ _ _ h hg hstep => allGroups_step h hg hstep) allGroups_init events hguard s hs
  refine ⟨fun p => hall.once hquiet hgroup, fun hname => ?_, fun group' hgroup' hname hname' => ?_⟩
  · obtain ⟨p, hp, -⟩ := hall.listed hquiet hgroup hname
    exact ⟨p, hp⟩
  · obtain ⟨p, hp, hload⟩ := hall.listed hquiet hgroup hname
    obtain ⟨p', hp', hload'⟩ := hall.listed hquiet hgroup' hname'
    have hsame : p' = p :=
      congrArg Prod.fst (List.inj_on_of_nodup_map (hall.2 group hgroup).loads_nodup hload' hload rfl)
    rw [← hp.1, ← hp'.1, hsame]

instance (processes : Processes) (s : GroupRegistry.State) (group : String) (p : ℕ) (name : String) :
    Decidable (TakesOwn processes s group p name) := inferInstanceAs (Decidable (_ ∨ _))

instance (processes : Processes) (s : GroupRegistry.State) (p : ℕ) : (signals : List PluginSignal) →
    Decidable (SignalGuarded processes s p signals)
  | .PluginRemoved name :: _ => inferInstanceAs (Decidable (TakesOwn processes s (processes.group p) p name))
  | .PluginAdded _ :: _ | [] => inferInstanceAs (Decidable True)

instance (processes : Processes) (s : GroupRegistry.State) : (changes : List NameOwnerChanged) →
    Decidable (ChangeGuarded processes s changes)
  | .lost _ _ :: _ => inferInstanceAs (Decidable (_ ∧ _))
  | .acquired _ _ :: _ | [] => inferInstanceAs (Decidable True)

instance (processes : Processes) (s : GroupRegistry.State) : (e : Event) → Decidable (Guarded processes s e)
  | .die p => inferInstanceAs (Decidable (∀ name ∈ (s.process p).m_plugins, _))
  | .deliver p => inferInstanceAs (Decidable (SignalGuarded processes s p (s.process p).signals))
  | .deliverOwnerChange => inferInstanceAs (Decidable (ChangeGuarded processes s s.ownerChanges))
  | .launch _ | .registerGroup _ | .createService _ _ | .addPlugin _ _ | .registerService _ _ | .idleSignal _ _ =>
    inferInstanceAs (Decidable True)

-- A process of one group dies with its name while the plugin of another group comes and goes.
def twoGroupsRun : List Event :=
  [.launch 1, .registerGroup 1, .launch 2, .registerGroup 2, .createService 1 "dock", .createService 2 "mail",
    .addPlugin 1 "dock", .registerService 1 "dock", .addPlugin 2 "mail", .deliver 2, .deliverOwnerChange, .deliver 1,
    .die 1, .idleSignal 2 "mail", .deliverOwnerChange, .deliver 2]

theorem twoGroups_mirrored : (visited (GroupRegistry.step sampleProcesses) GroupRegistry.init twoGroupsRun).length = 17 ∧
    ∀ s ∈ visited (GroupRegistry.step sampleProcesses) GroupRegistry.init twoGroupsRun, GroupRegistry.Quiet s →
      ∀ name ∈ plugins s "dde", name ∉ plugins s "app" := by
  refine ⟨by decide, fun s hs hquiet name hname hname' => ?_⟩
  obtain ⟨-, -, hone⟩ := groups_mirrored sampleProcesses twoGroupsRun (by decide) s hs hquiet "dde" (by decide) name
  exact absurd (hone "app" (by decide) hname hname') (by decide)

end DeepinServiceManager.GroupProjection
