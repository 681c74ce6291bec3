import DeepinServiceManager.GroupRegistry

namespace DeepinServiceManager.CoreGroup

open SortedMaps TransitionRuns GroupRegistry
open GroupManager (Event Process)

variable {processes : Processes} {s t : State}

/-- No plugin process registered into the core group. -/
def Alone (processes : Processes) (s : State) : Prop :=
  ∀ p ≠ 0, (s.process p).registered = true → processes.group p ≠ "core"

structure CoreInv (processes : Processes) (s : State) : Prop where
  plugins : Alone processes s → plugins s "core" = (s.process 0).m_pluginMap
  nodup : (s.process 0).m_pluginMap.Nodup

theorem CoreInv.congr (h : CoreInv processes s)
    (hregistered : ∀ p, (s.process p).registered = true → (t.process p).registered = true)
    (hplugins : Alone processes s → GroupRegistry.plugins t "core" = GroupRegistry.plugins s "core")
    (hmap : (t.process 0).m_pluginMap = (s.process 0).m_pluginMap) : CoreInv processes t where
  plugins ht := by
    have hs : Alone processes s := fun p hp hreg => ht p hp (hregistered p hreg)
    rw [hplugins hs, hmap, h.plugins hs]
  nodup := hmap ▸ h.nodup

theorem CoreInv.setProcess (h : CoreInv processes s) {p : ℕ} {P : Process}
    (hregistered : (s.process p).registered = true → P.registered = true)
    (hmap : p = 0 → P.m_pluginMap = (s.process 0).m_pluginMap) : CoreInv processes (s.setProcess p P) := by
  apply h.congr
  · intro q hq
    by_cases hqp : q = p
    · subst hqp
      simpa [State.setProcess] using hregistered hq
    · simpa [State.setProcess, hqp] using hq
  · exact fun _ => rfl
  · by_cases hp : p = 0
    · subst hp
      simpa [State.setProcess] using hmap rfl
    · simp [State.setProcess, Ne.symm hp]

theorem registerGroup_core (hdir : Directory s) (h : CoreInv processes s) {p : ℕ} (group : String) {u : State}
    (hu : u.process = s.process) (hplugins : plugins u "core" = plugins (addGroup s group).2 "core") :
    CoreInv processes (u.setProcess p { u.process p with registered := true }) := by
  have huInv : CoreInv processes u := by
    apply h.congr
    · exact fun q hq => hu ▸ hq
    · exact fun _ => hplugins.trans (plugins_addGroup hdir group)
    · rw [hu]
  exact huInv.setProcess (fun _ => rfl) fun hp => hp ▸ rfl

theorem addPlugin_core (h : CoreInv processes s) {p : ℕ} {name : String}
    (hstep : step processes s (.addPlugin p name) = some t) : CoreInv processes t := by
  simp only [step] at hstep
  split_ifs at hstep with hguard hp
  · subst hp
    obtain ⟨groupManager, hcore, ht⟩ := Option.bind_eq_some_iff.mp hstep
    cases ht
    have hplugins := plugins_notify hcore (List.nodup_singleton groupManager)
      (fun m_plugins => GroupManager.addPlugin m_plugins name)
    rw [if_pos (List.mem_singleton_self _)] at hplugins
    constructor
    · intro ht
      have hs : Alone processes s := by
        intro p hp hregistered
        exact ht p hp (by simpa [State.setProcess, hp] using hregistered)
      refine hplugins.trans ?_
      rw [h.plugins hs]
      simp [State.setProcess, GroupManager.addPlugin]
    · simpa [State.setProcess] using ListBuilding.nodup_snoc h.nodup hguard.2.2
  · cases hstep
    exact h.setProcess (P := (s.process p).pluginAdded name) id fun hp0 => absurd hp0 hp

theorem deliver_core (hinv : Inv processes s) (h : CoreInv processes s) {p : ℕ}
    (hstep : step processes s (.deliver p) = some t) : CoreInv processes t := by
  simp only [step] at hstep
  split at hstep
  · cases hstep
  rename_i signal rest hsignals
  cases hstep
  obtain ⟨hp, hregistered⟩ := hinv.sender (p := p) (by simp [hsignals])
  have hset := h.setProcess (p := p) (P := { s.process p with signals := rest }) id fun hp0 => absurd hp0 hp
  have hplugins : Alone processes s → ∀ slot, plugins { s with
      managers := notify s.managers (receivers s p) slot } "core" = plugins s "core" := by
    intro halone slot
    rw [plugins_deliver hinv hp hregistered, if_neg (halone p hp hregistered)]
  have hset_alone : Alone processes (s.setProcess p { s.process p with signals := rest }) → Alone processes s := by
    intro halone q hq hreg
    exact halone q hq ((setProcess_registered (P := { s.process p with signals := rest }) rfl q).trans hreg)
  cases signal with
  | PluginAdded name => exact hset.congr (fun _ hq => hq) (fun halone => hplugins (hset_alone halone) _) rfl
  | PluginRemoved name => exact hset.congr (fun _ hq => hq) (fun halone => hplugins (hset_alone halone) _) rfl

theorem deliverOwnerChange_core (hinv : Inv processes s) (h : CoreInv processes s)
    (hstep : step processes s .deliverOwnerChange = some t) : CoreInv processes t := by
  simp only [step] at hstep
  split at hstep
  · cases hstep
  cases hstep
  apply h.congr
  · exact fun _ hp => hp
  · intro halone
    refine plugins_notify_other hinv.hooked.watched_nodup ?_ _
    intro m hm hcore
    obtain ⟨p, hp⟩ := (hinv.hooked.watched m).mp hm
    obtain ⟨hp0, hregistered, hgroup⟩ := (hinv.hooked.hooks p m).mp hp
    exact halone p hp0 hregistered (hinv.directory.distinct _ _ m hcore hgroup)
  · rfl

theorem step_core {e : Event} (hinv : Inv processes s) (h : CoreInv processes s)
    (hstep : step processes s e = some t) : CoreInv processes t := by
  cases e with
  | launch p =>
    simp only [step] at hstep
    split_ifs at hstep
    cases hstep
    exact h.setProcess (P := { s.process p with phase := .running }) id fun hp => hp ▸ rfl
  | registerGroup p =>
    simp only [step] at hstep
    split_ifs at hstep
    · cases hstep
      exact registerGroup_core hinv.directory h "core" (addGroup_frame s "core").1 rfl
    · cases hstep
      exact registerGroup_core hinv.directory h (processes.group p) (addGroup_frame s _).1 rfl
  | addPlugin p name => exact addPlugin_core h hstep
  | idleSignal p name =>
    simp only [step] at hstep
    split_ifs at hstep
    cases hstep
    exact h.setProcess (P := (s.process p).pluginRemoved name) id fun hp => hp ▸ rfl
  | die p =>
    simp only [step] at hstep
    split_ifs at hstep with hguard
    cases hstep
    have hset := h.setProcess (p := p) (P := { s.process p with phase := .dead }) id fun hp => hp ▸ rfl
    exact hset.congr (fun _ hq => hq) (fun _ => rfl) rfl
  | deliver p => exact deliver_core hinv h hstep
  | deliverOwnerChange => exact deliverOwnerChange_core hinv h hstep
  | createService p name | registerService p name =>
    simp only [step] at hstep
    split_ifs at hstep
    cases hstep
    exact h.congr (fun _ hq => hq) (fun _ => rfl) rfl

theorem setProcess_pluginMap {p : ℕ} {P : Process} (h : (s.process p).m_pluginMap <+: P.m_pluginMap) :
    (s.process 0).m_pluginMap <+: ((s.setProcess p P).process 0).m_pluginMap := by
  by_cases hp : p = 0
  · subst hp
    simpa [State.setProcess] using h
  · simp [State.setProcess, Ne.symm hp]

theorem step_pluginMap {e : Event} (hstep : step processes s e = some t) :
    (s.process 0).m_pluginMap <+: (t.process 0).m_pluginMap := by
  cases e with
  | registerGroup p =>
    simp only [step] at hstep
    split_ifs at hstep with hphase hp
    · cases hstep
      have hprocess := (addGroup_frame s "core").1
      rw [← hprocess]
      exact setProcess_pluginMap List.prefix_rfl
    · cases hstep
      have hprocess := (addGroup_frame s (processes.group p)).1
      rw [← hprocess]
      exact setProcess_pluginMap (s := onRegisterGroup s (processes.group p) p) List.prefix_rfl
  | addPlugin p name =>
    simp only [step] at hstep
    split_ifs at hstep
    · obtain ⟨groupManager, -, ht⟩ := Option.bind_eq_some_iff.mp hstep
      cases ht
      exact setProcess_pluginMap (p := 0) (List.prefix_append _ _)
    · cases hstep
      exact setProcess_pluginMap (List.prefix_append _ _)
  | deliver p =>
    simp only [step] at hstep
    split at hstep
    · cases hstep
    · rename_i signal rest hsignals
      cases hstep
      have hset := setProcess_pluginMap (s := s) (p := p) (P := { s.process p with signals := rest }) List.prefix_rfl
      cases signal <;> exact hset
  | deliverOwnerChange =>
    simp only [step] at hstep
    split at hstep <;> cases hstep
    exact List.prefix_rfl
  | launch p | idleSignal p name | die p =>
    simp only [step] at hstep
    split_ifs at hstep
    cases hstep
    exact setProcess_pluginMap List.prefix_rfl
  | createService p name | registerService p name =>
    simp only [step] at hstep
    split_ifs at hstep
    cases hstep
    exact List.prefix_rfl

theorem reachable_core (h : Reachable (step processes) init s) : CoreInv processes s := by
  have hinit : CoreInv processes init := ⟨fun _ => rfl, List.nodup_nil⟩
  exact (h.invariant (fun s => Inv processes s ∧ CoreInv processes s) ⟨init_inv, hinit⟩
    fun _ _ _ hs hstep => ⟨step_inv hs.1 hstep, step_core hs.1 hs.2 hstep⟩).2

theorem reachable_pluginMap (h : Reachable (step processes) s t) :
    (s.process 0).m_pluginMap <+: (t.process 0).m_pluginMap := by
  induction h with
  | refl => exact List.prefix_rfl
  | tail _ hstep ih => exact ih.trans (step_pluginMap hstep)

theorem core_plugins (processes : Processes) (s : State) (h : Reachable (step processes) init s)
    (halone : Alone processes s) :
    plugins s "core" = (s.process 0).m_pluginMap ∧ (plugins s "core").Nodup ∧
      ∀ t, Reachable (step processes) s t → Alone processes t → plugins s "core" <+: plugins t "core" := by
  have hs := reachable_core h
  have heq := hs.plugins halone
  refine ⟨heq, heq ▸ hs.nodup, fun t ht ht' => ?_⟩
  rw [heq, (reachable_core (h.trans ht)).plugins ht']
  exact reachable_pluginMap ht

theorem core_plugins_sample : plugins registerEnd "core" = (registerEnd.process 0).m_pluginMap ∧
    (registerEnd.process 0).m_pluginMap = ["power"] := by
  have halone : Alone sampleProcesses registerEnd := by
    intro p hp _ hcore
    simp only [sampleProcesses, if_neg hp] at hcore
    split_ifs at hcore <;> simp at hcore
  exact ⟨(core_plugins sampleProcesses registerEnd registerEnd_reachable halone).1, by decide⟩

end DeepinServiceManager.CoreGroup
