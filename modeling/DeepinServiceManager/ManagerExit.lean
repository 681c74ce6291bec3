import DeepinServiceManager.FileUse
import DeepinServiceManager.IdleExit
import DeepinServiceManager.RegistrationOrder

namespace DeepinServiceManager.ManagerExit

open CheckedLoops QTDbusHook SortedMaps TransitionRuns ConfigScans PluginLoader SubPathLookup

/-- The services of the main process: `m_publicService`, `m_privateService` and the plugins of the core group, which
stand behind the pointers from 2 on. -/
structure Setup where
  publicPolicy : Policy
  privatePolicy : Policy
  heap : PolicyPtr → Policy
  created : List PolicyPtr

namespace Setup

def policy (m : Setup) : ServicePtr → Policy
  | 0 => m.publicPolicy
  | 1 => m.privatePolicy
  | p + 2 => m.heap p

def kind (m : Setup) : ServicePtr → Option ServiceKind
  | 0 | 1 => some .QDBusServicePrivate
  | p + 2 => if p ∈ m.created then (createService (m.heap p)).map Backend.kind else none

end Setup

/-- Both objects parse `other/manager.json`, and `initGroup` loads the core group when a policy has it. -/
def init (host : Host) (sort : ServiceManager.Sorter) (type : BusType) (managerFile : QFileInfo)
    (publicMemory privateMemory : Uninitialised) (memory coreMemory : PolicyPtr → Uninitialised)
    (timerFires : ℤ → Bool) : Option Setup := do
  let groups ← sort ServiceManager.groupLess (ServiceManager.collectGroups host
    (parsedPolicys (host.configDir type) memory) (configFiles (host.configDir type)))
  let loaded ← (if groups.contains "core" then
    PluginLoader.loadByGroup host ⟨type, true⟩ coreMemory timerFires "core" else some ⟨[], []⟩)
  return {
    publicPolicy := (Policy.new publicMemory).parseConfig managerFile
    privatePolicy := (Policy.new privateMemory).parseConfig managerFile
    heap := parsedPolicys (host.configDir type) coreMemory
    created := loaded.created }

structure State where
  service : ServicePtr → IdleTimer.State
  m_serviceMap : ServiceObjectMap

def State.setService (s : State) (p : ServicePtr) (u : IdleTimer.State) : State :=
  { s with service := Function.update s.service p u }

@[simp] theorem State.setService_self (s : State) (p : ServicePtr) (u : IdleTimer.State) :
    (s.setService p u).service p = u := Function.update_self ..

theorem State.setService_of_ne (s : State) {p q : ServicePtr} (h : q ≠ p) (u : IdleTimer.State) :
    (s.setService p u).service q = s.service q := Function.update_of_ne h ..

inductive Event
  | setServiceObject (p : PolicyPtr)
  | hook (msg : QDBusMessage) (dsmRegister : EntryPoint)
  | service (service : ServicePtr) (e : IdleTimer.Event)

def start (m : Setup) : State where
  service := fun p => IdleTimer.start ((m.kind p).getD .QDBusServicePrivate) (m.policy p)
  m_serviceMap := setServiceObject (setServiceObject .empty 0 m.publicPolicy) 1 m.privatePolicy

def serviceStep (m : Setup) (s : State) (p : ServicePtr) (e : IdleTimer.Event) : Option State := do
  let kind ← m.kind p
  let t ← IdleTimer.step kind (m.policy p) (s.service p) e
  return s.setService p t

-- A message reaches a service of the Qt back end through the hook. The manager never calls `lockTimer`.
def ownEvent (m : Setup) (p : ServicePtr) : IdleTimer.Event → Bool
  | .message _ _ _ => m.kind p = some .ServiceSDBus
  | .lockTimer _ => false
  | _ => true

def step (m : Setup) (s : State) : Event → Option State
  | .setServiceObject p =>
    if m.kind (p + 2) = some .ServiceQtDBus then
      some { s with m_serviceMap := setServiceObject s.m_serviceMap (p + 2) (m.heap p) }
    else none
  | .hook msg dsmRegister => do
    match ← getServiceObject (live fun p => ⟨m.policy p, (s.service p).service⟩) s.m_serviceMap msg.path with
    | none => return s
    | some found => serviceStep m s found.service (.message found.realPath msg dsmRegister)
  | .service p e => if ownEvent m p e then serviceStep m s p e else none

/-- No service has emitted `idleSignal`, on which the process quits. -/
def Stays (m : Setup) (s : State) : Prop := ∀ p kind, m.kind p = some kind → (s.service p).idleSignals = 0

def interval (policy : Policy) : ℤ := (ServiceBase.new.init policy).m_timer.interval

def Safe (policy : Policy) : Prop := policy.isResident = true ∨ policy.paths = [] ∨ interval policy < 0

theorem parsePolicyPath_subPath {p q : Policy} (h : p.mapSubPath = q.mapSubPath) (obj : QJsonObject) :
    (p.parsePolicyPath obj).2.mapSubPath = (q.parsePolicyPath obj).2.mapSubPath := by
  unfold Policy.parsePolicyPath
  dsimp only
  split_ifs with hpath
  · exact h
  · rw [h]

theorem parsePolicyList_subPath {p q : Policy} (h : p.mapSubPath = q.mapSubPath) (policyList : List QJsonValue) :
    (p.parsePolicyList policyList).2.mapSubPath = (q.parsePolicyList policyList).2.mapSubPath := by
  induction policyList generalizing p q with
  | nil => exact h
  | cons entry rest ih =>
    cases entry with
    | object obj =>
      have hflag : (p.parsePolicyPath obj).1 = (q.parsePolicyPath obj).1 :=
        (Policy.parsePolicyPath_frame p obj).1.trans (Policy.parsePolicyPath_frame q obj).1.symm
      have hsub := parsePolicyPath_subPath h obj
      rw [Policy.parsePolicyList, Policy.parsePolicyList, hflag]
      split_ifs
      · exact ih hsub
      · exact hsub
    | _ => exact ih h

theorem parsePolicy_subPath {p q : Policy} (h : p.mapSubPath = q.mapSubPath) (rootObj : QJsonObject) :
    (p.parsePolicy rootObj).2.mapSubPath = (q.parsePolicy rootObj).2.mapSubPath := by
  unfold Policy.parsePolicy
  cases rootObj.value "policy" with
  | none => exact h
  | some v =>
    cases v with
    | array policyList =>
      dsimp only
      apply parsePolicyList_subPath
      exact h
    | _ => exact h

theorem parseConfig_paths (u v : Uninitialised) (file : QFileInfo) :
    ((Policy.new u).parseConfig file).paths = ((Policy.new v).parseConfig file).paths := by
  cases hread : file.rootObj with
  | none =>
    rw [Policy.parseConfig_none _ hread, Policy.parseConfig_none _ hread]
    rfl
  | some rootObj =>
    have hsub : ((Policy.new u).readScalars rootObj).mapSubPath = ((Policy.new v).readScalars rootObj).mapSubPath := rfl
    have hflag : (((Policy.new u).readScalars rootObj).parsePolicy rootObj).1 =
        (((Policy.new v).readScalars rootObj).parsePolicy rootObj).1 :=
      (Policy.parsePolicy_frame _ rootObj).1.trans (Policy.parsePolicy_frame _ rootObj).1.symm
    have hname : ((Policy.new u).readScalars rootObj).name = ((Policy.new v).readScalars rootObj).name := rfl
    have hpolicy := parsePolicy_subPath hsub rootObj
    rw [Policy.parseConfig_some _ hread, Policy.parseConfig_some _ hread, Policy.parseRoot, Policy.parseRoot, hflag, hname,
      Policy.parseCondition_eq, Policy.parseCondition_eq]
    split_ifs
    · rfl
    · exact congrArg SortedMap.keys hpolicy
    · exact congrArg SortedMap.keys hpolicy

theorem safe_agree (u : Uninitialised) {v : Uninitialised} {file : QFileInfo}
    (h : Safe ((Policy.new u).parseConfig file)) : Safe ((Policy.new v).parseConfig file) := by
  cases hread : file.rootObj with
  | none =>
    right
    left
    rw [Policy.parseConfig_none _ hread]
    rfl
  | some rootObj =>
    have hsettings (u : Uninitialised) := (Policy.new u).parseConfig_readScalars hread
    rcases h with hresident | hpaths | hneg
    · left
      rw [← hresident]
      exact Policy.isResident_eq ((hsettings v).startType.trans (hsettings u).startType.symm)
    · right
      left
      rw [← hpaths]
      exact parseConfig_paths v u file
    · right
      right
      have hidle : ((Policy.new v).parseConfig file).idleTime = ((Policy.new u).parseConfig file).idleTime :=
        (hsettings v).idleTime.trans (hsettings u).idleTime.symm
      simpa only [interval, ServiceBase.init, hidle] using hneg

/-- The idle timer has an interval with which it never starts. -/
def Stuck (s : IdleTimer.State) : Prop := IdleTimer.Quiet s ∧ s.service.base.m_timer.interval < 0

theorem mapBase_base (f : ServiceBase → ServiceBase) (service : Service) :
    (service.mapBase f).base = f service.base := by
  cases service <;> rfl

theorem register_stuck {s t : IdleTimer.State} {dsmRegister : EntryPoint} (hs : Stuck s)
    (h : IdleTimer.register s dsmRegister = some t) : Stuck t := by
  obtain ⟨⟨ok, service⟩, hcall, h⟩ := Option.bind_eq_some_iff.mp h
  have htimer := IdleTimer.registerService_timer hcall
  cases h
  refine ⟨⟨?_, hs.1.2⟩, ?_⟩
  · rw [htimer]
    exact hs.1.1
  · rw [htimer]
    exact hs.2

theorem restart_inactive {timer : QTimer} (h : timer.interval < 0) : timer.start.active = false := by
  simpa [QTimer.start] using h

theorem restart_stuck {s : IdleTimer.State} (hs : Stuck s) (queued : ℕ) :
    Stuck { s with queued := queued, service := s.service.mapBase .restartTimer } := by
  refine ⟨⟨?_, hs.1.2⟩, ?_⟩
  · simp only [mapBase_base]
    exact restart_inactive hs.2
  · simp only [mapBase_base]
    exact hs.2

theorem perform_stuck {s t : IdleTimer.State} {dsmRegister : EntryPoint} {call : HookCall} (hs : Stuck s)
    (h : IdleTimer.perform dsmRegister s call = some t) : Stuck t := by
  cases call with
  | registerService => exact register_stuck hs h
  | restartTimer =>
    unfold IdleTimer.perform at h
    cases hservice : s.service with
    | qt service =>
      simp only [hservice, Option.some.injEq] at h
      subst h
      unfold Stuck IdleTimer.Quiet at hs ⊢
      rw [hservice] at hs
      exact hs
    | sd service =>
      simp only [hservice, Option.some.injEq] at h
      subst h
      rw [← hservice]
      exact restart_stuck hs s.queued
  | emptyReply =>
    cases h
    exact hs

theorem step_stuck {kind : ServiceKind} {policy : Policy} {s t : IdleTimer.State} {e : IdleTimer.Event} (hs : Stuck s)
    (hlock : ∀ lock, e ≠ .lockTimer lock) (h : IdleTimer.step kind policy s e = some t) : Stuck t := by
  cases e with
  | initThread isLibrary dsmRegister =>
    simp only [IdleTimer.step] at h
    split_ifs at h
    apply register_stuck _ h
    refine ⟨⟨?_, hs.1.2⟩, ?_⟩
    · simp only [Service.openLibrary_base]
      exact hs.1.1
    · simp only [Service.openLibrary_base]
      exact hs.2
  | message realPath msg dsmRegister =>
    apply foldlM_preserves Stuck _ hs h
    exact fun _ _ _ _ hu hv => perform_stuck hu hv
  | restartTimer =>
    simp only [IdleTimer.step] at h
    split_ifs at h
    cases h
    exact restart_stuck hs (s.queued - 1)
  | lockTimer lock => exact absurd rfl (hlock lock)
  | timeout dsmUnRegister => simp [IdleTimer.step, hs.1.1] at h

/-- Only a message depends on the policy. -/
theorem step_policy {kind : ServiceKind} (policy policy' : Policy) (s : IdleTimer.State) {e : IdleTimer.Event}
    (he : ∀ realPath msg dsmRegister, e ≠ .message realPath msg dsmRegister) :
    IdleTimer.step kind policy s e = IdleTimer.step kind policy' s e := by
  cases e with
  | message realPath msg dsmRegister => exact absurd rfl (he realPath msg dsmRegister)
  | _ => rfl

variable {m : Setup} {s t : State} {p : ServicePtr} {e : IdleTimer.Event}

def Calm (m : Setup) (p : ServicePtr) (s : IdleTimer.State) : Prop :=
  IdleTimer.Idle s ∧ ((m.policy p).isResident = true ∨ (m.policy p).paths = []) ∨ Stuck s

theorem Calm.quiet {s : IdleTimer.State} (h : Calm m p s) : IdleTimer.Quiet s := by
  rcases h with ⟨hidle, -⟩ | hstuck
  · exact hidle.quiet
  · exact hstuck.1

theorem start_calm (hsafe : Safe (m.policy p)) (kind : ServiceKind) : Calm m p (IdleTimer.start kind (m.policy p)) := by
  rcases hsafe with hresident | hpaths | hneg
  · exact .inl ⟨IdleTimer.start_idle _ _, .inl hresident⟩
  · exact .inl ⟨IdleTimer.start_idle _ _, .inr hpaths⟩
  · right
    refine ⟨(IdleTimer.start_idle _ _).quiet, ?_⟩
    cases kind <;> exact hneg

theorem step_calm {kind : ServiceKind} {u v : IdleTimer.State} (hu : Calm m p u) (hlock : ∀ lock, e ≠ .lockTimer lock)
    (hmessage : ∀ realPath msg dsmRegister, e = .message realPath msg dsmRegister →
      (m.policy p).isResident = true ∨ (m.policy p).paths ≠ [])
    (h : IdleTimer.step kind (m.policy p) u e = some v) : Calm m p v := by
  rcases hu with ⟨hidle, hreason⟩ | hstuck
  · have hguard : IdleTimer.Guarded u e := fun heq => absurd heq (hlock false)
    by_cases hresident : (m.policy p).isResident = true
    · exact .inl ⟨IdleTimer.step_idle hresident hidle hguard h, hreason⟩
    · have hpaths := hreason.resolve_left hresident
      have hno : ∀ realPath msg dsmRegister, e ≠ .message realPath msg dsmRegister := by
        intro realPath msg dsmRegister heq
        exact (hmessage _ _ _ heq).elim hresident (fun hne => hne hpaths)
      rw [step_policy (m.policy p) IdleTimer.residentPolicy u hno] at h
      exact .inl ⟨IdleTimer.step_idle (by decide) hidle hguard h, hreason⟩
  · exact .inr (step_stuck hstuck hlock h)

structure Inv (m : Setup) (s : State) : Prop where
  calm : ∀ p kind, m.kind p = some kind → Calm m p (s.service p)
  listed : ∀ path p, s.m_serviceMap.find? path = some p → path ∈ (m.policy p).paths

theorem setServiceObject_listed {services : ServiceObjectMap} {policy : Policy} (hpolicy : m.policy p = policy)
    (h : ∀ path q, services.find? path = some q → path ∈ (m.policy q).paths) :
    ∀ path q, (setServiceObject services p policy).find? path = some q → path ∈ (m.policy q).paths := by
  intro path q hq
  rw [ServiceRegistry.setServiceObject_find?] at hq
  split_ifs at hq with hpath
  · cases hq
    rw [hpolicy]
    exact hpath.1
  · exact h path q hq

theorem serviceStep_inv (hs : Inv m s) (hlock : ∀ lock, e ≠ .lockTimer lock)
    (hmessage : ∀ realPath msg dsmRegister, e = .message realPath msg dsmRegister →
      (m.policy p).isResident = true ∨ (m.policy p).paths ≠ [])
    (h : serviceStep m s p e = some t) : Inv m t := by
  obtain ⟨kind, hkind, h⟩ := Option.bind_eq_some_iff.mp h
  obtain ⟨u, hu, h⟩ := Option.bind_eq_some_iff.mp h
  cases h
  refine ⟨fun q kind' hq => ?_, hs.listed⟩
  by_cases heq : q = p
  · subst heq
    rw [State.setService_self]
    exact step_calm (hs.calm q kind hkind) hlock hmessage hu
  · rw [State.setService_of_ne s heq]
    exact hs.calm q kind' hq

theorem kind_cases {kind : ServiceKind} (h : m.kind p = some kind) :
    p = 0 ∨ p = 1 ∨ ∃ q ∈ m.created, p = q + 2 ∧ m.policy p = m.heap q := by
  rcases p with _ | _ | q
  · exact .inl rfl
  · exact .inr (.inl rfl)
  · simp only [Setup.kind] at h
    split_ifs at h with hq
    exact .inr (.inr ⟨q, hq, rfl, rfl⟩)

theorem ownEvent_spec (hresident : ∀ p ∈ m.created, (m.heap p).isResident = true) (h : ownEvent m p e = true) :
    (∀ lock, e ≠ .lockTimer lock) ∧ ∀ realPath msg dsmRegister, e = .message realPath msg dsmRegister →
      (m.policy p).isResident = true ∨ (m.policy p).paths ≠ [] := by
  constructor
  · rintro lock rfl
    cases h
  · rintro realPath msg dsmRegister rfl
    have hkind : m.kind p = some .ServiceSDBus := of_decide_eq_true h
    left
    rcases kind_cases hkind with rfl | rfl | ⟨q, hq, -, hpolicy⟩
    · cases hkind
    · cases hkind
    · rw [hpolicy]
      exact hresident q hq

theorem step_inv (hresident : ∀ p ∈ m.created, (m.heap p).isResident = true) {event : Event} (hs : Inv m s)
    (h : step m s event = some t) : Inv m t := by
  cases event with
  | setServiceObject p =>
    simp only [step] at h
    split_ifs at h
    cases h
    exact ⟨hs.calm, setServiceObject_listed rfl hs.listed⟩
  | hook msg dsmRegister =>
    obtain ⟨result, hresult, h⟩ := Option.bind_eq_some_iff.mp h
    cases result with
    | none =>
      cases h
      exact hs
    | some found =>
      have hlisted := hs.listed _ _ (RegistrationOrder.getServiceObject_find? hresult)
      have hlock : ∀ lock, IdleTimer.Event.message found.realPath msg dsmRegister ≠ .lockTimer lock := by
        intro lock heq
        cases heq
      exact serviceStep_inv hs hlock (fun _ _ _ _ => .inr (List.ne_nil_of_mem hlisted)) h
  | service p e =>
    simp only [step] at h
    split_ifs at h with hown
    obtain ⟨hlock, hmessage⟩ := ownEvent_spec hresident hown
    exact serviceStep_inv hs hlock hmessage h

theorem start_inv (hpublic : Safe m.publicPolicy) (hprivate : Safe m.privatePolicy)
    (hresident : ∀ p ∈ m.created, (m.heap p).isResident = true) : Inv m (start m) := by
  constructor
  · intro p kind hkind
    apply start_calm
    rcases kind_cases hkind with rfl | rfl | ⟨q, hq, -, hpolicy⟩
    · exact hpublic
    · exact hprivate
    · left
      rw [hpolicy]
      exact hresident q hq
  · apply setServiceObject_listed rfl
    apply setServiceObject_listed rfl
    intro path p h
    cases h

theorem Inv.stays (hs : Inv m s) : Stays m s := fun p kind hkind => (hs.calm p kind hkind).quiet.2

theorem serviceStep_eq {kind : ServiceKind} {u : IdleTimer.State} (hkind : m.kind p = some kind)
    (h : IdleTimer.step kind (m.policy p) (s.service p) e = some u) :
    serviceStep m s p e = some (s.setService p u) := by
  simp only [serviceStep, hkind, h, Option.bind_eq_bind, Option.bind_some, Option.pure_def]

/-- A message, the restart that it posts and the expiry of the timer. -/
theorem idle_run {policy : Policy} (hdemand : policy.isResident = false) (hinterval : 0 ≤ interval policy)
    (path : String) : ∃ t u v,
      IdleTimer.step .QDBusServicePrivate policy (IdleTimer.start .QDBusServicePrivate policy)
        (.message path ⟨path, "", ""⟩ .unresolved) = some t ∧
      IdleTimer.step .QDBusServicePrivate policy t .restartTimer = some u ∧
      IdleTimer.step .QDBusServicePrivate policy u (.timeout .unresolved) = some v ∧ v.idleSignals = 1 := by
  have hcalls : IdleTimer.messageCalls policy (IdleTimer.start .QDBusServicePrivate policy).service path
      ⟨path, "", ""⟩ = [.restartTimer] := by
    simp only [IdleTimer.messageCalls, IdleTimer.start, ServiceKind.create, qtCalls, hookCalls, hdemand]
    rfl
  have hactive : (0 ≤ interval policy : Bool) = true := decide_eq_true hinterval
  let t : IdleTimer.State := { IdleTimer.start .QDBusServicePrivate policy with queued := 1 }
  let u : IdleTimer.State := { t with queued := 0, service := t.service.mapBase .restartTimer }
  let v : IdleTimer.State :=
    { u with service := u.service.mapBase (fun base => { base with m_timer := base.m_timer.stop }), idleSignals := 1 }
  refine ⟨t, u, v, ?_, rfl, ?_, rfl⟩
  · rw [IdleTimer.step, hcalls]
    rfl
  · exact if_pos hactive

theorem init_spec {host : Host} {sort : ServiceManager.Sorter} {type : BusType} {managerFile : QFileInfo}
    {u v : Uninitialised} {memory coreMemory : PolicyPtr → Uninitialised} {timerFires : ℤ → Bool}
    (h : init host sort type managerFile u v memory coreMemory timerFires = some m) :
    m.publicPolicy = (Policy.new u).parseConfig managerFile ∧ m.privatePolicy = (Policy.new v).parseConfig managerFile ∧
      ∀ p ∈ m.created, (m.heap p).isResident = true := by
  obtain ⟨groups, -, h⟩ := Option.bind_eq_some_iff.mp h
  obtain ⟨loaded, hload, h⟩ := Option.bind_eq_some_iff.mp h
  cases h
  refine ⟨rfl, rfl, fun p hp => ?_⟩
  split_ifs at hload
  · exact (groupAccepts_iff.mp (mem_groupPolicys.mp (loadByGroup_created hload hp).1).2).2.1.symm
  · cases hload
    cases hp

def quitRun (path : String) : List Event :=
  [.hook ⟨path, "", ""⟩ .unresolved, .service 0 .restartTimer, .service 0 (.timeout .unresolved)]

theorem quitRun_idle (hdemand : m.publicPolicy.isResident = false) (hinterval : 0 ≤ interval m.publicPolicy) {path : String}
    (hpath : path ∈ m.publicPolicy.paths) :
    ∃ s, (quitRun path).foldlM (step m) (start m) = some s ∧ (s.service 0).idleSignals = 1 := by
  obtain ⟨t, u, v, ht, hu, hv, hidle⟩ := idle_run hdemand hinterval path
  have hfind : (start m).m_serviceMap.find? path = some 0 := by
    have hfirst : (setServiceObject .empty 0 m.publicPolicy).find? path = some 0 := by
      rw [ServiceRegistry.setServiceObject_find?, if_pos ⟨hpath, rfl⟩]
    rw [start, ServiceRegistry.setServiceObject_find?, hfirst, if_neg (fun h => nomatch h.2)]
  have hhook : step m (start m) (.hook ⟨path, "", ""⟩ .unresolved) = some ((start m).setService 0 t) := by
    rw [step, getServiceObject_key hfind]
    exact serviceStep_eq (m := m) (s := start m) (p := 0) rfl ht
  have hown {s : State} {e : IdleTimer.Event} {w : IdleTimer.State} (he : ownEvent m 0 e = true)
      (h : IdleTimer.step .QDBusServicePrivate m.publicPolicy (s.service 0) e = some w) :
      step m s (.service 0 e) = some (s.setService 0 w) :=
    (if_pos he).trans (serviceStep_eq rfl h)
  have hrestart : step m ((start m).setService 0 t) (.service 0 .restartTimer) =
      some (((start m).setService 0 t).setService 0 u) := by
    apply hown rfl
    rw [State.setService_self]
    exact hu
  have htimeout : step m (((start m).setService 0 t).setService 0 u) (.service 0 (.timeout .unresolved)) =
      some ((((start m).setService 0 t).setService 0 u).setService 0 v) := by
    apply hown rfl
    rw [State.setService_self]
    exact hv
  refine ⟨(((start m).setService 0 t).setService 0 u).setService 0 v, ?_, ?_⟩
  · simp only [quitRun, List.foldlM_cons, List.foldlM_nil, hhook, hrestart, htimeout, Option.bind_eq_bind,
      Option.bind_some, Option.pure_def]
  · rw [State.setService_self, hidle]

theorem quits (hnot : ¬ Safe m.publicPolicy) : m.publicPolicy.paths ≠ [] ∧ ∀ path ∈ m.publicPolicy.paths,
    ∃ s, (quitRun path).foldlM (step m) (start m) = some s ∧ (s.service 0).idleSignals = 1 ∧ ¬ Stays m s := by
  simp only [Safe, not_or, Bool.not_eq_true, not_lt] at hnot
  obtain ⟨hdemand, hpaths, hinterval⟩ := hnot
  refine ⟨hpaths, fun path hpath => ?_⟩
  obtain ⟨s, hrun, hidle⟩ := quitRun_idle hdemand hinterval hpath
  refine ⟨s, hrun, hidle, fun hstays => ?_⟩
  rw [hstays 0 .QDBusServicePrivate rfl] at hidle
  cases hidle

/-- The main process never quits on an idle timer, whatever the core plugins and the messages are, exactly when its
own configuration is resident, has no path or has an interval that stops the timer from starting. Otherwise a message
to any of its paths, the restart that it posts and the expiry of the timer make it quit. -/
theorem manager_stays_iff (host : Host) (sort : ServiceManager.Sorter) (type : BusType) (managerFile : QFileInfo)
    (u v : Uninitialised) (memory coreMemory : PolicyPtr → Uninitialised) (timerFires : ℤ → Bool) (m : Setup)
    (hinit : init host sort type managerFile u v memory coreMemory timerFires = some m) :
    let policy := (Policy.new u).parseConfig managerFile
    ((∀ events, ∀ s ∈ visited (step m) (start m) events, Stays m s) ↔ Safe policy) ∧
      (¬ Safe policy → policy.paths ≠ [] ∧ ∀ path ∈ policy.paths,
        ∃ s, (quitRun path).foldlM (step m) (start m) = some s ∧ (s.service 0).idleSignals = 1 ∧ ¬ Stays m s) := by
  intro policy
  obtain ⟨hpublic, hprivate, hresident⟩ := init_spec hinit
  change m.publicPolicy = policy at hpublic
  have hquit : ¬ Safe policy → policy.paths ≠ [] ∧ ∀ path ∈ policy.paths,
      ∃ s, (quitRun path).foldlM (step m) (start m) = some s ∧ (s.service 0).idleSignals = 1 ∧ ¬ Stays m s :=
    hpublic ▸ quits
  refine ⟨⟨fun hstays => ?_, fun hsafe events s hs => ?_⟩, hquit⟩
  · by_contra hnot
    obtain ⟨hpaths, hruns⟩ := hquit hnot
    obtain ⟨path, hpath⟩ := List.exists_mem_of_ne_nil _ hpaths
    obtain ⟨s, hrun, -, hquits⟩ := hruns path hpath
    exact hquits (hstays (quitRun path) s (mem_visited_of_foldlM hrun))
  · have hstart : Inv m (start m) := start_inv (hpublic ▸ hsafe) (hprivate ▸ safe_agree u hsafe) hresident
    apply Inv.stays
    exact Reachable.invariant (Inv m) (Reachable.refl.of_visited hs) hstart fun _ _ _ hs h => step_inv hresident hs h

/-- The file `manager.json` of the repository. -/
def managerJson : QJsonObject :=
  [("name", .string "org.deepin.service.manager1"), ("group", .string "core"), ("policyVersion", .string "1.0"),
    ("dependencies", .array []),
    ("policy", .array
      [.object [("path", .string "/org/deepin/ServiceManager1"), ("pathhide", .bool false),
          ("permission", .bool false)],
        .object [("path", .string "/org/deepin/ServiceManager1/Private"), ("pathhide", .bool true),
          ("permission", .bool false)]])]

def demandJson : QJsonObject := ("startType", .string "OnDemand") :: managerJson

theorem demandJson_not_safe (u : Uninitialised) : ¬ Safe ((Policy.new u).parseConfig (configFile demandJson)) := by
  have hinterval : ¬ interval ((Policy.new u).parseConfig (configFile demandJson)) < 0 := by
    have hidle : ((Policy.new u).parseConfig (configFile demandJson)).idleTime = 10 := rfl
    simp only [interval, ServiceBase.init, hidle]
    decide
  rintro (hresident | hpaths | hneg)
  · cases hresident
  · cases hpaths
  · exact hinterval hneg

theorem manager_stays_sample :
    let init (rootObj : QJsonObject) : Option Setup := init (sampleHost "x11" []) (fun _ groups => some groups)
      .SystemBus (configFile rootObj) ⟨.QT, 0, 0⟩ ⟨.SD, 0, 0⟩ (fun _ => ⟨.QT, 0, 0⟩) (fun _ => ⟨.QT, 0, 0⟩) (fun _ => true)
    (∃ m, init managerJson = some m ∧ ∀ events, ∀ s ∈ visited (step m) (start m) events, Stays m s) ∧
      ∃ m, init demandJson = some m ∧
        ∃ s, (quitRun "/org/deepin/ServiceManager1").foldlM (step m) (start m) = some s ∧ ¬ Stays m s := by
  constructor
  · refine ⟨_, rfl, ?_⟩
    exact (manager_stays_iff (sampleHost "x11" []) (fun _ groups => some groups) .SystemBus (configFile managerJson)
      ⟨.QT, 0, 0⟩ ⟨.SD, 0, 0⟩ (fun _ => ⟨.QT, 0, 0⟩) (fun _ => ⟨.QT, 0, 0⟩) (fun _ => true) _ rfl).1.mpr (.inl rfl)
  · refine ⟨_, rfl, ?_⟩
    obtain ⟨-, hquits⟩ := (manager_stays_iff (sampleHost "x11" []) (fun _ groups => some groups) .SystemBus
      (configFile demandJson) ⟨.QT, 0, 0⟩ ⟨.SD, 0, 0⟩ (fun _ => ⟨.QT, 0, 0⟩) (fun _ => ⟨.QT, 0, 0⟩) (fun _ => true) _
      rfl).2 (demandJson_not_safe _)
    obtain ⟨s, hrun, -, hstays⟩ := hquits "/org/deepin/ServiceManager1" (List.mem_cons_self ..)
    exact ⟨s, hrun, hstays⟩

end DeepinServiceManager.ManagerExit
