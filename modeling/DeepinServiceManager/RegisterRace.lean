import DeepinServiceManager.ServiceLifeCycle

namespace DeepinServiceManager.RegisterRace

open TransitionRuns ServiceLifeCycle

inductive InitThread
  | started
  | published
  | opened
  | finished
  deriving DecidableEq

/-- `checked` counts the hook invocations that read `isRegister()` as false and did not yet call
`registerService`, and `registrations` the successful calls of `DSMRegister` since the service started or was
last unregistered. -/
structure State where
  service : ServiceQtDBus
  initThread : InitThread
  checked : ℕ
  registrations : ℕ

inductive Event
  | setServiceObject
  | openLibrary (isLibrary : Bool)
  | initRegister (dsmRegister : EntryPoint)
  | hookCheck
  | hookRegister (dsmRegister : EntryPoint)
  | unregister (dsmUnRegister : EntryPoint)
  | deleteLibrary

def start (policy : Policy) : State :=
  ⟨{ ServiceQtDBus.new with toServiceBase := ServiceBase.new.init policy }, .started, 0, 0⟩

def registerSection (s : State) (dsmRegister : EntryPoint) : Option State := do
  let (ok, service) ← s.service.registerService dsmRegister
  return { s with service := service, registrations := if ok then s.registrations + 1 else s.registrations }

def unregisterSection (s : State) (dsmUnRegister : EntryPoint) : Option State := do
  let (ok, service) ← s.service.unregisterService dsmUnRegister
  return { s with service := service, registrations := if ok then 0 else s.registrations }

-- The hook finds the service once it is published; the idle timer and `deleteLater` need the event loop that
-- runs after `initThread`.
def step (s : State) : Event → Option State
  | .setServiceObject => if s.initThread = .started then some { s with initThread := .published } else none
  | .openLibrary isLibrary =>
    if s.initThread = .published then
      some { s with
        initThread := .opened
        service := { s.service with m_library := if isLibrary then .live else s.service.m_library } }
    else none
  | .initRegister dsmRegister =>
    if s.initThread = .opened then registerSection { s with initThread := .finished } dsmRegister else none
  | .hookCheck =>
    if s.initThread = .started then none
    else if s.service.m_isRegister then some s
    else some { s with checked := s.checked + 1 }
  | .hookRegister dsmRegister =>
    if s.checked = 0 then none else registerSection { s with checked := s.checked - 1 } dsmRegister
  | .unregister dsmUnRegister => if s.initThread = .finished then unregisterSection s dsmUnRegister else none
  | .deleteLibrary =>
    if s.initThread = .finished ∧ s.service.m_library = .scheduled then
      some { s with service := { s.service with m_library := .deleted } }
    else none

def outcome (s : State) : Event → Option Bool
  | .initRegister objFunc | .hookRegister objFunc =>
    if succeeds s.service.m_library objFunc then some true else none
  | .unregister objFunc => if succeeds s.service.m_library objFunc then some false else none
  | .setServiceObject | .openLibrary _ | .hookCheck | .deleteLibrary => none

def Effect (s t : State) : Option Bool → Prop
  | some true => t.service.m_isRegister = true ∧ t.registrations = s.registrations + 1
  | some false => t.service.m_isRegister = false ∧ t.registrations = 0
  | none => t.service.m_isRegister = s.service.m_isRegister ∧ t.registrations = s.registrations

theorem registerSection_effect {s t : State} {dsmRegister : EntryPoint}
    (h : registerSection s dsmRegister = some t) :
    Effect s t (if succeeds s.service.m_library dsmRegister then some true else none) := by
  obtain ⟨⟨ok, service⟩, hcall, h⟩ := Option.bind_eq_some_iff.mp h
  obtain ⟨hok, -, hbase⟩ := qt_registerService_spec hcall
  cases h
  rw [← hok]
  cases ok with
  | false => exact ⟨congrArg ServiceBase.m_isRegister hbase, rfl⟩
  | true => exact ⟨congrArg ServiceBase.m_isRegister hbase, rfl⟩

theorem unregisterSection_effect {s t : State} {dsmUnRegister : EntryPoint}
    (h : unregisterSection s dsmUnRegister = some t) :
    Effect s t (if succeeds s.service.m_library dsmUnRegister then some false else none) := by
  obtain ⟨⟨ok, service⟩, hcall, h⟩ := Option.bind_eq_some_iff.mp h
  obtain ⟨hok, -, hbase⟩ := qt_unregisterService_spec hcall
  cases h
  rw [← hok]
  cases ok with
  | false => exact ⟨congrArg ServiceBase.m_isRegister hbase, rfl⟩
  | true => exact ⟨congrArg ServiceBase.m_isRegister hbase, rfl⟩

theorem step_effect {s t : State} {e : Event} (h : step s e = some t) : Effect s t (outcome s e) := by
  cases e with
  | initRegister dsmRegister =>
    simp only [step] at h
    split_ifs at h
    exact (registerSection_effect h :)
  | hookRegister dsmRegister =>
    simp only [step] at h
    split_ifs at h
    exact (registerSection_effect h :)
  | unregister dsmUnRegister =>
    simp only [step] at h
    split_ifs at h
    exact unregisterSection_effect h
  | setServiceObject | openLibrary isLibrary | hookCheck | deleteLibrary =>
    simp only [step] at h
    split_ifs at h <;> cases h <;> exact ⟨rfl, rfl⟩

def Guarded (s : State) (e : Event) : Prop := outcome s e = some true → s.service.m_isRegister = false

theorem step_counted {s t : State} {e : Event} (hcount : s.registrations = if s.service.m_isRegister then 1 else 0)
    (hguard : Guarded s e) (hstep : step s e = some t) :
    t.registrations = if t.service.m_isRegister then 1 else 0 := by
  have heffect := step_effect hstep
  rcases hout : outcome s e with _ | _ | _ <;> rw [hout] at heffect <;> rw [heffect.1, heffect.2]
  · exact hcount
  · rfl
  · rw [hcount, hguard hout]
    rfl

theorem step_guarded {s t : State} {e : Event} (hflag : s.service.m_isRegister = true ↔ 0 < s.registrations)
    (hstep : step s e = some t) (honce : t.registrations ≤ 1) :
    Guarded s e ∧ (t.service.m_isRegister = true ↔ 0 < t.registrations) := by
  have heffect := step_effect hstep
  rcases hout : outcome s e with _ | _ | _ <;> rw [hout] at heffect <;>
    rw [Guarded, hout, heffect.1, heffect.2]
  · exact ⟨by simp, hflag⟩
  · exact ⟨by simp, by simp⟩
  · have hzero : ¬ 0 < s.registrations := by
      have := heffect.2
      omega
    exact ⟨fun _ => by simpa using mt hflag.mp hzero, by simp⟩

theorem registered_once_iff (policy : Policy) (events : List Event) :
    (∀ s ∈ visited step (start policy) events, s.registrations ≤ 1) ↔
      ∀ p ∈ taken step (start policy) events, Guarded p.1 p.2 := by
  have hstart : (start policy).service.m_isRegister = true ↔ 0 < (start policy).registrations :=
    iff_of_false Bool.false_ne_true (lt_irrefl 0)
  constructor
  · exact taken_guarded (fun s => s.service.m_isRegister = true ↔ 0 < s.registrations)
      (fun s => s.registrations ≤ 1) Guarded (fun _ _ _ hflag hstep honce => step_guarded hflag hstep honce)
      hstart events
  · intro hguard s hs
    have hcount := visited_invariant (fun s => s.registrations = if s.service.m_isRegister then 1 else 0) Guarded
      (fun _ _ _ hcount hguard hstep => step_counted hcount hguard hstep) rfl events hguard s hs
    rw [hcount]
    split_ifs <;> omega

def samplePolicy : Policy := Policy.new ⟨.QT, 0, 10⟩

theorem registered_twice : ¬ ∀ s ∈ visited step (start samplePolicy) [.setServiceObject, .openLibrary true, .hookCheck,
    .initRegister (.returns 0), .hookRegister (.returns 0)], s.registrations ≤ 1 := by
  decide

end DeepinServiceManager.RegisterRace
