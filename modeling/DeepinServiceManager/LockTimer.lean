import DeepinServiceManager.ServiceLifeCycle

namespace DeepinServiceManager.LockTimer

open TransitionRuns ServiceLifeCycle

/-- `checked` counts the hook invocations that passed the test of the lock and did not queue `restartTimer` yet,
and `queued` the events in the queue. -/
structure State where
  service : ServiceQtDBus
  checked : ℕ
  queued : ℕ

inductive Event
  | hookCheck
  | hookQueue
  | restartTimer
  | lockTimer (lock : Bool)
  | timeout (dsmUnRegister : EntryPoint)

def start (policy : Policy) : State := ⟨QDBusServicePrivate.initPolicy policy, 0, 0⟩

-- The timer is single shot, and `idleSignal` is connected to `unregisterService`.
def step (policy : Policy) (s : State) : Event → Option State
  | .hookCheck =>
    if !policy.isResident && !s.service.m_isLockTimer then some { s with checked := s.checked + 1 } else some s
  | .hookQueue =>
    if s.checked = 0 then none else some { s with checked := s.checked - 1, queued := s.queued + 1 }
  | .restartTimer =>
    if s.queued = 0 then none
    else some { s with
      queued := s.queued - 1
      service := { s.service with toServiceBase := s.service.toServiceBase.restartTimer } }
  | .lockTimer lock => some { s with service := QDBusServicePrivate.lockTimer s.service lock }
  | .timeout dsmUnRegister =>
    if s.service.m_timer.active then do
      let (_, service) ← { s.service with m_timer := s.service.m_timer.stop }.unregisterService dsmUnRegister
      return { s with service := service }
    else none

def Effect (s t : State) : Event → Prop
  | .hookCheck | .hookQueue =>
    t.service.m_isLockTimer = s.service.m_isLockTimer ∧ t.service.m_timer = s.service.m_timer
  | .restartTimer =>
    t.service.m_isLockTimer = s.service.m_isLockTimer ∧ t.service.m_timer = s.service.m_timer.start
  | .lockTimer lock => t.service.m_isLockTimer = lock ∧
      t.service.m_timer = if lock then s.service.m_timer.stop else s.service.m_timer.start
  | .timeout _ => s.service.m_timer.active = true ∧ t.service.m_isLockTimer = s.service.m_isLockTimer ∧
      t.service.m_timer = s.service.m_timer.stop

theorem step_effect {policy : Policy} {s t : State} {e : Event} (h : step policy s e = some t) : Effect s t e := by
  cases e with
  | hookCheck | hookQueue | restartTimer =>
    simp only [step] at h
    split_ifs at h <;> cases h <;> exact ⟨rfl, rfl⟩
  | lockTimer lock =>
    cases h
    cases lock <;> exact ⟨rfl, rfl⟩
  | timeout dsmUnRegister =>
    simp only [step] at h
    split_ifs at h with hactive
    obtain ⟨⟨ok, service⟩, hcall, h⟩ := Option.bind_eq_some_iff.mp h
    have hlock := congrArg ServiceBase.m_isLockTimer (qt_unregisterService_spec hcall).base
    have htimer := congrArg ServiceBase.m_timer (qt_unregisterService_spec hcall).base
    cases h
    cases ok <;> exact ⟨hactive, hlock, htimer⟩

def Quiet (s : State) : Prop := s.service.m_isLockTimer = true → s.service.m_timer.active = false

instance (s : State) : Decidable (Quiet s) := inferInstanceAs (Decidable (_ → _))

def Guarded (s : State) (e : Event) : Prop :=
  e = .restartTimer → s.service.m_isLockTimer = true → s.service.m_timer.interval < 0

theorem step_quiet {policy : Policy} {s t : State} {e : Event} (hquiet : Quiet s) (hguard : Guarded s e)
    (hstep : step policy s e = some t) : Quiet t := by
  have heffect := step_effect hstep
  intro hlock
  cases e with
  | hookCheck | hookQueue =>
    rw [heffect.2]
    exact hquiet (heffect.1 ▸ hlock)
  | restartTimer =>
    rw [heffect.1] at hlock
    have hneg := hguard rfl hlock
    simp only [heffect.2, QTimer.start, decide_eq_false_iff_not]
    omega
  | lockTimer lock =>
    obtain rfl : lock = true := heffect.1.symm.trans hlock
    rw [heffect.2]
    rfl
  | timeout dsmUnRegister =>
    rw [heffect.2.2]
    rfl

theorem step_guarded {policy : Policy} {s t : State} {e : Event} (hstep : step policy s e = some t)
    (hquiet : Quiet t) : Guarded s e := by
  rintro rfl hlock
  have heffect := step_effect hstep
  have hactive := hquiet (heffect.1.trans hlock)
  simp only [heffect.2, QTimer.start, decide_eq_false_iff_not] at hactive
  omega

theorem locked_quiet_iff (policy : Policy) (events : List Event) :
    ((∀ s ∈ visited (step policy) (start policy) events, Quiet s) ∧
      ∀ p ∈ taken (step policy) (start policy) events, ∀ dsmUnRegister, p.2 = .timeout dsmUnRegister →
        p.1.service.m_isLockTimer = false) ↔
      ∀ p ∈ taken (step policy) (start policy) events, Guarded p.1 p.2 := by
  constructor
  · rintro ⟨hquiet, -⟩
    exact taken_guarded (fun _ => True) Quiet Guarded
      (fun _ _ _ _ hstep hquiet => ⟨step_guarded hstep hquiet, trivial⟩) trivial events hquiet
  · intro hguard
    have hstart : Quiet (start policy) := fun h => nomatch h
    have hquiet := visited_invariant Quiet Guarded (fun _ _ _ hs hg hstep => step_quiet hs hg hstep) hstart events
      hguard
    refine ⟨hquiet, fun p hp dsmUnRegister htimeout => ?_⟩
    obtain ⟨hvisited, t, hstep⟩ := mem_taken hp
    rw [htimeout] at hstep
    have hactive := (step_effect hstep).1
    by_contra hlock
    rw [hquiet p.1 hvisited (by simpa using hlock)] at hactive
    cases hactive

def onDemand : Policy := { Policy.new ⟨.QT, 0, 10⟩ with startType := "OnDemand" }

theorem locked_running : ¬ ∀ s ∈ visited (step onDemand) (start onDemand)
    [.hookCheck, .hookQueue, .lockTimer true, .restartTimer], Quiet s := by
  decide

end DeepinServiceManager.LockTimer
