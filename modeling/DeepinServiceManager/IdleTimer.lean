import DeepinServiceManager.CheckedLoops
import DeepinServiceManager.DBusHooks
import DeepinServiceManager.ServiceLifeCycle

namespace DeepinServiceManager.IdleTimer

open CheckedLoops TransitionRuns ServiceLifeCycle

/-- `queued` counts the calls of `restartTimer` in the event queue, and `idleSignals` the emissions. -/
structure State where
  service : Service
  initialised : Bool
  queued : ℕ
  idleSignals : ℕ

inductive Event
  | initThread (isLibrary : Bool) (dsmRegister : EntryPoint)
  | message (realPath : String) (msg : QDBusMessage) (dsmRegister : EntryPoint)
  | restartTimer
  | lockTimer (lock : Bool)
  | timeout (dsmUnRegister : EntryPoint)

def start (kind : ServiceKind) (policy : Policy) : State := ⟨(kind.create policy).service, false, 0, 0⟩

def register (s : State) (dsmRegister : EntryPoint) : Option State := do
  let (_, service) ← s.service.registerService dsmRegister
  return { s with service := service }

-- The Qt hooks post the restart to the thread of the service, the sd handler runs in it.
def perform (dsmRegister : EntryPoint) (s : State) : HookCall → Option State
  | .registerService => register s dsmRegister
  | .restartTimer =>
    match s.service with
    | .qt _ => some { s with queued := s.queued + 1 }
    | .sd _ => some { s with service := s.service.mapBase .restartTimer }
  | .emptyReply => some s

def messageCalls (policy : Policy) (service : Service) (realPath : String) (msg : QDBusMessage) : List HookCall :=
  match service with
  | .qt _ => qtCalls ⟨policy, service⟩ realPath msg
  | .sd _ => sd_bus_message_handler (some ⟨policy, service⟩) msg

def lockTimer (s : State) (lock : Bool) : Option State :=
  match s.service with
  | .qt service => some { s with service := .qt (QDBusServicePrivate.lockTimer service lock) }
  | .sd _ => none

/-- `initThread` and a message are one step each: no other event comes between the check of `isRegister` and the
registration behind it. A `QDBusServicePrivate` has no `initThread`, and the other two kinds have no `lockTimer`. -/
def step (kind : ServiceKind) (policy : Policy) (s : State) : Event → Option State
  | .initThread isLibrary dsmRegister =>
    if kind = .QDBusServicePrivate ∨ s.initialised then none
    else register { s with initialised := true, service := s.service.openLibrary isLibrary } dsmRegister
  | .message realPath msg dsmRegister =>
    (messageCalls policy s.service realPath msg).foldlM (perform dsmRegister) s
  | .restartTimer =>
    if s.queued = 0 then none
    else some { s with queued := s.queued - 1, service := s.service.mapBase .restartTimer }
  | .lockTimer lock => if kind = .QDBusServicePrivate then lockTimer s lock else none
  | .timeout dsmUnRegister =>
    if s.service.base.m_timer.active then do
      let stopped := s.service.mapBase (fun base => { base with m_timer := base.m_timer.stop })
      let (_, service) ← stopped.unregisterService dsmUnRegister
      return { s with service := service, idleSignals := s.idleSignals + 1 }
    else none

def Quiet (s : State) : Prop := s.service.base.m_timer.active = false ∧ s.idleSignals = 0

instance (s : State) : Decidable (Quiet s) := inferInstanceAs (Decidable (_ ∧ _))

structure Idle (s : State) : Prop where
  quiet : Quiet s
  queued : s.queued = 0

theorem registerService_timer {s t : Service} {objFunc : EntryPoint} {ok : Bool}
    (h : s.registerService objFunc = some (ok, t)) : t.base.m_timer = s.base.m_timer := by
  rw [(registerService_spec h).1.base]
  cases ok <;> rfl

theorem register_idle {s t : State} {dsmRegister : EntryPoint} (hs : Idle s) (h : register s dsmRegister = some t) :
    Idle t := by
  obtain ⟨⟨ok, service⟩, hcall, h⟩ := Option.bind_eq_some_iff.mp h
  have htimer := registerService_timer hcall
  cases h
  refine ⟨⟨?_, hs.quiet.2⟩, hs.queued⟩
  rw [htimer]
  exact hs.quiet.1

theorem perform_idle {s t : State} {dsmRegister : EntryPoint} {call : HookCall} (hcall : call ≠ .restartTimer)
    (hs : Idle s) (h : perform dsmRegister s call = some t) : Idle t := by
  cases call with
  | registerService => exact register_idle hs h
  | restartTimer => exact absurd rfl hcall
  | emptyReply =>
    cases h
    exact hs

theorem messageCalls_resident {policy : Policy} (hresident : policy.isResident = true) (service : Service)
    (realPath : String) (msg : QDBusMessage) : HookCall.restartTimer ∉ messageCalls policy service realPath msg := by
  intro hmem
  cases service <;> exact absurd (restartTimer_mem.mp hmem).1 (by simp [hresident])

/-- The only event that can start the idle timer of a resident service. -/
def Guarded (s : State) (e : Event) : Prop := e = .lockTimer false → s.service.base.m_timer.interval < 0

theorem step_idle {kind : ServiceKind} {policy : Policy} (hresident : policy.isResident = true) {s t : State}
    {e : Event} (hs : Idle s) (hguard : Guarded s e) (h : step kind policy s e = some t) : Idle t := by
  cases e with
  | initThread isLibrary dsmRegister =>
    simp only [step] at h
    split_ifs at h
    apply register_idle _ h
    refine ⟨⟨?_, hs.quiet.2⟩, hs.queued⟩
    rw [Service.openLibrary_base]
    exact hs.quiet.1
  | message realPath msg dsmRegister =>
    apply foldlM_preserves Idle _ hs h
    intro call hcall u v hu hv
    apply perform_idle _ hu hv
    rintro rfl
    exact messageCalls_resident hresident s.service realPath msg hcall
  | restartTimer => simp [step, hs.queued] at h
  | lockTimer lock =>
    simp only [step] at h
    split_ifs at h
    cases hservice : s.service with
    | sd service => simp [lockTimer, hservice] at h
    | qt service =>
      simp only [lockTimer, hservice, Option.some.injEq] at h
      subst h
      refine ⟨⟨?_, hs.quiet.2⟩, hs.queued⟩
      cases lock with
      | true => rfl
      | false =>
        have hneg := hguard rfl
        rw [hservice] at hneg
        simpa [Service.base, QDBusServicePrivate.lockTimer, QTimer.start] using hneg
  | timeout dsmUnRegister => simp [step, hs.quiet.1] at h

theorem step_guarded {kind : ServiceKind} {policy : Policy} {s t : State} {e : Event}
    (h : step kind policy s e = some t) (hquiet : Quiet t) : Guarded s e := by
  rintro rfl
  simp only [step] at h
  split_ifs at h
  cases hservice : s.service with
  | sd service => simp [lockTimer, hservice] at h
  | qt service =>
    simp only [lockTimer, hservice, Option.some.injEq] at h
    subst h
    simpa [Quiet, Service.base, QDBusServicePrivate.lockTimer, QTimer.start] using hquiet.1

theorem start_idle (kind : ServiceKind) (policy : Policy) : Idle (start kind policy) := by
  cases kind <;> exact ⟨⟨rfl, rfl⟩, rfl⟩

theorem resident_quiet_iff (kind : ServiceKind) (policy : Policy) (hresident : policy.isResident = true)
    (events : List Event) : (∀ s ∈ visited (step kind policy) (start kind policy) events, Quiet s) ↔
      ∀ p ∈ taken (step kind policy) (start kind policy) events, Guarded p.1 p.2 := by
  constructor
  · exact taken_guarded (fun _ => True) Quiet Guarded (fun _ _ _ _ h hquiet => ⟨step_guarded h hquiet, trivial⟩)
      trivial events
  · intro hguard s hs
    exact (visited_invariant Idle Guarded (fun _ _ _ hs hguard h => step_idle hresident hs hguard h)
      (start_idle kind policy) events hguard s hs).quiet

def residentPolicy : Policy := { Policy.new ⟨.QT, 0, 10⟩ with startType := "Resident" }

theorem resident_quiet_iff_sample : residentPolicy.isResident = true ∧
    ((∀ s ∈ visited (step .QDBusServicePrivate residentPolicy) (start .QDBusServicePrivate residentPolicy)
      [.lockTimer true], Quiet s) ↔
      ∀ p ∈ taken (step .QDBusServicePrivate residentPolicy) (start .QDBusServicePrivate residentPolicy)
        [.lockTimer true], Guarded p.1 p.2) :=
  ⟨by decide, resident_quiet_iff .QDBusServicePrivate residentPolicy (by decide) [.lockTimer true]⟩

theorem unlocked_resident_running : residentPolicy.isResident = true ∧
    ¬ ∀ s ∈ visited (step .QDBusServicePrivate residentPolicy) (start .QDBusServicePrivate residentPolicy)
      [.lockTimer true, .lockTimer false], Quiet s := by
  decide

end DeepinServiceManager.IdleTimer
