import DeepinServiceManager.IdleTimer

namespace DeepinServiceManager.PluginProtocol

open CheckedLoops TransitionRuns ServiceLifeCycle

/-- What a plugin may expect: `DSMRegister` is called only while it is not registered and `DSMUnRegister` only while
it is, by the results of its own calls. -/
def plugin (registered : Bool) : Call → Option Bool
  | .register ret => if registered then none else some (ret = 0)
  | .unregister ret => if registered then some (ret ≠ 0) else none

def reaches (library : LibraryPtr) (call : ℤ → Call) : EntryPoint → List Call
  | .unresolved => []
  | .returns ret => if library.valid then [call ret] else []

/-- The calls of the plugin's entry points in a step. -/
def libraryCalls (policy : Policy) (s : IdleTimer.State) : IdleTimer.Event → List Call
  | .initThread isLibrary dsmRegister => reaches (library (s.service.openLibrary isLibrary)) .register dsmRegister
  | .message realPath msg dsmRegister =>
    if (IdleTimer.messageCalls policy s.service realPath msg).contains .registerService then
      reaches (library s.service) .register dsmRegister
    else []
  | .timeout dsmUnRegister => reaches (library s.service) .unregister dsmUnRegister
  | .restartTimer | .lockTimer _ => []

structure Tracks (s : IdleTimer.State) (registered : Bool) : Prop where
  backend : backend s.service = .ServiceQtDBus
  isRegister : s.service.isRegister = registered
  unopened : s.initialised = false → registered = false ∧ library s.service = .null

def Timely (s : IdleTimer.State) (e : IdleTimer.Event) : Prop :=
  ∀ ret, e = .timeout (.returns ret) → (library s.service).valid = true → s.service.isRegister = true

variable {policy : Policy} {s t : IdleTimer.State} {e : IdleTimer.Event} {registered : Bool}

theorem register_follows {dsmRegister : EntryPoint} (hfree : s.service.isRegister = false)
    (h : IdleTimer.register s dsmRegister = some t) :
    (reaches (library s.service) .register dsmRegister).foldlM plugin false = some t.service.isRegister ∧
      backend t.service = backend s.service ∧ t.initialised = s.initialised ∧
      library t.service = afterCall (library s.service) dsmRegister := by
  obtain ⟨⟨ok, service⟩, hcall, h⟩ := Option.bind_eq_some_iff.mp h
  obtain ⟨⟨hok, hlibrary, hbase⟩, hbackend⟩ := registerService_spec hcall
  cases h
  refine ⟨?_, hbackend, rfl, hlibrary⟩
  have hflag : service.isRegister = ok := by
    rw [Service.isRegister, hbase]
    cases ok with
    | false => exact hfree
    | true => rfl
  rw [hflag, hok]
  unfold ServiceLifeCycle.succeeds
  cases dsmRegister with
  | unresolved => simp [reaches]
  | returns ret => cases hvalid : (library s.service).valid <;> simp [reaches, hvalid, plugin]

theorem afterCall_null (objFunc : EntryPoint) : afterCall .null objFunc = .null := rfl

theorem initThread_follows {isLibrary : Bool} {dsmRegister : EntryPoint} (hs : Tracks s registered)
    (h : IdleTimer.step .ServiceQtDBus policy s (.initThread isLibrary dsmRegister) = some t) :
    ∃ m, (libraryCalls policy s (.initThread isLibrary dsmRegister)).foldlM plugin registered = some m ∧ Tracks t m := by
  simp only [IdleTimer.step, reduceCtorEq, false_or] at h
  split_ifs at h with hinit
  obtain ⟨hfree, -⟩ := hs.unopened (by simpa using hinit)
  have hflag : (s.service.openLibrary isLibrary).isRegister = false := by
    rw [Service.isRegister, Service.openLibrary_base]
    exact hs.isRegister.trans hfree
  have hbackend : backend (s.service.openLibrary isLibrary) = backend s.service := by
    cases s.service <;> rfl
  obtain ⟨hcalls, hbackend', hinit', -⟩ := register_follows hflag h
  refine ⟨t.service.isRegister, by rw [hfree]; exact hcalls, ?_⟩
  constructor
  · exact hbackend'.trans (hbackend.trans hs.backend)
  · rfl
  · intro hfalse
    rw [hinit'] at hfalse
    cases hfalse

theorem performs_rest {dsmRegister : EntryPoint} {l : List HookCall} (hl : .registerService ∉ l)
    (hqt : backend s.service = .ServiceQtDBus) (h : l.foldlM (IdleTimer.perform dsmRegister) s = some t) :
    t.service = s.service ∧ t.initialised = s.initialised := by
  apply foldlM_preserves (fun u => u.service = s.service ∧ u.initialised = s.initialised) _ ⟨rfl, rfl⟩ h
  rintro call hcall u v ⟨hservice, hinit⟩ hstep
  cases call with
  | registerService => exact absurd hcall hl
  | restartTimer =>
    rw [IdleTimer.perform, hservice] at hstep
    cases hs : s.service with
    | sd service =>
      rw [hs] at hqt
      cases hqt
    | qt service =>
      simp only [hs, Option.some.injEq] at hstep
      subst hstep
      exact ⟨rfl, hinit⟩
  | emptyReply =>
    cases hstep
    exact ⟨hservice, hinit⟩

theorem messageCalls_split (hqt : backend s.service = .ServiceQtDBus) (policy : Policy) (realPath : String)
    (msg : QDBusMessage) : ∃ rest, .registerService ∉ rest ∧
      IdleTimer.messageCalls policy s.service realPath msg =
        (if !s.service.isRegister then [.registerService] else []) ++ rest := by
  cases hs : s.service with
  | sd service =>
    rw [hs] at hqt
    cases hqt
  | qt service =>
    refine ⟨_, ?_, List.append_assoc _ _ _⟩
    simp only [List.mem_append, not_or]
    constructor
    · split_ifs <;> simp
    · split_ifs <;> simp

theorem message_spec {realPath : String} {msg : QDBusMessage} {dsmRegister : EntryPoint}
    (hqt : backend s.service = .ServiceQtDBus)
    (h : IdleTimer.step .ServiceQtDBus policy s (.message realPath msg dsmRegister) = some t) :
    if s.service.isRegister then
      libraryCalls policy s (.message realPath msg dsmRegister) = [] ∧ t.service = s.service ∧
        t.initialised = s.initialised
    else
      libraryCalls policy s (.message realPath msg dsmRegister) = reaches (library s.service) .register dsmRegister ∧
        ∃ u, IdleTimer.register s dsmRegister = some u ∧ t.service = u.service ∧ t.initialised = u.initialised := by
  obtain ⟨rest, hrest, hcalls⟩ := messageCalls_split hqt policy realPath msg
  simp only [IdleTimer.step, hcalls, List.foldlM_append] at h
  obtain ⟨u, hu, h⟩ := Option.bind_eq_some_iff.mp h
  cases hflag : s.service.isRegister with
  | true =>
    simp only [hflag, Bool.not_true, Bool.false_eq_true, if_false, List.nil_append] at hu hcalls
    cases hu
    obtain ⟨hservice, hinit⟩ := performs_rest hrest hqt h
    simp only [libraryCalls, hcalls, List.contains_iff_mem, hrest, if_false, if_true]
    exact ⟨trivial, hservice, hinit⟩
  | false =>
    simp only [hflag, Bool.not_false, if_true, List.singleton_append] at hu hcalls
    rw [List.foldlM_cons] at hu
    obtain ⟨u', hu', hu⟩ := Option.bind_eq_some_iff.mp hu
    cases hu
    have hqt' : backend u.service = .ServiceQtDBus := (register_follows hflag hu').2.1.trans hqt
    obtain ⟨hservice, hinit⟩ := performs_rest hrest hqt' h
    simp only [libraryCalls, hcalls, List.contains_iff_mem, List.mem_cons, true_or, if_true, Bool.false_eq_true,
      if_false]
    exact ⟨trivial, u, hu', hservice, hinit⟩

theorem message_follows {realPath : String} {msg : QDBusMessage} {dsmRegister : EntryPoint} (hs : Tracks s registered)
    (h : IdleTimer.step .ServiceQtDBus policy s (.message realPath msg dsmRegister) = some t) :
    ∃ m, (libraryCalls policy s (.message realPath msg dsmRegister)).foldlM plugin registered = some m ∧
      Tracks t m := by
  have hspec := message_spec hs.backend h
  rw [hs.isRegister] at hspec
  cases registered with
  | true =>
    obtain ⟨hcalls, hservice, hinit⟩ := hspec
    refine ⟨true, by rw [hcalls]; rfl, ?_⟩
    constructor
    · rw [hservice, hs.backend]
    · rw [hservice, hs.isRegister]
    · rw [hinit, hservice]
      exact hs.unopened
  | false =>
    obtain ⟨hcalls, u, hu, hservice, hinit⟩ := hspec
    obtain ⟨hfollows, hbackend, hinit', hlibrary⟩ := register_follows hs.isRegister hu
    refine ⟨u.service.isRegister, by rw [hcalls]; exact hfollows, ?_⟩
    constructor
    · rw [hservice, hbackend, hs.backend]
    · rw [hservice]
    · intro hfalse
      rw [hinit, hinit'] at hfalse
      obtain ⟨-, hnull⟩ := hs.unopened hfalse
      -- a library that is not opened has no entry point to call
      rw [hnull] at hfollows hlibrary
      have hnone : reaches .null .register dsmRegister = [] := by cases dsmRegister <;> rfl
      rw [hnone] at hfollows
      refine ⟨(Option.some.inj hfollows).symm, ?_⟩
      rw [hservice, hlibrary, afterCall_null]

theorem timeout_spec {dsmUnRegister : EntryPoint} (hqt : backend s.service = .ServiceQtDBus)
    (h : IdleTimer.step .ServiceQtDBus policy s (.timeout dsmUnRegister) = some t) :
    s.service.base.m_timer.active = true ∧ t.service.base.m_timer.active = false ∧
      backend t.service = .ServiceQtDBus ∧ t.initialised = s.initialised ∧
      library t.service = afterCall (library s.service) dsmUnRegister ∧
      t.service.isRegister = (!ServiceLifeCycle.succeeds (library s.service) dsmUnRegister && s.service.isRegister) := by
  simp only [IdleTimer.step] at h
  split_ifs at h with hactive
  obtain ⟨⟨ok, service⟩, hcall, h⟩ := Option.bind_eq_some_iff.mp h
  obtain ⟨⟨hok, hlibrary, hbase⟩, hbackend⟩ := unregisterService_spec hcall
  cases h
  cases hs : s.service with
  | sd qt =>
    rw [hs] at hqt
    cases hqt
  | qt qt =>
    rw [hs] at hok hlibrary hbase hbackend
    refine ⟨by rw [← hs]; exact hactive, ?_, hbackend, rfl, hlibrary, ?_⟩
    · simp only [hbase]
      cases ok <;> rfl
    · have hok' : ok = ServiceLifeCycle.succeeds (library (.qt qt)) dsmUnRegister := hok
      simp only [Service.isRegister, hbase, ← hok']
      cases ok <;> rfl

theorem timeout_follows {dsmUnRegister : EntryPoint} (hs : Tracks s registered)
    (h : IdleTimer.step .ServiceQtDBus policy s (.timeout dsmUnRegister) = some t)
    (htimely : Timely s (.timeout dsmUnRegister)) :
    ∃ m, (libraryCalls policy s (.timeout dsmUnRegister)).foldlM plugin registered = some m ∧ Tracks t m := by
  obtain ⟨-, -, hbackend, hinit, hlibrary, hflag⟩ := timeout_spec hs.backend h
  refine ⟨t.service.isRegister, ?_, hbackend, rfl, ?_⟩
  · rw [hflag, hs.isRegister, libraryCalls]
    unfold ServiceLifeCycle.succeeds
    cases dsmUnRegister with
    | unresolved => simp [reaches]
    | returns ret =>
      cases hvalid : (library s.service).valid with
      | false => simp [reaches, hvalid]
      | true =>
        have htrue : registered = true := hs.isRegister.symm.trans (htimely ret rfl hvalid)
        simp [reaches, hvalid, plugin, htrue]
  · intro hfalse
    rw [hinit] at hfalse
    obtain ⟨hfree, hnull⟩ := hs.unopened hfalse
    rw [hflag, hs.isRegister, hfree, Bool.and_false, hlibrary, hnull]
    exact ⟨rfl, afterCall_null _⟩

theorem restartTimer_spec (h : IdleTimer.step .ServiceQtDBus policy s .restartTimer = some t) :
    t.service = s.service.mapBase .restartTimer ∧ t.initialised = s.initialised := by
  simp only [IdleTimer.step] at h
  split_ifs at h
  cases h
  exact ⟨rfl, rfl⟩

theorem mapBase_restartTimer (service : Service) : (service.mapBase .restartTimer).isRegister = service.isRegister ∧
    backend (service.mapBase .restartTimer) = backend service ∧
    library (service.mapBase .restartTimer) = library service := by
  cases service <;> exact ⟨rfl, rfl, rfl⟩

theorem step_follows (hs : Tracks s registered) (h : IdleTimer.step .ServiceQtDBus policy s e = some t)
    (htimely : Timely s e) : ∃ m, (libraryCalls policy s e).foldlM plugin registered = some m ∧ Tracks t m := by
  cases e with
  | initThread isLibrary dsmRegister => exact initThread_follows hs h
  | message realPath msg dsmRegister => exact message_follows hs h
  | restartTimer =>
    obtain ⟨hservice, hinit⟩ := restartTimer_spec h
    obtain ⟨hflag, hbackend, hlibrary⟩ := mapBase_restartTimer s.service
    refine ⟨registered, rfl, ?_⟩
    constructor
    · rw [hservice, hbackend, hs.backend]
    · rw [hservice, hflag, hs.isRegister]
    · rw [hservice, hinit, hlibrary]
      exact hs.unopened
  | lockTimer lock => simp [IdleTimer.step] at h
  | timeout dsmUnRegister => exact timeout_follows hs h htimely

theorem step_timely (hs : Tracks s registered) (haccepted : ((libraryCalls policy s e).foldlM plugin registered).isSome) :
    Timely s e := by
  rintro ret rfl hvalid
  rw [hs.isRegister]
  cases registered with
  | true => rfl
  | false => simp [libraryCalls, reaches, hvalid, plugin] at haccepted

theorem follows (policy : Policy) :
    Follows plugin (libraryCalls policy) (IdleTimer.step .ServiceQtDBus policy) Tracks Timely where
  accepts _ _ _ _ hs h htimely := step_follows hs h htimely
  guarded _ _ _ _ hs _ haccepted := step_timely hs haccepted

theorem start_tracks (policy : Policy) : Tracks (IdleTimer.start .ServiceQtDBus policy) false :=
  ⟨rfl, rfl, fun _ => ⟨rfl, rfl⟩⟩

/-- The idle timer runs only for a registered service. -/
structure Awake (s : IdleTimer.State) : Prop where
  tracks : Tracks s s.service.isRegister
  timer : s.service.base.m_timer.active = true → s.service.isRegister = true

theorem Awake.timely (hs : Awake s) (h : IdleTimer.step .ServiceQtDBus policy s e = some t) : Timely s e := by
  rintro ret rfl -
  exact hs.timer (timeout_spec hs.tracks.backend h).1

def RestartsRegistered (s : IdleTimer.State) (e : IdleTimer.Event) : Prop :=
  e = .restartTimer → s.service.isRegister = true

theorem register_timer {dsmRegister : EntryPoint} (h : IdleTimer.register s dsmRegister = some t) :
    t.service.base.m_timer = s.service.base.m_timer := by
  obtain ⟨⟨ok, service⟩, hcall, h⟩ := Option.bind_eq_some_iff.mp h
  cases h
  exact IdleTimer.registerService_timer hcall

theorem step_timer (hs : Awake s) (hguard : RestartsRegistered s e)
    (h : IdleTimer.step .ServiceQtDBus policy s e = some t) :
    t.service.base.m_timer.active = true → t.service.isRegister = true := by
  intro hactive
  cases e with
  | initThread isLibrary dsmRegister =>
    simp only [IdleTimer.step, reduceCtorEq, false_or] at h
    split_ifs at h with hinit
    rw [register_timer h, Service.openLibrary_base] at hactive
    have hfree := (hs.tracks.unopened (by simpa using hinit)).1
    rw [hs.timer hactive] at hfree
    cases hfree
  | message realPath msg dsmRegister =>
    have hspec := message_spec hs.tracks.backend h
    cases hflag : s.service.isRegister with
    | true =>
      rw [hflag, if_pos rfl] at hspec
      rw [hspec.2.1, hflag]
    | false =>
      rw [hflag] at hspec
      obtain ⟨-, u, hu, hservice, -⟩ := hspec
      rw [hservice, register_timer hu] at hactive
      rw [hs.timer hactive] at hflag
      cases hflag
  | restartTimer =>
    rw [(restartTimer_spec h).1, (mapBase_restartTimer s.service).1]
    exact hguard rfl
  | lockTimer lock => simp [IdleTimer.step] at h
  | timeout dsmUnRegister =>
    rw [(timeout_spec hs.tracks.backend h).2.1] at hactive
    cases hactive

theorem step_awake (hs : Awake s) (hguard : RestartsRegistered s e)
    (h : IdleTimer.step .ServiceQtDBus policy s e = some t) : Awake t := by
  obtain ⟨m, -, htracks⟩ := step_follows hs.tracks h (hs.timely h)
  have hm := htracks.isRegister
  subst hm
  exact ⟨htracks, step_timer hs hguard h⟩

/-- In every run in which `initThread` and each message end before the next event, a plugin of the Qt back end sees
`DSMRegister` only while it is not registered, and it sees `DSMUnRegister` only while it is registered exactly when no
timer that reaches it expires on an unregistered service. That holds when the posted restarts of the timer are all
handled while the service is registered. -/
theorem libraryCalls_protocol (policy : Policy) (events : List IdleTimer.Event) :
    let step := IdleTimer.step .ServiceQtDBus policy
    let start := IdleTimer.start .ServiceQtDBus policy
    (((outputs step (libraryCalls policy) start events).foldlM plugin false).isSome ↔
      ∀ p ∈ taken step start events, Timely p.1 p.2) ∧
    ((∀ p ∈ taken step start events, RestartsRegistered p.1 p.2) →
      ((outputs step (libraryCalls policy) start events).foldlM plugin false).isSome) := by
  intro step start
  have hiff : ((outputs step (libraryCalls policy) start events).foldlM plugin false).isSome ↔
      ∀ p ∈ taken step start events, Timely p.1 p.2 :=
    (follows policy).outputs_accepted_iff events (start_tracks policy)
  refine ⟨hiff, fun hguard => hiff.mpr fun p hp => ?_⟩
  have hstart : Awake start := ⟨start_tracks policy, fun h => nomatch h⟩
  have hawake := visited_invariant Awake RestartsRegistered
    (fun _ _ _ hs hguard h => step_awake hs hguard h) hstart events hguard
  obtain ⟨hvisited, t, ht⟩ := mem_taken hp
  exact (hawake p.1 hvisited).timely ht

def onDemandPolicy : Policy := { Policy.new ⟨.QT, 0, 10⟩ with startType := "OnDemand" }

-- The hook starts the timer also when `DSMRegister` failed.
example : outputs (IdleTimer.step .ServiceQtDBus onDemandPolicy) (libraryCalls onDemandPolicy)
    (IdleTimer.start .ServiceQtDBus onDemandPolicy)
    [.initThread true (.returns 1), .message "/demo" ⟨"/demo", "org.deepin.demo", "Hello"⟩ (.returns 1), .restartTimer,
      .timeout (.returns 0)] = [.register 1, .register 1, .unregister 0] := by decide

end DeepinServiceManager.PluginProtocol
