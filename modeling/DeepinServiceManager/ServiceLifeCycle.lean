import DeepinServiceManager.Services
import DeepinServiceManager.TransitionRuns

namespace DeepinServiceManager.ServiceLifeCycle

open TransitionRuns

def succeeds (library : LibraryPtr) (objFunc : EntryPoint) : Bool := library.valid && objFunc = .returns 0

def afterCall (library : LibraryPtr) (objFunc : EntryPoint) : LibraryPtr :=
  if library.valid && objFunc = .unresolved then .scheduled else library

theorem qt_libFuncCall_spec {s t : ServiceQtDBus} {objFunc : EntryPoint} {ok : Bool}
    (h : s.libFuncCall objFunc = some (ok, t)) : ok = succeeds s.m_library objFunc ∧
      t.m_library = afterCall s.m_library objFunc ∧ t.toServiceBase = s.toServiceBase := by
  unfold ServiceQtDBus.libFuncCall at h
  split_ifs at h with hnull hvalid
  · cases h
    simp [succeeds, afterCall, LibraryPtr.valid, hnull]
  · cases objFunc with
    | unresolved => cases h; simp [succeeds, afterCall, hvalid]
    | returns ret => cases h; simp [succeeds, afterCall, hvalid]

theorem sd_libFuncCall_spec {s t : ServiceSDBus} {objFunc : EntryPoint} {ok : Bool}
    (h : s.libFuncCall objFunc = some (ok, t)) : ok = succeeds s.m_library objFunc ∧
      t.m_library = afterCall s.m_library objFunc ∧ t.toServiceBase = s.toServiceBase := by
  unfold ServiceSDBus.libFuncCall at h
  split_ifs at h with hnull hvalid
  · cases h
    simp [succeeds, afterCall, LibraryPtr.valid, hnull]
  · cases objFunc with
    | unresolved => cases h; simp [succeeds, afterCall, hvalid]
    | returns ret => cases h; simp [succeeds, afterCall, hvalid]

theorem deleteHandle_frame (s : ServiceQtDBus) :
    s.deleteHandle.m_library = s.m_library ∧ s.deleteHandle.toServiceBase = s.toServiceBase := by
  unfold ServiceQtDBus.deleteHandle
  cases s.dbus <;> exact ⟨rfl, rfl⟩

theorem deleteHandle_cleared (s : ServiceQtDBus) :
    s.deleteHandle.dbus = none ∧ s.deleteHandle.allocated = s.allocated := by
  unfold ServiceQtDBus.deleteHandle
  cases hdbus : s.dbus with
  | none => exact ⟨hdbus, rfl⟩
  | some handle => exact ⟨rfl, rfl⟩

/-- What a call of `registerService` or `unregisterService` does: `onSuccess` to the members of the base class
when the entry point succeeds, nothing to them otherwise. -/
structure Calls (library : LibraryPtr) (before : ServiceBase) (onSuccess : ServiceBase → ServiceBase)
    (objFunc : EntryPoint) (ok : Bool) (library' : LibraryPtr) (after : ServiceBase) : Prop where
  result : ok = succeeds library objFunc
  library : library' = afterCall library objFunc
  base : after = if ok then onSuccess before else before

theorem result_of_bind {S : Type} (update : S → S) {call : Option (Bool × S)} {ok : Bool} {t : S} (h : (do
    let (ok, u) ← call
    if ok then return (true, update u) else return (false, u)) = some (ok, t)) :
    ∃ u, call = some (ok, u) ∧ t = if ok then update u else u := by
  obtain ⟨⟨ok', u⟩, hu, h⟩ := Option.bind_eq_some_iff.mp h
  cases ok' with
  | false =>
    cases h
    exact ⟨_, hu, rfl⟩
  | true =>
    cases h
    exact ⟨_, hu, rfl⟩

theorem calls_of_bind {S : Type} (libraryOf : S → LibraryPtr) (baseOf : S → ServiceBase) (update : S → S)
    {call : Option (Bool × S)} {library : LibraryPtr} {before : ServiceBase}
    {onSuccess : ServiceBase → ServiceBase} {objFunc : EntryPoint}
    (hcall : ∀ {ok u}, call = some (ok, u) →
      ok = succeeds library objFunc ∧ libraryOf u = afterCall library objFunc ∧ baseOf u = before)
    (hupdate : ∀ u, libraryOf (update u) = libraryOf u ∧ baseOf (update u) = onSuccess (baseOf u))
    {ok : Bool} {t : S} (h : (do
      let (ok, u) ← call
      if ok then return (true, update u) else return (false, u)) = some (ok, t)) :
    Calls library before onSuccess objFunc ok (libraryOf t) (baseOf t) := by
  obtain ⟨u, hu, rfl⟩ := result_of_bind update h
  obtain ⟨hok, hlibrary, hbase⟩ := hcall hu
  cases ok with
  | false => exact ⟨hok, hlibrary, hbase⟩
  | true =>
    refine ⟨hok, (hupdate u).1.trans hlibrary, ?_⟩
    rw [if_pos rfl, (hupdate u).2, hbase]
    rfl

theorem qt_registerService_spec {s t : ServiceQtDBus} {objFunc : EntryPoint} {ok : Bool}
    (h : s.registerService objFunc = some (ok, t)) :
    Calls s.m_library s.toServiceBase .registerService objFunc ok t.m_library t.toServiceBase := by
  apply calls_of_bind ServiceQtDBus.m_library ServiceQtDBus.toServiceBase
    (fun u => { u with toServiceBase := u.toServiceBase.registerService }) _ _ h
  · exact qt_libFuncCall_spec
  · exact fun _ => ⟨rfl, rfl⟩

theorem qt_unregisterService_spec {s t : ServiceQtDBus} {objFunc : EntryPoint} {ok : Bool}
    (h : s.unregisterService objFunc = some (ok, t)) :
    Calls s.m_library s.toServiceBase .unregisterService objFunc ok t.m_library t.toServiceBase := by
  rw [← (deleteHandle_frame s).1, ← (deleteHandle_frame s).2]
  apply calls_of_bind ServiceQtDBus.m_library ServiceQtDBus.toServiceBase
    (fun u => { u with toServiceBase := u.toServiceBase.unregisterService }) _ _ h
  · exact qt_libFuncCall_spec
  · exact fun _ => ⟨rfl, rfl⟩

theorem sd_registerService_spec {s t : ServiceSDBus} {objFunc : EntryPoint} {ok : Bool}
    (h : s.registerService objFunc = some (ok, t)) :
    Calls s.m_library s.toServiceBase .registerService objFunc ok t.m_library t.toServiceBase := by
  apply calls_of_bind ServiceSDBus.m_library ServiceSDBus.toServiceBase
    (fun u => { u with toServiceBase := u.toServiceBase.registerService }) _ _ h
  · exact sd_libFuncCall_spec
  · exact fun _ => ⟨rfl, rfl⟩

/-- The `sd` back end registers again where it should unregister. -/
theorem sd_unregisterService_eq (s : ServiceSDBus) (objFunc : EntryPoint) :
    s.unregisterService objFunc = s.registerService objFunc := rfl

variable {s : Service} {objFunc : EntryPoint} {ok : Bool}

def library : Service → LibraryPtr
  | .qt s => s.m_library
  | .sd s => s.m_library

def backend : Service → Backend
  | .qt _ => .ServiceQtDBus
  | .sd _ => .ServiceSDBus

theorem registerService_spec {t : Service} (h : s.registerService objFunc = some (ok, t)) :
    Calls (library s) s.base .registerService objFunc ok (library t) t.base ∧ backend t = backend s := by
  cases s with
  | qt s =>
    obtain ⟨⟨ok', u⟩, hcall, h⟩ := Option.map_eq_some_iff.mp h
    cases h
    exact ⟨qt_registerService_spec hcall, rfl⟩
  | sd s =>
    obtain ⟨⟨ok', u⟩, hcall, h⟩ := Option.map_eq_some_iff.mp h
    cases h
    exact ⟨sd_registerService_spec hcall, rfl⟩

def onUnregister : Backend → ServiceBase → ServiceBase
  | .ServiceQtDBus => .unregisterService
  | .ServiceSDBus => .registerService

theorem unregisterService_spec {t : Service} (h : s.unregisterService objFunc = some (ok, t)) :
    Calls (library s) s.base (onUnregister (backend s)) objFunc ok (library t) t.base ∧ backend t = backend s := by
  cases s with
  | qt s =>
    obtain ⟨⟨ok', u⟩, hcall, h⟩ := Option.map_eq_some_iff.mp h
    cases h
    exact ⟨qt_unregisterService_spec hcall, rfl⟩
  | sd s =>
    obtain ⟨⟨ok', u⟩, hcall, h⟩ := Option.map_eq_some_iff.mp h
    rw [sd_unregisterService_eq] at hcall
    cases h
    exact ⟨sd_registerService_spec hcall, rfl⟩

theorem qt_libFuncCall_live {s : ServiceQtDBus} (hlive : s.m_library = .live) (objFunc : EntryPoint) :
    ∃ ok t, s.libFuncCall objFunc = some (ok, t) := by
  simp only [ServiceQtDBus.libFuncCall, hlive, LibraryPtr.valid, reduceCtorEq, if_false, if_true]
  cases objFunc <;> exact ⟨_, _, rfl⟩

theorem sd_libFuncCall_live {s : ServiceSDBus} (hlive : s.m_library = .live) (objFunc : EntryPoint) :
    ∃ ok t, s.libFuncCall objFunc = some (ok, t) := by
  simp only [ServiceSDBus.libFuncCall, hlive, LibraryPtr.valid, reduceCtorEq, if_false, if_true]
  cases objFunc <;> exact ⟨_, _, rfl⟩

theorem registerService_live (hlive : library s = .live) (objFunc : EntryPoint) :
    ∃ ok t, s.registerService objFunc = some (ok, t) := by
  cases s with
  | qt s =>
    obtain ⟨ok, t, hcall⟩ := qt_libFuncCall_live hlive objFunc
    rw [Service.registerService, ServiceQtDBus.registerService, hcall]
    cases ok <;> exact ⟨_, _, rfl⟩
  | sd s =>
    obtain ⟨ok, t, hcall⟩ := sd_libFuncCall_live hlive objFunc
    rw [Service.registerService, ServiceSDBus.registerService, hcall]
    cases ok <;> exact ⟨_, _, rfl⟩

theorem unregisterService_live (hlive : library s = .live) (objFunc : EntryPoint) :
    ∃ ok t, s.unregisterService objFunc = some (ok, t) := by
  cases s with
  | qt s =>
    obtain ⟨ok, t, hcall⟩ := qt_libFuncCall_live ((deleteHandle_frame s).1.trans hlive) objFunc
    rw [Service.unregisterService, ServiceQtDBus.unregisterService, hcall]
    cases ok <;> exact ⟨_, _, rfl⟩
  | sd s => exact registerService_live (s := .sd s) hlive objFunc

inductive Call
  | register (ret : ℤ)
  | unregister (ret : ℤ)
  deriving DecidableEq

/-- A service, and whether the last of its calls that returned true was `registerService`. -/
structure Tracked where
  service : Service
  registered : Bool

def applyCall (t : Tracked) : Call → Option Tracked
  | .register ret => do
    let (ok, service) ← t.service.registerService (.returns ret)
    return ⟨service, if ok then true else t.registered⟩
  | .unregister ret => do
    let (ok, service) ← t.service.unregisterService (.returns ret)
    return ⟨service, if ok then false else t.registered⟩

def loadedService : Backend → Service
  | .ServiceQtDBus => .qt { ServiceQtDBus.new with m_library := .live }
  | .ServiceSDBus => .sd { ServiceSDBus.new with m_library := .live }

def Tracked.Tracks (t : Tracked) : Prop :=
  t.service.isRegister = t.registered ∧ t.service.hookRegisters = !t.registered

instance (t : Tracked) : Decidable t.Tracks := inferInstanceAs (Decidable (_ ∧ _))

def Effect (b : Backend) (t u : Tracked) : Call → Prop
  | .register ret => u.service.isRegister = (decide (ret = 0) || t.service.isRegister) ∧
      u.registered = (decide (ret = 0) || t.registered)
  | .unregister ret => u.service.isRegister = (if ret = 0 then decide (b = .ServiceSDBus) else t.service.isRegister) ∧
      u.registered = (decide (ret ≠ 0) && t.registered)

theorem applyCall_live {t : Tracked} (hlive : library t.service = .live) (call : Call) :
    ∃ u, applyCall t call = some u ∧ library u.service = .live ∧ backend u.service = backend t.service ∧
      Effect (backend t.service) t u call := by
  cases call with
  | register ret =>
    obtain ⟨ok, service, hcall⟩ := registerService_live hlive (.returns ret)
    obtain ⟨⟨hok, hlibrary, hbase⟩, hbackend⟩ := registerService_spec hcall
    refine ⟨⟨service, if ok then true else t.registered⟩, by rw [applyCall, hcall]; rfl, ?_, hbackend, ?_⟩
    · simp [hlibrary, afterCall, hlive]
    · simp only [Effect, Service.isRegister, hbase, hok, succeeds, hlive, LibraryPtr.valid, Bool.true_and,
        EntryPoint.returns.injEq]
      by_cases hret : ret = 0 <;> simp [hret, ServiceBase.registerService]
  | unregister ret =>
    obtain ⟨ok, service, hcall⟩ := unregisterService_live hlive (.returns ret)
    obtain ⟨⟨hok, hlibrary, hbase⟩, hbackend⟩ := unregisterService_spec hcall
    refine ⟨⟨service, if ok then false else t.registered⟩, by rw [applyCall, hcall]; rfl, ?_, hbackend, ?_⟩
    · simp [hlibrary, afterCall, hlive]
    · simp only [Effect, Service.isRegister, hbase, hok, succeeds, hlive, LibraryPtr.valid, Bool.true_and,
        EntryPoint.returns.injEq]
      by_cases hret : ret = 0
      · cases backend t.service <;>
          simp [hret, onUnregister, ServiceBase.registerService, ServiceBase.unregisterService]
      · simp [hret]

structure Live (b : Backend) (t : Tracked) : Prop where
  library : library t.service = .live
  backend : backend t.service = b

theorem loadedService_live (b : Backend) : Live b ⟨loadedService b, false⟩ := by
  cases b <;> exact ⟨rfl, rfl⟩

variable {b : Backend} {t u : Tracked} {call : Call}

theorem step_live (hlive : Live b t) (hstep : applyCall t call = some u) : Live b u ∧ Effect b t u call := by
  obtain ⟨u', hstep', hlibrary, hbackend, heffect⟩ := applyCall_live hlive.library call
  obtain rfl : u = u' := Option.some.inj (hstep.symm.trans hstep')
  rw [hlive.backend] at hbackend heffect
  exact ⟨⟨hlibrary, hbackend⟩, heffect⟩

def Guarded (b : Backend) (call : Call) : Prop := b = .ServiceQtDBus ∨ call ≠ .unregister 0

theorem step_tracks (hlive : Live b t) (htracks : t.Tracks) (hguard : Guarded b call)
    (hstep : applyCall t call = some u) : u.Tracks := by
  have heffect := (step_live hlive hstep).2
  have hflag : u.service.isRegister = u.registered := by
    cases call with
    | register ret => rw [heffect.1, heffect.2, htracks.1]
    | unregister ret =>
      rw [heffect.1, heffect.2, htracks.1]
      by_cases hret : ret = 0
      · subst hret
        rcases hguard with rfl | hne
        · simp
        · exact absurd rfl hne
      · simp [hret]
  exact ⟨hflag, by rw [Service.hookRegisters, hflag]⟩

theorem step_guarded (hlive : Live b t) (hstep : applyCall t call = some u) (htracks : u.Tracks) :
    Guarded b call := by
  have heffect := (step_live hlive hstep).2
  cases b with
  | ServiceQtDBus => exact .inl rfl
  | ServiceSDBus =>
    right
    rintro rfl
    have hflag := htracks.1
    rw [heffect.1, heffect.2] at hflag
    cases hflag

theorem guarded_calls {calls : List Call} :
    (∀ call ∈ calls, Guarded b call) ↔ b = .ServiceQtDBus ∨ Call.unregister 0 ∉ calls := by
  constructor
  · intro h
    by_cases hb : b = .ServiceQtDBus
    · exact .inl hb
    · right
      intro hmem
      exact (h _ hmem).elim hb (fun hne => hne rfl)
  · rintro (hb | hnot) call hcall
    · exact .inl hb
    · right
      rintro rfl
      exact hnot hcall

theorem isRegister_tracks_iff (b : Backend) (calls : List Call) :
    (taken applyCall ⟨loadedService b, false⟩ calls).map Prod.snd = calls ∧
      ((∀ t ∈ visited applyCall ⟨loadedService b, false⟩ calls, t.Tracks) ↔
        b = .ServiceQtDBus ∨ Call.unregister 0 ∉ calls) := by
  have hlive := loadedService_live b
  have htracks : (⟨loadedService b, false⟩ : Tracked).Tracks := by cases b <;> exact ⟨rfl, rfl⟩
  have htaken : (taken applyCall ⟨loadedService b, false⟩ calls).map Prod.snd = calls := by
    apply taken_all (fun t : Tracked => library t.service = .live) _ hlive.library
    intro t call hlibrary
    obtain ⟨u, hstep, hlibrary', -⟩ := applyCall_live hlibrary call
    exact ⟨u, hstep, hlibrary'⟩
  have hguarded : (∀ p ∈ taken applyCall ⟨loadedService b, false⟩ calls, Guarded b p.2) ↔
      ∀ call ∈ calls, Guarded b call := by
    conv_rhs => rw [← htaken, List.forall_mem_map]
  refine ⟨htaken, ?_⟩
  rw [← guarded_calls, ← hguarded]
  constructor
  · apply taken_guarded (Live b) Tracked.Tracks (fun _ call => Guarded b call) _ hlive
    intro t call u hlive hstep htracks
    exact ⟨step_guarded hlive hstep htracks, (step_live hlive hstep).1⟩
  · intro hguard t ht
    refine (visited_invariant (fun t => Live b t ∧ t.Tracks) (fun _ call => Guarded b call) ?_ ⟨hlive, htracks⟩ calls
      hguard t ht).2
    intro t call u h hguard hstep
    exact ⟨(step_live h.1 hstep).1, step_tracks h.1 h.2 hguard hstep⟩

theorem sd_not_tracked : ¬ ∀ t ∈ visited applyCall ⟨loadedService .ServiceSDBus, false⟩ [.register 0, .unregister 0],
    t.Tracks := by
  decide

end DeepinServiceManager.ServiceLifeCycle
