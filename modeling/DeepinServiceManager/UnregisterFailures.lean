import DeepinServiceManager.HandleOwnership

namespace DeepinServiceManager.UnregisterFailures

open TransitionRuns ServiceLifeCycle

/-- `given` is the handle that the last successful call of `DSMRegister` was given. -/
structure State where
  service : ServiceQtDBus
  given : Option ℕ

/-- A service of a plugin, or the `QDBusServicePrivate` of an application. -/
inductive Origin
  | plugin (isLibrary : Bool)
  | application

inductive Event
  | registerService (dsmRegister : EntryPoint)
  | unregisterService (dsmUnRegister : EntryPoint)
  | deleteLibrary

def start : Origin → State
  | .plugin isLibrary => ⟨(HandleOwnership.start isLibrary).service, none⟩
  | .application => ⟨QDBusServicePrivate.new, none⟩

def step (s : State) : Event → Option State
  | .registerService dsmRegister =>
    (s.service.registerService dsmRegister).map (fun r => ⟨r.2, if r.1 then r.2.dbus else s.given⟩)
  | .unregisterService dsmUnRegister => (s.service.unregisterService dsmUnRegister).map (fun r => ⟨r.2, s.given⟩)
  | .deleteLibrary =>
    if s.service.m_library = .scheduled then some ⟨{ s.service with m_library := .deleted }, s.given⟩ else none

/-- An `unregisterService` of a registered service that returns false has changed nothing. -/
def LeftAlone (s : State) : Event → Prop
  | .unregisterService dsmUnRegister => s.service.m_isRegister = true →
    ∀ service, s.service.unregisterService dsmUnRegister = some (false, service) →
      service.m_isRegister = true ∧ service.dbus = s.given ∧ ∀ handle ∈ s.given, handle ∈ service.handles
  | .registerService _ | .deleteLibrary => True

def PointerAlive (s : State) : Prop :=
  s.service.m_isRegister = true → ∀ handle ∈ s.given, handle ∈ s.service.handles

/-- A registered service that has a library unregisters without failing. -/
def Guarded (s : State) : Event → Prop
  | .unregisterService dsmUnRegister => s.service.m_isRegister = true → s.service.m_library ≠ .null →
    succeeds s.service.m_library dsmUnRegister = true
  | .registerService _ | .deleteLibrary => True

structure Inv (s : State) : Prop where
  fresh : ∀ handle ∈ s.given, handle < s.service.allocated
  opened : s.given ≠ none → s.service.m_library ≠ .null
  bare : s.service.m_isRegister = true → s.given = none → s.service.m_library = .null ∧ s.service.dbus = none

variable {s t : State} {e : Event} {q r : ServiceQtDBus} {objFunc : EntryPoint} {ok : Bool}

theorem afterCall_eq_null (library : LibraryPtr) (objFunc : EntryPoint) :
    afterCall library objFunc = .null ↔ library = .null := by
  rw [afterCall]
  split_ifs with h
  · rw [Bool.and_eq_true] at h
    constructor
    · intro hnull
      cases hnull
    · rintro rfl
      cases h.1
  · rfl

/-- A call that does not reach the plugin's function. -/
structure Fails (q r : ServiceQtDBus) (ok : Bool) : Prop where
  result : ok = false
  dbus : r.dbus = q.dbus
  handles : r.handles = q.handles
  allocated : r.allocated = q.allocated

/-- A call that reaches it: the handle is new, whatever the function then returns. -/
structure Allocates (q r : ServiceQtDBus) : Prop where
  library : q.m_library ≠ .null
  dbus : r.dbus = some q.allocated
  handles : r.handles = q.handles ++ [q.allocated]
  allocated : r.allocated = q.allocated + 1

theorem libFuncCall_cases (h : q.libFuncCall objFunc = some (ok, r)) (base : ServiceBase) :
    Fails q { r with toServiceBase := base } ok ∨ Allocates q { r with toServiceBase := base } := by
  unfold ServiceQtDBus.libFuncCall at h
  split_ifs at h with hnull hvalid
  · cases h
    exact .inl ⟨rfl, rfl, rfl, rfl⟩
  · cases objFunc with
    | unresolved =>
      cases h
      exact .inl ⟨rfl, rfl, rfl, rfl⟩
    | returns ret =>
      cases h
      exact .inr ⟨hnull, rfl, rfl, rfl⟩

theorem registerService_cases (h : q.registerService objFunc = some (ok, r)) : Fails q r ok ∨ Allocates q r := by
  obtain ⟨u, hu, rfl⟩ := result_of_bind (S := ServiceQtDBus)
    (fun u => { u with toServiceBase := u.toServiceBase.registerService }) h
  cases ok with
  | false => exact libFuncCall_cases hu u.toServiceBase
  | true => exact libFuncCall_cases hu u.toServiceBase.registerService

theorem unregisterService_cases (h : q.unregisterService objFunc = some (ok, r)) :
    Fails q.deleteHandle r ok ∨ Allocates q.deleteHandle r := by
  obtain ⟨u, hu, rfl⟩ := result_of_bind (S := ServiceQtDBus)
    (fun u => { u with toServiceBase := u.toServiceBase.unregisterService }) h
  cases ok with
  | false => exact libFuncCall_cases hu u.toServiceBase
  | true => exact libFuncCall_cases hu u.toServiceBase.unregisterService

theorem allocated_le (h : Fails q r ok ∨ Allocates q r) : q.allocated ≤ r.allocated := by
  rcases h with h | h
  · exact h.allocated.ge
  · exact h.allocated ▸ Nat.le_succ _

/-- Without a library a call fails and the handle stays as it was. -/
theorem dbus_of_null (h : Fails q r ok ∨ Allocates q r) (hnull : q.m_library = .null) : r.dbus = q.dbus := by
  rcases h with h | h
  · exact h.dbus
  · exact absurd hnull h.library

theorem registerService_inv (hs : Inv s) (h : s.service.registerService objFunc = some (ok, r)) :
    Inv ⟨r, if ok then r.dbus else s.given⟩ := by
  obtain ⟨-, hlibrary, hbase⟩ := qt_registerService_spec h
  have hcases := registerService_cases h
  cases ok with
  | true =>
    have hallocates := hcases.resolve_left (fun hfails => Bool.noConfusion hfails.result)
    refine ⟨fun handle hhandle => ?_, fun _ hnull => ?_, fun _ hnone => ?_⟩
    · rw [if_pos rfl, hallocates.dbus, Option.mem_some_iff] at hhandle
      rw [hallocates.allocated, ← hhandle]
      exact Nat.lt_succ_self _
    · rw [hlibrary, afterCall_eq_null] at hnull
      exact hallocates.library hnull
    · rw [if_pos rfl, hallocates.dbus] at hnone
      cases hnone
  | false =>
    refine ⟨fun handle hhandle => ?_, fun hgiven hnull => ?_, fun hregistered hnone => ?_⟩
    · exact (hs.fresh handle hhandle).trans_le (allocated_le hcases)
    · rw [hlibrary, afterCall_eq_null] at hnull
      exact hs.opened hgiven hnull
    · rw [hbase] at hregistered
      obtain ⟨hnull, hdbus⟩ := hs.bare hregistered hnone
      exact ⟨hlibrary.trans ((afterCall_eq_null _ _).mpr hnull), (dbus_of_null hcases hnull).trans hdbus⟩

theorem unregisterService_inv (hs : Inv s) (h : s.service.unregisterService objFunc = some (ok, r)) :
    Inv ⟨r, s.given⟩ := by
  obtain ⟨-, hlibrary, hbase⟩ := qt_unregisterService_spec h
  have hcases := unregisterService_cases h
  refine ⟨fun handle hhandle => ?_, fun hgiven hnull => ?_, fun hregistered hnone => ?_⟩
  · have hle := allocated_le hcases
    rw [(deleteHandle_cleared s.service).2] at hle
    exact (hs.fresh handle hhandle).trans_le hle
  · rw [hlibrary, afterCall_eq_null] at hnull
    exact hs.opened hgiven hnull
  · cases ok with
    | true =>
      rw [hbase] at hregistered
      cases hregistered
    | false =>
      rw [hbase] at hregistered
      have hnull := (hs.bare hregistered hnone).1
      refine ⟨hlibrary.trans ((afterCall_eq_null _ _).mpr hnull), ?_⟩
      rw [dbus_of_null hcases ((deleteHandle_frame s.service).1.trans hnull)]
      exact (deleteHandle_cleared s.service).1

theorem step_inv (hs : Inv s) (h : step s e = some t) : Inv t := by
  cases e with
  | registerService dsmRegister =>
    obtain ⟨⟨ok, r⟩, hcall, rfl⟩ := Option.map_eq_some_iff.mp h
    exact registerService_inv hs hcall
  | unregisterService dsmUnRegister =>
    obtain ⟨⟨ok, r⟩, hcall, rfl⟩ := Option.map_eq_some_iff.mp h
    exact unregisterService_inv hs hcall
  | deleteLibrary =>
    rw [step] at h
    split_ifs at h with hscheduled
    cases h
    refine ⟨hs.fresh, fun _ => LibraryPtr.noConfusion, fun hregistered hnone => ?_⟩
    rw [(hs.bare hregistered hnone).1] at hscheduled
    cases hscheduled

theorem handles_subset (h : Fails q r ok ∨ Allocates q r) : q.handles ⊆ r.handles := by
  rcases h with h | h
  · exact h.handles ▸ List.Subset.refl _
  · rw [h.handles]
    exact List.subset_append_left _ _

/-- A guarded call that fails on a registered service finds no library, so no handle was given. -/
theorem given_of_guarded (hs : Inv s) (hguard : Guarded s (.unregisterService objFunc))
    (hregistered : s.service.m_isRegister = true) (h : s.service.unregisterService objFunc = some (false, r)) :
    s.service.m_library = .null ∧ s.given = none := by
  have hfails := (qt_unregisterService_spec h).result
  have hnull : s.service.m_library = .null := by
    by_contra hlibrary
    rw [hguard hregistered hlibrary] at hfails
    cases hfails
  exact ⟨hnull, by_contra fun hgiven => hs.opened hgiven hnull⟩

theorem leftAlone_of_guarded (hs : Inv s) (hguard : Guarded s e) : LeftAlone s e := by
  cases e with
  | registerService dsmRegister => trivial
  | unregisterService dsmUnRegister =>
    intro hregistered r h
    obtain ⟨hnull, hnone⟩ := given_of_guarded hs hguard hregistered h
    have hdbus := dbus_of_null (unregisterService_cases h) ((deleteHandle_frame s.service).1.trans hnull)
    rw [(deleteHandle_cleared s.service).1] at hdbus
    rw [(qt_unregisterService_spec h).base, hnone]
    exact ⟨hregistered, hdbus, fun handle hhandle => nomatch hhandle⟩
  | deleteLibrary => trivial

-- The handle is deleted before the call, so a call that fails leaves none or one that no plugin was given.
theorem guarded_of_leftAlone (hs : Inv s) (h : step s e = some t) (hleft : LeftAlone s e) : Guarded s e := by
  cases e with
  | registerService dsmRegister => trivial
  | unregisterService dsmUnRegister =>
    intro hregistered hlibrary
    obtain ⟨⟨ok, r⟩, hcall, -⟩ := Option.map_eq_some_iff.mp h
    have hok := (qt_unregisterService_spec hcall).result
    cases ok with
    | true => exact hok.symm
    | false =>
      exfalso
      obtain ⟨-, hdbus, -⟩ := hleft hregistered r hcall
      cases hgiven : s.given with
      | none => exact hlibrary (hs.bare hregistered hgiven).1
      | some handle =>
        have hfresh := hs.fresh handle hgiven
        rw [hgiven] at hdbus
        rcases unregisterService_cases hcall with hfails | hallocates
        · rw [hfails.dbus, (deleteHandle_cleared s.service).1] at hdbus
          cases hdbus
        · rw [hallocates.dbus, (deleteHandle_cleared s.service).2] at hdbus
          cases hdbus
          exact lt_irrefl _ hfresh
  | deleteLibrary => trivial

theorem step_alive (hs : Inv s) (halive : PointerAlive s) (hguard : Guarded s e) (h : step s e = some t) :
    PointerAlive t := by
  cases e with
  | registerService dsmRegister =>
    obtain ⟨⟨ok, r⟩, hcall, rfl⟩ := Option.map_eq_some_iff.mp h
    intro hregistered handle hhandle
    have hcases := registerService_cases hcall
    cases ok with
    | true =>
      have hallocates := hcases.resolve_left (fun hfails => Bool.noConfusion hfails.result)
      rw [if_pos rfl, hallocates.dbus, Option.mem_some_iff] at hhandle
      rw [hallocates.handles, ← hhandle]
      exact List.mem_append_right _ List.mem_cons_self
    | false =>
      rw [(qt_registerService_spec hcall).base] at hregistered
      exact handles_subset hcases (halive hregistered handle hhandle)
  | unregisterService dsmUnRegister =>
    obtain ⟨⟨ok, r⟩, hcall, rfl⟩ := Option.map_eq_some_iff.mp h
    intro hregistered handle hhandle
    rw [(qt_unregisterService_spec hcall).base] at hregistered
    cases ok with
    | true => cases hregistered
    | false =>
      rw [(given_of_guarded hs hguard hregistered hcall).2] at hhandle
      cases hhandle
  | deleteLibrary =>
    rw [step] at h
    split_ifs at h
    cases h
    exact halive

theorem start_inv (origin : Origin) : Inv (start origin) ∧ PointerAlive (start origin) := by
  cases origin with
  | plugin isLibrary =>
    exact ⟨⟨fun _ h => (nomatch h), fun h => absurd rfl h, fun h => (nomatch h)⟩, fun h => (nomatch h)⟩
  | application =>
    exact ⟨⟨fun _ h => (nomatch h), fun h => absurd rfl h, fun _ _ => ⟨rfl, rfl⟩⟩, fun _ _ h => (nomatch h)⟩

theorem unregister_failed_iff (origin : Origin) (events : List Event) :
    ((∀ p ∈ taken step (start origin) events, LeftAlone p.1 p.2) ∧
        ∀ s ∈ visited step (start origin) events, PointerAlive s) ↔
      ∀ p ∈ taken step (start origin) events, Guarded p.1 p.2 := by
  have hinv (p : State × Event) (hp : p ∈ taken step (start origin) events) : Inv p.1 := by
    have hreach := Reachable.refl.of_visited (mem_taken hp).1
    exact hreach.invariant Inv (start_inv origin).1 (fun s e t hs h => step_inv hs h)
  constructor
  · rintro ⟨hleft, -⟩ p hp
    obtain ⟨t, ht⟩ := (mem_taken hp).2
    exact guarded_of_leftAlone (hinv p hp) ht (hleft p hp)
  · intro hguard
    refine ⟨fun p hp => leftAlone_of_guarded (hinv p hp) (hguard p hp), fun s hs => ?_⟩
    apply And.right
    apply visited_invariant (fun s => Inv s ∧ PointerAlive s) Guarded _ (start_inv origin) events hguard s hs
    rintro s e t ⟨hs, halive⟩ hg h
    exact ⟨step_inv hs h, step_alive hs halive hg h⟩

/-- The plugin refuses, and its pointer is deleted all the same. -/
theorem unregister_refused :
    (¬ ∀ p ∈ taken step (start (.plugin true)) [.registerService (.returns 0), .unregisterService (.returns 1)],
      LeftAlone p.1 p.2) ∧
    ¬ ∀ s ∈ visited step (start (.plugin true)) [.registerService (.returns 0), .unregisterService (.returns 1)],
      PointerAlive s := by
  constructor
  · intro h
    have hlast := h _ (List.mem_cons_of_mem _ List.mem_cons_self)
    obtain ⟨-, hdbus, -⟩ := hlast rfl _ rfl
    exact absurd hdbus (by decide)
  · intro h
    have hlast := h _ (mem_visited_of_foldlM rfl)
    exact absurd (hlast rfl 0 rfl) (by decide)

end DeepinServiceManager.UnregisterFailures
