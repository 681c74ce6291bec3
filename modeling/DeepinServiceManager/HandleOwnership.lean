import DeepinServiceManager.ServiceLifeCycle

namespace DeepinServiceManager.HandleOwnership

open TransitionRuns

/-- `unregistered` holds right after an `unregisterService` that returned true. -/
structure State where
  service : ServiceQtDBus
  unregistered : Bool

inductive Call
  | registerService (dsmRegister : EntryPoint)
  | unregisterService (dsmUnRegister : EntryPoint)

def start (isLibrary : Bool) : State :=
  ⟨{ ServiceQtDBus.new with m_library := if isLibrary then .live else .null }, false⟩

def step (s : State) : Call → Option State
  | .registerService dsmRegister => (s.service.registerService dsmRegister).map (fun r => ⟨r.2, false⟩)
  | .unregisterService dsmUnRegister => (s.service.unregisterService dsmUnRegister).map (fun r => ⟨r.2, r.1⟩)

def entryPoint : Call → EntryPoint
  | .registerService objFunc | .unregisterService objFunc => objFunc

def unregisters : Call → Bool
  | .registerService _ => false
  | .unregisterService _ => true

/-- The call gets as far as the plugin's function. -/
def Reaches (s : State) (c : Call) : Prop := s.service.m_library ≠ .null ∧ entryPoint c ≠ .unresolved

instance (s : State) (c : Call) : Decidable (Reaches s c) := inferInstanceAs (Decidable (_ ∧ _))

structure Sound (s : State) : Prop where
  one : s.service.handles.length ≤ 1
  owned : ∀ handle ∈ s.service.handles, s.service.dbus = some handle
  released : s.unregistered = true → s.service.dbus = none ∧ s.service.handles = []

/-- A `registerService` finds no handle of an earlier call, and no `unregisterService` succeeds. -/
def Guarded (s : State) : Call → Prop
  | .registerService objFunc => Reaches s (.registerService objFunc) → s.service.dbus = none
  | .unregisterService objFunc => ¬ (Reaches s (.unregisterService objFunc) ∧ objFunc = .returns 0)

def Usable (s : State) : Prop := s.service.m_library = .null ∨ s.service.m_library.valid = true

structure Inv (s : State) : Prop where
  handles : s.service.handles = s.service.dbus.toList
  released : s.unregistered = true → s.service.dbus = none

variable {s t : State} {c : Call}

/-- What the service owns when a call allocates its handle. -/
def kept (s : State) : Call → ServiceQtDBus
  | .registerService _ => s.service
  | .unregisterService _ => s.service.deleteHandle

theorem kept_m_library (s : State) (c : Call) : (kept s c).m_library = s.service.m_library := by
  cases c with
  | registerService objFunc => rfl
  | unregisterService objFunc => exact (ServiceLifeCycle.deleteHandle_frame s.service).1

theorem libFuncCall_spec (s : ServiceQtDBus) (objFunc : EntryPoint)
    (h : s.m_library = .null ∨ s.m_library.valid = true) :
    ∃ ok s', s.libFuncCall objFunc = some (ok, s') ∧ (s'.m_library = .null ∨ s'.m_library.valid = true) ∧
      (s.m_library ≠ .null ∧ objFunc ≠ .unresolved → s'.dbus = some s.allocated ∧
        s'.handles = s.handles ++ [s.allocated] ∧ (ok = true ↔ objFunc = .returns 0)) ∧
      (¬ (s.m_library ≠ .null ∧ objFunc ≠ .unresolved) → s'.dbus = s.dbus ∧ s'.handles = s.handles ∧ ok = false) := by
  by_cases hnull : s.m_library = .null
  · have hcall : s.libFuncCall objFunc = some (false, s) := by simp [ServiceQtDBus.libFuncCall, hnull]
    exact ⟨false, s, hcall, .inl hnull, fun hreach => absurd hnull hreach.1, fun _ => ⟨rfl, rfl, rfl⟩⟩
  · have hvalid := h.resolve_left hnull
    simp only [ServiceQtDBus.libFuncCall, if_neg hnull, if_pos hvalid]
    cases objFunc with
    | unresolved => exact ⟨_, _, rfl, .inr rfl, fun hreach => absurd rfl hreach.2, fun _ => ⟨rfl, rfl, rfl⟩⟩
    | returns ret =>
      refine ⟨_, _, rfl, .inr hvalid, fun _ => ⟨rfl, rfl, by simp⟩, fun hnot => ?_⟩
      exact absurd ⟨hnull, EntryPoint.noConfusion⟩ hnot

theorem step_eq {ok : Bool} {s' : ServiceQtDBus} (h : (kept s c).libFuncCall (entryPoint c) = some (ok, s')) :
    ∃ base, step s c = some ⟨{ s' with toServiceBase := base }, unregisters c && ok⟩ := by
  cases c with
  | registerService objFunc =>
    simp only [kept, entryPoint] at h
    cases ok <;> exact ⟨_, by simp only [step, ServiceQtDBus.registerService, h]; rfl⟩
  | unregisterService objFunc =>
    simp only [kept, entryPoint] at h
    cases ok <;> exact ⟨_, by simp only [step, ServiceQtDBus.unregisterService, h]; rfl⟩

/-- What one call can do to the handles. -/
theorem step_spec (hs : Usable s) (c : Call) : ∃ t, step s c = some t ∧ Usable t ∧
    (Reaches s c → t.service.dbus = some (kept s c).allocated ∧
      t.service.handles = (kept s c).handles ++ [(kept s c).allocated] ∧
        (t.unregistered = true ↔ c = .unregisterService (.returns 0))) ∧
    (¬ Reaches s c → t.service.dbus = (kept s c).dbus ∧ t.service.handles = (kept s c).handles ∧
      t.unregistered = false) := by
  have husable : (kept s c).m_library = .null ∨ (kept s c).m_library.valid = true := by
    rw [kept_m_library]
    exact hs
  obtain ⟨ok, s', hcall, hlibrary, hreach, hnot⟩ := libFuncCall_spec (kept s c) (entryPoint c) husable
  rw [kept_m_library] at hreach hnot
  obtain ⟨base, hstep⟩ := step_eq hcall
  refine ⟨_, hstep, hlibrary, fun h => ?_, fun h => ?_⟩
  · obtain ⟨hdbus, hhandles, hok⟩ := hreach h
    refine ⟨hdbus, hhandles, ?_⟩
    rw [Bool.and_eq_true, hok]
    cases c <;> simp [unregisters, entryPoint]
  · obtain ⟨hdbus, hhandles, hok⟩ := hnot h
    exact ⟨hdbus, hhandles, by rw [hok, Bool.and_false]⟩

theorem step_usable (hs : Usable s) (h : step s c = some t) : Usable t := by
  obtain ⟨t', ht, husable, -⟩ := step_spec hs c
  rw [h] at ht
  cases ht
  exact husable

theorem Inv.sound (hs : Inv s) : Sound s := by
  constructor
  · rw [hs.handles]
    cases s.service.dbus <;> simp
  · intro handle hhandle
    rw [hs.handles] at hhandle
    exact Option.mem_toList.mp hhandle
  · intro hunregistered
    have hdbus := hs.released hunregistered
    exact ⟨hdbus, by rw [hs.handles, hdbus]; rfl⟩

-- `unregisterService` deletes the handle before the call, whatever the call then returns.
theorem Inv.kept_handles (hs : Inv s) (c : Call) : (kept s c).handles = (kept s c).dbus.toList := by
  cases c with
  | registerService objFunc => exact hs.handles
  | unregisterService objFunc =>
    rw [kept, ServiceQtDBus.deleteHandle]
    cases hdbus : s.service.dbus with
    | none => simp only [hs.handles]
    | some handle => simp [hs.handles, hdbus]

theorem kept_unregister (s : State) (objFunc : EntryPoint) : (kept s (.unregisterService objFunc)).dbus = none :=
  (ServiceLifeCycle.deleteHandle_cleared s.service).1

theorem guarded_iff (s : State) (c : Call) : Guarded s c ↔
    (Reaches s c → (kept s c).dbus = none ∧ c ≠ .unregisterService (.returns 0)) := by
  cases c with
  | registerService objFunc => simp [Guarded, kept]
  | unregisterService objFunc => simp [Guarded, kept_unregister]

theorem step_inv (hs : Inv s) (husable : Usable s) (hguard : Guarded s c) (h : step s c = some t) : Inv t := by
  obtain ⟨t', ht, -, hreach, hnot⟩ := step_spec husable c
  rw [h] at ht
  cases ht
  by_cases hreaches : Reaches s c
  · obtain ⟨hdbus, hhandles, hunregistered⟩ := hreach hreaches
    obtain ⟨hnone, hfails⟩ := (guarded_iff s c).mp hguard hreaches
    constructor
    · rw [hhandles, hs.kept_handles, hnone, hdbus]
      rfl
    · exact fun htrue => absurd (hunregistered.mp htrue) hfails
  · obtain ⟨hdbus, hhandles, hunregistered⟩ := hnot hreaches
    constructor
    · rw [hhandles, hs.kept_handles, hdbus]
    · intro htrue
      rw [hunregistered] at htrue
      cases htrue

theorem step_guarded (hs : Inv s) (husable : Usable s) (h : step s c = some t) (ht : Sound t) : Guarded s c := by
  obtain ⟨t', ht', -, hreach, -⟩ := step_spec husable c
  rw [h] at ht'
  cases ht'
  rw [guarded_iff]
  intro hreaches
  obtain ⟨hdbus, hhandles, hunregistered⟩ := hreach hreaches
  constructor
  · have hone := ht.one
    rw [hhandles, hs.kept_handles, List.length_append] at hone
    cases hkept : (kept s c).dbus with
    | none => rfl
    | some handle => simp [hkept] at hone
  · intro hfree
    rw [(ht.released (hunregistered.mpr hfree)).1] at hdbus
    cases hdbus

theorem start_inv (isLibrary : Bool) : Inv (start isLibrary) ∧ Usable (start isLibrary) := by
  refine ⟨⟨rfl, fun h => nomatch h⟩, ?_⟩
  cases isLibrary
  · exact .inl rfl
  · exact .inr rfl

theorem handles_sound_iff (isLibrary : Bool) (calls : List Call) :
    (taken step (start isLibrary) calls).map Prod.snd = calls ∧
      ((∀ s ∈ visited step (start isLibrary) calls, Sound s) ↔
        ∀ p ∈ taken step (start isLibrary) calls, Guarded p.1 p.2) := by
  have hnext (s : State) (c : Call) (hs : Usable s) : ∃ t, step s c = some t ∧ Usable t := by
    obtain ⟨t, ht, husable, -⟩ := step_spec hs c
    exact ⟨t, ht, husable⟩
  refine ⟨taken_all Usable hnext (start_inv isLibrary).2 calls, fun hsound => ?_, fun hguard s hs => ?_⟩
  · apply taken_guarded (fun s => Inv s ∧ Usable s) Sound Guarded _ (start_inv isLibrary) calls hsound
    rintro s c t ⟨hinv, hs⟩ h ht
    have hg := step_guarded hinv hs h ht
    exact ⟨hg, step_inv hinv hs hg h, step_usable hs h⟩
  · apply Inv.sound
    apply And.left
    apply visited_invariant (fun s => Inv s ∧ Usable s) Guarded _ (start_inv isLibrary) calls hguard s hs
    rintro s c t ⟨hinv, hs⟩ hg h
    exact ⟨step_inv hinv hs hg h, step_usable hs h⟩

/-- The call that tells the plugin to unregister allocates the next handle. -/
theorem handle_left : ¬ ∀ s ∈ visited step (start true)
    [.registerService (.returns 0), .unregisterService (.returns 0)], Sound s := by
  intro h
  have hlast := h _ (mem_visited_of_foldlM rfl)
  have hreleased := hlast.released (by decide)
  exact absurd hreleased.2 (by decide)

end DeepinServiceManager.HandleOwnership
