import DeepinServiceManager.DBusHooks
import DeepinServiceManager.ServiceLifeCycle

namespace DeepinServiceManager.LibraryPointer

open TransitionRuns ServiceLifeCycle

inductive InitThread
  | started
  | published
  | opened
  | finished
  | failed
  deriving DecidableEq

/-- `calls` lists the values of `m_library` with which `libFuncCall` passed its null test, and `checked` counts
the hook invocations between `isRegister()` and `registerService`. -/
structure State where
  service : Service
  initThread : InitThread
  checked : ℕ
  calls : List LibraryPtr
  crashed : Bool

inductive Event
  | publish
  | busError
  | openLibrary (isLibrary : Bool)
  | initRegister (dsmRegister : EntryPoint)
  | hookCheck
  | hookRegister (dsmRegister : EntryPoint)
  | unregister (dsmUnRegister : EntryPoint)
  | deleteLibrary

def start (b : Backend) (policy : Policy) : State := ⟨(b.kind.create policy).service, .started, 0, [], false⟩

def passed (s : State) : List LibraryPtr :=
  if library s.service = .null then s.calls else s.calls ++ [library s.service]

def call (s : State) (result : Option (Bool × Service)) : State :=
  match result with
  | some (_, service) => { s with service := service, calls := passed s }
  | none => { s with calls := passed s, crashed := true }

def deleteLibrary : Service → Service
  | .qt s => .qt { s with m_library := .deleted }
  | .sd s => .sd { s with m_library := .deleted }

-- A Qt hook finds the service once it is published; the sd handler runs in the loop at the end of `initThread`.
def hooked (s : State) : Bool :=
  match s.service with
  | .qt _ => s.initThread ≠ .started
  | .sd _ => s.initThread = .finished

def enabled (s : State) : Event → Bool
  | .publish => s.initThread = .started
  | .busError => s.initThread = .started && backend s.service = .ServiceSDBus
  | .openLibrary _ => s.initThread = .published
  | .initRegister _ => s.initThread = .opened
  | .hookCheck => hooked s && !s.service.isRegister
  | .hookRegister _ => hooked s && 0 < s.checked
  | .unregister _ => s.initThread = .finished
  | .deleteLibrary => library s.service = .scheduled

def effect (s : State) : Event → State
  | .publish => { s with initThread := .published }
  | .busError => { s with initThread := .failed }
  | .openLibrary isLibrary => { s with initThread := .opened, service := s.service.openLibrary isLibrary }
  | .initRegister dsmRegister =>
    call { s with initThread := .finished } (s.service.registerService dsmRegister)
  | .hookCheck => { s with checked := s.checked + 1 }
  | .hookRegister dsmRegister =>
    call { s with checked := s.checked - 1 } (s.service.registerService dsmRegister)
  | .unregister dsmUnRegister => call s (s.service.unregisterService dsmUnRegister)
  | .deleteLibrary => { s with service := deleteLibrary s.service }

def step (s : State) (e : Event) : Option State :=
  if !s.crashed && enabled s e then some (effect s e) else none

def entryPoint? : Event → Option EntryPoint
  | .initRegister objFunc | .hookRegister objFunc | .unregister objFunc => some objFunc
  | .publish | .busError | .openLibrary _ | .hookCheck | .deleteLibrary => none

def IsCall (e : Event) : Prop := (entryPoint? e).isSome = true

instance (e : Event) : Decidable (IsCall e) := inferInstanceAs (Decidable (_ = _))

/-- A call whose entry point does not resolve in the opened library, or an `initThread` of the sd back end whose
file is not a library. -/
def Spoils (s : State) (e : Event) : Prop :=
  entryPoint? e = some .unresolved ∧ library s.service = .live ∨
    e = .openLibrary false ∧ backend s.service = .ServiceSDBus

def Sound (s : State) : Prop := ∀ l ∈ s.calls, l = .live

instance (s : State) : Decidable (Sound s) := inferInstanceAs (Decidable (∀ _ ∈ _, _))

def isOpen : InitThread → Bool
  | .opened | .finished => true
  | .started | .published | .failed => false

def Good (b : Backend) (s : State) : Prop :=
  backend s.service = b ∧ Sound s ∧
    (library s.service = .live ∧ isOpen s.initThread = true ∨
      b = .ServiceQtDBus ∧ library s.service = .null ∨
      b = .ServiceSDBus ∧ library s.service = .wild ∧ isOpen s.initThread = false)

def Bad (s : State) : Prop :=
  Sound s ∧ library s.service ≠ .live ∧ library s.service ≠ .null ∧ isOpen s.initThread = true

variable {s t : State} {e : Event} {b : Backend}

theorem openLibrary_spec (s : Service) (isLibrary : Bool) :
    library (s.openLibrary isLibrary) = (if isLibrary then .live else library s) ∧
      backend (s.openLibrary isLibrary) = backend s := by
  cases s <;> exact ⟨rfl, rfl⟩

theorem deleteLibrary_spec (s : Service) :
    library (deleteLibrary s) = .deleted ∧ backend (deleteLibrary s) = backend s := by
  cases s <;> exact ⟨rfl, rfl⟩

def Returns (s : Service) (objFunc : EntryPoint) (result : Option (Bool × Service)) : Prop :=
  ∃ ok t, result = some (ok, t) ∧ library t = afterCall (library s) objFunc ∧ backend t = backend s

theorem registerService_null {s : Service} (hnull : library s = .null) (objFunc : EntryPoint) :
    ∃ ok t, s.registerService objFunc = some (ok, t) := by
  cases s with
  | qt s =>
    have hcall : s.libFuncCall objFunc = some (false, s) := if_pos hnull
    exact ⟨_, _, by rw [Service.registerService, ServiceQtDBus.registerService, hcall]; rfl⟩
  | sd s =>
    have hcall : s.libFuncCall objFunc = some (false, s) := if_pos hnull
    exact ⟨_, _, by rw [Service.registerService, ServiceSDBus.registerService, hcall]; rfl⟩

theorem unregisterService_null {s : Service} (hnull : library s = .null) (objFunc : EntryPoint) :
    ∃ ok t, s.unregisterService objFunc = some (ok, t) := by
  cases s with
  | qt s =>
    have hcall : s.deleteHandle.libFuncCall objFunc = some (false, s.deleteHandle) :=
      if_pos ((deleteHandle_frame s).1.trans hnull)
    exact ⟨_, _, by rw [Service.unregisterService, ServiceQtDBus.unregisterService, hcall]; rfl⟩
  | sd s => exact registerService_null (s := .sd s) hnull objFunc

theorem registerService_returns {s : Service} (h : library s = .live ∨ library s = .null) (objFunc : EntryPoint) :
    Returns s objFunc (s.registerService objFunc) := by
  obtain ⟨ok, t, hcall⟩ := h.elim (registerService_live · objFunc) (registerService_null · objFunc)
  obtain ⟨hspec, hbackend⟩ := registerService_spec hcall
  exact ⟨ok, t, hcall, hspec.library, hbackend⟩

theorem unregisterService_returns {s : Service} (h : library s = .live ∨ library s = .null) (objFunc : EntryPoint) :
    Returns s objFunc (s.unregisterService objFunc) := by
  obtain ⟨ok, t, hcall⟩ := h.elim (unregisterService_live · objFunc) (unregisterService_null · objFunc)
  obtain ⟨hspec, hbackend⟩ := unregisterService_spec hcall
  exact ⟨ok, t, hcall, hspec.library, hbackend⟩

theorem sound_passed (h : Sound s) (hlive : library s.service = .live ∨ library s.service = .null) :
    ∀ l ∈ passed s, l = .live := by
  unfold passed
  split_ifs with hnull
  · exact h
  · intro l hl
    rcases List.mem_append.mp hl with hl | hl
    · exact h l hl
    · rw [List.mem_singleton.mp hl]
      exact hlive.resolve_right hnull

theorem call_good {result : Option (Bool × Service)} {objFunc : EntryPoint} (hbackend : backend s.service = b)
    (hsound : Sound s) (hlibrary : library s.service = .live ∧ isOpen s.initThread = true ∨
      b = .ServiceQtDBus ∧ library s.service = .null) (hresult : Returns s.service objFunc result) :
    (objFunc = .unresolved ∧ library s.service = .live → Bad (call s result)) ∧
      (¬ (objFunc = .unresolved ∧ library s.service = .live) → Good b (call s result)) := by
  obtain ⟨ok, service, rfl, hafter, hsame⟩ := hresult
  have hpassed : Sound (call s (some (ok, service))) :=
    sound_passed hsound (hlibrary.imp And.left And.right)
  have hbackend' : backend (call s (some (ok, service))).service = b := hsame.trans hbackend
  rcases hlibrary with ⟨hlive, hopen⟩ | ⟨hqt, hnull⟩
  · rw [hlive] at hafter
    constructor
    · rintro ⟨rfl, -⟩
      have hscheduled : library service = .scheduled := hafter
      exact ⟨hpassed, by simp [call, hscheduled], by simp [call, hscheduled], hopen⟩
    · intro hresolved
      have hlive' : library service = .live := by
        rw [hafter, afterCall, if_neg]
        simpa [hlive, LibraryPtr.valid] using hresolved
      exact ⟨hbackend', hpassed, .inl ⟨hlive', hopen⟩⟩
  · rw [hnull] at hafter
    exact ⟨fun h => by simp [hnull] at h, fun _ => ⟨hbackend', hpassed, .inr (.inl ⟨hqt, hafter⟩)⟩⟩

theorem call_bad (result : Option (Bool × Service)) (hlive : library s.service ≠ .live)
    (hnull : library s.service ≠ .null) : ¬ Sound (call s result) := by
  have hmem : library s.service ∈ passed s := by simp [passed, hnull]
  intro hsound
  apply hlive
  cases result with
  | none => exact hsound _ hmem
  | some r => exact hsound _ hmem

theorem step_eq (h : step s e = some t) : enabled s e = true ∧ t = effect s e := by
  unfold step at h
  split_ifs at h with hguard
  · simp only [Bool.and_eq_true] at hguard
    exact ⟨hguard.2, (Option.some.inj h).symm⟩

theorem sd_call_open (hbackend : backend s.service = .ServiceSDBus) (hcall : IsCall e) (henabled : enabled s e = true) :
    isOpen s.initThread = true := by
  cases e with
  | publish | busError | openLibrary isLibrary | hookCheck | deleteLibrary => cases hcall
  | initRegister dsmRegister =>
    have hopened : s.initThread = .opened := by simpa [enabled] using henabled
    rw [hopened]
    rfl
  | hookRegister dsmRegister =>
    have hhooked : hooked s = true := by
      simp only [enabled, Bool.and_eq_true] at henabled
      exact henabled.1
    unfold hooked at hhooked
    cases hservice : s.service with
    | qt qt =>
      rw [hservice] at hbackend
      cases hbackend
    | sd sd =>
      rw [hservice] at hhooked
      have hfinished : s.initThread = .finished := by simpa using hhooked
      rw [hfinished]
      rfl
  | unregister dsmUnRegister =>
    have hfinished : s.initThread = .finished := by simpa [enabled] using henabled
    rw [hfinished]
    rfl

theorem Good.callable (hs : Good b s) (hcall : IsCall e) (henabled : enabled s e = true) :
    library s.service = .live ∧ isOpen s.initThread = true ∨ b = .ServiceQtDBus ∧ library s.service = .null := by
  obtain ⟨hbackend, -, hlive | hnull | ⟨rfl, -, hclosed⟩⟩ := hs
  · exact .inl hlive
  · exact .inr hnull
  · rw [sd_call_open hbackend hcall henabled] at hclosed
    cases hclosed

theorem not_spoils (hcall : ¬ IsCall e) (hopen : e ≠ .openLibrary false) : ¬ Spoils s e := by
  rintro (⟨hentry, -⟩ | ⟨he, -⟩)
  · exact hcall (by rw [IsCall, hentry]; rfl)
  · exact hopen he

theorem spoils_call {objFunc : EntryPoint} (he : entryPoint? e = some objFunc) :
    Spoils s e ↔ objFunc = .unresolved ∧ library s.service = .live := by
  have hne : e ≠ .openLibrary false := by
    rintro rfl
    cases he
  simp [Spoils, he, hne]

theorem Good.closed (hs : Good b s) (hclosed : isOpen s.initThread = false) :
    b = .ServiceQtDBus ∧ library s.service = .null ∨ b = .ServiceSDBus ∧ library s.service = .wild := by
  rcases hs.2.2 with ⟨-, hopen⟩ | hnull | ⟨hb, hwild, -⟩
  · rw [hclosed] at hopen
    cases hopen
  · exact .inl hnull
  · exact .inr ⟨hb, hwild⟩

theorem Good.stays (hs : Good b s) {thread : InitThread} (hclosed : isOpen s.initThread = false)
    (hthread : isOpen thread = false) : Good b { s with initThread := thread } := by
  refine ⟨hs.1, hs.2.1, ?_⟩
  rcases hs.closed hclosed with hnull | ⟨hb, hwild⟩
  · exact .inr (.inl hnull)
  · exact .inr (.inr ⟨hb, hwild, hthread⟩)

theorem openLibrary_good (hs : Good b s) (hclosed : isOpen s.initThread = false) (isLibrary : Bool) :
    (Spoils s (.openLibrary isLibrary) → Bad (effect s (.openLibrary isLibrary))) ∧
      (¬ Spoils s (.openLibrary isLibrary) → Good b (effect s (.openLibrary isLibrary))) := by
  obtain ⟨hlibrary, hbackend⟩ := openLibrary_spec s.service isLibrary
  have hbackend' : backend (effect s (.openLibrary isLibrary)).service = b := hbackend.trans hs.1
  cases isLibrary with
  | true =>
    have hnot : ¬ Spoils s (.openLibrary true) := not_spoils (by decide) (by simp)
    exact ⟨fun h => absurd h hnot, fun _ => ⟨hbackend', hs.2.1, .inl ⟨hlibrary, rfl⟩⟩⟩
  | false =>
    rcases hs.closed hclosed with ⟨hb, hnull⟩ | ⟨hb, hwild⟩
    · refine ⟨fun h => ?_, fun _ => ⟨hbackend', hs.2.1, .inr (.inl ⟨hb, hlibrary.trans hnull⟩)⟩⟩
      simp [Spoils, entryPoint?, hs.1, hb] at h
    · have hwild' : library (effect s (.openLibrary false)).service = .wild := hlibrary.trans hwild
      refine ⟨fun _ => ⟨hs.2.1, by simp [hwild'], by simp [hwild'], rfl⟩, fun h => ?_⟩
      exact absurd (.inr ⟨rfl, hs.1.trans hb⟩) h

theorem step_good (hs : Good b s) (h : step s e = some t) :
    (Spoils s e → Bad t) ∧ (¬ Spoils s e → Good b t) := by
  obtain ⟨henabled, rfl⟩ := step_eq h
  have hcallable := fun hcall : IsCall e => hs.callable hcall henabled
  cases e with
  | publish =>
    have hstarted : s.initThread = .started := by simpa [enabled] using henabled
    exact ⟨fun h => absurd h (not_spoils (by decide) (by simp)), fun _ => hs.stays (by rw [hstarted]; rfl) rfl⟩
  | busError =>
    have hstarted : s.initThread = .started := by
      simp only [enabled, Bool.and_eq_true, decide_eq_true_eq] at henabled
      exact henabled.1
    exact ⟨fun h => absurd h (not_spoils (by decide) (by simp)), fun _ => hs.stays (by rw [hstarted]; rfl) rfl⟩
  | openLibrary isLibrary =>
    have hpublished : s.initThread = .published := by simpa [enabled] using henabled
    exact openLibrary_good hs (by rw [hpublished]; rfl) isLibrary
  | hookCheck => exact ⟨fun h => absurd h (not_spoils (by decide) (by simp)), fun _ => hs⟩
  | deleteLibrary =>
    have hscheduled : library s.service = .scheduled := by simpa [enabled] using henabled
    rcases hs.2.2 with ⟨hlive, -⟩ | ⟨-, hnull⟩ | ⟨-, hwild, -⟩ <;> simp_all
  | initRegister dsmRegister =>
    have hlibrary := hcallable rfl
    have hreturns := registerService_returns (hlibrary.imp And.left And.right) dsmRegister
    have hgood := call_good (s := { s with initThread := .finished }) hs.1 hs.2.1
      (hlibrary.imp_left fun h => ⟨h.1, rfl⟩) hreturns
    rw [spoils_call rfl]
    exact hgood
  | hookRegister dsmRegister =>
    have hlibrary := hcallable rfl
    have hreturns := registerService_returns (hlibrary.imp And.left And.right) dsmRegister
    have hgood := call_good (s := { s with checked := s.checked - 1 }) hs.1 hs.2.1 hlibrary hreturns
    rw [spoils_call rfl]
    exact hgood
  | unregister dsmUnRegister =>
    have hlibrary := hcallable rfl
    have hreturns := unregisterService_returns (hlibrary.imp And.left And.right) dsmUnRegister
    have hgood := call_good hs.1 hs.2.1 hlibrary hreturns
    rw [spoils_call rfl]
    exact hgood

theorem step_bad (hs : Bad s) (h : step s e = some t) : (IsCall e → ¬ Sound t) ∧ (¬ IsCall e → Bad t) := by
  obtain ⟨henabled, rfl⟩ := step_eq h
  obtain ⟨hsound, hlive, hnull, hopen⟩ := hs
  cases e with
  | publish | busError | openLibrary isLibrary =>
    simp only [enabled, Bool.and_eq_true, decide_eq_true_eq] at henabled
    simp [henabled, isOpen] at hopen
  | hookCheck => exact ⟨fun h => (nomatch h), fun _ => ⟨hsound, hlive, hnull, hopen⟩⟩
  | deleteLibrary =>
    refine ⟨fun h => (nomatch h), fun _ => ⟨hsound, ?_, ?_, hopen⟩⟩ <;>
      simp [effect, (deleteLibrary_spec s.service).1]
  | initRegister dsmRegister =>
    exact ⟨fun _ => call_bad (s := { s with initThread := .finished }) _ hlive hnull, fun h => absurd rfl h⟩
  | hookRegister dsmRegister =>
    exact ⟨fun _ => call_bad (s := { s with checked := s.checked - 1 }) _ hlive hnull, fun h => absurd rfl h⟩
  | unregister dsmUnRegister => exact ⟨fun _ => call_bad _ hlive hnull, fun h => absurd rfl h⟩

theorem start_good (b : Backend) (policy : Policy) : Good b (start b policy) := by
  cases b with
  | ServiceQtDBus => exact ⟨rfl, fun _ h => (nomatch h), .inr (.inl ⟨rfl, rfl⟩)⟩
  | ServiceSDBus => exact ⟨rfl, fun _ h => (nomatch h), .inr (.inr ⟨rfl, rfl, rfl⟩)⟩

theorem calls_live_iff (b : Backend) (policy : Policy) (events : List Event) :
    (∀ s ∈ visited step (start b policy) events, Sound s) ↔
      (taken step (start b policy) events).Pairwise (fun p q => Spoils p.1 p.2 → ¬ IsCall q.2) := by
  have hgood : ∀ s e t, Good b s → step s e = some t → (Spoils s e → Bad t) ∧ (¬ Spoils s e → Good b t) :=
    fun _ _ _ hs h => step_good hs h
  constructor
  · apply taken_phases (Good b) Bad Sound Spoils (fun _ e => IsCall e) hgood _ (start_good b policy)
    intro s e t hs h hsound
    have hcall : ¬ IsCall e := fun hcall => (step_bad hs h).1 hcall hsound
    exact ⟨hcall, (step_bad hs h).2 hcall⟩
  · intro hpair s hs
    have hphase := visited_phases (Good b) Bad Spoils (fun _ e => IsCall e) hgood
      (fun _ _ _ hs hcall h => (step_bad hs h).2 hcall) (start_good b policy) events hpair s hs
    exact hphase.elim (fun h => h.2.1) And.left

def plainPolicy : Policy := Policy.new ⟨.QT, 0, 10⟩

theorem scheduled_library_called : ¬ ∀ s ∈ visited step (start .ServiceQtDBus plainPolicy) [.publish,
    .openLibrary true, .initRegister .unresolved, .hookCheck, .hookRegister .unresolved], Sound s := by
  decide

end DeepinServiceManager.LibraryPointer
