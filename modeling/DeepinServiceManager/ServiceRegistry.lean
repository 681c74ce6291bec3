import Mathlib.Logic.Function.Basic
import DeepinServiceManager.DBusHooks
import DeepinServiceManager.TransitionRuns

namespace DeepinServiceManager.ServiceRegistry

open QTDbusHook SortedMaps TransitionRuns

/-- The objects that are alive, the map of the hook and the map of the loader. `registrants` lists every path a
service asked `setServiceObject` for, and `privates` the services that are a `QDBusServicePrivate`. -/
structure State where
  objects : ServicePtr → Option ServiceObject
  allocated : ServicePtr
  privates : List ServicePtr
  m_serviceMap : ServiceObjectMap
  m_pluginMap : SortedMap String ServicePtr
  registrants : List (String × ServicePtr)

inductive Event
  | create (kind : ServiceKind) (policy : Policy)
  | addPlugin (service : ServicePtr)
  | setServiceObject (service : ServicePtr)
  | destroyQDBusService (service : ServicePtr)
  | destroyPluginLoader

def init : State := ⟨fun _ => none, 0, [], .empty, .empty, []⟩

def create (s : State) (kind : ServiceKind) (policy : Policy) : State :=
  { s with
    objects := Function.update s.objects s.allocated (some (kind.create policy))
    allocated := s.allocated + 1
    privates := if kind = .QDBusServicePrivate then s.privates ++ [s.allocated] else s.privates }

def publish (s : State) (service : ServicePtr) (obj : ServiceObject) : State :=
  { s with
    m_serviceMap := QTDbusHook.setServiceObject s.m_serviceMap service obj.policy
    registrants := s.registrants ++ obj.policy.paths.map (fun path => (path, service)) }

def plugins (s : State) : List ServicePtr := s.m_pluginMap.entries.map Prod.snd

def deletePlugins (s : State) : State :=
  { s with
    objects := fun p => if p ∈ plugins s then none else s.objects p
    m_pluginMap := .empty }

-- A loader never adds a `QDBusServicePrivate`, and a `ServiceSDBus` does not publish itself.
def step (s : State) : Event → Option State
  | .create kind policy => some (create s kind policy)
  | .addPlugin service =>
    if service ∈ s.privates then none
    else (s.objects service).map
      (fun obj => { s with m_pluginMap := s.m_pluginMap.insert obj.policy.name service })
  | .setServiceObject service =>
    match s.objects service with
    | some ⟨policy, .qt qt⟩ => some (publish s service ⟨policy, .qt qt⟩)
    | _ => none
  | .destroyQDBusService service =>
    if service ∈ s.privates ∧ (s.objects service).isSome then
      some { s with objects := Function.update s.objects service none }
    else none
  | .destroyPluginLoader => some (deletePlugins s)

/-- No lookup returns or reads a service that was destroyed. -/
def NeverDangling (s : State) : Prop :=
  ∀ path, ∃ result, getServiceObject s.objects s.m_serviceMap path = some result ∧
    ∀ found, result = some found → (s.objects found.service).isSome = true

def Resolves (s : State) (path : String) (service : ServicePtr) : Prop :=
  ∃ found, getServiceObject s.objects s.m_serviceMap path = some (some found) ∧ found.service = service

/-- A path of the service that only destroyed services asked for before leads to the service afterwards. -/
def Reclaims (s t : State) (service : ServicePtr) : Prop :=
  ∀ obj, s.objects service = some obj → ∀ path ∈ obj.policy.paths,
    (∀ w, (path, w) ∈ s.registrants → s.objects w = none) → Resolves t path service

def Owns (s : State) (service : ServicePtr) : Prop := ∃ path, s.m_serviceMap.find? path = some service

def Guarded (s : State) : Event → Prop
  | .destroyQDBusService service => ¬ Owns s service
  | .destroyPluginLoader => ∀ service ∈ plugins s, ¬ Owns s service
  | .create _ _ | .addPlugin _ | .setServiceObject _ => True

structure Inv (s : State) : Prop where
  alive : ∀ path service, s.m_serviceMap.find? path = some service → (s.objects service).isSome = true
  asked : ∀ path service, s.m_serviceMap.find? path = some service → (path, service) ∈ s.registrants

theorem setPath_find? (service : ServicePtr) (m : ServiceObjectMap) (path key : String) :
    (setPath service m path).find? key = if key = path ∧ m.find? path = none then some service else m.find? key := by
  unfold setPath
  cases hfind : m.find? path with
  | some w => simp
  | none => simp [SortedMap.find?_insert]

theorem foldl_setPath_find? (service : ServicePtr) (l : List String) (m : ServiceObjectMap) (key : String) :
    (l.foldl (setPath service) m).find? key =
      if key ∈ l ∧ m.find? key = none then some service else m.find? key := by
  induction l generalizing m with
  | nil => simp
  | cons path rest ih =>
    rw [List.foldl_cons, ih, setPath_find?]
    by_cases hkey : key = path
    · subst hkey
      cases m.find? key <;> simp
    · simp [hkey]

theorem setServiceObject_find? (m : ServiceObjectMap) (service : ServicePtr) (policy : Policy) (path : String) :
    (QTDbusHook.setServiceObject m service policy).find? path =
      if path ∈ policy.paths ∧ m.find? path = none then some service else m.find? path :=
  foldl_setPath_find? service policy.paths m path

variable {s t : State} {e : Event}

theorem searchSubPath_alive {objects : ServicePtr → Option ServiceObject} (path : String)
    {l : List (String × ServicePtr)} (hl : ∀ entry ∈ l, (objects entry.2).isSome = true) :
    ∃ result, searchSubPath objects path l = some result ∧
      ∀ found, result = some found → (objects found.service).isSome = true := by
  induction l with
  | nil => exact ⟨none, rfl, fun _ h => nomatch h⟩
  | cons entry rest ih =>
    obtain ⟨key, service⟩ := entry
    obtain ⟨hservice, hrest⟩ := List.forall_mem_cons.mp hl
    obtain ⟨obj, hobj⟩ := Option.isSome_iff_exists.mp hservice
    rw [searchSubPath]
    split_ifs
    · simp only [hobj, Option.bind_eq_bind, Option.bind_some]
      split_ifs
      · exact ⟨_, rfl, fun found h => by cases h; exact hservice⟩
      · exact ih hrest
    · exact ih hrest

theorem Inv.neverDangling (hs : Inv s) : NeverDangling s := by
  intro path
  unfold getServiceObject
  cases hfind : s.m_serviceMap.find? path with
  | some service => exact ⟨_, rfl, fun found h => by cases h; exact hs.alive path service hfind⟩
  | none =>
    apply searchSubPath_alive
    intro entry hentry
    exact hs.alive entry.1 entry.2 (SortedMap.find?_eq_some_iff.mpr hentry)

theorem Inv.publish {service : ServicePtr} {obj : ServiceObject} (hs : Inv s) (hobj : s.objects service = some obj) :
    Inv (publish s service obj) := by
  have hfind (path : String) := setServiceObject_find? s.m_serviceMap service obj.policy path
  constructor
  · intro path w hw
    simp only [ServiceRegistry.publish, hfind] at hw ⊢
    split_ifs at hw with hnew
    · cases hw
      simp [hobj]
    · exact hs.alive path w hw
  · intro path w hw
    simp only [ServiceRegistry.publish, hfind, List.mem_append, List.mem_map] at hw ⊢
    split_ifs at hw with hnew
    · cases hw
      exact .inr ⟨path, hnew.1, rfl⟩
    · exact .inl (hs.asked path w hw)

theorem Inv.kill {objects : ServicePtr → Option ServiceObject} (hs : Inv s)
    (hkept : ∀ w, Owns s w → objects w = s.objects w) : Inv { s with objects := objects } := by
  refine ⟨fun path w hw => ?_, hs.asked⟩
  simp only [hkept w ⟨path, hw⟩]
  exact hs.alive path w hw

theorem setServiceObject_step {service : ServicePtr} (h : step s (.setServiceObject service) = some t) :
    ∃ obj, s.objects service = some obj ∧ t = publish s service obj := by
  cases hobj : s.objects service with
  | none => simp [step, hobj] at h
  | some obj =>
    obtain ⟨policy, service'⟩ := obj
    cases service' with
    | sd sd => simp [step, hobj] at h
    | qt qt =>
      simp only [step, hobj, Option.some.injEq] at h
      exact ⟨_, rfl, h.symm⟩

theorem step_inv (hs : Inv s) (hguard : Guarded s e) (h : step s e = some t) : Inv t := by
  cases e with
  | create kind policy =>
    cases h
    refine ⟨fun path w hw => ?_, hs.asked⟩
    have halive := hs.alive path w hw
    by_cases hnew : w = s.allocated
    · simp [create, hnew]
    · simpa [create, Function.update_of_ne hnew] using halive
  | addPlugin service =>
    simp only [step] at h
    split_ifs at h
    obtain ⟨obj, -, rfl⟩ := Option.map_eq_some_iff.mp h
    exact ⟨hs.alive, hs.asked⟩
  | setServiceObject service =>
    obtain ⟨obj, hobj, rfl⟩ := setServiceObject_step h
    exact hs.publish hobj
  | destroyQDBusService service =>
    simp only [step] at h
    split_ifs at h
    cases h
    apply hs.kill
    intro w howns
    exact Function.update_of_ne (fun heq : w = service => hguard (heq ▸ howns)) _ _
  | destroyPluginLoader =>
    cases h
    have hkept : ∀ w, Owns s w → (deletePlugins s).objects w = s.objects w := fun w howns =>
      if_neg (fun hmem => hguard w hmem howns)
    exact ⟨(hs.kill hkept).alive, (hs.kill hkept).asked⟩

theorem step_guarded (h : step s e = some t) (ht : NeverDangling t) : Guarded s e := by
  have hdangling : ∀ w path, t.m_serviceMap.find? path = some w → (t.objects w).isSome = true := by
    intro w path hfind
    obtain ⟨result, hresult, halive⟩ := ht path
    rw [getServiceObject, hfind] at hresult
    cases hresult
    exact halive _ rfl
  cases e with
  | create kind policy | addPlugin service | setServiceObject service => trivial
  | destroyQDBusService service =>
    simp only [step] at h
    split_ifs at h
    cases h
    rintro ⟨path, hpath⟩
    have halive := hdangling service path hpath
    simp at halive
  | destroyPluginLoader =>
    cases h
    rintro w hw ⟨path, hpath⟩
    have halive := hdangling w path hpath
    simp [deletePlugins, hw] at halive

theorem setServiceObject_reclaims {service : ServicePtr} (hs : Inv s)
    (h : step s (.setServiceObject service) = some t) : Reclaims s t service := by
  intro obj hobj path hpath hdestroyed
  obtain ⟨obj', hobj', rfl⟩ := setServiceObject_step h
  obtain rfl : obj = obj' := Option.some.inj (hobj.symm.trans hobj')
  have hnone : s.m_serviceMap.find? path = none := by
    cases hfind : s.m_serviceMap.find? path with
    | none => rfl
    | some w =>
      have halive := hs.alive path w hfind
      rw [hdestroyed w (hs.asked path w hfind)] at halive
      cases halive
  have hfound : (publish s service obj).m_serviceMap.find? path = some service := by
    rw [publish, setServiceObject_find?, if_pos ⟨hpath, hnone⟩]
  exact ⟨⟨service, true, path⟩, by rw [getServiceObject, hfound], rfl⟩

theorem registry_sound_iff (events : List Event) :
    ((∀ s ∈ visited step init events, NeverDangling s) ∧
      ∀ p ∈ taken step init events, ∀ service, p.2 = .setServiceObject service →
        ∀ t, step p.1 p.2 = some t → Reclaims p.1 t service) ↔
      ∀ p ∈ taken step init events, Guarded p.1 p.2 := by
  constructor
  · rintro ⟨hnever, -⟩
    exact taken_guarded (fun _ => True) NeverDangling Guarded
      (fun _ _ _ _ h ht => ⟨step_guarded h ht, trivial⟩) trivial events hnever
  · intro hguard
    have hinit : Inv init := ⟨fun _ _ h => (nomatch h), fun _ _ h => (nomatch h)⟩
    have hinv := visited_invariant Inv Guarded (fun _ _ _ hs hguard h => step_inv hs hguard h) hinit events hguard
    refine ⟨fun s hs => (hinv s hs).neverDangling, fun p hp service hevent t h => ?_⟩
    rw [hevent] at h
    exact setServiceObject_reclaims (hinv p.1 (mem_taken hp).1) h

def publishedFile : QFileInfo where
  absoluteFilePath := "/usr/share/deepin-service-manager/other/demo.json"
  isFile := true
  jsonSuffix := true
  content := .document (.object [("name", .string "demo"), ("policy", .array [.object [("path", .string "/demo")]])])

def publishedPolicy : Policy := (Policy.new ⟨.QT, 0, 10⟩).parseConfig publishedFile

/-- The second service asks for the path of a destroyed one, and the map still leads to the first. -/
theorem destroyed_returned : ¬ ∀ s ∈ visited step init [.create .QDBusServicePrivate publishedPolicy,
    .setServiceObject 0, .destroyQDBusService 0, .create .QDBusServicePrivate publishedPolicy, .setServiceObject 1],
    NeverDangling s := by
  intro h
  obtain ⟨result, hresult, halive⟩ := h _ (mem_visited_of_foldlM rfl) "/demo"
  cases hresult
  exact absurd (halive _ rfl) (by decide)

end DeepinServiceManager.ServiceRegistry
