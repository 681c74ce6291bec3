import DeepinServiceManager.ServiceRegistry
import DeepinServiceManager.SubPathLookup

namespace DeepinServiceManager.RegistrationOrder

open QTDbusHook SortedMaps SubPathLookup

variable {objects : ServicePtr → ServiceObject} {m : ServiceObjectMap} {path : String}

def register (objects : ServicePtr → ServiceObject) (m_serviceMap : ServiceObjectMap) (service : ServicePtr) :
    ServiceObjectMap := setServiceObject m_serviceMap service (objects service).policy

/-- The map after the services of a list called `setServiceObject` one after the other. -/
def registered (objects : ServicePtr → ServiceObject) (calls : List ServicePtr) : ServiceObjectMap :=
  calls.foldl (register objects) .empty

def has (objects : ServicePtr → ServiceObject) (path : String) (service : ServicePtr) : Bool :=
  path ∈ (objects service).policy.paths

theorem register_find? (service : ServicePtr) : (register objects m service).find? path =
    (m.find? path).or (if has objects path service then some service else none) := by
  rw [register, ServiceRegistry.setServiceObject_find?, has]
  cases m.find? path <;> simp

theorem foldl_register_find? (calls : List ServicePtr) (m : ServiceObjectMap) :
    (calls.foldl (register objects) m).find? path = (m.find? path).or (calls.find? (has objects path)) := by
  induction calls generalizing m with
  | nil => simp
  | cons service calls ih =>
    rw [List.foldl_cons, ih, register_find?, List.find?_cons, Option.or_assoc]
    cases has objects path service <;> simp

theorem registered_find? (calls : List ServicePtr) :
    (registered objects calls).find? path = calls.find? (has objects path) := by
  rw [registered, foldl_register_find?]
  rfl

theorem registered_keys (calls : List ServicePtr) :
    path ∈ (registered objects calls).keys ↔ ∃ service ∈ calls, path ∈ (objects service).policy.paths := by
  rw [SortedMap.mem_keys_iff, registered_find?, ← Option.isSome_iff_exists, List.find?_isSome]
  simp [has]

theorem registered_append {calls : List ServicePtr} (hpath : path ∈ (registered objects calls).keys)
    (more : List ServicePtr) :
    (registered objects (calls ++ more)).find? path = (registered objects calls).find? path := by
  obtain ⟨service, hservice⟩ := SortedMap.mem_keys_iff.mp hpath
  rw [registered_find?] at hservice
  rw [registered_find?, registered_find?, List.find?_append, hservice, Option.some_or]

theorem registered_perm {calls calls' : List ServicePtr} (hperm : calls.Perm calls')
    (hdisjoint : ∀ s ∈ calls, ∀ s' ∈ calls, s ≠ s' → (objects s).policy.paths.Disjoint (objects s').policy.paths) :
    registered objects calls = registered objects calls' := by
  apply SortedMap.ext_find?
  intro path
  rw [registered_find?, registered_find?]
  apply OrderedScans.find?_perm hperm
  intro s hs s' hs' hpath hpath'
  by_contra hne
  exact hdisjoint s hs s' hs' hne (of_decide_eq_true hpath) (of_decide_eq_true hpath')

theorem getServiceObject_find? {found : Found} (h : getServiceObject (live objects) m path = some (some found)) :
    m.find? found.realPath = some found.service := by
  by_cases hpath : path ∈ m.keys
  · obtain ⟨service, hservice⟩ := SortedMap.mem_keys_iff.mp hpath
    rw [getServiceObject_key hservice] at h
    cases h
    exact hservice
  · exact ((found_iff hpath).mp h).2.1

theorem getServiceObject_congr {m' : ServiceObjectMap} (hpath : path ∈ m.keys) (h : m'.find? path = m.find? path) :
    getServiceObject (live objects) m' path = getServiceObject (live objects) m path := by
  obtain ⟨service, hservice⟩ := SortedMap.mem_keys_iff.mp hpath
  rw [getServiceObject_key hservice, getServiceObject_key (h.trans hservice)]

theorem first_registration_wins (objects : ServicePtr → ServiceObject) (calls : List ServicePtr) :
    (∀ path, (registered objects calls).find? path =
        calls.find? (fun service => path ∈ (objects service).policy.paths)) ∧
      (∀ path, path ∈ (registered objects calls).keys ↔
        ∃ service ∈ calls, path ∈ (objects service).policy.paths) ∧
      (∀ path found, getServiceObject (live objects) (registered objects calls) path = some (some found) →
        found.realPath ∈ (objects found.service).policy.paths) ∧
      (∀ path ∈ (registered objects calls).keys, ∀ more,
        getServiceObject (live objects) (registered objects (calls ++ more)) path =
          getServiceObject (live objects) (registered objects calls) path) ∧
      ∀ calls', calls.Perm calls' → (∀ s ∈ calls, ∀ s' ∈ calls, s ≠ s' →
          (objects s).policy.paths.Disjoint (objects s').policy.paths) →
        registered objects calls' = registered objects calls ∧
          ∀ path, getServiceObject (live objects) (registered objects calls') path =
            getServiceObject (live objects) (registered objects calls) path := by
  refine ⟨fun path => registered_find? calls, fun path => registered_keys calls, ?_, ?_, ?_⟩
  · intro path found hfound
    have hfind := getServiceObject_find? hfound
    rw [registered_find?] at hfind
    have hhas : has objects found.realPath found.service = true := List.find?_some hfind
    exact of_decide_eq_true hhas
  · intro path hpath more
    exact getServiceObject_congr hpath (registered_append hpath more)
  · intro calls' hperm hdisjoint
    have heq := registered_perm hperm hdisjoint
    exact ⟨heq.symm, fun path => by rw [heq]⟩

end DeepinServiceManager.RegistrationOrder
