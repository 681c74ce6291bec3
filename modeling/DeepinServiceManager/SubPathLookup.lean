import DeepinServiceManager.DBusHooks

namespace DeepinServiceManager.SubPathLookup

open OrderedScans QTDbusHook SortedMaps

def live (objects : ServicePtr → ServiceObject) (p : ServicePtr) : Option ServiceObject := some (objects p)

def separated (key : String) : String := if key = "/" then key else key ++ "/"

/-- `key` is a proper ancestor of `path` in the object tree. -/
def Ancestor (key path : String) : Prop := startsWith path (separated key) = true ∧ key ≠ path

instance (key path : String) : Decidable (Ancestor key path) := inferInstanceAs (Decidable (_ ∧ _))

def Flagged (objects : ServicePtr → ServiceObject) (m_serviceMap : ServiceObjectMap) (key : String) : Prop :=
  ∃ service, m_serviceMap.find? key = some service ∧ (objects service).policy.allowSubPath key = true

def hits (objects : ServicePtr → ServiceObject) (path : String) (entry : String × ServicePtr) : Bool :=
  startsWith path entry.1 && (objects entry.2).policy.allowSubPath entry.1

variable {objects : ServicePtr → ServiceObject} {m : ServiceObjectMap} {key path : String}

theorem startsWith_iff : startsWith path key = true ↔ key.toList <+: path.toList := List.isPrefixOf_iff_prefix

theorem getServiceObject_key {service : ServicePtr} (h : m.find? path = some service) :
    getServiceObject (live objects) m path = some (some ⟨service, true, path⟩) := by
  rw [getServiceObject, h]

theorem getServiceObject_no_key (h : path ∉ m.keys) : getServiceObject (live objects) m path =
    some ((m.entries.find? (hits objects path)).map (fun entry => ⟨entry.2, false, entry.1⟩)) := by
  rw [getServiceObject, SortedMap.find?_eq_none_iff.mpr h]
  exact searchSubPath_eq objects (fun _ _ => rfl)

def Candidate (objects : ServicePtr → ServiceObject) (m_serviceMap : ServiceObjectMap) (path key : String) : Prop :=
  Flagged objects m_serviceMap key ∧ startsWith path key = true

theorem hits_mem {entry : String × ServicePtr} (hentry : entry ∈ m.entries) :
    hits objects path entry = true ↔ Candidate objects m path entry.1 := by
  have hfind : m.find? entry.1 = some entry.2 := SortedMap.find?_eq_some_iff.mpr hentry
  rw [hits, Bool.and_eq_true, Candidate, Flagged, hfind]
  constructor
  · rintro ⟨hstarts, hsub⟩
    exact ⟨⟨entry.2, rfl, hsub⟩, hstarts⟩
  · rintro ⟨⟨service, hservice, hsub⟩, hstarts⟩
    cases hservice
    exact ⟨hstarts, hsub⟩

theorem key_le_iff {key' : String} (h : startsWith path key = true) (h' : startsWith path key' = true) :
    key ≤ key' ↔ key.length ≤ key'.length := by
  rw [String.le_iff_toList_le, prefix_le_iff (startsWith_iff.mp h) (startsWith_iff.mp h'), String.length_toList,
    String.length_toList]

/-- The scan stops at the shortest candidate. -/
theorem find?_hits {entry : String × ServicePtr} : m.entries.find? (hits objects path) = some entry ↔
    m.find? entry.1 = some entry.2 ∧ Candidate objects m path entry.1 ∧
      ∀ key, Candidate objects m path key → entry.1.length ≤ key.length := by
  rw [find?_least m.sorted, ← SortedMap.find?_eq_some_iff]
  refine and_congr_right fun hentry => ?_
  rw [hits_mem (SortedMap.find?_eq_some_iff.mp hentry)]
  refine and_congr_right fun hcandidate => ?_
  constructor
  · intro hleast key hkey
    obtain ⟨service, hservice, -⟩ := hkey.1
    have hmem : (key, service) ∈ m.entries := SortedMap.find?_eq_some_iff.mp hservice
    exact (key_le_iff hcandidate.2 hkey.2).mp (hleast _ hmem ((hits_mem hmem).mpr hkey))
  · intro hleast other hother hhits
    have hkey := (hits_mem hother).mp hhits
    exact (key_le_iff hcandidate.2 hkey.2).mpr (hleast other.1 hkey)

theorem found_iff (h : path ∉ m.keys) {found : Found} :
    getServiceObject (live objects) m path = some (some found) ↔ found.isSubPath = false ∧
      m.find? found.realPath = some found.service ∧ Candidate objects m path found.realPath ∧
        ∀ key, Candidate objects m path key → found.realPath.length ≤ key.length := by
  rw [getServiceObject_no_key h, Option.some.injEq, Option.map_eq_some_iff]
  constructor
  · rintro ⟨entry, hentry, rfl⟩
    exact ⟨rfl, find?_hits.mp hentry⟩
  · rintro ⟨hsub, hfound⟩
    refine ⟨(found.realPath, found.service), find?_hits.mpr hfound, ?_⟩
    cases found
    cases hsub
    rfl

theorem exists_found (h : path ∉ m.keys) (hkey : Candidate objects m path key) :
    ∃ found, getServiceObject (live objects) m path = some (some found) := by
  obtain ⟨service, hservice, -⟩ := hkey.1
  have hmem : (key, service) ∈ m.entries := SortedMap.find?_eq_some_iff.mp hservice
  have hsome : (m.entries.find? (hits objects path)).isSome = true :=
    List.find?_isSome.mpr ⟨_, hmem, (hits_mem hmem).mpr hkey⟩
  obtain ⟨entry, hentry⟩ := Option.isSome_iff_exists.mp hsome
  exact ⟨_, by rw [getServiceObject_no_key h, hentry]; rfl⟩

theorem Ancestor.startsWith (h : Ancestor key path) : startsWith path key = true := by
  have hprefix := startsWith_iff.mp h.1
  rw [startsWith_iff]
  unfold separated at hprefix
  split_ifs at hprefix with hroot
  · exact hprefix
  · rw [String.toList_append] at hprefix
    exact (List.prefix_append _ _).trans hprefix

theorem eq_of_length {key' : String} (h : startsWith path key = true) (h' : startsWith path key' = true)
    (hlength : key.length = key'.length) : key = key' :=
  le_antisymm ((key_le_iff h h').mpr (le_of_eq hlength)) ((key_le_iff h' h).mpr (le_of_eq hlength.symm))

/-- The path is not given to a key that is no ancestor. -/
def AttributedInTree (objects : ServicePtr → ServiceObject) (m_serviceMap : ServiceObjectMap) (path : String) : Prop :=
  ∀ found, getServiceObject (live objects) m_serviceMap path = some (some found) → found.realPath = path ∨
    Ancestor found.realPath path ∧ (objects found.service).policy.allowSubPath found.realPath = true

theorem attributedInTree_iff (objects : ServicePtr → ServiceObject) (m_serviceMap : ServiceObjectMap) (path : String) :
    AttributedInTree objects m_serviceMap path ↔ path ∈ m_serviceMap.keys ∨
      ∀ key, Flagged objects m_serviceMap key → startsWith path key = true → ¬ Ancestor key path →
        ∃ key', Flagged objects m_serviceMap key' ∧ Ancestor key' path ∧ key'.length < key.length := by
  by_cases hpath : path ∈ m_serviceMap.keys
  · refine iff_of_true ?_ (.inl hpath)
    obtain ⟨service, hservice⟩ := SortedMap.mem_keys_iff.mp hpath
    intro found hfound
    rw [getServiceObject_key hservice] at hfound
    cases hfound
    exact .inl rfl
  · rw [or_iff_right hpath]
    constructor
    · intro hattributed key hflagged hstarts hnot
      obtain ⟨found, hfound⟩ := exists_found hpath ⟨hflagged, hstarts⟩
      obtain ⟨-, hservice, hcandidate, hleast⟩ := (found_iff hpath).mp hfound
      have hancestor : Ancestor found.realPath path := by
        rcases hattributed found hfound with heq | h
        · exact absurd (SortedMap.mem_keys_iff.mpr ⟨_, heq ▸ hservice⟩) hpath
        · exact h.1
      refine ⟨found.realPath, hcandidate.1, hancestor, lt_of_le_of_ne (hleast key ⟨hflagged, hstarts⟩) ?_⟩
      intro hlength
      exact hnot (eq_of_length hcandidate.2 hstarts hlength ▸ hancestor)
    · intro hall found hfound
      obtain ⟨-, hservice, hcandidate, hleast⟩ := (found_iff hpath).mp hfound
      obtain ⟨service, hservice', hsub⟩ := hcandidate.1
      rw [hservice] at hservice'
      cases hservice'
      refine .inr ⟨?_, hsub⟩
      by_contra hnot
      obtain ⟨key', hflagged, hancestor, hlt⟩ := hall found.realPath hcandidate.1 hcandidate.2 hnot
      exact absurd (hleast key' ⟨hflagged, hancestor.startsWith⟩) (not_le.mpr hlt)

/-- A path under a flagged key is given to the nearest one. -/
def NearestFound (objects : ServicePtr → ServiceObject) (m_serviceMap : ServiceObjectMap) (path : String) : Prop :=
  path ∉ m_serviceMap.keys → (∃ key, Flagged objects m_serviceMap key ∧ Ancestor key path) →
    ∃ found, getServiceObject (live objects) m_serviceMap path = some (some found) ∧
      m_serviceMap.find? found.realPath = some found.service ∧ Flagged objects m_serviceMap found.realPath ∧
      Ancestor found.realPath path ∧
      ∀ key, Flagged objects m_serviceMap key → Ancestor key path → key.length ≤ found.realPath.length

theorem nearestFound_iff (objects : ServicePtr → ServiceObject) (m_serviceMap : ServiceObjectMap) (path : String) :
    NearestFound objects m_serviceMap path ↔ path ∈ m_serviceMap.keys ∨
      ∀ key key', Flagged objects m_serviceMap key → Ancestor key path → Flagged objects m_serviceMap key' →
        startsWith path key' = true → key.length ≤ key'.length := by
  by_cases hpath : path ∈ m_serviceMap.keys
  · exact iff_of_true (fun hnot => absurd hpath hnot) (.inl hpath)
  · rw [or_iff_right hpath]
    constructor
    · intro hnearest key key' hflagged hancestor hflagged' hstarts'
      obtain ⟨found, hfound, -, -, -, hnear⟩ := hnearest hpath ⟨key, hflagged, hancestor⟩
      obtain ⟨-, -, -, hleast⟩ := (found_iff hpath).mp hfound
      exact (hnear key hflagged hancestor).trans (hleast key' ⟨hflagged', hstarts'⟩)
    · rintro hall - ⟨key, hflagged, hancestor⟩
      obtain ⟨found, hfound⟩ := exists_found hpath ⟨hflagged, hancestor.startsWith⟩
      obtain ⟨-, hservice, hcandidate, hleast⟩ := (found_iff hpath).mp hfound
      have hlength := le_antisymm (hleast key ⟨hflagged, hancestor.startsWith⟩)
        (hall key found.realPath hflagged hancestor hcandidate.1 hcandidate.2)
      have heq := eq_of_length hcandidate.2 hancestor.startsWith hlength
      refine ⟨found, hfound, hservice, hcandidate.1, heq ▸ hancestor, fun key' hflagged' hancestor' => ?_⟩
      exact hall key' found.realPath hflagged' hancestor' hcandidate.1 hcandidate.2

def subPathPolicy (paths : List String) : Policy := (Policy.new ⟨.QT, 0, 10⟩).parseConfig
  { absoluteFilePath := "/usr/share/deepin-service-manager/user/demo.json"
    isFile := true
    jsonSuffix := true
    content := .document (.object [("name", .string "demo"), ("policy", .array (paths.map (fun path =>
      .object [("path", .string path), ("subpath", .bool true)])))]) }

def nested (service : ServicePtr) : ServiceObject :=
  ⟨subPathPolicy (if service = 0 then ["/demo"] else ["/demo/sub"]), .qt .new⟩

def nestedMap : ServiceObjectMap := setServiceObject (setServiceObject .empty 0 (nested 0).policy) 1 (nested 1).policy

theorem sibling_attributed : ¬ AttributedInTree nested nestedMap "/demo2" := by
  intro h
  have hfound := h ⟨0, false, "/demo"⟩ (by decide)
  exact absurd hfound (by decide)

theorem outer_parent_found : ¬ NearestFound nested nestedMap "/demo/sub/child" := by
  intro h
  have hflagged : Flagged nested nestedMap "/demo/sub" := ⟨1, by decide, by decide⟩
  have hancestor : Ancestor "/demo/sub" "/demo/sub/child" := by decide
  have houter : getServiceObject (live nested) nestedMap "/demo/sub/child" = some (some ⟨0, false, "/demo"⟩) := by
    decide
  obtain ⟨found, hfound, -, -, -, hnear⟩ := h (by decide) ⟨"/demo/sub", hflagged, hancestor⟩
  rw [houter] at hfound
  cases hfound
  exact absurd (hnear "/demo/sub" hflagged hancestor) (by decide)

end DeepinServiceManager.SubPathLookup
