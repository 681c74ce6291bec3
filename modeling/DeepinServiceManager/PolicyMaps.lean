import DeepinServiceManager.PolicyParsing

namespace DeepinServiceManager.PolicyMaps

open SortedMaps

def objectEntries (policyList : List QJsonValue) : List QJsonObject :=
  policyList.filterMap fun
    | .object obj => some obj
    | _ => none

def policyObjects (rootObj : QJsonObject) : List QJsonObject :=
  match rootObj.value "policy" with
  | some (.array policyList) => objectEntries policyList
  | _ => []

def entryPath (obj : QJsonObject) : String := (jsonGetString obj "path" "").2

def entryFlag (key : String) (obj : QJsonObject) : Bool :=
  match obj.value key with
  | some (.bool b) => b
  | _ => false

def documentPaths (rootObj : QJsonObject) : List String := (policyObjects rootObj).map entryPath

def lastEntry (rootObj : QJsonObject) (path : String) : Option QJsonObject :=
  (policyObjects rootObj).reverse.find? (fun obj => entryPath obj = path)

/-- The maps hold this document's paths and nothing else, each with the flags of its last entry. -/
structure FollowDocument (p : Policy) (rootObj : QJsonObject) : Prop where
  hideKeys : ∀ path, path ∈ p.mapPathHide.keys ↔ path ∈ p.mapPath.keys
  subKeys : ∀ path, path ∈ p.mapSubPath.keys ↔ path ∈ p.mapPath.keys
  paths : ∀ path, path ∈ p.paths ↔ path ∈ documentPaths rootObj
  checkPathHide : ∀ path, p.checkPathHide path = (lastEntry rootObj path).any (entryFlag "pathhide")
  allowSubPath : ∀ path, p.allowSubPath path = (lastEntry rootObj path).any (entryFlag "subpath")

def fill {ν : Type} (val : QJsonObject → ν) (objs : List QJsonObject) (m : SortedMap String ν) : SortedMap String ν :=
  objs.foldl (fun m obj => m.insert (entryPath obj) (val obj)) m

def fillMaps (p : Policy) (objs : List QJsonObject) : Policy :=
  { p with
    mapPathHide := fill (entryFlag "pathhide") objs p.mapPathHide
    mapSubPath := fill (entryFlag "subpath") objs p.mapSubPath
    mapPath := fill (fun obj => ⟨entryPath obj, false⟩) objs p.mapPath }

theorem jsonGetBool_entryFlag (obj : QJsonObject) (key : String) :
    (jsonGetBool obj key false).2 = entryFlag key obj := by
  unfold jsonGetBool entryFlag
  cases obj.value key with
  | none => rfl
  | some v => cases v <;> rfl

theorem parsePolicyPath_fillMaps (p : Policy) {obj : QJsonObject} (h : policyEntryOk (.object obj) = true) :
    p.parsePolicyPath obj = (true, fillMaps p [obj]) := by
  have hpath : ¬ (jsonGetString obj "path" "").2.isEmpty = true := by simpa [policyEntryOk] using h
  simp only [Policy.parsePolicyPath, if_neg hpath, jsonGetBool_entryFlag]
  rfl

theorem parsePolicyList_fillMaps (policyList : List QJsonValue) (p : Policy)
    (h : policyList.all policyEntryOk = true) : (p.parsePolicyList policyList).2 = fillMaps p (objectEntries policyList) := by
  induction policyList generalizing p with
  | nil => rfl
  | cons entry rest ih =>
    rw [List.all_cons, Bool.and_eq_true] at h
    cases entry with
    | object obj =>
      rw [Policy.parsePolicyList, parsePolicyPath_fillMaps p h.1, if_pos rfl, ih _ h.2]
      rfl
    | _ => exact ih p h.2

theorem parsePolicy_fillMaps (p : Policy) {rootObj : QJsonObject} (h : policyMemberOk rootObj = true) :
    (p.parsePolicy rootObj).2 =
      fillMaps { p with mapPathHide := .empty, mapPath := .empty } (policyObjects rootObj) := by
  unfold policyMemberOk at h
  unfold Policy.parsePolicy policyObjects
  cases hpolicy : rootObj.value "policy" with
  | none => rfl
  | some v =>
    rw [hpolicy] at h
    cases v with
    | array policyList => exact parsePolicyList_fillMaps policyList _ h
    | _ => cases h

/-- The state that the maps of an accepted document are filled from still has the old `mapSubPath`. -/
theorem parseConfig_fillMaps (p : Policy) {file : QFileInfo} {rootObj : QJsonObject}
    (hread : file.rootObj = some rootObj) (hroot : wellFormedRoot rootObj = true) : p.parseConfig file =
      (fillMaps { p.readScalars rootObj with mapPathHide := .empty, mapPath := .empty }
        (policyObjects rootObj)).parseCondition rootObj := by
  have hok : policyMemberOk rootObj = true := (Bool.and_eq_true _ _ ▸ hroot).2
  rw [Policy.parseConfig_some p hread, Policy.parseRoot_wellFormed p hroot, parsePolicy_fillMaps _ hok]

variable {ν : Type} {rootObj : QJsonObject} {path : String}

theorem fill_find? (val : QJsonObject → ν) (m : SortedMap String ν) :
    (fill val (policyObjects rootObj) m).find? path = ((lastEntry rootObj path).map val).or (m.find? path) :=
  SortedMap.find?_foldl_insert entryPath val (policyObjects rootObj) m path

theorem lastEntry_isSome : (lastEntry rootObj path).isSome = true ↔ path ∈ documentPaths rootObj := by
  rw [lastEntry, List.find?_isSome, documentPaths, List.mem_map]
  simp

theorem fill_keys (val : QJsonObject → ν) (m : SortedMap String ν) :
    path ∈ (fill val (policyObjects rootObj) m).keys ↔ path ∈ documentPaths rootObj ∨ path ∈ m.keys := by
  rw [SortedMap.mem_keys_iff, ← Option.isSome_iff_exists, fill_find?, Option.isSome_or, Bool.or_eq_true,
    Option.isSome_map, lastEntry_isSome, Option.isSome_iff_exists, ← SortedMap.mem_keys_iff]

theorem fill_getD (val : QJsonObject → Bool) (m : SortedMap String Bool)
    (h : path ∈ m.keys → path ∈ documentPaths rootObj) :
    ((fill val (policyObjects rootObj) m).find? path).getD false = (lastEntry rootObj path).any val := by
  rw [fill_find?]
  cases hlast : lastEntry rootObj path with
  | some obj => simp
  | none =>
    have hnone : m.find? path = none := by
      rw [SortedMap.find?_eq_none_iff]
      intro hkey
      have hentry := lastEntry_isSome.mpr (h hkey)
      rw [hlast] at hentry
      cases hentry
    simp [hnone]

theorem followDocument_iff (p : Policy) (file : QFileInfo) (rootObj : QJsonObject)
    (hread : file.rootObj = some rootObj) (hroot : wellFormedRoot rootObj = true) :
    FollowDocument (p.parseConfig file) rootObj ↔ ∀ path ∈ p.mapSubPath.keys, path ∈ documentPaths rootObj := by
  rw [parseConfig_fillMaps p hread hroot, Policy.parseCondition_eq]
  have hempty {ν : Type} (path : String) : path ∉ (SortedMap.empty : SortedMap String ν).keys := List.not_mem_nil
  constructor
  · intro h path hpath
    have hkey : path ∈ (fill (entryFlag "subpath") (policyObjects rootObj) p.mapSubPath).keys :=
      (fill_keys (entryFlag "subpath") p.mapSubPath).mpr (.inr hpath)
    exact (h.paths path).mp hkey
  · intro hstale
    have hsub (path : String) : path ∈ (fill (entryFlag "subpath") (policyObjects rootObj) p.mapSubPath).keys ↔
        path ∈ documentPaths rootObj := by
      rw [fill_keys, or_iff_left_of_imp (hstale path)]
    constructor
    · intro path
      exact (fill_keys _ _).trans
        ((or_congr_right (iff_of_false (hempty path) (hempty path))).trans (fill_keys _ _).symm)
    · intro path
      exact (hsub path).trans ((or_iff_left (hempty path)).symm.trans (fill_keys _ _).symm)
    · exact hsub
    · intro path
      exact fill_getD _ _ (fun hkey => absurd hkey (hempty path))
    · intro path
      exact fill_getD _ _ (hstale path)

def pathRoot (path : String) : QJsonObject :=
  [("name", .string "demo"), ("policy", .array [.object [("path", .string path), ("subpath", .bool true)]])]

def pathFile (path : String) : QFileInfo where
  absoluteFilePath := "/usr/share/deepin-service-manager/user/demo.json"
  isFile := true
  jsonSuffix := true
  content := .document (.object (pathRoot path))

def usedPolicy : Policy := (Policy.new ⟨.QT, 0, 10⟩).parseConfig (pathFile "/demo")

theorem followDocument_same : FollowDocument (usedPolicy.parseConfig (pathFile "/demo")) (pathRoot "/demo") :=
  (followDocument_iff usedPolicy (pathFile "/demo") (pathRoot "/demo") rfl (by decide)).mpr (by decide)

theorem stale_path_kept : (pathFile "/other").rootObj = some (pathRoot "/other") ∧
    wellFormedRoot (pathRoot "/other") = true ∧
      ¬ FollowDocument (usedPolicy.parseConfig (pathFile "/other")) (pathRoot "/other") := by
  refine ⟨rfl, by decide, fun h => ?_⟩
  have hstale := (h.paths "/demo").mp (by decide)
  exact absurd hstale (by decide)

end DeepinServiceManager.PolicyMaps
