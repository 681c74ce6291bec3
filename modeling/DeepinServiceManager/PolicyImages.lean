import DeepinServiceManager.PolicyMaps

namespace DeepinServiceManager.PolicyImages

open SortedMaps Policy PolicyMaps

def IntRange (i : ℤ) : Prop := -2 ^ 31 ≤ i ∧ i < 2 ^ 31

structure Parsed (u : Uninitialised) (p : Policy) : Prop where
  name : p.name ≠ ""
  hideKeys : ∀ path, path ∈ p.mapPathHide.keys ↔ path ∈ p.mapPath.keys
  subKeys : ∀ path, path ∈ p.mapSubPath.keys ↔ path ∈ p.mapPath.keys
  noEmptyPath : "" ∉ p.mapPath.keys
  ownPath : ∀ path entry, p.mapPath.find? path = some entry → entry = ⟨path, false⟩
  startDelay : IntRange p.startDelay
  idleTime : IntRange p.idleTime
  sdkType : p.sdkType = .QT ∨ p.sdkType = .SD ∨ p.sdkType = u.sdkType

theorem toInt_range (v : QJsonValue) : IntRange v.toInt := by
  unfold QJsonValue.toInt
  split
  · split_ifs with hx
    · exact hx.2
    · exact ⟨by decide, by decide⟩
  · exact ⟨by decide, by decide⟩

theorem jsonGetInt_range (obj : QJsonObject) (key : String) {defaultValue : ℤ} (h : IntRange defaultValue) :
    IntRange (jsonGetInt obj key defaultValue).2 := by
  unfold jsonGetInt
  cases obj.value key with
  | none => exact h
  | some v =>
    cases v with
    | double x => exact toInt_range (.double x)
    | _ => exact h

theorem lastEntry_path {rootObj obj : QJsonObject} {path : String} (h : lastEntry rootObj path = some obj) :
    obj ∈ policyObjects rootObj ∧ entryPath obj = path :=
  ⟨List.mem_reverse.mp (List.mem_of_find?_eq_some h), by simpa using List.find?_some h⟩

theorem documentPaths_nonempty {rootObj : QJsonObject} (h : policyMemberOk rootObj = true) :
    "" ∉ documentPaths rootObj := by
  unfold policyMemberOk at h
  unfold documentPaths policyObjects
  cases hpolicy : rootObj.value "policy" with
  | none => exact List.not_mem_nil
  | some v =>
    rw [hpolicy] at h
    cases v with
    | array policyList =>
      intro hmem
      obtain ⟨obj, hobj, hpath⟩ := List.mem_map.mp hmem
      obtain ⟨entry, hentry, heq⟩ := List.mem_filterMap.mp hobj
      have hok : policyEntryOk entry = true := List.all_eq_true.mp h entry hentry
      cases entry with
      | object members =>
        cases heq
        rw [entryPath] at hpath
        rw [policyEntryOk, hpath] at hok
        cases hok
      | _ => cases heq
    | _ => exact List.not_mem_nil

theorem parseConfig_parsed (u : Uninitialised) {file : QFileInfo} (h : file.rejected = false) :
    Parsed u ((new u).parseConfig file) := by
  unfold QFileInfo.rejected at h
  cases hread : file.rootObj with
  | none =>
    rw [hread] at h
    cases h
  | some rootObj =>
    rw [hread] at h
    have hroot : wellFormedRoot rootObj = true := by simpa using h
    obtain ⟨hname, hok⟩ := (Bool.and_eq_true _ _).mp hroot
    rw [parseConfig_fillMaps (new u) hread hroot, parseCondition_eq]
    have hkeys {ν : Type} (val : QJsonObject → ν) (path : String) :
        path ∈ (fill val (policyObjects rootObj) .empty).keys ↔ path ∈ documentPaths rootObj :=
      (fill_keys val .empty).trans (or_iff_left List.not_mem_nil)
    constructor
    · have hname' : (jsonGetString rootObj "name" "").2 ≠ "" := by simpa using hname
      exact hname'
    · exact fun path => (hkeys _ path).trans (hkeys _ path).symm
    · exact fun path => (hkeys _ path).trans (hkeys _ path).symm
    · exact fun hmem => documentPaths_nonempty hok ((hkeys _ "").mp hmem)
    · intro path entry hentry
      have hfind := (fill_find? _ _).symm.trans hentry
      rw [SortedMap.find?_empty, Option.or_none, Option.map_eq_some_iff] at hfind
      obtain ⟨obj, hobj, rfl⟩ := hfind
      rw [(lastEntry_path hobj).2]
    · exact jsonGetInt_range rootObj "startDelay" ⟨by decide, by decide⟩
    · exact jsonGetInt_range rootObj "idleTime" ⟨by decide, by decide⟩
    · simp only [fillMaps, readScalars, new]
      split_ifs
      · exact .inl rfl
      · exact .inr (.inl rfl)
      · exact .inr (.inr rfl)

def pathObject (p : Policy) (path : String) : QJsonObject :=
  [("path", .string path), ("pathhide", .bool (p.checkPathHide path)), ("subpath", .bool (p.allowSubPath path))]

/-- Any other string leaves `sdkType` as it is. -/
def pluginType : SDKType → String
  | .QT => "qt"
  | .SD => "sd"
  | .unset _ => ""

def rootOf (p : Policy) : QJsonObject :=
  [("name", .string p.name), ("group", .string p.group), ("pluginPath", .string p.pluginPath),
    ("version", .string p.version), ("startType", .string p.startType),
    ("dependencies", .array (p.dependencies.map .string)),
    ("startDelay", .double p.startDelay), ("idleTime", .double p.idleTime),
    ("pluginType", .string (pluginType p.sdkType)),
    ("policy", .array (p.paths.map fun path => .object (pathObject p path))),
    ("condition", .object [("sessionType", .string p.condition.sessionType)])]

def fileOf (p : Policy) : QFileInfo where
  absoluteFilePath := "/usr/share/deepin-service-manager/user/plugin.json"
  isFile := true
  jsonSuffix := true
  content := .document (.object (rootOf p))

theorem fileOf_rootObj (p : Policy) : (fileOf p).rootObj = some (rootOf p) := rfl

theorem objectEntries_map (p : Policy) (paths : List String) :
    objectEntries (paths.map fun path => .object (pathObject p path)) = paths.map (pathObject p) := by
  induction paths with
  | nil => rfl
  | cons path rest ih => exact congrArg (pathObject p path :: ·) ih

theorem policyObjects_rootOf (p : Policy) : policyObjects (rootOf p) = p.paths.map (pathObject p) :=
  objectEntries_map p p.paths

theorem entryPath_pathObject (p : Policy) (path : String) : entryPath (pathObject p path) = path := rfl

theorem documentPaths_rootOf (p : Policy) : documentPaths (rootOf p) = p.paths := by
  rw [documentPaths, policyObjects_rootOf, List.map_map]
  exact List.map_id p.paths

theorem wellFormed_rootOf {u : Uninitialised} {p : Policy} (h : Parsed u p) : wellFormedRoot (rootOf p) = true := by
  have hpaths : (p.paths.map fun path => QJsonValue.object (pathObject p path)).all policyEntryOk = true := by
    rw [List.all_eq_true]
    intro entry hentry
    obtain ⟨path, hpath, rfl⟩ := List.mem_map.mp hentry
    have hne : path ≠ "" := by
      rintro rfl
      exact h.noEmptyPath ((h.subKeys "").mp hpath)
    have hget : (jsonGetString (pathObject p path) "path" "").2 = path := rfl
    rw [policyEntryOk, hget]
    simpa using hne
  have hname : (!p.name.isEmpty) = true := by simpa using h.name
  exact (Bool.and_eq_true _ _).mpr ⟨hname, hpaths⟩

theorem fill_rootOf {ν : Type} (val : QJsonObject → ν) {p : Policy} {m : SortedMap String ν}
    (hkeys : ∀ path, path ∈ p.paths ↔ path ∈ m.keys)
    (hval : ∀ path v, m.find? path = some v → val (pathObject p path) = v) :
    fill val (policyObjects (rootOf p)) .empty = m := by
  apply SortedMap.ext_find?
  intro path
  rw [fill_find?, SortedMap.find?_empty, Option.or_none]
  cases hlast : lastEntry (rootOf p) path with
  | none =>
    have hnone : path ∉ m.keys := by
      rw [← hkeys path, ← documentPaths_rootOf p, ← lastEntry_isSome, hlast]
      exact Bool.false_ne_true
    exact (SortedMap.find?_eq_none_iff.mpr hnone).symm
  | some obj =>
    obtain ⟨hmem, hpath⟩ := lastEntry_path hlast
    rw [policyObjects_rootOf] at hmem
    obtain ⟨path', hpath', rfl⟩ := List.mem_map.mp hmem
    rw [entryPath_pathObject] at hpath
    subst hpath
    obtain ⟨v, hv⟩ := SortedMap.mem_keys_iff.mp ((hkeys path').mp hpath')
    rw [hv, Option.map_some, hval path' v hv]

theorem toInt_intCast {i : ℤ} (h : IntRange i) : (QJsonValue.double (i : ℚ)).toInt = i :=
  if_pos ⟨by simp [Rat.isInt], by simpa [IntRange] using h⟩

theorem filterMap_strings (l : List String) : (l.map QJsonValue.string).filterMap (fun
    | .string s => some s
    | _ => none) = l := by
  induction l with
  | nil => rfl
  | cons s rest ih => exact congrArg (s :: ·) ih

theorem readScalars_rootOf {u : Uninitialised} {p : Policy} (h : Parsed u p) :
    (new u).readScalars (rootOf p) =
      { p with mapPathHide := .empty, mapSubPath := .empty, mapPath := .empty, condition := {} } := by
  have hdelay : (jsonGetInt (rootOf p) "startDelay" 0).2 = p.startDelay := toInt_intCast h.startDelay
  have hidle : (jsonGetInt (rootOf p) "idleTime" 10).2 = p.idleTime := toInt_intCast h.idleTime
  have hdependencies : (jsonGetStringList (rootOf p) "dependencies" []).2 = p.dependencies :=
    filterMap_strings p.dependencies
  have hsdk : (if pluginType p.sdkType = "qt" then .QT else if pluginType p.sdkType = "sd" then .SD
      else u.sdkType) = p.sdkType := by
    cases hp : p.sdkType with
    | QT => rfl
    | SD => rfl
    | unset raw =>
      rcases h.sdkType with hqt | hsd | hu
      · rw [hp] at hqt
        cases hqt
      · rw [hp] at hsd
        cases hsd
      · rw [← hp, ← hu, hp]
        rfl
  rw [readScalars, hdelay, hidle, hdependencies]
  rw [← hsdk]
  rfl

theorem parseConfig_fileOf {u : Uninitialised} {p : Policy} (h : Parsed u p) : (new u).parseConfig (fileOf p) = p := by
  have hfind {m : SortedMap String Bool} {path : String} {v : Bool} (hv : m.find? path = some v) :
      (m.find? path).getD false = v := by
    rw [hv, Option.getD_some]
  have hhide : fill (entryFlag "pathhide") (policyObjects (rootOf p)) .empty = p.mapPathHide :=
    fill_rootOf _ (fun path => (h.subKeys path).trans (h.hideKeys path).symm) (fun _ _ hv => hfind hv)
  have hsub : fill (entryFlag "subpath") (policyObjects (rootOf p)) .empty = p.mapSubPath :=
    fill_rootOf _ (fun path => Iff.rfl) (fun _ _ hv => hfind hv)
  have hpath : fill (fun obj => (⟨entryPath obj, false⟩ : PolicyPath)) (policyObjects (rootOf p)) .empty = p.mapPath :=
    fill_rootOf _ h.subKeys (fun path entry hentry => (h.ownPath path entry hentry).symm)
  rw [parseConfig_fillMaps (new u) (fileOf_rootObj p) (wellFormed_rootOf h), readScalars_rootOf h, parseCondition_eq,
    fillMaps, hhide, hsub, hpath]
  rfl

theorem rejected_fileOf {u : Uninitialised} {p : Policy} (h : Parsed u p) : (fileOf p).rejected = false := by
  rw [QFileInfo.rejected, fileOf_rootObj]
  exact congrArg (!·) (wellFormed_rootOf h)

/-- The values a file can give: what an accepted file leaves in a new `Policy` satisfies `Parsed`, and every
such value comes back from the file written for it. -/
theorem parsed_iff (u : Uninitialised) (p : Policy) :
    Parsed u p ↔ ∃ file : QFileInfo, file.rejected = false ∧ (new u).parseConfig file = p := by
  constructor
  · intro h
    exact ⟨fileOf p, rejected_fileOf h, parseConfig_fileOf h⟩
  · rintro ⟨file, hfile, rfl⟩
    exact parseConfig_parsed u hfile

end DeepinServiceManager.PolicyImages
