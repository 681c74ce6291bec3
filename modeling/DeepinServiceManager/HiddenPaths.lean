import DeepinServiceManager.DBusHooks
import DeepinServiceManager.PolicyParsing

namespace DeepinServiceManager.HiddenPaths

open QTDbusHook SortedMaps

def HidesConfigured (p : Policy) : Prop := ∀ path ∈ p.mapPathHide.keys, path ∈ p.paths

theorem hidesConfigured_insert {p : Policy} (h : HidesConfigured p) (path : String) (hide sub : Bool)
    (mapPath : SortedMap String PolicyPath) : HidesConfigured { p with
      mapPathHide := p.mapPathHide.insert path hide
      mapSubPath := p.mapSubPath.insert path sub
      mapPath := mapPath } := by
  intro key hkey
  have hkey := (mem_insertEntry_keys path hide _ key).mp hkey
  exact (mem_insertEntry_keys path sub _ key).mpr (hkey.imp_right (h key))

theorem parsePolicyPath_hides {p : Policy} (h : HidesConfigured p) (obj : QJsonObject) :
    HidesConfigured (p.parsePolicyPath obj).2 := by
  unfold Policy.parsePolicyPath
  by_cases hpath : (jsonGetString obj "path" "").2.isEmpty
  · simpa only [hpath, if_true] using h
  · simp only [hpath, if_false, Bool.false_eq_true]
    exact hidesConfigured_insert h _ _ _ _

theorem parsePolicyList_hides {p : Policy} (h : HidesConfigured p) (entries : List QJsonValue) :
    HidesConfigured (p.parsePolicyList entries).2 := by
  induction entries generalizing p with
  | nil => exact h
  | cons entry rest ih =>
    cases entry with
    | object obj =>
      rw [Policy.parsePolicyList]
      split_ifs
      · exact ih (parsePolicyPath_hides h obj)
      · exact parsePolicyPath_hides h obj
    | _ => exact ih h

theorem parsePolicy_hides (p : Policy) (rootObj : QJsonObject) : HidesConfigured (p.parsePolicy rootObj).2 := by
  have hcleared : HidesConfigured { p with mapPathHide := .empty, mapPath := .empty } := fun _ hkey => nomatch hkey
  unfold Policy.parsePolicy
  cases rootObj.value "policy" with
  | none => exact hcleared
  | some v =>
    cases v with
    | array policyList => exact parsePolicyList_hides hcleared policyList
    | _ => exact hcleared

theorem parseConfig_hides (u : Uninitialised) (file : QFileInfo) :
    HidesConfigured ((Policy.new u).parseConfig file) := by
  have hnew : HidesConfigured (Policy.new u) := fun _ hkey => nomatch hkey
  cases hread : file.rootObj with
  | none =>
    rw [Policy.parseConfig_none _ hread]
    exact hnew
  | some rootObj =>
    rw [Policy.parseConfig_some _ hread, Policy.parseRoot]
    split_ifs
    · exact hnew
    · rw [Policy.parseCondition_eq]
      exact parsePolicy_hides _ _
    · exact parsePolicy_hides _ _

theorem checkPathHide_configured {p : Policy} (h : HidesConfigured p) {path : String}
    (hhide : p.checkPathHide path = true) : path ∈ p.paths := by
  apply h
  rw [SortedMap.mem_keys_iff]
  cases hfind : p.mapPathHide.find? path with
  | none => simp [Policy.checkPathHide, hfind] at hhide
  | some hide => exact ⟨hide, rfl⟩

theorem foldl_setPath (service : ServicePtr) (l : List String) (m : ServiceObjectMap)
    (hsorted : (m.keys ++ l).Pairwise (· < ·)) :
    (l.foldl (setPath service) m).entries = m.entries ++ l.map (fun path => (path, service)) := by
  induction l generalizing m with
  | nil => simp
  | cons path rest ih =>
    have hlt : ∀ key ∈ m.keys, key < path := fun key hkey =>
      (List.pairwise_append.mp hsorted).2.2 key hkey path List.mem_cons_self
    have hnone : m.find? path = none :=
      SortedMap.find?_eq_none_iff.mpr (fun hkey => lt_irrefl path (hlt path hkey))
    have hentries : (m.insert path service).entries = m.entries ++ [(path, service)] :=
      insertEntry_last (fun e he => hlt e.1 (List.mem_map_of_mem he)) service
    have hkeys : (m.insert path service).keys = m.keys ++ [path] := by
      rw [SortedMap.keys, hentries, List.map_append]
      rfl
    rw [List.foldl_cons, setPath, hnone]
    simp only
    rw [ih (m.insert path service) (by simpa [hkeys] using hsorted), hentries]
    simp

theorem setServiceObject_single (service : ServicePtr) (policy : Policy) :
    (setServiceObject .empty service policy).entries = policy.paths.map (fun path => (path, service)) :=
  foldl_setPath service policy.paths .empty policy.mapSubPath.sorted

/-- The configured path whose settings a path takes over when it is not configured itself. -/
def governing (policy : Policy) (path : String) : Option String :=
  policy.paths.find? (fun key => startsWith path key && policy.allowSubPath key)

def single (service : ServicePtr) (obj : ServiceObject) (p : ServicePtr) : Option ServiceObject :=
  if p = service then some obj else none

theorem searchSubPath_single (service : ServicePtr) (obj : ServiceObject) (path : String) (l : List String) :
    searchSubPath (single service obj) path (l.map (fun key => (key, service))) =
      some ((l.find? (fun key => startsWith path key && obj.policy.allowSubPath key)).map
        (fun key => ⟨service, false, key⟩)) := by
  rw [searchSubPath_eq (fun _ => obj) (by simp [single]), List.find?_map, Option.map_map]
  rfl

theorem getServiceObject_single (service : ServicePtr) (obj : ServiceObject) (path : String) :
    getServiceObject (single service obj) (setServiceObject .empty service obj.policy) path =
      some (if path ∈ obj.policy.paths then some ⟨service, true, path⟩
        else (governing obj.policy path).map (fun key => ⟨service, false, key⟩)) := by
  have hentries := setServiceObject_single service obj.policy
  have hmem (s : ServicePtr) : (setServiceObject .empty service obj.policy).find? path = some s ↔
      path ∈ obj.policy.paths ∧ service = s := by
    rw [SortedMap.find?_eq_some_iff, hentries]
    simp
  unfold getServiceObject
  split_ifs with hpath
  · rw [(hmem service).mpr ⟨hpath, rfl⟩]
  · cases hfind : (setServiceObject .empty service obj.policy).find? path with
    | some s => exact absurd ((hmem s).mp hfind).1 hpath
    | none =>
      simp only
      rw [hentries, searchSubPath_single]
      rfl

def repliesEmpty (calls : Option (List HookCall)) : Bool := calls.any (fun calls => calls.contains .emptyReply)

def HiddenByParent (policy : Policy) (msg : QDBusMessage) : Prop :=
  msg.introspects = true ∧ msg.path ∉ policy.paths ∧
    ∃ parent, governing policy msg.path = some parent ∧ policy.checkPathHide parent = true

variable {policy : Policy} {msg : QDBusMessage}

theorem contains_emptyReply (obj : ServiceObject) (hidePath : String) (msg : QDBusMessage) :
    (hookCalls obj hidePath msg).contains .emptyReply = (msg.introspects && obj.policy.checkPathHide hidePath) := by
  rw [Bool.eq_iff_iff, List.contains_iff_mem, emptyReply_mem, Bool.and_eq_true]

theorem qtHook_single (service : ServicePtr) (policy : Policy) (qt : ServiceQtDBus) (msg : QDBusMessage) :
    repliesEmpty (qtHook (single service ⟨policy, .qt qt⟩) (setServiceObject .empty service policy) msg) =
      (msg.introspects && (if msg.path ∈ policy.paths then some msg.path else governing policy msg.path).any
        policy.checkPathHide) := by
  have hfound := getServiceObject_single service ⟨policy, .qt qt⟩ msg.path
  simp only at hfound
  unfold qtHook
  rw [hfound]
  split_ifs with hpath
  · simpa [single, qtCalls, repliesEmpty] using contains_emptyReply ⟨policy, .qt qt⟩ msg.path msg
  · cases governing policy msg.path with
    | none => simp [repliesEmpty]
    | some parent => simpa [single, qtCalls, repliesEmpty] using contains_emptyReply ⟨policy, .qt qt⟩ parent msg

theorem hidden_alike {service : ServicePtr} {qt : ServiceQtDBus} {sd : ServiceSDBus} (h : HidesConfigured policy) :
    repliesEmpty (qtHook (single service ⟨policy, .qt qt⟩) (setServiceObject .empty service policy) msg) =
        (sd_bus_message_handler (some ⟨policy, .sd sd⟩) msg).contains .emptyReply ↔ ¬ HiddenByParent policy msg := by
  rw [qtHook_single, sd_bus_message_handler, contains_emptyReply, HiddenByParent]
  cases msg.introspects with
  | false => simp
  | true =>
    by_cases hpath : msg.path ∈ policy.paths
    · simp [hpath]
    · have hnot : policy.checkPathHide msg.path = false := by
        by_contra hhide
        exact hpath (checkPathHide_configured h (by simpa using hhide))
      cases hparent : governing policy msg.path with
      | none => simp [hpath, hnot]
      | some parent => simp [hpath, hnot]

theorem hidden_alike_iff (u : Uninitialised) (file : QFileInfo) (service : ServicePtr) (qt : ServiceQtDBus)
    (sd : ServiceSDBus) (msg : QDBusMessage) :
    let policy := (Policy.new u).parseConfig file
    let objects := single service ⟨policy, .qt qt⟩
    let m_serviceMap := setServiceObject .empty service policy
    let answer := (sd_bus_message_handler (some ⟨policy, .sd sd⟩) msg).contains .emptyReply
    (repliesEmpty (QTDBusHook objects m_serviceMap msg) = answer ↔ ¬ HiddenByParent policy msg) ∧
      (repliesEmpty (QTDBusSpyHook objects m_serviceMap msg) = answer ↔ ¬ HiddenByParent policy msg) := by
  intro policy objects m_serviceMap answer
  have hpolicy : HidesConfigured policy := parseConfig_hides u file
  exact ⟨hidden_alike hpolicy, hidden_alike hpolicy⟩

def hiddenFile : QFileInfo where
  absoluteFilePath := "/usr/share/deepin-service-manager/user/demo.json"
  isFile := true
  jsonSuffix := true
  content := .document (.object [("name", .string "demo"), ("policy", .array [.object [("path", .string "/qdbus/demo1"),
    ("pathhide", .bool true), ("subpath", .bool true)]])])

def hiddenPolicy : Policy := (Policy.new ⟨.QT, 0, 10⟩).parseConfig hiddenFile

theorem child_hidden_by_qt_only :
    let msg : QDBusMessage := ⟨"/qdbus/demo1/child", "org.freedesktop.DBus.Introspectable", "Introspect"⟩
    repliesEmpty (QTDBusHook (single 0 ⟨hiddenPolicy, .qt .new⟩) (setServiceObject .empty 0 hiddenPolicy) msg) = true ∧
      (sd_bus_message_handler (some ⟨hiddenPolicy, .sd .new⟩) msg).contains .emptyReply = false := by
  decide

end DeepinServiceManager.HiddenPaths
