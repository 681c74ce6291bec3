import DeepinServiceManager.Services

namespace DeepinServiceManager

open SortedMaps

abbrev ServicePtr := ℕ

abbrev ServiceObjectMap := SortedMap String ServicePtr

inductive ServiceKind
  | ServiceQtDBus
  | ServiceSDBus
  | QDBusServicePrivate
  deriving DecidableEq

def Backend.kind : Backend → ServiceKind
  | .ServiceQtDBus => .ServiceQtDBus
  | .ServiceSDBus => .ServiceSDBus

structure ServiceObject where
  policy : Policy
  service : Service

/-- The object after its constructor and `init`. -/
def ServiceKind.create (policy : Policy) : ServiceKind → ServiceObject
  | .ServiceQtDBus => ⟨policy, .qt { ServiceQtDBus.new with toServiceBase := ServiceBase.new.init policy }⟩
  | .ServiceSDBus => ⟨policy, .sd { ServiceSDBus.new with toServiceBase := ServiceBase.new.init policy }⟩
  | .QDBusServicePrivate => ⟨policy, .qt (QDBusServicePrivate.initPolicy policy)⟩

structure QDBusMessage where
  path : String
  interface : String
  member : String

inductive HookCall
  | registerService
  | restartTimer
  | emptyReply
  deriving DecidableEq

def startsWith (path key : String) : Bool := key.toList.isPrefixOf path.toList

namespace QTDbusHook

structure Found where
  service : ServicePtr
  isSubPath : Bool
  realPath : String
  deriving DecidableEq

-- `none` is a read of the policy of an object that was destroyed.
def searchSubPath (objects : ServicePtr → Option ServiceObject) (path : String) :
    List (String × ServicePtr) → Option (Option Found)
  | [] => some none
  | (key, service) :: rest =>
    if startsWith path key then do
      let obj ← objects service
      if obj.policy.allowSubPath key then return some ⟨service, false, key⟩
      else searchSubPath objects path rest
    else searchSubPath objects path rest

def getServiceObject (objects : ServicePtr → Option ServiceObject) (m_serviceMap : ServiceObjectMap)
    (path : String) : Option (Option Found) :=
  match m_serviceMap.find? path with
  | some service => some (some ⟨service, true, path⟩)
  | none => searchSubPath objects path m_serviceMap.entries

def setPath (obj : ServicePtr) (m_serviceMap : ServiceObjectMap) (path : String) : ServiceObjectMap :=
  match m_serviceMap.find? path with
  | some _ => m_serviceMap
  | none => m_serviceMap.insert path obj

def setServiceObject (m_serviceMap : ServiceObjectMap) (obj : ServicePtr) (policy : Policy) : ServiceObjectMap :=
  policy.paths.foldl (setPath obj) m_serviceMap

end QTDbusHook

theorem QTDbusHook.searchSubPath_eq {objects : ServicePtr → Option ServiceObject} (get : ServicePtr → ServiceObject)
    {path : String} {entries : List (String × ServicePtr)} (h : ∀ entry ∈ entries, objects entry.2 = some (get entry.2)) :
    searchSubPath objects path entries = some ((entries.find? (fun entry =>
      startsWith path entry.1 && (get entry.2).policy.allowSubPath entry.1)).map (fun entry =>
        ⟨entry.2, false, entry.1⟩)) := by
  induction entries with
  | nil => rfl
  | cons entry rest ih =>
    obtain ⟨key, service⟩ := entry
    obtain ⟨hobj, hrest⟩ := List.forall_mem_cons.mp h
    simp only at hobj
    simp only [searchSubPath, List.find?_cons, hobj, Option.bind_eq_bind, Option.bind_some]
    cases startsWith path key with
    | false => simpa using ih hrest
    | true =>
      cases hsub : (get service).policy.allowSubPath key with
      | true => simp
      | false => simpa using ih hrest

def QDBusMessage.introspects (msg : QDBusMessage) : Bool :=
  msg.member = "Introspect" && msg.interface = "org.freedesktop.DBus.Introspectable"

/-- The calls a hook makes on the service it found, `hidePath` being the path it looks up in `pathhide`. -/
def hookCalls (obj : ServiceObject) (hidePath : String) (msg : QDBusMessage) : List HookCall :=
  (if !obj.service.isRegister then [.registerService] else []) ++
    (if !obj.policy.isResident && !obj.service.base.m_isLockTimer then [.restartTimer] else []) ++
    if msg.introspects && obj.policy.checkPathHide hidePath then [.emptyReply] else []

theorem restartTimer_mem {obj : ServiceObject} {hidePath : String} {msg : QDBusMessage} :
    .restartTimer ∈ hookCalls obj hidePath msg ↔
      obj.policy.isResident = false ∧ obj.service.base.m_isLockTimer = false := by
  unfold hookCalls
  cases obj.policy.isResident <;> cases obj.service.base.m_isLockTimer <;> simp

theorem emptyReply_mem {obj : ServiceObject} {hidePath : String} {msg : QDBusMessage} :
    .emptyReply ∈ hookCalls obj hidePath msg ↔
      msg.introspects = true ∧ obj.policy.checkPathHide hidePath = true := by
  unfold hookCalls
  cases msg.introspects <;> cases obj.policy.checkPathHide hidePath <;> simp

-- The reply goes through the connection of a `ServiceQtDBus`.
def qtCalls (obj : ServiceObject) (realPath : String) (msg : QDBusMessage) : List HookCall :=
  match obj.service with
  | .qt _ => hookCalls obj realPath msg
  | .sd _ => (hookCalls obj realPath msg).filter (· ≠ .emptyReply)

def qtHook (objects : ServicePtr → Option ServiceObject) (m_serviceMap : ServiceObjectMap) (msg : QDBusMessage) :
    Option (List HookCall) := do
  match ← QTDbusHook.getServiceObject objects m_serviceMap msg.path with
  | none => return []
  | some found =>
    let obj ← objects found.service
    return qtCalls obj found.realPath msg

def QTDBusSpyHook (objects : ServicePtr → Option ServiceObject) (m_serviceMap : ServiceObjectMap)
    (msg : QDBusMessage) : Option (List HookCall) := qtHook objects m_serviceMap msg

def QTDBusHook (objects : ServicePtr → Option ServiceObject) (m_serviceMap : ServiceObjectMap)
    (msg : QDBusMessage) : Option (List HookCall) := qtHook objects m_serviceMap msg

def sd_bus_message_handler (userdata : Option ServiceObject) (m : QDBusMessage) : List HookCall :=
  match userdata with
  | none => []
  | some qobj => hookCalls qobj m.path m

end DeepinServiceManager
