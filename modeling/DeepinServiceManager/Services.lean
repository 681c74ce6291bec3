import DeepinServiceManager.Policy

namespace DeepinServiceManager

inductive EntryPoint
  | unresolved
  | returns (ret : ℤ)
  deriving DecidableEq

/-- What the pointer to the library designates. A library after `deleteLater` is `scheduled`. -/
inductive LibraryPtr
  | null
  | wild
  | live
  | scheduled
  | deleted
  deriving DecidableEq

def LibraryPtr.valid : LibraryPtr → Bool
  | .live | .scheduled => true
  | .null | .wild | .deleted => false

structure QTimer where
  active : Bool
  interval : ℤ
  deriving DecidableEq

namespace QTimer

-- A timer with a negative interval does not start.
def start (t : QTimer) : QTimer := { t with active := 0 ≤ t.interval }

def stop (t : QTimer) : QTimer := { t with active := false }

end QTimer

structure ServiceBase where
  m_isRegister : Bool
  m_isLockTimer : Bool
  m_timer : QTimer

namespace ServiceBase

def new : ServiceBase where
  m_isRegister := false
  m_isLockTimer := false
  m_timer := ⟨false, 10 * 60 * 1000⟩

-- `idleTime * 60 * 1000` in the arithmetic of `int`
def init (s : ServiceBase) (p : Policy) : ServiceBase :=
  { s with m_timer := { s.m_timer with interval := (p.idleTime * 60 * 1000).bmod (2 ^ 32) } }

def restartTimer (s : ServiceBase) : ServiceBase := { s with m_timer := s.m_timer.start }

def registerService (s : ServiceBase) : ServiceBase := { s with m_isRegister := true }

def unregisterService (s : ServiceBase) : ServiceBase := { s with m_isRegister := false }

end ServiceBase

/-- `dbus` is the handle behind `policy->dbus`, and `handles` are the allocated handles not deleted yet. -/
structure ServiceQtDBus extends ServiceBase where
  m_library : LibraryPtr
  dbus : Option ℕ
  handles : List ℕ
  allocated : ℕ

namespace ServiceQtDBus

def new : ServiceQtDBus where
  toServiceBase := .new
  m_library := .null
  dbus := none
  handles := []
  allocated := 0

-- `none` is a call through a pointer to no library.
def libFuncCall (s : ServiceQtDBus) (objFunc : EntryPoint) : Option (Bool × ServiceQtDBus) :=
  if s.m_library = .null then some (false, s)
  else if s.m_library.valid then
    match objFunc with
    | .unresolved => some (false, { s with m_library := .scheduled })
    | .returns ret => some (ret = 0, { s with
        dbus := some s.allocated
        handles := s.handles ++ [s.allocated]
        allocated := s.allocated + 1 })
  else none

def registerService (s : ServiceQtDBus) (dsmRegister : EntryPoint) : Option (Bool × ServiceQtDBus) := do
  let (ok, s) ← s.libFuncCall dsmRegister
  if ok then return (true, { s with toServiceBase := s.toServiceBase.registerService })
  else return (false, s)

def deleteHandle (s : ServiceQtDBus) : ServiceQtDBus :=
  match s.dbus with
  | some handle => { s with dbus := none, handles := s.handles.erase handle }
  | none => s

def unregisterService (s : ServiceQtDBus) (dsmUnRegister : EntryPoint) : Option (Bool × ServiceQtDBus) := do
  let (ok, s) ← s.deleteHandle.libFuncCall dsmUnRegister
  if ok then return (true, { s with toServiceBase := s.toServiceBase.unregisterService })
  else return (false, s)

end ServiceQtDBus

namespace QDBusServicePrivate

def new : ServiceQtDBus :=
  { ServiceQtDBus.new with toServiceBase := ServiceQtDBus.new.toServiceBase.registerService }

def initPolicy (policy : Policy) : ServiceQtDBus := { new with toServiceBase := new.toServiceBase.init policy }

def lockTimer (s : ServiceQtDBus) (lock : Bool) : ServiceQtDBus :=
  if lock then { s with m_isLockTimer := true, m_timer := s.m_timer.stop }
  else { s with m_isLockTimer := false, m_timer := s.m_timer.start }

end QDBusServicePrivate

structure ServiceSDBus extends ServiceBase where
  m_library : LibraryPtr

namespace ServiceSDBus

-- The constructor does not assign `m_library`.
def new : ServiceSDBus where
  toServiceBase := .new
  m_library := .wild

def libFuncCall (s : ServiceSDBus) (objFunc : EntryPoint) : Option (Bool × ServiceSDBus) :=
  if s.m_library = .null then some (false, s)
  else if s.m_library.valid then
    match objFunc with
    | .unresolved => some (false, { s with m_library := .scheduled })
    | .returns ret => some (ret = 0, s)
  else none

def registerService (s : ServiceSDBus) (dsmRegister : EntryPoint) : Option (Bool × ServiceSDBus) := do
  let (ok, s) ← s.libFuncCall dsmRegister
  if ok then return (true, { s with toServiceBase := s.toServiceBase.registerService })
  else return (false, s)

def unregisterService (s : ServiceSDBus) (dsmUnRegister : EntryPoint) : Option (Bool × ServiceSDBus) := do
  let (ok, s) ← s.libFuncCall dsmUnRegister
  if ok then return (true, { s with toServiceBase := s.toServiceBase.registerService })
  else return (false, s)

end ServiceSDBus

inductive Backend
  | ServiceQtDBus
  | ServiceSDBus
  deriving DecidableEq

inductive Service
  | qt (s : ServiceQtDBus)
  | sd (s : ServiceSDBus)

namespace Service

def base : Service → ServiceBase
  | .qt s => s.toServiceBase
  | .sd s => s.toServiceBase

def isRegister (s : Service) : Bool := s.base.m_isRegister

def registerService : Service → EntryPoint → Option (Bool × Service)
  | .qt s, dsmRegister => (s.registerService dsmRegister).map (Prod.map id .qt)
  | .sd s, dsmRegister => (s.registerService dsmRegister).map (Prod.map id .sd)

def unregisterService : Service → EntryPoint → Option (Bool × Service)
  | .qt s, dsmUnRegister => (s.unregisterService dsmUnRegister).map (Prod.map id .qt)
  | .sd s, dsmUnRegister => (s.unregisterService dsmUnRegister).map (Prod.map id .sd)

def hookRegisters (s : Service) : Bool := !s.isRegister

def mapBase (f : ServiceBase → ServiceBase) : Service → Service
  | .qt s => .qt { s with toServiceBase := f s.toServiceBase }
  | .sd s => .sd { s with toServiceBase := f s.toServiceBase }

-- `initThread` creates the library only when the file is one.
def openLibrary (isLibrary : Bool) : Service → Service
  | .qt s => .qt { s with m_library := if isLibrary then .live else s.m_library }
  | .sd s => .sd { s with m_library := if isLibrary then .live else s.m_library }

@[simp] theorem openLibrary_base (isLibrary : Bool) (s : Service) : (s.openLibrary isLibrary).base = s.base := by
  cases s <;> rfl

end Service

end DeepinServiceManager
