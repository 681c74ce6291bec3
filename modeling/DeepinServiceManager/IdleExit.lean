import Mathlib.Logic.Function.Basic
import DeepinServiceManager.ConfigScans
import DeepinServiceManager.IdleTimer

namespace DeepinServiceManager.IdleExit

open ConfigScans PluginLoader TransitionRuns

inductive Launch
  | group (group : String)
  | name (name : String)

/-- A plugin process: the policies its loader has still to start, the services it created, and the emissions of
`idleSignal` that wait for the handler in the main thread. -/
structure State where
  pending : List PolicyPtr
  created : List PolicyPtr
  service : PolicyPtr → IdleTimer.State
  idleQueue : List PolicyPtr

inductive Event
  | createService
  | service (p : PolicyPtr) (e : IdleTimer.Event)
  | idleHandler

def loaded (host : Host) (type : BusType) (memory memory' memory'' : PolicyPtr → Uninitialised)
    (timerFires : ℤ → Bool) : Launch → Option Loaded
  | .group group => PluginManager.loadByGroup host type memory'' timerFires group
  | .name name => some (((PluginManager.loadByName host type memory memory' memory'' name).map Prod.snd).getD ⟨[], []⟩)

def init (loaded : Loaded) : State where
  pending := loaded.created
  created := []
  service := fun _ => ⟨.qt .new, false, 0, 0⟩
  idleQueue := []

-- `addPlugin` connects the handler, which quits the process.
def emits (heap : PolicyPtr → Policy) (p : PolicyPtr) : IdleTimer.Event → List PolicyPtr
  | .timeout _ => if addsPlugin (heap p) then [p] else []
  | _ => []

def step (heap : PolicyPtr → Policy) (s : State) : Event → Option State
  | .createService =>
    match s.pending with
    | [] => none
    | p :: rest =>
      match createService (heap p) with
      | none => some { s with pending := rest }
      | some backend => some { s with
          pending := rest
          created := s.created ++ [p]
          service := Function.update s.service p (IdleTimer.start backend.kind (heap p)) }
  | .service p e =>
    match createService (heap p) with
    | none => none
    | some backend =>
      if p ∈ s.created then do
        let t ← IdleTimer.step backend.kind (heap p) (s.service p) e
        return { s with service := Function.update s.service p t, idleQueue := s.idleQueue ++ emits heap p e }
      else none
  | .idleHandler =>
    match s.idleQueue with
    | [] => none
    | _ :: rest => some { s with idleQueue := rest }

structure Inv (heap : PolicyPtr → Policy) (s : State) : Prop where
  alone : ∀ p ∈ s.created ++ s.pending, (heap p).isResident = false → s.created ++ s.pending = [p]
  idle : ∀ p ∈ s.created, (heap p).isResident = true → IdleTimer.Idle (s.service p)
  queue : ∀ p ∈ s.idleQueue, p ∈ s.created ∧ (heap p).isResident = false

variable {heap : PolicyPtr → Policy} {s t : State}

theorem step_guarded {backend : Backend} {policy : Policy} {u v : IdleTimer.State} {e : IdleTimer.Event}
    (h : IdleTimer.step backend.kind policy u e = some v) : IdleTimer.Guarded u e := by
  rintro rfl
  cases backend <;> simp [IdleTimer.step, Backend.kind] at h

theorem idle_no_timeout {kind : ServiceKind} {policy : Policy} {u v : IdleTimer.State} {e : IdleTimer.Event}
    (hu : IdleTimer.Idle u) (h : IdleTimer.step kind policy u e = some v) (heap : PolicyPtr → Policy)
    (p : PolicyPtr) : emits heap p e = [] := by
  cases e with
  | timeout dsmUnRegister => simp [IdleTimer.step, hu.quiet.1] at h
  | _ => rfl

theorem update_idle {l : List PolicyPtr} {service : PolicyPtr → IdleTimer.State} {p : PolicyPtr} {u : IdleTimer.State}
    (hl : ∀ q ∈ l, q ≠ p → (heap q).isResident = true → IdleTimer.Idle (service q))
    (hu : (heap p).isResident = true → IdleTimer.Idle u) :
    ∀ q ∈ l, (heap q).isResident = true → IdleTimer.Idle (Function.update service p u q) := by
  intro q hq hresident
  by_cases hqp : q = p
  · subst hqp
    rw [Function.update_self]
    exact hu hresident
  · rw [Function.update_of_ne hqp]
    exact hl q hq hqp hresident

theorem createService_inv {p : PolicyPtr} {rest : List PolicyPtr} (hs : Inv heap s) (hpending : s.pending = p :: rest)
    (backend : Backend) : Inv heap { s with
      pending := rest
      created := s.created ++ [p]
      service := Function.update s.service p (IdleTimer.start backend.kind (heap p)) } := by
  have happend : s.created ++ [p] ++ rest = s.created ++ s.pending := by simp [hpending]
  constructor
  · simpa only [happend] using hs.alone
  · apply update_idle
    · intro q hq hqp hresident
      exact hs.idle q (by simpa [hqp] using hq) hresident
    · exact fun _ => IdleTimer.start_idle _ _
  · exact fun q hq => ⟨List.mem_append_left _ (hs.queue q hq).1, (hs.queue q hq).2⟩

theorem skip_inv {p : PolicyPtr} {rest : List PolicyPtr} (hs : Inv heap s) (hpending : s.pending = p :: rest) :
    Inv heap { s with pending := rest } := by
  refine ⟨fun q hq hdemand => ?_, hs.idle, hs.queue⟩
  have hsub : (s.created ++ rest).Sublist (s.created ++ s.pending) := by
    rw [hpending]
    exact (List.Sublist.refl _).append (List.sublist_cons_self p rest)
  have hall := hs.alone q (hsub.subset hq) hdemand
  rw [hall] at hsub
  have hlen := hsub.length_le
  exact hsub.eq_of_length (le_antisymm hlen (List.length_pos_of_mem hq))

theorem service_inv {p : PolicyPtr} {e : IdleTimer.Event} {backend : Backend} {u : IdleTimer.State} (hs : Inv heap s)
    (hp : p ∈ s.created) (h : IdleTimer.step backend.kind (heap p) (s.service p) e = some u) :
    Inv heap { s with service := Function.update s.service p u, idleQueue := s.idleQueue ++ emits heap p e } := by
  constructor
  · exact hs.alone
  · apply update_idle
    · exact fun q hq _ hresident => hs.idle q hq hresident
    · exact fun hresident => IdleTimer.step_idle hresident (hs.idle p hp hresident) (step_guarded h) h
  · intro q hq
    rcases List.mem_append.mp hq with hq | hq
    · exact hs.queue q hq
    · cases hresident : (heap p).isResident with
      | true =>
        rw [idle_no_timeout (hs.idle p hp hresident) h] at hq
        cases hq
      | false =>
        obtain rfl : q = p := by
          cases e <;> simp [emits] at hq
          exact hq.2
        exact ⟨hp, hresident⟩

theorem step_inv {e : Event} (hs : Inv heap s) (h : step heap s e = some t) : Inv heap t := by
  cases e with
  | createService =>
    cases hpending : s.pending with
    | nil => simp [step, hpending] at h
    | cons p rest =>
      cases hcreate : createService (heap p) with
      | none =>
        simp only [step, hpending, hcreate, Option.some.injEq] at h
        exact h ▸ skip_inv hs hpending
      | some backend =>
        simp only [step, hpending, hcreate, Option.some.injEq] at h
        exact h ▸ createService_inv hs hpending backend
  | service p e =>
    cases hcreate : createService (heap p) with
    | none => simp [step, hcreate] at h
    | some backend =>
      simp only [step, hcreate] at h
      split_ifs at h with hp
      obtain ⟨u, hu, h⟩ := Option.bind_eq_some_iff.mp h
      cases h
      exact service_inv hs hp hu
  | idleHandler =>
    cases hqueue : s.idleQueue with
    | nil => simp [step, hqueue] at h
    | cons q rest =>
      simp only [step, hqueue, Option.some.injEq] at h
      subst h
      exact ⟨hs.alone, hs.idle, fun p hp => hs.queue p (hqueue ▸ List.mem_cons_of_mem _ hp)⟩

theorem idleHandler_alone (hs : Inv heap s) (h : step heap s .idleHandler = some t) :
    ∃ q, s.idleQueue.head? = some q ∧ (heap q).isResident = false ∧ s.created = [q] := by
  cases hqueue : s.idleQueue with
  | nil => simp [step, hqueue] at h
  | cons q rest =>
    obtain ⟨hcreated, hdemand⟩ := hs.queue q (by simp [hqueue])
    refine ⟨q, rfl, hdemand, ?_⟩
    have hall := hs.alone q (List.mem_append_left _ hcreated) hdemand
    cases hlist : s.created with
    | nil => simp [hlist] at hcreated
    | cons a l =>
      rw [hlist, List.cons_append, List.cons.injEq, List.append_eq_nil_iff] at hall
      rw [hall.1, hall.2.1]

theorem loadByName_single {host : Host} {loader : PluginLoader} {memory : PolicyPtr → Uninitialised} {name : String}
    {p : PolicyPtr} (hp : p ∈ (loader.loadByName host memory name).created) :
    (loader.loadByName host memory name).created = [p] := by
  have hfile := mem_loadByName.mp hp
  rw [PluginLoader.loadByName, hfile]

theorem loaded_alone (host : Host) (type : BusType) (memory memory' memory'' : PolicyPtr → Uninitialised)
    (timerFires : ℤ → Bool) (launch : Launch) {l : Loaded}
    (hload : loaded host type memory memory' memory'' timerFires launch = some l) :
    ∀ p ∈ l.created, (parsedPolicys (host.configDir type) memory'' p).isResident = false → l.created = [p] := by
  intro p hp hdemand
  cases launch with
  | group group =>
    have hresident := (groupAccepts_iff.mp (mem_groupPolicys.mp (loadByGroup_created hload hp).1).2).2.1
    rw [hdemand] at hresident
    cases hresident
  | name name =>
    obtain rfl := Option.some.inj hload
    simp only [PluginManager.loadByName] at hp ⊢
    by_cases hgroup : (getGroup host ⟨type, false⟩ memory name).isEmpty = true
    · simp [hgroup] at hp
    · simp only [hgroup, if_false, Bool.false_eq_true, Option.map_some, Option.getD_some] at hp ⊢
      exact loadByName_single hp

theorem idle_exit_alone (host : Host) (type : BusType) (memory memory' memory'' : PolicyPtr → Uninitialised)
    (timerFires : ℤ → Bool) (launch : Launch) (events : List Event) :
    let heap := parsedPolicys (host.configDir type) memory''
    ∀ l, loaded host type memory memory' memory'' timerFires launch = some l →
      ∀ p ∈ taken (step heap) (init l) events, p.2 = .idleHandler →
        ∃ q, p.1.idleQueue.head? = some q ∧ (heap q).isResident = false ∧ p.1.created = [q] := by
  intro heap l hload p hp hidle
  have halone := loaded_alone host type memory memory' memory'' timerFires launch hload
  obtain ⟨hvisited, t, hstep⟩ := mem_taken hp
  have hinit : Inv heap (init l) := ⟨halone, fun _ hq => (nomatch hq), fun _ hq => (nomatch hq)⟩
  have hinv := Reachable.invariant (Inv heap) (Reachable.refl.of_visited hvisited) hinit
    (fun _ _ _ hs h => step_inv hs h)
  rw [hidle] at hstep
  exact idleHandler_alone hinv hstep

def demandFile : QFileInfo := configFile [("name", .string "demo"), ("pluginType", .string "qt"),
  ("pluginPath", .string "libdemo.so"), ("startType", .string "OnDemand")]

def demandRun : List Event :=
  [.createService, .service 0 (.initThread true (.returns 0)),
    .service 0 (.message "/demo" ⟨"/demo", "org.demo", "Hello"⟩ (.returns 0)), .service 0 .restartTimer,
    .service 0 (.timeout (.returns 0)), .idleHandler]

theorem idle_exit_alone_demand :
    let heap := parsedPolicys [demandFile] (fun _ => ⟨.QT, 0, 0⟩)
    (taken (step heap) (init ⟨[0], [0]⟩) demandRun).length = 6 ∧
      ∀ p ∈ taken (step heap) (init ⟨[0], [0]⟩) demandRun, p.2 = .idleHandler →
        ∃ q, p.1.idleQueue.head? = some q ∧ (heap q).isResident = false ∧ p.1.created = [q] := by
  intro heap
  exact ⟨by decide +kernel, idle_exit_alone (sampleHost "x11" [demandFile]) .SessionBus (fun _ => ⟨.QT, 0, 0⟩)
    (fun _ => ⟨.QT, 0, 0⟩) (fun _ => ⟨.QT, 0, 0⟩) (fun _ => true) (.name "demo") demandRun ⟨[0], [0]⟩
    (by decide +kernel)⟩

end DeepinServiceManager.IdleExit
