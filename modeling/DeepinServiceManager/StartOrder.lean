import Mathlib.Data.List.TakeWhile
import Mathlib.Logic.Function.Basic
import DeepinServiceManager.PluginLoader
import DeepinServiceManager.TransitionRuns

namespace DeepinServiceManager.StartOrder

open AcyclicRelations PluginLoader SortPolicy TransitionRuns

structure Plugin where
  isLibrary : Bool
  dsmRegister : EntryPoint

inductive Thread
  | absent
  | started
  | opened
  | calling
  | returned
  | ended
  deriving DecidableEq

/-- `pending` holds the policies that the loop of `loadByGroup` did not reach yet. -/
structure State where
  pending : List PolicyPtr
  thread : PolicyPtr → Thread

inductive Event
  | createService
  | busError (p : PolicyPtr)
  | openLibrary (p : PolicyPtr)
  | callRegister (p : PolicyPtr)
  | returnRegister (p : PolicyPtr)

section

variable (heap : PolicyPtr → Policy) (plugins : PolicyPtr → Plugin) (timerFires : ℤ → Bool)

-- Only the `sd` back end can leave `initThread` before it opens the library.
def step (s : State) : Event → Option State
  | .createService =>
    match s.pending with
    | [] => none
    | p :: rest =>
      if timerFires (startDelayMsec (heap p)) then
        some ⟨rest, if (createService (heap p)).isSome then Function.update s.thread p .started else s.thread⟩
      else none
  | .busError p =>
    if s.thread p = .started ∧ createService (heap p) = some .ServiceSDBus then
      some { s with thread := Function.update s.thread p .ended }
    else none
  | .openLibrary p =>
    if s.thread p = .started then
      some { s with thread := Function.update s.thread p (if (plugins p).isLibrary then .opened else .ended) }
    else none
  | .callRegister p =>
    if s.thread p = .opened then
      some { s with
        thread := Function.update s.thread p (if (plugins p).dsmRegister = .unresolved then .ended else .calling) }
    else none
  | .returnRegister p =>
    if s.thread p = .calling then some { s with thread := Function.update s.thread p .returned } else none

def init (sorted : List PolicyPtr) : State := ⟨sorted, fun _ => .absent⟩

def called (s : State) (p : PolicyPtr) : Bool := s.thread p = .calling || s.thread p = .returned

def Ordered (policys : List PolicyPtr) (s : State) : Prop :=
  ∀ p ∈ policys, called s p = true → ∀ d ∈ policys, (heap d).name ∈ (heap p).dependencies → s.thread d = .returned

instance (policys : List PolicyPtr) (s : State) : Decidable (Ordered heap policys s) :=
  inferInstanceAs (Decidable (∀ p ∈ policys, _ → ∀ d ∈ policys, _ → _))

def callable (p : PolicyPtr) : Bool :=
  (createService (heap p)).isSome && (plugins p).isLibrary && (plugins p).dsmRegister ≠ .unresolved

def Justified (done : List PolicyPtr) (p : PolicyPtr) : Thread → Prop
  | .absent => True
  | .started | .ended => p ∈ done ∧ (createService (heap p)).isSome = true
  | .opened => p ∈ done ∧ (createService (heap p)).isSome = true ∧ (plugins p).isLibrary = true
  | .calling | .returned => p ∈ done ∧ callable heap plugins p = true

structure Inv (sorted done : List PolicyPtr) (s : State) : Prop where
  sorted : sorted = done ++ s.pending
  fired : ∀ p ∈ done, timerFires (startDelayMsec (heap p)) = true
  thread : ∀ p, Justified heap plugins done p (s.thread p)

end

variable {heap : PolicyPtr → Policy} {plugins : PolicyPtr → Plugin} {timerFires : ℤ → Bool}

theorem Justified.mono {done done' : List PolicyPtr} (h : done ⊆ done') {p : PolicyPtr} {t : Thread}
    (ht : Justified heap plugins done p t) : Justified heap plugins done' p t := by
  cases t with
  | absent => exact ht
  | started | ended | opened | calling | returned => exact ⟨h ht.1, ht.2⟩

theorem Inv.update {sorted done : List PolicyPtr} {s : State} (h : Inv heap plugins timerFires sorted done s)
    {p : PolicyPtr} {t : Thread} (ht : Justified heap plugins done p t) :
    Inv heap plugins timerFires sorted done { s with thread := Function.update s.thread p t } :=
  ⟨h.sorted, h.fired, (Function.forall_update_iff s.thread (Justified heap plugins done)).mpr
    ⟨ht, fun q _ => h.thread q⟩⟩

theorem Inv.move {sorted done : List PolicyPtr} {s : State} (h : Inv heap plugins timerFires sorted done s)
    {p : PolicyPtr} {t t' : Thread} (hp : s.thread p = t)
    (hmove : Justified heap plugins done p t → Justified heap plugins done p t') :
    Inv heap plugins timerFires sorted done { s with thread := Function.update s.thread p t' } := by
  apply h.update
  apply hmove
  rw [← hp]
  exact h.thread p

theorem Inv.create {sorted done rest : List PolicyPtr} {s : State} {p : PolicyPtr}
    (h : Inv heap plugins timerFires sorted done s) (hpending : s.pending = p :: rest)
    (hfires : timerFires (startDelayMsec (heap p)) = true) :
    Inv heap plugins timerFires sorted (done ++ [p]) ⟨rest, s.thread⟩ := by
  refine ⟨by rw [h.sorted, hpending, List.append_assoc]; rfl, ?_, fun q => ?_⟩
  · simpa [or_imp, forall_and] using ⟨h.fired, hfires⟩
  · exact (h.thread q).mono (List.subset_append_left done [p])

theorem step_inv {sorted : List PolicyPtr} {s t : State} {e : Event}
    (h : ∃ done, Inv heap plugins timerFires sorted done s) (hstep : step heap plugins timerFires s e = some t) :
    ∃ done, Inv heap plugins timerFires sorted done t := by
  obtain ⟨done, h⟩ := h
  cases e with
  | createService =>
    simp only [step] at hstep
    split at hstep
    · cases hstep
    · rename_i p rest hpending
      split_ifs at hstep with hfires hservice <;> cases hstep
      · exact ⟨done ++ [p], (h.create hpending hfires).update ⟨by simp, hservice⟩⟩
      · exact ⟨done ++ [p], h.create hpending hfires⟩
  | busError p =>
    simp only [step] at hstep
    split_ifs at hstep with hp
    cases hstep
    exact ⟨done, h.move hp.1 id⟩
  | openLibrary p =>
    simp only [step] at hstep
    split_ifs at hstep with hp hlibrary <;> cases hstep
    · exact ⟨done, h.move hp (fun ht => ⟨ht.1, ht.2, hlibrary⟩)⟩
    · exact ⟨done, h.move hp id⟩
  | callRegister p =>
    simp only [step] at hstep
    split_ifs at hstep with hp hresolve <;> cases hstep
    · exact ⟨done, h.move hp (fun ht => ⟨ht.1, ht.2.1⟩)⟩
    · exact ⟨done, h.move hp (fun ht => ⟨ht.1, by simp [callable, ht.2, hresolve]⟩)⟩
  | returnRegister p =>
    simp only [step] at hstep
    split_ifs at hstep with hp
    cases hstep
    exact ⟨done, h.move hp id⟩

theorem reachable_inv {sorted : List PolicyPtr} {s : State}
    (h : Reachable (step heap plugins timerFires) (init sorted) s) :
    ∃ done, Inv heap plugins timerFires sorted done s := by
  apply h.invariant (fun s => ∃ done, Inv heap plugins timerFires sorted done s)
  · exact ⟨[], rfl, by simp, fun _ => trivial⟩
  · intro s e t hs hstep
    exact step_inv hs hstep

theorem reachable_called {sorted : List PolicyPtr} {s : State}
    (h : Reachable (step heap plugins timerFires) (init sorted) s) {p : PolicyPtr} (hp : called s p = true) :
    p ∈ startLoop timerFires heap sorted ∧ callable heap plugins p = true := by
  obtain ⟨done, hinv⟩ := reachable_inv h
  have hthread := hinv.thread p
  have hjust : p ∈ done ∧ callable heap plugins p = true := by
    simp only [called, Bool.or_eq_true, decide_eq_true_eq] at hp
    rcases hp with hp | hp <;> rw [hp] at hthread <;> exact hthread
  refine ⟨?_, hjust.2⟩
  rw [startLoop, hinv.sorted, List.takeWhile_append_of_pos hinv.fired]
  exact List.mem_append_left _ hjust.1

def startedThreads (heap : PolicyPtr → Policy) (done : List PolicyPtr) (p : PolicyPtr) : Thread :=
  if p ∈ done ∧ (createService (heap p)).isSome then .started else .absent

theorem reachable_started (plugins : PolicyPtr → Plugin) (done rest : List PolicyPtr)
    (hfires : ∀ p ∈ done, timerFires (startDelayMsec (heap p)) = true) :
    Reachable (step heap plugins timerFires) (init (done ++ rest)) ⟨rest, startedThreads heap done⟩ := by
  induction done using List.reverseRecOn generalizing rest with
  | nil =>
    have hthread : startedThreads heap [] = fun _ => .absent := by funext p; simp [startedThreads]
    rw [hthread]
    exact .refl
  | append_singleton done p ih =>
    have hprev := ih (p :: rest) (fun q hq => hfires q (List.mem_append_left _ hq))
    rw [List.append_assoc]
    refine hprev.tail (e := .createService) ?_
    simp only [step, hfires p (by simp), if_true, Option.some.injEq, State.mk.injEq, true_and]
    funext q
    by_cases hq : q = p
    · subst hq
      by_cases hservice : (createService (heap q)).isSome <;> simp [startedThreads, hservice]
    · by_cases hservice : (createService (heap p)).isSome <;> simp [startedThreads, hservice, hq]

theorem reachable_overtakes {sorted : List PolicyPtr} {p : PolicyPtr} (hp : p ∈ startLoop timerFires heap sorted)
    (hcallable : callable heap plugins p = true) :
    ∃ s, Reachable (step heap plugins timerFires) (init sorted) s ∧ called s p = true ∧
      ∀ d, s.thread d ≠ .returned := by
  set passed := startLoop timerFires heap sorted
  set rest := sorted.dropWhile (fun policy => timerFires (startDelayMsec (heap policy)))
  set threads := startedThreads heap passed with hthreads
  simp only [callable, Bool.and_eq_true, decide_eq_true_eq] at hcallable
  obtain ⟨⟨hservice, hlibrary⟩, hresolve⟩ := hcallable
  have hstarted : Reachable (step heap plugins timerFires) (init sorted) ⟨rest, threads⟩ := by
    have h := reachable_started plugins passed rest (fun q hq =>
      List.mem_takeWhile_imp (p := fun policy => timerFires (startDelayMsec (heap policy))) hq)
    rwa [show passed ++ rest = sorted from List.takeWhile_append_dropWhile] at h
  have hopen : step heap plugins timerFires ⟨rest, threads⟩ (.openLibrary p) =
      some ⟨rest, Function.update threads p .opened⟩ := by
    have hthread : threads p = .started := if_pos ⟨hp, hservice⟩
    simp [step, hthread, hlibrary]
  have hcall : step heap plugins timerFires ⟨rest, Function.update threads p .opened⟩ (.callRegister p) =
      some ⟨rest, Function.update threads p .calling⟩ := by
    simp [step, hresolve]
  refine ⟨_, (hstarted.tail hopen).tail hcall, by simp [called], fun d => ?_⟩
  by_cases hd : d = p
  · simp [hd]
  · simp only [Function.update_of_ne hd, hthreads, startedThreads]
    split_ifs <;> simp

theorem ordered_iff (heap : PolicyPtr → Policy) (policys : List PolicyPtr)
    (hnames : (policys.map (fun p => (heap p).name)).Nodup)
    (hdependencies : ∀ p ∈ policys, ∀ name ∈ (heap p).dependencies, ∃ d ∈ policys, (heap d).name = name)
    (hac : Acyclic (Depends heap policys)) (plugins : PolicyPtr → Plugin) (timerFires : ℤ → Bool) :
    ∀ sorted, sortPolicy heap policys = some sorted →
      ((∀ s, Reachable (step heap plugins timerFires) (init sorted) s → Ordered heap policys s) ↔
        ∀ p ∈ startLoop timerFires heap sorted, callable heap plugins p = true → (heap p).dependencies = []) := by
  intro sorted hsort
  have hperm : sorted.Perm policys := sortPolicy_perm hnames.of_map hac hsort
  constructor
  · intro hordered p hp hcallable
    obtain ⟨s, hreach, hcalled, hnone⟩ := reachable_overtakes hp hcallable
    have hmem : p ∈ policys := hperm.mem_iff.mp ((List.takeWhile_prefix _).subset hp)
    apply List.eq_nil_iff_forall_not_mem.mpr
    intro name hname
    obtain ⟨d, hd, rfl⟩ := hdependencies p hmem name hname
    exact hnone d (hordered s hreach p hmem hcalled d hd hname)
  · intro hnone s hreach p _ hcalled d _ hname
    obtain ⟨hp, hcallable⟩ := reachable_called hreach hcalled
    rw [hnone p hp hcallable] at hname
    cases hname

theorem ordered_without_entry : sortPolicy dependentHeap [0, 1] = some [1, 0] ∧ ∀ s,
    Reachable (step dependentHeap (fun p => ⟨true, if p = 0 then .unresolved else .returns 0⟩) (fun _ => true))
      (init [1, 0]) s → Ordered dependentHeap [0, 1] s := by
  have hsort : sortPolicy dependentHeap [0, 1] = some [1, 0] := by decide
  exact ⟨hsort, (ordered_iff dependentHeap [0, 1] (by decide) (by decide) dependentHeap_acyclic
    (fun p => ⟨true, if p = 0 then .unresolved else .returns 0⟩) (fun _ => true) [1, 0] hsort).mpr (by decide)⟩

theorem dependency_overtaken : sortPolicy dependentHeap [0, 1] = some [1, 0] ∧ ¬ ∀ s,
    Reachable (step dependentHeap (fun _ => ⟨true, .returns 0⟩) (fun _ => true)) (init [1, 0]) s →
      Ordered dependentHeap [0, 1] s := by
  refine ⟨by decide, fun h => ?_⟩
  have hrun : ¬ ∀ s ∈ visited (step dependentHeap (fun _ => ⟨true, .returns 0⟩) (fun _ => true)) (init [1, 0])
      [.createService, .createService, .openLibrary 0, .callRegister 0], Ordered dependentHeap [0, 1] s := by
    decide
  exact hrun fun s hs => h s (Reachable.of_visited .refl hs)

end DeepinServiceManager.StartOrder
