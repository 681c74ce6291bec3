import Mathlib.Data.List.Nodup
import Mathlib.Data.List.Count
import DeepinServiceManager.PluginProcess
import DeepinServiceManager.TransitionRuns

namespace DeepinServiceManager.PluginsMirror

open TransitionRuns GroupManager ListBuilding PluginProcess

def TakesOwn (s : State) (p : ℕ) (name : String) : Prop := (p, name) ∈ s.listed ∨ name ∉ s.m_plugins

def SignalGuarded (s : State) (p : ℕ) : List PluginSignal → Prop
  | .PluginRemoved name :: _ => TakesOwn s p name
  | _ => True

def ChangeGuarded (s : State) : List NameOwnerChanged → Prop
  | .lost name p :: _ => TakesOwn s p name ∧
      (.PluginAdded name ∈ (s.process p).signals → .PluginRemoved name ∈ (s.process p).signals)
  | _ => True

/-- The steps that keep the list right: a process that dies owns the names of all its plugins; a removal takes out
the entry of its own process; and the bus does not report a lost name before the process's own `PluginAdded`,
unless a `PluginRemoved` follows it. -/
def Guarded (s : State) : Event → Prop
  | .die p => ∀ name ∈ (s.process p).m_plugins, (p, name) ∈ s.owners
  | .deliver p => SignalGuarded s p (s.process p).signals
  | .deliverOwnerChange => ChangeGuarded s s.ownerChanges
  | _ => True

structure Inv (s : State) : Prop where
  counted : ∀ name, s.m_plugins.count name = (s.listed.map Prod.snd).count name
  listed_nodup : s.listed.Nodup
  loads_nodup : (s.loads.map Prod.snd).Nodup
  loads : ∀ p, (s.process p).phase = .running → ∀ name ∈ (s.process p).m_pluginMap, (p, name) ∈ s.loads
  process : ∀ p, ProcessInv (s.process p)
  linked : ∀ p name, Linked (s.process p) name (.lost name p ∈ s.ownerChanges) ((p, name) ∈ s.listed)

theorem removePlugin_lost (m_plugins : List String) (name : String) (p : ℕ) :
    onNameOwnerChanged m_plugins (.lost name p) = removePlugin m_plugins name := by
  rw [onNameOwnerChanged, removePlugin]
  cases m_plugins.contains name <;> rfl

theorem removePlugin_counted {m_plugins : List String} {listed : List (ℕ × String)} {p : ℕ} {name : String}
    (hcounted : ∀ x, m_plugins.count x = (listed.map Prod.snd).count x)
    (htakes : (p, name) ∈ listed ∨ name ∉ m_plugins) (x : String) :
    (removePlugin m_plugins name).count x = ((listed.erase (p, name)).map Prod.snd).count x := by
  by_cases hmem : (p, name) ∈ listed
  · have hname : name ∈ m_plugins := by
      rw [← List.count_pos_iff, hcounted, List.count_pos_iff]
      exact List.mem_map_of_mem hmem
    have hperm := ((List.perm_cons_erase hmem).map Prod.snd).count_eq x
    rw [List.map_cons, List.count_cons] at hperm
    rw [removePlugin, if_pos (by simpa using hname), List.count_erase, hcounted, hperm]
    exact Nat.add_sub_cancel _ _
  · have hname := htakes.resolve_left hmem
    rw [removePlugin, if_neg (by simpa using hname), List.erase_of_not_mem hmem]
    exact hcounted x

variable {s t : State}

theorem forall_setProcess {R : ℕ → Process → Prop} {p : ℕ} {P : Process} (hP : R p P)
    (hother : ∀ q, q ≠ p → R q (s.process q)) : ∀ q, R q ((s.setProcess p P).process q) :=
  (Function.forall_update_iff s.process R).mpr ⟨hP, hother⟩

theorem Inv.setProcess (h : Inv s) {p : ℕ} {P : Process} (hP : ProcessInv P)
    (hloads : P.phase = .running → ∀ name ∈ P.m_pluginMap, (p, name) ∈ s.loads)
    (hlinked : ∀ name, Linked P name (.lost name p ∈ s.ownerChanges) ((p, name) ∈ s.listed)) :
    Inv (s.setProcess p P) where
  counted := h.counted
  listed_nodup := h.listed_nodup
  loads_nodup := h.loads_nodup
  loads := forall_setProcess (R := fun q Q => Q.phase = .running → ∀ name ∈ Q.m_pluginMap, (q, name) ∈ s.loads)
    hloads fun q _ => h.loads q
  process := forall_setProcess (R := fun _ Q => ProcessInv Q) hP fun q _ => h.process q
  linked := forall_setProcess
    (R := fun q Q => ∀ name, Linked Q name (NameOwnerChanged.lost name q ∈ s.ownerChanges) ((q, name) ∈ s.listed))
    hlinked fun q _ => h.linked q

theorem launch_inv (h : Inv s) {p : ℕ} (hphase : (s.process p).phase = .unborn) :
    Inv (s.setProcess p { s.process p with phase := .running }) := by
  have hP := h.process p
  have hempty := hP.unborn hphase
  apply h.setProcess
  · exact { hP with unborn := fun hrunning => nomatch hrunning }
  · simp [hempty]
  · intro name
    have hlinked := h.linked p name
    refine ⟨hlinked.known, hlinked.unlisted, fun _ hname => ?_, fun hl => ?_, fun hflight => ?_⟩
    · simpa [hempty] using hP.plugins name hname
    · rcases hl with hl | hl
      · simpa [hempty] using hlinked.known hl
      · simpa [hempty] using hP.added name hl
    · have hdead := hlinked.dead hflight
      rw [hphase] at hdead
      cases hdead

theorem addPlugin_inv (h : Inv s) {p : ℕ} {name : String} (hphase : (s.process p).phase = .running)
    (hload : (p, name) ∈ s.loads) (hnew : name ∉ (s.process p).m_pluginMap) :
    Inv (s.setProcess p ((s.process p).pluginAdded name)) := by
  apply h.setProcess ((h.process p).pluginAdded hphase hnew)
  · intro _ x hx
    rcases List.mem_append.mp hx with hx | hx
    · exact h.loads p hphase x hx
    · rw [List.mem_singleton.mp hx]
      exact hload
  · intro x
    by_cases hx : x = name
    · subst hx
      exact (h.linked p x).pluginAdded hphase hnew
    · exact (h.linked p x).pluginAdded_other hx

theorem idleSignal_inv (h : Inv s) {p : ℕ} {name : String} (hname : name ∈ (s.process p).m_plugins) :
    Inv (s.setProcess p ((s.process p).pluginRemoved name)) := by
  apply h.setProcess ((h.process p).pluginRemoved hname) (h.loads p)
  intro x
  by_cases hx : x = name
  · subst hx
    exact (h.linked p x).pluginRemoved (h.process p).plugins_nodup
  · exact (h.linked p x).pluginRemoved_other hx

theorem die_inv (h : Inv s) {p : ℕ} (howned : ∀ name ∈ (s.process p).m_plugins, (p, name) ∈ s.owners)
    (hstep : step s (.die p) = some t) : Inv t := by
  simp only [step] at hstep
  split_ifs at hstep
  cases hstep
  refine ⟨h.counted, h.listed_nodup, h.loads_nodup.sublist (List.filter_sublist.map Prod.snd), ?_, ?_, ?_⟩
  · apply forall_setProcess (R := fun q Q => Q.phase = .running → ∀ name ∈ Q.m_pluginMap,
      (q, name) ∈ s.loads.filter (fun load => load.1 ≠ p))
    · exact fun hdead => nomatch hdead
    · exact fun q hq hrunning x hx => List.mem_filter.mpr ⟨h.loads q hrunning x hx, by simpa using hq⟩
  · apply forall_setProcess (R := fun _ Q => ProcessInv Q)
    · exact { h.process p with unborn := fun hdead => nomatch hdead }
    · exact fun q _ => h.process q
  · apply forall_setProcess (R := fun q Q => ∀ name, Linked Q name (NameOwnerChanged.lost name q ∈
      s.ownerChanges ++ (s.owners.filter (fun owner => owner.1 = p)).map (fun owner => NameOwnerChanged.lost owner.2 p))
      ((q, name) ∈ s.listed))
    · intro x
      have hlinked := h.linked p x
      refine ⟨hlinked.known, hlinked.unlisted, (fun hdead => nomatch hdead), fun hl => .inr ?_, fun _ => rfl⟩
      rcases hlinked.leaving hl with ⟨-, hx⟩ | hremoved | hlost
      · exact .inr (by simp [howned x hx])
      · exact .inl hremoved
      · exact .inr (List.mem_append_left _ hlost)
    · exact fun q hq x => (h.linked q x).congr (by simp [Ne.symm hq]) Iff.rfl

theorem mem_erase_other {listed : List (ℕ × String)} {p q : ℕ} {name x : String} (hne : q ≠ p ∨ x ≠ name) :
    (q, x) ∈ listed.erase (p, name) ↔ (q, x) ∈ listed :=
  List.mem_erase_of_ne (by simpa [Prod.ext_iff, or_iff_not_imp_left] using hne)

theorem deliver_inv (h : Inv s) {p : ℕ} (hguard : Guarded s (.deliver p)) (hstep : step s (.deliver p) = some t) :
    Inv t := by
  simp only [step] at hstep
  simp only [Guarded] at hguard
  split at hstep
  · cases hstep
  rename_i signal rest hsignals
  rw [hsignals] at hguard
  cases hstep
  have hprocess := forall_setProcess (p := p) (R := fun _ Q => ProcessInv Q) ((h.process p).tail hsignals)
    fun q _ => h.process q
  have hloads := forall_setProcess (p := p) (P := { s.process p with signals := rest })
    (R := fun q Q => Q.phase = .running → ∀ x ∈ Q.m_pluginMap, (q, x) ∈ s.loads) (h.loads p) fun q _ => h.loads q
  cases signal with
  | PluginAdded name =>
    have hunlisted : (p, name) ∉ s.listed := (h.linked p name).unlisted (by simp [hsignals])
    refine ⟨fun x => ?_, nodup_snoc h.listed_nodup hunlisted, h.loads_nodup, hloads, hprocess, ?_⟩
    · simp [deliverSignal, State.setProcess, addPlugin, List.count_append, h.counted]
    · apply forall_setProcess (R := fun q Q => ∀ x, Linked Q x (NameOwnerChanged.lost x q ∈ s.ownerChanges)
        ((q, x) ∈ s.listed ++ [(p, name)]))
      · intro x
        by_cases hx : x = name
        · subst hx
          exact (h.linked p x).deliverAdded (h.process p) hsignals (by simp)
        · exact ((h.linked p x).tail hsignals (by simpa using Ne.symm hx) (by simp)).congr Iff.rfl (by simp [hx])
      · exact fun q hq x => (h.linked q x).congr Iff.rfl (by simp [hq])
  | PluginRemoved name =>
    refine ⟨fun x => removePlugin_counted h.counted hguard x, h.listed_nodup.erase _, h.loads_nodup, hloads, hprocess,
      ?_⟩
    apply forall_setProcess (R := fun q Q => ∀ x, Linked Q x (NameOwnerChanged.lost x q ∈ s.ownerChanges)
      ((q, x) ∈ s.listed.erase (p, name)))
    · intro x
      by_cases hx : x = name
      · subst hx
        exact (h.linked p x).deliverRemoved (h.process p) hsignals h.listed_nodup.not_mem_erase
      · exact ((h.linked p x).tail hsignals (by simp) (by simpa using Ne.symm hx)).congr Iff.rfl
          (mem_erase_other (.inr hx))
    · exact fun q hq x => (h.linked q x).congr Iff.rfl (mem_erase_other (.inl hq))

theorem deliverOwnerChange_inv (h : Inv s) (hguard : Guarded s .deliverOwnerChange)
    (hstep : step s .deliverOwnerChange = some t) : Inv t := by
  simp only [step] at hstep
  simp only [Guarded] at hguard
  split at hstep
  · cases hstep
  rename_i change rest hchanges
  rw [hchanges] at hguard
  cases hstep
  cases change with
  | acquired name owner =>
    refine ⟨h.counted, h.listed_nodup, h.loads_nodup, h.loads, h.process, fun q x => ?_⟩
    exact (h.linked q x).congr (by simp [deliverChange, hchanges]) Iff.rfl
  | lost name p =>
    obtain ⟨htakes, hfollowed⟩ := hguard
    refine ⟨fun x => ?_, h.listed_nodup.erase _, h.loads_nodup, h.loads, h.process, fun q x => ?_⟩
    · simp only [deliverChange, removePlugin_lost]
      exact removePlugin_counted h.counted htakes x
    · by_cases hsame : q = p ∧ x = name
      · obtain ⟨rfl, rfl⟩ := hsame
        refine (h.linked q x).deliverLost (by simp [hchanges]) h.listed_nodup.not_mem_erase hfollowed fun hmem => ?_
        exact hchanges ▸ List.mem_cons_of_mem _ hmem
      · rw [not_and_or] at hsame
        refine (h.linked q x).congr ?_ (mem_erase_other hsame)
        rw [hchanges]
        refine ⟨List.mem_cons_of_mem _, fun hmem => (List.mem_cons.mp hmem).resolve_left fun heq => ?_⟩
        cases heq
        simp at hsame

theorem createService_inv (h : Inv s) {p : ℕ} {name : String} (hnew : name ∉ s.loads.map Prod.snd) :
    Inv { s with loads := s.loads ++ [(p, name)] } := by
  refine ⟨h.counted, h.listed_nodup, ?_, fun q hrunning x hx => ?_, h.process, h.linked⟩
  · rw [List.map_append]
    exact nodup_snoc h.loads_nodup hnew
  · exact List.mem_append_left _ (h.loads q hrunning x hx)

theorem registerService_inv (h : Inv s) (owners : List (ℕ × String)) (name : String) (p : ℕ) :
    Inv { s with owners := owners, ownerChanges := s.ownerChanges ++ [.acquired name p] } :=
  ⟨h.counted, h.listed_nodup, h.loads_nodup, h.loads, h.process,
    fun q x => (h.linked q x).congr (by simp) Iff.rfl⟩

theorem step_inv {e : Event} (h : Inv s) (hguard : Guarded s e) (hstep : step s e = some t) : Inv t := by
  cases e with
  | launch p =>
    simp only [step] at hstep
    split_ifs at hstep with hphase
    cases hstep
    exact launch_inv h hphase
  | registerGroup p =>
    simp only [step] at hstep
    split_ifs at hstep with hphase
    cases hstep
    have hlinked := h.linked p
    exact h.setProcess { h.process p with } (h.loads p) fun name => { hlinked name with }
  | createService p name =>
    simp only [step] at hstep
    split_ifs at hstep with hnew
    cases hstep
    exact createService_inv h hnew.2.2
  | addPlugin p name =>
    simp only [step] at hstep
    split_ifs at hstep with hnew
    cases hstep
    exact addPlugin_inv h hnew.1 hnew.2.1 hnew.2.2
  | registerService p name =>
    simp only [step] at hstep
    split_ifs at hstep
    cases hstep
    exact registerService_inv h _ name p
  | idleSignal p name =>
    simp only [step] at hstep
    split_ifs at hstep with hname
    cases hstep
    exact idleSignal_inv h hname.2
  | die p => exact die_inv h hguard hstep
  | deliver p => exact deliver_inv h hguard hstep
  | deliverOwnerChange => exact deliverOwnerChange_inv h hguard hstep

theorem init_inv : Inv init := by
  refine ⟨fun _ => rfl, List.nodup_nil, List.nodup_nil, fun _ h _ _ => (nomatch h), fun _ => ?_, fun _ name => ?_⟩
  · exact ⟨fun _ => rfl, List.nodup_nil, by simp [init], List.nodup_nil, List.Pairwise.nil, by simp [init],
      by simp [init]⟩
  · constructor <;> simp [init]

theorem Inv.listed_iff (h : Inv s) (hquiet : Quiet s) {p : ℕ} {name : String} :
    (p, name) ∈ s.listed ↔ (s.process p).phase = .running ∧ name ∈ (s.process p).m_plugins := by
  have hlinked := h.linked p name
  constructor
  · intro hl
    simpa [hquiet.1 p, hquiet.2] using hlinked.leaving (.inl hl)
  · rintro ⟨hrunning, hname⟩
    simpa [hquiet.1 p] using hlinked.present hrunning hname

theorem Inv.running_unique (h : Inv s) {p q : ℕ} {name : String} (hp : (s.process p).phase = .running)
    (hq : (s.process q).phase = .running) (hpname : name ∈ (s.process p).m_plugins)
    (hqname : name ∈ (s.process q).m_plugins) : q = p := by
  have hpload := h.loads p hp name ((h.process p).plugins name hpname)
  have hqload := h.loads q hq name ((h.process q).plugins name hqname)
  exact congrArg Prod.fst (List.inj_on_of_nodup_map h.loads_nodup hqload hpload rfl)

theorem Inv.mirrors (h : Inv s) (hquiet : Quiet s) : Mirrors s := by
  intro name
  rw [← List.count_eq_zero, h.counted]
  constructor
  · intro p hrunning hname
    have hmem : (p, name) ∈ s.listed := (h.listed_iff hquiet).mpr ⟨hrunning, hname⟩
    rw [List.count, List.countP_map, ← List.count_eq_one_of_mem h.listed_nodup hmem, List.count]
    apply List.countP_congr
    rintro ⟨q, x⟩ hl
    simp only [Function.comp_apply, beq_iff_eq, Prod.mk.injEq]
    constructor
    · rintro rfl
      obtain ⟨hq, hqname⟩ := (h.listed_iff hquiet).mp hl
      exact ⟨h.running_unique hrunning hq hname hqname, rfl⟩
    · exact And.right
  · intro hnone
    rw [List.count_eq_zero]
    rintro hmem
    obtain ⟨⟨p, x⟩, hl, rfl⟩ := List.mem_map.mp hmem
    obtain ⟨hrunning, hname⟩ := (h.listed_iff hquiet).mp hl
    exact hnone p hrunning hname

theorem guarded_mirrors (events : List Event) (hguard : ∀ p ∈ taken step init events, Guarded p.1 p.2) :
    ∀ s ∈ visited step init events, Quiet s → Mirrors s := by
  intro s hs hquiet
  have hinv := visited_invariant Inv Guarded (fun _ _ _ h hg hstep => step_inv h hg hstep) init_inv events hguard s hs
  exact hinv.mirrors hquiet

instance (s : State) (p : ℕ) (name : String) : Decidable (TakesOwn s p name) := inferInstanceAs (Decidable (_ ∨ _))

instance (s : State) (p : ℕ) : (signals : List PluginSignal) → Decidable (SignalGuarded s p signals)
  | .PluginRemoved name :: _ => inferInstanceAs (Decidable (TakesOwn s p name))
  | .PluginAdded _ :: _ | [] => inferInstanceAs (Decidable True)

instance (s : State) : (changes : List NameOwnerChanged) → Decidable (ChangeGuarded s changes)
  | .lost _ _ :: _ => inferInstanceAs (Decidable (_ ∧ _))
  | .acquired _ _ :: _ | [] => inferInstanceAs (Decidable True)

instance (s : State) : (e : Event) → Decidable (Guarded s e)
  | .die p => inferInstanceAs (Decidable (∀ name ∈ (s.process p).m_plugins, _))
  | .deliver p => inferInstanceAs (Decidable (SignalGuarded s p (s.process p).signals))
  | .deliverOwnerChange => inferInstanceAs (Decidable (ChangeGuarded s s.ownerChanges))
  | .launch _ | .registerGroup _ | .createService _ _ | .addPlugin _ _ | .registerService _ _ | .idleSignal _ _ =>
    inferInstanceAs (Decidable True)

-- A process that owns its name is killed, and a second one adds the plugin again and then goes idle.
def restartRun : List Event :=
  [.launch 0, .registerGroup 0, .createService 0 "demo", .addPlugin 0 "demo", .registerService 0 "demo", .deliver 0,
    .deliverOwnerChange, .die 0, .deliverOwnerChange, .launch 1, .registerGroup 1, .createService 1 "demo",
    .registerService 1 "demo", .addPlugin 1 "demo", .deliverOwnerChange, .deliver 1, .idleSignal 1 "demo", .deliver 1]

theorem restart_mirrors : (visited step init restartRun).length = 19 ∧
    ∀ s ∈ visited step init restartRun, Quiet s → Mirrors s :=
  ⟨by decide, guarded_mirrors restartRun (by decide)⟩

def staleRun : List Event :=
  [.launch 0, .registerGroup 0, .createService 0 "demo", .addPlugin 0 "demo", .deliver 0, .die 0]

theorem stale_not_mirrored : ¬ ∀ s ∈ visited step init staleRun, Quiet s → Mirrors s := by
  intro h
  have hne : visited step init staleRun ≠ [] := by decide
  set last := (visited step init staleRun).getLast hne
  have hquiet : Quiet last := by
    refine ⟨fun p => ?_, rfl⟩
    cases p <;> rfl
  have hnone : ∀ p, (last.process p).phase = .running → "demo" ∉ (last.process p).m_plugins := by
    intro p hrunning
    cases p <;> cases hrunning
  have hplugins : last.m_plugins = ["demo"] := rfl
  exact (h last (List.getLast_mem hne) hquiet "demo").2 hnone (by simp [hplugins])

end DeepinServiceManager.PluginsMirror
