import Mathlib.Data.List.Basic

/-! Runs of a machine given by a partial step function, and the rules that carry a fact along a run. -/

namespace DeepinServiceManager.TransitionRuns

variable {σ ε : Type*}

/-- The states of the run of a list of events. The run ends at the first event that is not enabled. -/
def visited (step : σ → ε → Option σ) (s : σ) : List ε → List σ
  | [] => [s]
  | e :: es => s :: match step s e with
    | none => []
    | some t => visited step t es

def taken (step : σ → ε → Option σ) (s : σ) : List ε → List (σ × ε)
  | [] => []
  | e :: es => match step s e with
    | none => []
    | some t => (s, e) :: taken step t es

inductive Reachable (step : σ → ε → Option σ) (init : σ) : σ → Prop
  | refl : Reachable step init init
  | tail {s t : σ} {e : ε} : Reachable step init s → step s e = some t → Reachable step init t

variable {step : σ → ε → Option σ}

theorem Reachable.invariant (I : σ → Prop) {init s : σ} (h : Reachable step init s) (hinit : I init)
    (hstep : ∀ s e t, I s → step s e = some t → I t) : I s := by
  induction h with
  | refl => exact hinit
  | tail _ he ih => exact hstep _ _ _ ih he

theorem Reachable.trans {init s t : σ} (h : Reachable step init s) (ht : Reachable step s t) :
    Reachable step init t := by
  induction ht with
  | refl => exact h
  | tail _ he ih => exact ih.tail he

/-- A machine runs a fold in the option monad when it can follow each of its steps. -/
theorem Reachable.foldlM {τ α : Type*} (f : τ → α → Option τ) (R : List α → τ → σ → Prop)
    (hstep : ∀ x l a b s, R (x :: l) a s → f a x = some b → ∃ t, Reachable step s t ∧ R l b t) {l : List α} {a b : τ}
    (h : l.foldlM f a = some b) {s : σ} (hs : R l a s) : ∃ t, Reachable step s t ∧ R [] b t := by
  induction l generalizing a s with
  | nil =>
    cases h
    exact ⟨s, .refl, hs⟩
  | cons x l ih =>
    rw [List.foldlM_cons] at h
    obtain ⟨c, hc, h⟩ := Option.bind_eq_some_iff.mp h
    obtain ⟨t, ht, hR⟩ := hstep x l a c s hs hc
    obtain ⟨u, hu, hR'⟩ := ih h hR
    exact ⟨u, ht.trans hu, hR'⟩

theorem Reachable.foldlM_range {τ : Type*} (f : τ → ℕ → Option τ) (R : ℕ → τ → σ → Prop) {n : ℕ}
    (hstep : ∀ i < n, ∀ a b s, R i a s → f a i = some b → ∃ t, Reachable step s t ∧ R (i + 1) b t) {a b : τ}
    (h : (List.range n).foldlM f a = some b) {s : σ} (hs : R 0 a s) : ∃ t, Reachable step s t ∧ R n b t := by
  induction n generalizing b with
  | zero =>
    cases h
    exact ⟨s, .refl, hs⟩
  | succ n ih =>
    rw [List.range_succ, List.foldlM_append] at h
    obtain ⟨c, hc, h⟩ := Option.bind_eq_some_iff.mp h
    rw [List.foldlM_cons] at h
    obtain ⟨d, hd, h⟩ := Option.bind_eq_some_iff.mp h
    cases h
    obtain ⟨t, ht, hR⟩ := ih (fun i hi => hstep i (Nat.lt_succ_of_lt hi)) hc
    obtain ⟨u, hu, hR'⟩ := hstep n (Nat.lt_succ_self n) c b t hR hd
    exact ⟨u, ht.trans hu, hR'⟩

theorem Reachable.of_visited {init s t : σ} (hs : Reachable step init s) {es : List ε} (ht : t ∈ visited step s es) :
    Reachable step init t := by
  induction es generalizing s with
  | nil =>
    rw [visited, List.mem_singleton] at ht
    exact ht ▸ hs
  | cons e es ih =>
    cases he : step s e with
    | none =>
      simp only [visited, he, List.mem_singleton] at ht
      exact ht ▸ hs
    | some u =>
      simp only [visited, he, List.mem_cons] at ht
      rcases ht with rfl | ht
      · exact hs
      · exact ih (hs.tail he) ht

theorem mem_visited_of_foldlM {s t : σ} {es : List ε} (h : es.foldlM step s = some t) : t ∈ visited step s es := by
  induction es generalizing s with
  | nil =>
    cases h
    exact List.mem_cons_self
  | cons e es ih =>
    rw [List.foldlM_cons] at h
    obtain ⟨u, hu, h⟩ := Option.bind_eq_some_iff.mp h
    simp only [visited, hu]
    exact List.mem_cons_of_mem _ (ih h)

theorem mem_taken {s : σ} {es : List ε} {p : σ × ε} (hp : p ∈ taken step s es) :
    p.1 ∈ visited step s es ∧ ∃ t, step p.1 p.2 = some t := by
  induction es generalizing s with
  | nil => cases hp
  | cons e es ih =>
    cases he : step s e with
    | none => simp [taken, he] at hp
    | some u =>
      simp only [taken, he, List.mem_cons] at hp
      simp only [visited, he, List.mem_cons]
      rcases hp with rfl | hp
      · exact ⟨.inl rfl, u, he⟩
      · exact ⟨.inr (ih hp).1, (ih hp).2⟩

theorem taken_all (I : σ → Prop) (hstep : ∀ s e, I s → ∃ t, step s e = some t ∧ I t) {s : σ} (hs : I s)
    (es : List ε) : (taken step s es).map Prod.snd = es := by
  induction es generalizing s with
  | nil => rfl
  | cons e es ih =>
    obtain ⟨t, ht, hI⟩ := hstep s e hs
    simp only [taken, ht, List.map_cons, ih hI]

/-- An invariant that the guarded steps keep holds in every state of a run whose steps all meet the guard. -/
theorem visited_invariant (I : σ → Prop) (G : σ → ε → Prop)
    (hstep : ∀ s e t, I s → G s e → step s e = some t → I t) {s : σ} (hs : I s) (es : List ε)
    (hG : ∀ p ∈ taken step s es, G p.1 p.2) : ∀ t ∈ visited step s es, I t := by
  induction es generalizing s with
  | nil => simpa [visited] using hs
  | cons e es ih =>
    intro t ht
    cases he : step s e with
    | none =>
      simp only [visited, he, List.mem_singleton] at ht
      exact ht ▸ hs
    | some u =>
      simp only [taken, he, List.forall_mem_cons] at hG
      simp only [visited, he, List.mem_cons] at ht
      rcases ht with rfl | ht
      · exact hs
      · exact ih (hstep s e u hs hG.1 he) hG.2 t ht

/-- The converse rule: a run that stays in `P` met the guard at every step, when a step outside the
guard leaves `P`. -/
theorem taken_guarded (I P : σ → Prop) (G : σ → ε → Prop)
    (hstep : ∀ s e t, I s → step s e = some t → P t → G s e ∧ I t) {s : σ} (hs : I s) (es : List ε)
    (hP : ∀ t ∈ visited step s es, P t) : ∀ p ∈ taken step s es, G p.1 p.2 := by
  induction es generalizing s with
  | nil => simp [taken]
  | cons e es ih =>
    cases he : step s e with
    | none => simp [taken, he]
    | some u =>
      simp only [visited, he, List.forall_mem_cons] at hP
      have hu : P u := hP.2 u (by cases es <;> simp [visited])
      obtain ⟨hg, hi⟩ := hstep s e u hs he hu
      simp only [taken, he, List.forall_mem_cons]
      exact ⟨hg, ih hi hP.2⟩

/-- A run changes phase, from `A` to `B`, at the first step in `S`, and no step in `C` may follow. -/
theorem visited_phases (A B : σ → Prop) (S C : σ → ε → Prop)
    (hA : ∀ s e t, A s → step s e = some t → (S s e → B t) ∧ (¬ S s e → A t))
    (hB : ∀ s e t, B s → ¬ C s e → step s e = some t → B t) {s : σ} (hs : A s) (es : List ε)
    (hpair : (taken step s es).Pairwise (fun p q => S p.1 p.2 → ¬ C q.1 q.2)) :
    ∀ t ∈ visited step s es, A t ∨ B t := by
  induction es generalizing s with
  | nil => simpa [visited] using .inl hs
  | cons e es ih =>
    cases he : step s e with
    | none => simpa [visited, he] using .inl hs
    | some u =>
      simp only [taken, he, List.pairwise_cons] at hpair
      simp only [visited, he, List.forall_mem_cons]
      refine ⟨.inl hs, ?_⟩
      by_cases hS : S s e
      · intro t ht
        right
        exact visited_invariant B (fun s e => ¬ C s e) hB ((hA s e u hs he).1 hS) es (fun q hq => hpair.1 q hq hS) t ht
      · exact ih ((hA s e u hs he).2 hS) hpair.2

theorem taken_phases (A B P : σ → Prop) (S C : σ → ε → Prop)
    (hA : ∀ s e t, A s → step s e = some t → (S s e → B t) ∧ (¬ S s e → A t))
    (hB : ∀ s e t, B s → step s e = some t → P t → ¬ C s e ∧ B t) {s : σ} (hs : A s) (es : List ε)
    (hP : ∀ t ∈ visited step s es, P t) : (taken step s es).Pairwise (fun p q => S p.1 p.2 → ¬ C q.1 q.2) := by
  induction es generalizing s with
  | nil => exact List.Pairwise.nil
  | cons e es ih =>
    cases he : step s e with
    | none => simp [taken, he]
    | some u =>
      simp only [visited, he, List.forall_mem_cons] at hP
      simp only [taken, he, List.pairwise_cons]
      constructor
      · intro q hq hS
        exact taken_guarded B P (fun s e => ¬ C s e) hB ((hA s e u hs he).1 hS) es hP.2 q hq
      · by_cases hS : S s e
        · apply List.Pairwise.imp_of_mem _ (List.pairwise_of_forall (fun _ _ => trivial) : (taken step u es).Pairwise _)
          intro p q _ hq _ _
          exact taken_guarded B P (fun s e => ¬ C s e) hB ((hA s e u hs he).1 hS) es hP.2 q hq
        · exact ih ((hA s e u hs he).2 hS) hP.2

/-! What the steps of a run put out, read by a monitor that refuses an output by `none`. -/

section Monitors

variable {μ ω : Type*} (check : μ → ω → Option μ) (out : σ → ε → List ω)

def outputs (step : σ → ε → Option σ) (out : σ → ε → List ω) (s : σ) (es : List ε) : List ω :=
  (taken step s es).flatMap fun p => out p.1 p.2

/-- The monitor, related to the state by `I`, accepts the output of a step exactly when the step meets the guard. -/
structure Follows (step : σ → ε → Option σ) (I : σ → μ → Prop) (G : σ → ε → Prop) : Prop where
  accepts : ∀ s e t m, I s m → step s e = some t → G s e → ∃ m', (out s e).foldlM check m = some m' ∧ I t m'
  guarded : ∀ s e t m, I s m → step s e = some t → ((out s e).foldlM check m).isSome → G s e

variable {check out}

theorem Follows.outputs_accepted_iff {I : σ → μ → Prop} {G : σ → ε → Prop} (h : Follows check out step I G)
    (es : List ε) {s : σ} {m : μ} (hs : I s m) :
    ((outputs step out s es).foldlM check m).isSome ↔ ∀ p ∈ taken step s es, G p.1 p.2 := by
  induction es generalizing s m with
  | nil => simp [outputs, taken]
  | cons e es ih =>
    cases he : step s e with
    | none => simp [outputs, taken, he]
    | some t =>
      have hrest : outputs step out s (e :: es) = out s e ++ outputs step out t es := by
        simp only [outputs, taken, he, List.flatMap_cons]
      rw [hrest, List.foldlM_append]
      simp only [taken, he, List.forall_mem_cons]
      constructor
      · intro haccepted
        have hsome : ((out s e).foldlM check m).isSome := by
          cases hout : (out s e).foldlM check m with
          | none => simp [hout] at haccepted
          | some m' => rfl
        have hguard := h.guarded s e t m hs he hsome
        obtain ⟨m', hm', hI⟩ := h.accepts s e t m hs he hguard
        rw [hm'] at haccepted
        exact ⟨hguard, (ih hI).mp haccepted⟩
      · rintro ⟨hguard, hall⟩
        obtain ⟨m', hm', hI⟩ := h.accepts s e t m hs he hguard
        rw [hm']
        exact (ih hI).mpr hall

end Monitors

end DeepinServiceManager.TransitionRuns
