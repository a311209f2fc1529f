import Mathlib.Data.List.Basic

/-! Runs of a labelled transition system given by a partial step function. A
label that is not enabled in a state has no step there. Conditions on the steps
of a run are stated for the state before each step. -/
namespace Transition

variable {σ α : Type}

def run (step : σ → α → Option σ) : σ → List α → Option σ
  | s, [] => some s
  | s, a :: as => (step s a).bind fun t => run step t as

/-- Each step of the run is taken in a state, and with a label, that meets `C`. -/
def Throughout (step : σ → α → Option σ) (C : σ → α → Prop) : σ → List α → Prop
  | _, [] => True
  | s, a :: as => C s a ∧ ∀ t, step s a = some t → Throughout step C t as

variable {step : σ → α → Option σ}

/-- A run's conditions can be checked by taking it. -/
def decideThroughout (step : σ → α → Option σ) (C : σ → α → Prop) [∀ s a, Decidable (C s a)] :
    (s : σ) → (as : List α) → Decidable (Throughout step C s as)
  | _, [] => isTrue trivial
  | s, a :: as =>
    match taken : step s a with
    | none => decidable_of_iff (C s a) ⟨fun met => ⟨met, by simp [taken]⟩, (·.1)⟩
    | some t =>
      have := decideThroughout step C t as
      decidable_of_iff (C s a ∧ Throughout step C t as) (by simp [Throughout, taken])

instance (C : σ → α → Prop) [∀ s a, Decidable (C s a)] (s : σ) (as : List α) :
    Decidable (Throughout step C s as) := decideThroughout step C s as

theorem run_cons {s u : σ} {a : α} {as : List α} :
    run step s (a :: as) = some u ↔ ∃ t, step s a = some t ∧ run step t as = some u := by
  simp only [run, Option.bind_eq_some_iff]

theorem run_append {s u : σ} {as bs : List α} :
    run step s (as ++ bs) = some u ↔ ∃ t, run step s as = some t ∧ run step t bs = some u := by
  induction as generalizing s with
  | nil => simp [run]
  | cons a as ih =>
    simp only [List.cons_append, run_cons, ih]
    constructor
    · rintro ⟨t, ht, m, hm, hu⟩
      exact ⟨m, ⟨t, ht, hm⟩, hu⟩
    · rintro ⟨m, ⟨t, ht, hm⟩, hu⟩
      exact ⟨t, ht, m, hm, hu⟩

theorem run_snoc {s t : σ} {as : List α} {a : α} :
    run step s (as ++ [a]) = some t ↔ ∃ m, run step s as = some m ∧ step m a = some t := by
  rw [run_append]
  refine exists_congr fun m => and_congr_right fun _ => ?_
  rw [run_cons]
  constructor
  · rintro ⟨u, taken, done⟩
    exact Option.some.inj done ▸ taken
  · exact fun taken => ⟨t, taken, rfl⟩

theorem run_rest {s t u : σ} {as bs : List α} (first : run step s as = some t)
    (ran : run step s (as ++ bs) = some u) : run step t bs = some u := by
  obtain ⟨m, hm, hu⟩ := run_append.mp ran
  cases Option.some.inj (first.symm.trans hm)
  exact hu

theorem run_of_enabled (enabled : ∀ s a, ∃ t, step s a = some t) (s : σ) (as : List α) :
    ∃ t, run step s as = some t := by
  induction as generalizing s with
  | nil => exact ⟨s, rfl⟩
  | cons a as ih =>
    obtain ⟨m, stepped⟩ := enabled s a
    obtain ⟨t, ran⟩ := ih m
    exact ⟨t, run_cons.mpr ⟨m, stepped, ran⟩⟩

/-- What the start has and every step keeps, every state of a run has. -/
theorem invariant {Inv : σ → Prop} (kept : ∀ s a t, Inv s → step s a = some t → Inv t)
    {s t : σ} {as : List α} (start : Inv s) (ran : run step s as = some t) : Inv t := by
  induction as generalizing s with
  | nil => exact Option.some.inj ran ▸ start
  | cons a as ih =>
    obtain ⟨m, hm, hrest⟩ := run_cons.mp ran
    exact ih (kept s a m start hm) hrest

/-- The same for runs whose steps meet a condition. -/
theorem guarded_invariant {Inv : σ → Prop} {C : σ → α → Prop}
    (kept : ∀ s a t, Inv s → C s a → step s a = some t → Inv t)
    {s t : σ} {as : List α} (start : Inv s) (held : Throughout step C s as)
    (ran : run step s as = some t) : Inv t := by
  induction as generalizing s with
  | nil => exact Option.some.inj ran ▸ start
  | cons a as ih =>
    obtain ⟨m, hm, hrest⟩ := run_cons.mp ran
    exact ih (kept s a m start held.1 hm) (held.2 m hm) hrest

/-- With such an invariant, what it and the condition give for a step holds throughout. -/
theorem throughout_of_invariant {Inv : σ → Prop} {C D : σ → α → Prop}
    (kept : ∀ s a t, Inv s → C s a → step s a = some t → Inv t)
    (gives : ∀ s a, Inv s → C s a → D s a) {s : σ} {as : List α} (start : Inv s)
    (held : Throughout step C s as) : Throughout step D s as := by
  induction as generalizing s with
  | nil => trivial
  | cons a as ih =>
    exact ⟨gives s a start held.1,
      fun t stepped => ih (kept s a t start held.1 stepped) (held.2 t stepped)⟩

/-- Every state of the run, the first and the last among them, has `P`. -/
def Always (step : σ → α → Option σ) (P : σ → Prop) : σ → List α → Prop
  | s, [] => P s
  | s, a :: as => P s ∧ ∀ t, step s a = some t → Always step P t as

theorem Always.here {P : σ → Prop} {s : σ} {as : List α} (always : Always step P s as) : P s := by
  cases as with
  | nil => exact always
  | cons a as => exact always.1

theorem Always.last {P : σ → Prop} {s t : σ} {as : List α} (always : Always step P s as)
    (ran : run step s as = some t) : P t := by
  induction as generalizing s with
  | nil => exact Option.some.inj ran ▸ always
  | cons a as ih =>
    obtain ⟨m, hm, hrest⟩ := run_cons.mp ran
    exact ih (always.2 m hm) hrest

theorem always_of_invariant {Inv P : σ → Prop} {C : σ → α → Prop}
    (kept : ∀ s a t, Inv s → C s a → step s a = some t → Inv t) (gives : ∀ s, Inv s → P s)
    {s : σ} {as : List α} (start : Inv s) (held : Throughout step C s as) : Always step P s as := by
  induction as generalizing s with
  | nil => exact gives s start
  | cons a as ih =>
    exact ⟨gives s start, fun t stepped => ih (kept s a t start held.1 stepped) (held.2 t stepped)⟩

/-- If each step keeps `P` exactly under a condition, so does a run. -/
theorem always_iff {Inv P : σ → Prop} {C : σ → α → Prop}
    (kept : ∀ s a t, Inv s → step s a = some t → Inv t)
    (exact : ∀ s a t, Inv s → P s → step s a = some t → (P t ↔ C s a))
    {s t : σ} {as : List α} (inv : Inv s) (start : P s) (ran : run step s as = some t) :
    Always step P s as ↔ Throughout step C s as := by
  induction as generalizing s with
  | nil => exact ⟨fun _ => trivial, fun _ => start⟩
  | cons a as ih =>
    obtain ⟨m, hm, hrest⟩ := run_cons.mp ran
    have once := exact s a m inv start hm
    have same : ∀ u, step s a = some u → u = m := fun u hu => Option.some.inj (hu.symm.trans hm)
    constructor
    · rintro ⟨_, later⟩
      have next := (later m hm).here
      refine ⟨once.mp next, fun u hu => ?_⟩
      rw [same u hu]
      exact (ih (kept s a m inv hm) next hrest).mp (later m hm)
    · rintro ⟨met, later⟩
      have next := once.mpr met
      refine ⟨start, fun u hu => ?_⟩
      rw [same u hu]
      exact (ih (kept s a m inv hm) next hrest).mpr (later m hm)

theorem throughout_of_forall {C : σ → α → Prop} {s : σ} {as : List α}
    (all : ∀ a ∈ as, ∀ s, C s a) : Throughout step C s as := by
  induction as generalizing s with
  | nil => trivial
  | cons a as ih =>
    exact ⟨all a List.mem_cons_self s, fun t _ => ih fun b hb => all b (List.mem_cons_of_mem a hb)⟩

theorem throughout_congr {C D : σ → α → Prop} (same : ∀ s a, C s a ↔ D s a) {s : σ}
    {as : List α} : Throughout step C s as ↔ Throughout step D s as := by
  induction as generalizing s with
  | nil => exact Iff.rfl
  | cons a as ih => simp only [Throughout, same, ih]

theorem throughout_append {C : σ → α → Prop} {s t : σ} {as bs : List α}
    (held : Throughout step C s (as ++ bs)) (ran : run step s as = some t) :
    Throughout step C t bs := by
  induction as generalizing s with
  | nil => exact Option.some.inj ran ▸ held
  | cons a as ih =>
    obtain ⟨m, hm, hrest⟩ := run_cons.mp ran
    exact ih (held.2 m hm) hrest

theorem throughout_of_prefixes {C : σ → α → Prop} {s : σ} {as : List α}
    (each : ∀ xs a t, xs ++ [a] <+: as → run step s xs = some t → C t a) :
    Throughout step C s as := by
  induction as generalizing s with
  | nil => trivial
  | cons a as ih =>
    refine ⟨each [] a s (List.prefix_append [a] as) rfl, fun t stepped => ih ?_⟩
    intro xs b u initial ran
    exact each (a :: xs) b u (List.cons_prefix_cons.mpr ⟨rfl, initial⟩)
      (run_cons.mpr ⟨t, stepped, ran⟩)

def along {β : Type} (step : σ → α → Option σ) (brings : σ → α → List β) : σ → List α → List β
  | _, [] => []
  | s, a :: as => brings s a ++ (step s a).elim [] fun t => along step brings t as

theorem along_append {β : Type} {brings : σ → α → List β} {s t : σ} {as bs : List α}
    (ran : run step s as = some t) :
    along step brings s (as ++ bs) = along step brings s as ++ along step brings t bs := by
  induction as generalizing s with
  | nil =>
    cases Option.some.inj ran
    rfl
  | cons a as ih =>
    obtain ⟨m, stepped, rest⟩ := run_cons.mp ran
    simp only [List.cons_append, along, stepped, Option.elim_some, ih rest, List.append_assoc]

theorem along_snoc {β : Type} {brings : σ → α → List β} {s m : σ} {as : List α} {a : α}
    (ran : run step s as = some m) :
    along step brings s (as ++ [a]) = along step brings s as ++ brings m a := by
  rw [along_append ran]
  congr 1
  simp only [along]
  cases step m a <;> simp

theorem along_map {β γ : Type} {brings : σ → α → List β} (f : β → γ) (s : σ) (as : List α) :
    (along step brings s as).map f = along step (fun s a => (brings s a).map f) s as := by
  induction as generalizing s with
  | nil => rfl
  | cons a as ih =>
    rw [along, along, List.map_append]
    cases step s a with
    | none => simp
    | some t => simp only [Option.elim_some, ih t]

theorem along_filterMap {β γ : Type} {brings : σ → α → List β} (f : β → Option γ) (s : σ)
    (as : List α) :
    (along step brings s as).filterMap f = along step (fun s a => (brings s a).filterMap f) s as := by
  induction as generalizing s with
  | nil => rfl
  | cons a as ih =>
    rw [along, along, List.filterMap_append]
    cases step s a with
    | none => simp
    | some t => simp only [Option.elim_some, ih t]

theorem throughout_prefix {C : σ → α → Prop} {s : σ} {as bs : List α}
    (held : Throughout step C s (as ++ bs)) : Throughout step C s as := by
  induction as generalizing s with
  | nil => trivial
  | cons a as ih => exact ⟨held.1, fun t stepped => ih (held.2 t stepped)⟩

/-- How often `observe` goes from true to false along a run. -/
def falls (step : σ → α → Option σ) (observe : σ → Bool) : σ → List α → Nat
  | _, [] => 0
  | s, a :: as =>
    match step s a with
    | none => 0
    | some t => (if observe s && !observe t then 1 else 0) + falls step observe t as

theorem falls_le_one {observe : σ → Bool} {s : σ} {as : List α}
    (held : Throughout step (fun s a => ∀ t, step s a = some t → observe t = true →
      observe s = true) s as) : falls step observe s as ≤ if observe s then 1 else 0 := by
  induction as generalizing s with
  | nil => simp [falls]
  | cons a as ih =>
    simp only [falls]
    cases stepped : step s a with
    | none => simp
    | some t =>
      have rest := ih (held.2 t stepped)
      have once := held.1 t stepped
      cases before : observe s <;> cases after : observe t <;> simp_all

end Transition
