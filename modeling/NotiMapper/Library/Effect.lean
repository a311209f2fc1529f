import Mathlib.Data.List.Basic
import Mathlib.Order.Defs.Unbundled

/-! Computations that change a state and may raise. A raise keeps the state it
happened in, as an exception does where objects are mutable; a rollback is an
explicit operation. Two rules are used throughout: what a returning run has done
is read off by inversion, and a relation that every run keeps is composed. -/
namespace Effect

variable {ε σ α β : Type}

/-- The state a computation leaves behind, whether it returned or raised. -/
def final (x : EStateM ε σ α) (s : σ) : σ :=
  match x s with
  | .ok _ t => t
  | .error _ t => t

def raising : Except ε α → EStateM ε σ α
  | .ok a => pure a
  | .error e => throw e

/-- Run a computation; if it raises, undo with the state it started from. -/
def restoring (undo : σ → σ → σ) (x : EStateM ε σ α) : EStateM ε σ α := fun s =>
  match x s with
  | .ok a t => .ok a t
  | .error e t => .error e (undo s t)

theorem except_ok {x : Except ε α} (returned : x.toOption.isSome) :
    x = .ok (x.toOption.get returned) := by
  cases x with
  | ok a => rfl
  | error e => cases returned

/- Inversion: what a run that returned has done. -/

theorem bind_ok {x : EStateM ε σ α} {f : α → EStateM ε σ β} {s u : σ} {b : β} :
    (x >>= f) s = .ok b u ↔ ∃ a t, x s = .ok a t ∧ f a t = .ok b u := by
  simp only [bind, EStateM.bind]
  cases x s with
  | ok a t => simp
  | error e t => simp

theorem pure_ok {a b : α} {s t : σ} :
    (pure a : EStateM ε σ α) s = .ok b t ↔ a = b ∧ s = t := by
  simp only [pure, EStateM.pure, EStateM.Result.ok.injEq]

theorem get_ok {s t a : σ} : (get : EStateM ε σ σ) s = .ok a t ↔ a = s ∧ t = s := by
  have run : (get : EStateM ε σ σ) s = .ok s s := rfl
  simp only [run, EStateM.Result.ok.injEq, eq_comm]

theorem modify_ok {f : σ → σ} {s t : σ} {a : PUnit} :
    (modify f : EStateM ε σ PUnit) s = .ok a t ↔ t = f s := by
  have run : (modify f : EStateM ε σ PUnit) s = .ok ⟨⟩ (f s) := rfl
  simp only [run, EStateM.Result.ok.injEq, true_and, eq_comm]

theorem raising_ok {x : Except ε α} {s t : σ} {a : α} :
    (raising x : EStateM ε σ α) s = .ok a t ↔ x = .ok a ∧ s = t := by
  cases x with
  | ok b => simp only [raising, pure_ok, Except.ok.injEq]
  | error e =>
    have run : (raising (.error e) : EStateM ε σ α) s = .error e s := rfl
    simp only [run, reduceCtorEq, false_and]

/- The same, for the first step of a longer computation. -/

theorem get_bind_ok {f : σ → EStateM ε σ β} {s u : σ} {b : β} :
    (get >>= f) s = .ok b u ↔ f s s = .ok b u := by
  simp only [bind_ok, get_ok]
  constructor
  · rintro ⟨a, t, ⟨rfl, rfl⟩, h⟩
    exact h
  · exact fun h => ⟨s, s, ⟨rfl, rfl⟩, h⟩

theorem modify_bind_ok {f : σ → σ} {g : PUnit → EStateM ε σ β} {s u : σ} {b : β} :
    (modify f >>= g) s = .ok b u ↔ g ⟨⟩ (f s) = .ok b u := by
  simp only [bind_ok, modify_ok]
  constructor
  · rintro ⟨a, t, rfl, h⟩
    exact h
  · exact fun h => ⟨⟨⟩, f s, rfl, h⟩

theorem raising_bind_ok {x : Except ε α} {f : α → EStateM ε σ β} {s u : σ} {b : β} :
    (raising x >>= f) s = .ok b u ↔ ∃ a, x = .ok a ∧ f a s = .ok b u := by
  simp only [bind_ok, raising_ok]
  constructor
  · rintro ⟨a, t, ⟨known, rfl⟩, h⟩
    exact ⟨a, known, h⟩
  · rintro ⟨a, known, h⟩
    exact ⟨a, s, ⟨known, rfl⟩, h⟩

theorem restoring_ok {undo : σ → σ → σ} {x : EStateM ε σ α} {s t : σ} {a : α} :
    restoring undo x s = .ok a t ↔ x s = .ok a t := by
  simp only [restoring]
  cases x s <;> simp

theorem forM_nil_ok {f : α → EStateM ε σ PUnit} {s t : σ} {u : PUnit} :
    (List.forM [] f : EStateM ε σ PUnit) s = .ok u t ↔ s = t := by
  simp [List.forM, pure_ok]

theorem forM_cons_ok {f : α → EStateM ε σ PUnit} {a : α} {as : List α} {s t : σ} {u : PUnit} :
    (List.forM (a :: as) f : EStateM ε σ PUnit) s = .ok u t ↔
      ∃ m, f a s = .ok ⟨⟩ m ∧ List.forM as f m = .ok ⟨⟩ t := by
  simp only [List.forM, bind_ok]
  constructor
  · rintro ⟨_, m, hm, ht⟩
    exact ⟨m, hm, ht⟩
  · rintro ⟨m, hm, ht⟩
    exact ⟨_, m, hm, ht⟩

theorem forM_modify_ok {f : α → σ → σ} {as : List α} {s t : σ} {u : PUnit} :
    (as.forM (fun a => modify (f a)) : EStateM ε σ PUnit) s = .ok u t ↔
      t = as.foldl (fun s a => f a s) s := by
  induction as generalizing s with
  | nil =>
    rw [forM_nil_ok]
    exact eq_comm
  | cons a as ih =>
    rw [forM_cons_ok, List.foldl_cons]
    simp only [modify_ok, ih, exists_eq_left]

/- Loops that update a state and cannot raise. -/

theorem foldl_keeps {f : σ → α → σ} (observe : σ → β)
    (each : ∀ s a, observe (f s a) = observe s) (as : List α) (s : σ) :
    observe (as.foldl f s) = observe s := by
  induction as generalizing s with
  | nil => rfl
  | cons a as ih => exact (ih (f s a)).trans (each s a)

theorem foldl_stays {f : σ → α → σ} {P : σ → Prop} (each : ∀ s a, P s → P (f s a))
    (as : List α) {s : σ} (start : P s) : P (as.foldl f s) := by
  induction as generalizing s with
  | nil => exact start
  | cons a as ih => exact ih (each s a start)

/-- What one round establishes and no round undoes holds after the loop. -/
theorem foldl_reaches {f : σ → α → σ} {P : σ → Prop} (each : ∀ s a, P s → P (f s a)) {a : α}
    (here : ∀ s, P (f s a)) {as : List α} (member : a ∈ as) (s : σ) : P (as.foldl f s) := by
  induction as generalizing s with
  | nil => cases member
  | cons b as ih =>
    rcases List.mem_cons.mp member with rfl | member
    · exact foldl_stays each as (here s)
    · exact ih member (f s b)

/- Relations: how far a run can move the state. -/

/-- Every run that returns moves the state along `R`. -/
def Leads (R : σ → σ → Prop) (x : EStateM ε σ α) : Prop :=
  ∀ s a t, x s = .ok a t → R s t

/-- Every run moves the state along `R`, also one that raises. -/
def Keeps (R : σ → σ → Prop) (x : EStateM ε σ α) : Prop :=
  ∀ s, R s (final x s)

section Rules

variable {R : σ → σ → Prop}

theorem Keeps.leads {x : EStateM ε σ α} (h : Keeps R x) : Leads R x := by
  intro s a t hx
  have hf := h s
  simpa only [final, hx] using hf

theorem final_ok {x : EStateM ε σ α} {s t : σ} {a : α} (h : x s = .ok a t) : final x s = t := by
  simp only [final, h]

/-- A computation that returns: a run of it that can be checked by evaluation. -/
def returned (x : EStateM ε σ α) (s : σ) : Bool :=
  match x s with
  | .ok _ _ => true
  | .error _ _ => false

theorem ok_of_returned {x : EStateM ε σ PUnit} {s : σ} (h : returned x s = true) :
    x s = .ok ⟨⟩ (final x s) := by
  simp only [returned, final] at h ⊢
  cases hx : x s with
  | ok a t => rfl
  | error e t => simp [hx] at h

theorem final_bind (x : EStateM ε σ α) (f : α → EStateM ε σ β) (s : σ) :
    (∃ a t, x s = .ok a t ∧ final (x >>= f) s = final (f a) t) ∨
      final (x >>= f) s = final x s := by
  cases hx : x s with
  | ok a t =>
    left
    exact ⟨a, t, rfl, by simp only [final, bind, EStateM.bind, hx]⟩
  | error e t =>
    right
    simp only [final, bind, EStateM.bind, hx]

theorem final_modify_bind (f : σ → σ) (g : PUnit → EStateM ε σ β) (s : σ) :
    final (modify f >>= g) s = final (g ⟨⟩) (f s) := rfl

theorem keeps_modify {f : σ → σ} (h : ∀ s, R s (f s)) : Keeps R (modify f : EStateM ε σ PUnit) := h

theorem Keeps.restoring {undo : σ → σ → σ} {x : EStateM ε σ α} (h : Keeps R x)
    (back : ∀ s t, R s t → R s (undo s t)) : Keeps R (restoring undo x) := by
  intro s
  have hs := h s
  simp only [final, Effect.restoring] at hs ⊢
  cases hx : x s with
  | ok a t => simpa only [hx] using hs
  | error e t => exact back s t (by simpa only [hx] using hs)

variable [IsPreorder σ R]

theorem keeps_pure (a : α) : Keeps R (pure a : EStateM ε σ α) := fun s => refl_of R s

theorem keeps_get : Keeps R (get : EStateM ε σ σ) := fun s => refl_of R s

theorem keeps_raising (x : Except ε α) : Keeps R (raising x : EStateM ε σ α) := by
  intro s
  cases x <;> exact refl_of R s

/-- From one state: how far the first part moves it is enough to know there. -/
theorem keeps_bind_from {x : EStateM ε σ α} {f : α → EStateM ε σ β} {s : σ}
    (hx : R s (final x s)) (hf : ∀ a, Keeps R (f a)) : R s (final (x >>= f) s) := by
  rcases final_bind x f s with ⟨a, t, ht, he⟩ | he
  · rw [final_ok ht] at hx
    rw [he]
    exact trans_of R hx (hf a t)
  · rw [he]
    exact hx

theorem Keeps.bind {x : EStateM ε σ α} {f : α → EStateM ε σ β} (hx : Keeps R x)
    (hf : ∀ a, Keeps R (f a)) : Keeps R (x >>= f) := fun s => keeps_bind_from (hx s) hf

theorem Keeps.forM {f : α → EStateM ε σ PUnit} (as : List α) (h : ∀ a ∈ as, Keeps R (f a)) :
    Keeps R (as.forM f) := by
  induction as with
  | nil => exact keeps_pure PUnit.unit
  | cons a as ih =>
    exact Keeps.bind (h a List.mem_cons_self)
      (fun _ => ih (fun b hb => h b (List.mem_cons_of_mem a hb)))

end Rules

/- Computations that cannot raise. -/

/-- From a state that meets `P` the computation returns, in a state that does. -/
def Returns (P : σ → Prop) (x : EStateM ε σ α) : Prop :=
  ∀ s, P s → ∃ a t, x s = .ok a t ∧ P t

section Returning

variable {P : σ → Prop}

theorem Returns.from_state {x : EStateM ε σ PUnit} (returns : Returns P x) {s : σ} (start : P s) :
    ∃ t, x s = .ok ⟨⟩ t := by
  obtain ⟨_, t, ran, _⟩ := returns s start
  exact ⟨t, ran⟩

theorem returns_pure (a : α) : Returns P (pure a : EStateM ε σ α) := fun s h => ⟨a, s, rfl, h⟩

theorem returns_get : Returns P (get : EStateM ε σ σ) := fun s h => ⟨s, s, rfl, h⟩

theorem returns_modify {f : σ → σ} (h : ∀ s, P s → P (f s)) :
    Returns P (modify f : EStateM ε σ PUnit) := fun s hs => ⟨⟨⟩, f s, rfl, h s hs⟩

theorem Returns.bind {x : EStateM ε σ α} {f : α → EStateM ε σ β} (hx : Returns P x)
    (hf : ∀ a, Returns P (f a)) : Returns P (x >>= f) := by
  intro s hs
  obtain ⟨a, t, ht, hp⟩ := hx s hs
  obtain ⟨b, u, hu, hq⟩ := hf a t hp
  exact ⟨b, u, bind_ok.mpr ⟨a, t, ht, hu⟩, hq⟩

theorem Returns.forM {f : α → EStateM ε σ PUnit} (as : List α) (h : ∀ a ∈ as, Returns P (f a)) :
    Returns P (as.forM f) := by
  induction as with
  | nil => exact returns_pure PUnit.unit
  | cons a as ih =>
    exact Returns.bind (h a List.mem_cons_self)
      (fun _ => ih (fun b hb => h b (List.mem_cons_of_mem a hb)))

theorem Returns.restoring {undo : σ → σ → σ} {x : EStateM ε σ α} (h : Returns P x) :
    Returns P (restoring undo x) := by
  intro s hs
  obtain ⟨a, t, ht, hp⟩ := h s hs
  exact ⟨a, t, restoring_ok.mpr ht, hp⟩

end Returning

end Effect
