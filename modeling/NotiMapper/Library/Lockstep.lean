import NotiMapper.Library.Effect

/-! Two runs of one computation, from states that are related. Where all that is read is the
same in related states and all that is written keeps them related, the runs end alike. -/
namespace Effect

variable {ε σ α β : Type}

/-- The same value, or the same exception, in states that are related. -/
inductive Alike (R : σ → σ → Prop) : EStateM.Result ε σ α → EStateM.Result ε σ α → Prop
  | returned {a : α} {s t : σ} (related : R s t) : Alike R (.ok a s) (.ok a t)
  | raised {e : ε} {s t : σ} (related : R s t) : Alike R (.error e s) (.error e t)

structure Respects (R : σ → σ → Prop) (x : EStateM ε σ α) : Prop where
  alike : ∀ s t, R s t → Alike R (x s) (x t)

/- What a run that raised has done. -/

theorem get_bind_error {f : σ → EStateM ε σ β} {s t : σ} {e : ε} :
    (get >>= f) s = .error e t ↔ f s s = .error e t := by
  have run : (get >>= f) s = f s s := rfl
  rw [run]

theorem raising_bind_error {x : Except ε α} {f : α → EStateM ε σ β} {s t : σ} {e : ε} :
    (raising x >>= f) s = .error e t ↔
      x = .error e ∧ s = t ∨ ∃ a, x = .ok a ∧ f a s = .error e t := by
  cases x with
  | ok a =>
    have run : (raising (.ok a) >>= f) s = f a s := rfl
    simp [run]
  | error d =>
    have run : (raising (.error d) >>= f) s = .error d s := rfl
    simp [run]

theorem forM_singleton (f : α → EStateM ε σ PUnit) (a : α) (s : σ) : [a].forM f s = f a s := by
  simp only [List.forM, bind, EStateM.bind, pure, EStateM.pure]
  cases f a s <;> rfl

section Rules

variable {R : σ → σ → Prop}

theorem Alike.imp {Q : σ → σ → Prop} {x y : EStateM.Result ε σ α} (alike : Alike R x y)
    (weaker : ∀ s t, R s t → Q s t) : Alike Q x y := by
  cases alike with
  | returned related => exact .returned (weaker _ _ related)
  | raised related => exact .raised (weaker _ _ related)

theorem respects_pure (a : α) : Respects R (pure a : EStateM ε σ α) :=
  ⟨fun _ _ related => .returned related⟩

theorem respects_modify {f : σ → σ} (kept : ∀ s t, R s t → R (f s) (f t)) :
    Respects R (modify f : EStateM ε σ PUnit) :=
  ⟨fun s t related => .returned (kept s t related)⟩

theorem Respects.bind {x : EStateM ε σ α} {f : α → EStateM ε σ β} (hx : Respects R x)
    (hf : ∀ a, Respects R (f a)) : Respects R (x >>= f) := by
  refine ⟨fun s t related => ?_⟩
  have first := hx.alike s t related
  simp only [Bind.bind, EStateM.bind]
  generalize x s = left at first ⊢
  generalize x t = right at first ⊢
  cases first with
  | returned after => exact (hf _).alike _ _ after
  | raised after => exact .raised after

/-- What is read decides how the computation goes on, and is the same on both sides. -/
theorem respects_get_bind {f : σ → EStateM ε σ β} (hf : ∀ s, Respects R (f s))
    (reads : ∀ s t, R s t → f t = f s) : Respects R (get >>= f) := by
  refine ⟨fun s t related => ?_⟩
  have left : (get >>= f) s = f s s := rfl
  have right : (get >>= f) t = f t t := rfl
  rw [left, right, reads s t related]
  exact (hf s).alike s t related

theorem Respects.forM {f : α → EStateM ε σ PUnit} (as : List α) (h : ∀ a, Respects R (f a)) :
    Respects R (as.forM f) := by
  induction as with
  | nil => exact respects_pure PUnit.unit
  | cons a as ih => exact Respects.bind (h a) fun _ => ih

theorem respects_raising (x : Except ε α) : Respects R (raising x : EStateM ε σ α) := by
  refine ⟨fun s t related => ?_⟩
  cases x with
  | ok a => exact .returned related
  | error e => exact .raised related

theorem Respects.foldlM {f : β → α → EStateM ε σ β} (as : List α)
    (h : ∀ b a, Respects R (f b a)) (b : β) : Respects R (as.foldlM f b) := by
  induction as generalizing b with
  | nil => exact respects_pure b
  | cons a as ih =>
    rw [List.foldlM_cons]
    exact Respects.bind (h b a) ih

theorem Respects.restoring {undo : σ → σ → σ} {x : EStateM ε σ α} (h : Respects R x)
    (back : ∀ s t s' t', R s t → R s' t' → R (undo s s') (undo t t')) :
    Respects R (restoring undo x) := by
  refine ⟨fun s t related => ?_⟩
  have ran := h.alike s t related
  simp only [Effect.restoring]
  generalize x s = left at ran ⊢
  generalize x t = right at ran ⊢
  cases ran with
  | returned after => exact .returned after
  | raised after => exact .raised (back s t _ _ related after)

/-- Two computations that do the same from related states. -/
structure Aligned (R : σ → σ → Prop) (x y : EStateM ε σ α) : Prop where
  alike : ∀ s t, R s t → Alike R (x s) (y t)

theorem Respects.aligned {x : EStateM ε σ α} (h : Respects R x) : Aligned R x x := ⟨h.alike⟩

theorem Aligned.bind {x y : EStateM ε σ α} {f g : α → EStateM ε σ β} (hx : Aligned R x y)
    (hf : ∀ a, Aligned R (f a) (g a)) : Aligned R (x >>= f) (y >>= g) := by
  refine ⟨fun s t related => ?_⟩
  have first := hx.alike s t related
  simp only [Bind.bind, EStateM.bind]
  generalize x s = left at first ⊢
  generalize y t = right at first ⊢
  cases first with
  | returned after => exact (hf _).alike _ _ after
  | raised after => exact .raised after

theorem Aligned.forM {f g : α → EStateM ε σ PUnit} (as : List α)
    (h : ∀ a, Aligned R (f a) (g a)) : Aligned R (as.forM f) (as.forM g) := by
  induction as with
  | nil => exact (respects_pure PUnit.unit).aligned
  | cons a as ih => exact Aligned.bind (h a) fun _ => ih

/-- A change on one side that keeps related states related. -/
theorem aligned_modify_left {f : σ → σ} (kept : ∀ s t, R s t → R (f s) t) :
    Aligned R (modify f : EStateM ε σ PUnit) (pure ⟨⟩) :=
  ⟨fun s t related => .returned (kept s t related)⟩

/-- The same change on one side before two computations that do the same. -/
theorem Aligned.after_modify {f : σ → σ} {x y : EStateM ε σ α} (kept : ∀ s t, R s t → R (f s) t)
    (h : Aligned R x y) : Aligned R (modify f >>= fun _ => x) y :=
  ⟨fun s t related => h.alike _ _ (kept s t related)⟩

theorem aligned_get_bind {f g : σ → EStateM ε σ β} (hf : ∀ s, Aligned R (f s) (g s))
    (reads : ∀ s t, R s t → g t = g s) : Aligned R (get >>= f) (get >>= g) := by
  refine ⟨fun s t related => ?_⟩
  have left : (get >>= f) s = f s s := rfl
  have right : (get >>= g) t = g t t := rfl
  rw [left, right, reads s t related]
  exact (hf s).alike s t related

end Rules

end Effect
