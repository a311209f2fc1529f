import Mathlib.Data.List.Basic
import Mathlib.Data.List.Nodup

/-! Loops over entries with distinct keys, each round of which reads and writes only what
is held under the entry's own key. What such a loop does to a key, and what it puts out
for it, can be told from the state the loop started in. -/
namespace Keyed

variable {σ α κ β γ : Type}

structure Separate (step : σ → α → σ) (key : α → κ) (held : σ → κ → β) : Prop where
  other : ∀ s a k, k ≠ key a → held (step s a) k = held s k
  own : ∀ s t a, held s (key a) = held t (key a) →
    held (step s a) (key a) = held (step t a) (key a)

variable {step : σ → α → σ} {key : α → κ} {held : σ → κ → β}

theorem Separate.foldl_other (separate : Separate step key held) {as : List α} {k : κ}
    (absent : k ∉ as.map key) (s : σ) : held (as.foldl step s) k = held s k := by
  induction as generalizing s with
  | nil => rfl
  | cons a as ih =>
    rw [List.map_cons, List.mem_cons, not_or] at absent
    rw [List.foldl_cons, ih absent.2, separate.other s a k absent.1]

theorem Separate.foldl_own (separate : Separate step key held) {as : List α}
    (nodup : (as.map key).Nodup) {a : α} (member : a ∈ as) (s : σ) :
    held (as.foldl step s) (key a) = held (step s a) (key a) := by
  induction as generalizing s with
  | nil => cases member
  | cons first as ih =>
    rw [List.map_cons, List.nodup_cons] at nodup
    rw [List.foldl_cons]
    rcases List.mem_cons.mp member with rfl | member
    · exact separate.foldl_other nodup.1 _
    · rw [ih nodup.2 member]
      apply separate.own
      apply separate.other
      intro same
      exact nodup.1 (same ▸ List.mem_map_of_mem member)

/-- What the rounds put out, when each decides on what is held under its key. -/
theorem Separate.foldl_output (separate : Separate step key held) (out : σ → List γ)
    (chosen : σ → α → Bool) (made : α → γ)
    (reads : ∀ s t a, held s (key a) = held t (key a) → chosen s a = chosen t a)
    (appends : ∀ s a, out (step s a) = out s ++ if chosen s a then [made a] else [])
    {as : List α} (nodup : (as.map key).Nodup) (s : σ) :
    out (as.foldl step s) = out s ++ (as.filter (chosen s)).map made := by
  induction as generalizing s with
  | nil => simp
  | cons first as ih =>
    rw [List.map_cons, List.nodup_cons] at nodup
    have untouched : as.filter (chosen (step s first)) = as.filter (chosen s) := by
      refine List.filter_congr fun a member => reads _ _ _ ?_
      apply separate.other
      intro same
      exact nodup.1 (same ▸ List.mem_map_of_mem member)
    rw [List.foldl_cons, ih nodup.2, untouched, appends, List.filter_cons]
    split <;> simp

end Keyed
