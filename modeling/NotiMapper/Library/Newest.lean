import Mathlib.Data.List.MinMax

/-! The greatest of a list of moments, as the list is permuted or grows at its end. -/
namespace Newest

variable {α : Type} [LinearOrder α]

theorem max?_perm {xs ys : List α} (perm : ys.Perm xs) : ys.max? = xs.max? := by
  cases known : xs.max? with
  | none =>
    rw [List.max?_eq_none_iff] at known ⊢
    exact (known ▸ perm).eq_nil
  | some greatest =>
    rw [List.max?_eq_some_iff] at known ⊢
    exact ⟨perm.mem_iff.mpr known.1, fun b member => known.2 b (perm.mem_iff.mp member)⟩

theorem max?_append {xs ys : List α} {y : α} (last : ys.max? = some y) :
    (xs ++ ys).max? = some (xs.max?.elim y (max · y)) := by
  obtain ⟨among, bound⟩ := List.max?_eq_some_iff.mp last
  simp only [List.max?_eq_some_iff, List.mem_append]
  cases known : xs.max? with
  | none =>
    rw [List.max?_eq_none_iff.mp known]
    simp only [Option.elim_none, List.not_mem_nil, false_or]
    exact ⟨among, bound⟩
  | some x =>
    obtain ⟨member, before⟩ := List.max?_eq_some_iff.mp known
    simp only [Option.elim_some]
    constructor
    · rcases max_choice x y with left | right
      · rw [left]
        exact .inl member
      · rw [right]
        exact .inr among
    · rintro b (here | here)
      · exact (before b here).trans (le_max_left x y)
      · exact (bound b here).trans (le_max_right x y)

theorem max?_eq_of_mem {xs : List α} {x : α} (member : x ∈ xs) :
    xs.max? = some x ↔ ∀ b ∈ xs, b ≤ x := by
  rw [List.max?_eq_some_iff]
  exact ⟨fun greatest => greatest.2, fun bound => ⟨member, bound⟩⟩

end Newest
