import NotiMapper.Library.Transition

/-! A register under a sequence of operations of which some write it. What it holds in
the end is what the last writing operation wrote, or what it held at first. -/
namespace Register

variable {α β : Type} (writes : α → Option β)

/-- What the last writing operation of the list wrote. -/
def lastWrite : List α → Option β
  | [] => none
  | a :: as => (lastWrite as).or (writes a)

def apply (held : β) (a : α) : β := (writes a).getD held

theorem foldl_apply (as : List α) (held : β) :
    as.foldl (apply writes) held = (lastWrite writes as).getD held := by
  induction as generalizing held with
  | nil => rfl
  | cons a as ih =>
    rw [List.foldl_cons, ih]
    cases later : lastWrite writes as <;> simp [lastWrite, later, apply]

theorem lastWrite_append (as bs : List α) :
    lastWrite writes (as ++ bs) = (lastWrite writes bs).or (lastWrite writes as) := by
  induction as with
  | nil => simp [lastWrite]
  | cons a as ih => simp [lastWrite, ih, Option.or_assoc]

theorem lastWrite_eq_none {as : List α} :
    lastWrite writes as = none ↔ ∀ a ∈ as, writes a = none := by
  induction as with
  | nil => simp [lastWrite]
  | cons a as ih => simp [lastWrite, ih, and_comm]

theorem exists_of_lastWrite {as : List α} {b : β} (last : lastWrite writes as = some b) :
    ∃ a ∈ as, writes a = some b := by
  induction as with
  | nil => cases last
  | cons a as ih =>
    cases later : lastWrite writes as with
    | none =>
      simp only [lastWrite, later, Option.none_or] at last
      exact ⟨a, List.mem_cons_self, last⟩
    | some c =>
      simp only [lastWrite, later, Option.some_or] at last
      obtain ⟨d, member, wrote⟩ := ih (later.trans last)
      exact ⟨d, List.mem_cons_of_mem a member, wrote⟩

/-- A part of the state that each step leaves as its operations last wrote it. -/
theorem run_held {σ ι : Type} {step : σ → ι → Option σ} {operations : σ → ι → List α}
    {held : σ → β}
    (once : ∀ s a t, step s a = some t →
      held t = (lastWrite writes (operations s a)).getD (held s))
    {s t : σ} {as : List ι} (ran : Transition.run step s as = some t) :
    held t = (lastWrite writes (Transition.along step operations s as)).getD (held s) := by
  induction as generalizing s with
  | nil =>
    cases Option.some.inj ran
    rfl
  | cons a as ih =>
    obtain ⟨m, stepped, rest⟩ := Transition.run_cons.mp ran
    rw [ih rest, once s a m stepped]
    simp only [Transition.along, stepped, Option.elim_some, lastWrite_append]
    cases lastWrite writes (Transition.along step operations m as) <;> simp

end Register
