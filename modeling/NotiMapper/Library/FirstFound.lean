import Mathlib.Data.List.AList

/-! A scan that keeps the first of each key. What is looked at is judged, and has a key or is
refused for a reason; where the key is taken already it is refused as well. -/
namespace FirstFound

variable {α κ β ρ δ : Type} [DecidableEq κ]

structure Found (κ β ρ : Type) where
  kept : AList (fun _ : κ => β)
  refused : List ρ

variable (judge : α → Except ρ (κ × β)) (taken : β → κ × β → ρ)

def round (s : Found κ β ρ) (a : α) : Found κ β ρ :=
  match judge a with
  | .error reason => { s with refused := s.refused ++ [reason] }
  | .ok found =>
    match s.kept.lookup found.1 with
    | some existing => { s with refused := s.refused ++ [taken existing found] }
    | none => { s with kept := s.kept.insert found.1 found.2 }

def scan (s : Found κ β ρ) (as : List α) : Found κ β ρ := as.foldl (round judge taken) s

/-- The first that has the key. -/
def first (as : List α) (key : κ) : Option β :=
  ((as.filterMap fun a => (judge a).toOption).find? fun found => found.1 = key).map (·.2)

variable {judge taken} {s : Found κ β ρ}

theorem round_error {a : α} {reason : ρ} (judged : judge a = .error reason) :
    round judge taken s a = { s with refused := s.refused ++ [reason] } := by
  rw [round, judged]

theorem round_taken {a : α} {found : κ × β} {existing : β} (judged : judge a = .ok found)
    (held : s.kept.lookup found.1 = some existing) :
    round judge taken s a = { s with refused := s.refused ++ [taken existing found] } := by
  simp only [round, judged, held]

theorem round_new {a : α} {found : κ × β} (judged : judge a = .ok found)
    (free : s.kept.lookup found.1 = none) :
    round judge taken s a = { s with kept := s.kept.insert found.1 found.2 } := by
  simp only [round, judged, free]

theorem first_error {a : α} {reason : ρ} (judged : judge a = .error reason) (key : κ) :
    first judge [a] key = none := by
  simp [first, judged, Except.toOption]

theorem first_ok {a : α} {found : κ × β} (judged : judge a = .ok found) (key : κ) :
    first judge [a] key = if found.1 = key then some found.2 else none := by
  by_cases same : found.1 = key <;> simp [first, judged, Except.toOption, same]

theorem lookup_round (a : α) (key : κ) : (round judge taken s a).kept.lookup key =
    (s.kept.lookup key).or (first judge [a] key) := by
  cases judged : judge a with
  | error reason => rw [round_error judged, first_error judged, Option.or_none]
  | ok found =>
    rw [first_ok judged]
    cases held : s.kept.lookup found.1 with
    | some existing =>
      rw [round_taken judged held]
      by_cases same : found.1 = key
      · subst same
        rw [held, Option.some_or]
      · rw [if_neg same, Option.or_none]
    | none =>
      rw [round_new judged held]
      by_cases same : found.1 = key
      · subst same
        rw [held, if_pos rfl, Option.none_or, AList.lookup_insert]
      · rw [if_neg same, Option.or_none, AList.lookup_insert_ne (Ne.symm same)]

theorem first_cons (a : α) (as : List α) (key : κ) :
    first judge (a :: as) key = (first judge [a] key).or (first judge as key) := by
  cases judged : judge a with
  | error reason =>
    rw [first_error judged, Option.none_or]
    simp [first, judged, Except.toOption]
  | ok found =>
    rw [first_ok judged]
    by_cases same : found.1 = key <;> simp [first, judged, Except.toOption, same]

theorem first_eq_some {as : List α} {key : κ} {b : β} : first judge as key = some b ↔
    ∃ before a after, as = before ++ a :: after ∧ judge a = .ok (key, b) ∧
      ∀ c ∈ before, ∀ found, judge c = .ok found → found.1 ≠ key := by
  have here (a : α) : first judge [a] key = some b ↔ judge a = .ok (key, b) := by
    cases judged : judge a with
    | error reason => simp [first_error judged]
    | ok found => simp [first_ok judged, Prod.ext_iff]
  have absent (a : α) : first judge [a] key = none ↔ ∀ found, judge a = .ok found → found.1 ≠ key := by
    cases judged : judge a with
    | error reason => simp [first_error judged]
    | ok found => simp [first_ok judged]
  induction as with
  | nil => simp [first]
  | cons a as ih =>
    rw [first_cons, Option.or_eq_some_iff, here, absent]
    refine (or_congr Iff.rfl (and_congr Iff.rfl ih)).trans ?_
    constructor
    · rintro (own | ⟨other, before, c, after, rfl, judged, earlier⟩)
      · exact ⟨[], a, as, rfl, own, List.forall_mem_nil _⟩
      · exact ⟨a :: before, c, after, rfl, judged, List.forall_mem_cons.mpr ⟨other, earlier⟩⟩
    · rintro ⟨before, c, after, split, judged, earlier⟩
      cases before with
      | nil =>
        obtain ⟨rfl, _⟩ := List.cons.inj split
        exact .inl judged
      | cons first before =>
        obtain ⟨rfl, rfl⟩ := List.cons.inj split
        obtain ⟨other, later⟩ := List.forall_mem_cons.mp earlier
        exact .inr ⟨other, before, c, after, rfl, judged, later⟩

/-- What is kept under a key is what was, or else the first that has it. -/
theorem lookup_scan (s : Found κ β ρ) (as : List α) (key : κ) :
    (scan judge taken s as).kept.lookup key = (s.kept.lookup key).or (first judge as key) := by
  induction as generalizing s with
  | nil => simp [scan, first]
  | cons a as ih =>
    have rest := ih (round judge taken s a)
    rw [lookup_round, Option.or_assoc, ← first_cons] at rest
    exact rest

theorem scan_append (s : Found κ β ρ) (as bs : List α) :
    scan judge taken s (as ++ bs) = scan judge taken (scan judge taken s as) bs :=
  List.foldl_append

/-- What is kept stays, whatever is looked at later. -/
theorem scan_keeps (s : Found κ β ρ) (as : List α) {key : κ} {b : β}
    (held : s.kept.lookup key = some b) : (scan judge taken s as).kept.lookup key = some b := by
  rw [lookup_scan, held, Option.some_or]

theorem refused_prefix (s : Found κ β ρ) (as : List α) :
    s.refused <+: (scan judge taken s as).refused := by
  induction as generalizing s with
  | nil => exact List.prefix_rfl
  | cons a as ih =>
    refine List.IsPrefix.trans ?_ (ih (round judge taken s a))
    cases judged : judge a with
    | error reason =>
      rw [round_error judged]
      exact List.prefix_append _ _
    | ok found =>
      cases held : s.kept.lookup found.1 with
      | some existing =>
        rw [round_taken judged held]
        exact List.prefix_append _ _
      | none =>
        have unchanged : s.refused = (round judge taken s a).refused :=
          (congrArg (·.refused) (round_new judged held)).symm
        exact ⟨[], (List.append_nil _).trans unchanged⟩

/-- Why something is refused: for what it is, or because of what was kept under its key. -/
theorem mem_refused {as : List α} {reason : ρ}
    (member : reason ∈ (scan judge taken s as).refused) : reason ∈ s.refused ∨ ∃ a ∈ as,
      judge a = .error reason ∨ ∃ found existing, judge a = .ok found ∧
        (scan judge taken s as).kept.lookup found.1 = some existing ∧
          reason = taken existing found := by
  induction as generalizing s with
  | nil => exact .inl member
  | cons a as ih =>
    rcases ih member with earlier | ⟨b, listed, why⟩
    · cases judged : judge a with
      | error reason' =>
        rw [round_error judged] at earlier
        rcases List.mem_append.mp earlier with before | here
        · exact .inl before
        · cases List.mem_singleton.mp here
          exact .inr ⟨a, List.mem_cons_self, .inl judged⟩
      | ok found =>
        cases held : s.kept.lookup found.1 with
        | some existing =>
          rw [round_taken judged held] at earlier
          rcases List.mem_append.mp earlier with before | here
          · exact .inl before
          · cases List.mem_singleton.mp here
            exact .inr ⟨a, List.mem_cons_self, .inr ⟨found, existing, judged,
              scan_keeps s (a :: as) held, rfl⟩⟩
        | none =>
          rw [round_new judged held] at earlier
          exact .inl earlier
    · exact .inr ⟨b, List.mem_cons_of_mem a listed, why⟩

section Accounting

variable (place : α → δ) (origin : β → δ) (about : ρ → δ)

/-- What is kept or refused is so once, and nothing else is. -/
def places (s : Found κ β ρ) : List δ :=
  s.refused.map about ++ s.kept.entries.map fun entry => origin entry.2

variable {place origin about}
  (refuses : ∀ a reason, judge a = .error reason → about reason = place a)
  (keeps : ∀ a found, judge a = .ok found → origin found.2 = place a)
  (repeats : ∀ existing found, about (taken existing found) = origin found.2)

include refuses keeps repeats

theorem places_round (s : Found κ β ρ) (a : α) :
    (places origin about (round judge taken s a)).Perm (places origin about s ++ [place a]) := by
  have swap (kept : List δ) : ([place a] ++ kept).Perm (kept ++ [place a]) :=
    List.perm_append_comm
  have refused (reason : ρ) (own : about reason = place a) :
      (places origin about { s with refused := s.refused ++ [reason] }).Perm
        (places origin about s ++ [place a]) := by
    simp only [places, List.map_append, List.map_cons, List.map_nil, own, List.append_assoc]
    exact (swap (s.kept.entries.map fun entry => origin entry.2)).append_left _
  cases judged : judge a with
  | error reason =>
    rw [round_error judged]
    exact refused reason (refuses a reason judged)
  | ok found =>
    have own := keeps a found judged
    cases held : s.kept.lookup found.1 with
    | some existing =>
      rw [round_taken judged held]
      exact refused _ ((repeats existing found).trans own)
    | none =>
      have new : found.1 ∉ s.kept := AList.lookup_eq_none.mp held
      rw [round_new judged held]
      simp only [places, AList.entries_insert_of_notMem new, List.map_cons, own, List.append_assoc]
      exact (swap (s.kept.entries.map fun entry => origin entry.2)).append_left _

/-- Everything that is looked at is kept or refused, once. -/
theorem places_scan (s : Found κ β ρ) (as : List α) :
    (places origin about (scan judge taken s as)).Perm
      (places origin about s ++ as.map place) := by
  induction as generalizing s with
  | nil => simp [scan]
  | cons a as ih =>
    have here : (places origin about (round judge taken s a)).Perm
        (places origin about s ++ [place a]) := places_round refuses keeps repeats s a
    refine (ih (round judge taken s a)).trans ?_
    rw [List.map_cons, ← List.singleton_append, ← List.append_assoc]
    exact here.append_right _

end Accounting

end FirstFound
