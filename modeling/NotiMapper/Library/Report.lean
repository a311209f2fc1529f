import Mathlib.Data.List.Basic

/-! Computations that report problems and go on, and that may raise. Each problem is kept
beside the result. A computation passes when it returns without a problem, and then so
did every part of it. -/
@[ext] structure Report (ε χ α : Type) where
  result : Except χ α
  problems : List ε

namespace Report

variable {ε χ α β γ : Type}

def bind (x : Report ε χ α) (f : α → Report ε χ β) : Report ε χ β :=
  match x.result with
  | .error raised => ⟨.error raised, x.problems⟩
  | .ok a => ⟨(f a).result, x.problems ++ (f a).problems⟩

instance : Monad (Report ε χ) where
  pure a := ⟨.ok a, []⟩
  bind := bind

instance : LawfulMonad (Report ε χ) := LawfulMonad.mk' _
  (by
    rintro α ⟨result, problems⟩
    cases result
    · rfl
    · exact congrArg (Report.mk _) (List.append_nil _))
  (fun _ _ => rfl)
  (by
    rintro α β γ ⟨result, problems⟩ f g
    cases result with
    | error raised => rfl
    | ok a =>
      change bind (bind _ f) g = bind _ fun a => bind (f a) g
      simp only [bind]
      cases known : (f a).result with
      | error raised => rfl
      | ok b => simp only [List.append_assoc])

def tell (problem : ε) : Report ε χ Unit := ⟨.ok (), [problem]⟩

def raise (raised : χ) : Report ε χ α := ⟨.error raised, []⟩

/- Passing: returned, and nothing reported. -/

theorem bind_eq_pure {x : Report ε χ α} {f : α → Report ε χ β} {b : β} :
    x >>= f = pure b ↔ ∃ a, x = pure a ∧ f a = pure b := by
  have run : x >>= f = bind x f := rfl
  rw [run]
  obtain ⟨result, problems⟩ := x
  cases result with
  | error raised => simp [bind, pure]
  | ok a =>
    constructor
    · intro passed
      have result := congrArg Report.result passed
      have silent := congrArg Report.problems passed
      obtain ⟨before, after⟩ := List.append_eq_nil_iff.mp silent
      refine ⟨a, by rw [show problems = [] from before]; rfl, ?_⟩
      cases known : f a
      rw [known] at after
      simp only [bind, known] at result
      cases after
      cases result
      rfl
    · rintro ⟨a', first, second⟩
      cases first
      simp only [bind, second]
      rfl

theorem exists_bind_eq_pure {x : Report ε χ α} {f : α → Report ε χ β} :
    (∃ b, x >>= f = pure b) ↔ ∃ a, x = pure a ∧ ∃ b, f a = pure b := by
  simp only [bind_eq_pure]
  constructor
  · rintro ⟨b, a, first, second⟩
    exact ⟨a, first, b, second⟩
  · rintro ⟨a, first, b, second⟩
    exact ⟨b, a, first, second⟩

@[simp] theorem pure_eq_pure {a b : α} : (pure a : Report ε χ α) = pure b ↔ a = b := by
  simp [pure]

@[simp] theorem tell_bind_ne {problem : ε} {f : Unit → Report ε χ β} {b : β} :
    ¬ tell problem >>= f = pure b := by
  rw [bind_eq_pure]
  rintro ⟨_, told, _⟩
  cases told

@[simp] theorem tell_ne {problem : ε} {u : Unit} : ¬ (tell problem : Report ε χ Unit) = pure u :=
  fun told => (nomatch told)

@[simp] theorem map_tell_ne {problem : ε} {f : Unit → β} {b : β} :
    ¬ f <$> (tell problem : Report ε χ Unit) = pure b := by
  rw [map_eq_pure_bind]
  exact tell_bind_ne

@[simp] theorem raise_ne {raised : χ} {a : α} : ¬ (raise raised : Report ε χ α) = pure a :=
  fun same => (nomatch same)

theorem forM_eq_pure {f : α → Report ε χ PUnit} {as : List α} {u : PUnit} :
    List.forM as f = pure u ↔ ∀ a ∈ as, f a = pure ⟨⟩ := by
  induction as with
  | nil => simp [List.forM]
  | cons a as ih =>
    simp only [List.forM, bind_eq_pure, ih, List.forall_mem_cons]
    constructor
    · rintro ⟨_, here, rest⟩
      exact ⟨here, rest⟩
    · rintro ⟨here, rest⟩
      exact ⟨⟨⟩, here, rest⟩

/-- A loop that reports every element passes only when there is none. -/
theorem forM_tell_eq_pure {f : α → ε} {as : List α} {u : PUnit} :
    List.forM as (fun a => (tell (f a) : Report ε χ PUnit)) = pure u ↔ as = [] := by
  rw [forM_eq_pure, List.eq_nil_iff_forall_not_mem]
  simp only [tell_ne, imp_false]

theorem foldlM_cons_eq_pure {f : β → α → Report ε χ β} {a : α} {as : List α} {b c : β} :
    List.foldlM f b (a :: as) = pure c ↔ ∃ m, f b a = pure m ∧ List.foldlM f m as = pure c := by
  rw [List.foldlM_cons, bind_eq_pure]

/- Returning: no exception, whatever was reported. -/

def Returns (x : Report ε χ α) : Prop := ∃ a, x.result = .ok a

theorem returns_pure (a : α) : Returns (pure a : Report ε χ α) := ⟨a, rfl⟩

theorem returns_tell (problem : ε) : Returns (tell problem : Report ε χ Unit) := ⟨(), rfl⟩

theorem not_returns_raise {raised : χ} : ¬ Returns (raise raised : Report ε χ α) := by
  rintro ⟨a, returned⟩
  cases returned

theorem bind_of_ok {x : Report ε χ α} {f : α → Report ε χ β} {a : α}
    (returned : x.result = .ok a) :
    x >>= f = ⟨(f a).result, x.problems ++ (f a).problems⟩ := by
  have run : x >>= f = bind x f := rfl
  rw [run, bind, returned]

/-- How a computation ends depends on how its parts end, and on no report. -/
theorem result_congr {x y : Report ε χ α} {f g : α → Report ε χ β} (first : x.result = y.result)
    (second : ∀ a, (f a).result = (g a).result) : (x >>= f).result = (y >>= g).result := by
  have run (z : Report ε χ α) (h : α → Report ε χ β) : z >>= h = bind z h := rfl
  rw [run, run, bind, bind, first]
  cases y.result with
  | error raised => rfl
  | ok a => exact second a

theorem returns_bind {x : Report ε χ α} {f : α → Report ε χ β} :
    Returns (x >>= f) ↔ ∃ a, x.result = .ok a ∧ Returns (f a) := by
  have run : x >>= f = bind x f := rfl
  rw [run]
  obtain ⟨result, problems⟩ := x
  cases result <;> simp [bind, Returns]

theorem returns_bind_of_ok {x : Report ε χ α} {f : α → Report ε χ β} {a : α}
    (returned : x.result = .ok a) : Returns (x >>= f) ↔ Returns (f a) := by
  rw [returns_bind]
  constructor
  · rintro ⟨_, same, next⟩
    cases returned.symm.trans same
    exact next
  · exact fun next => ⟨a, returned, next⟩

theorem Returns.of_bind {x : Report ε χ α} {f : α → Report ε χ β} (both : Returns (x >>= f)) :
    Returns x := by
  obtain ⟨a, returned, _⟩ := returns_bind.mp both
  exact ⟨a, returned⟩

theorem Returns.bind {x : Report ε χ α} {f : α → Report ε χ β} (first : Returns x)
    (next : ∀ a, Returns (f a)) : Returns (x >>= f) := by
  obtain ⟨a, returned⟩ := first
  exact returns_bind.mpr ⟨a, returned, next a⟩

theorem Returns.forM {f : α → Report ε χ PUnit} (as : List α) (each : ∀ a ∈ as, Returns (f a)) :
    Returns (List.forM as f) := by
  induction as with
  | nil => exact returns_pure _
  | cons a as ih =>
    obtain ⟨here, later⟩ := List.forall_mem_cons.mp each
    exact here.bind fun _ => ih later

/-- A loop returns when each of its rounds does, if that does not depend on the others. -/
theorem returns_foldlM {f : β → α → Report ε χ β} {R : α → Prop}
    (each : ∀ b a, Returns (f b a) ↔ R a) (b : β) (as : List α) :
    Returns (as.foldlM f b) ↔ ∀ a ∈ as, R a := by
  induction as generalizing b with
  | nil => exact iff_of_true (returns_pure b) (List.forall_mem_nil _)
  | cons a as ih =>
    rw [List.foldlM_cons, List.forall_mem_cons, ← each b a]
    constructor
    · intro returned
      obtain ⟨next, _, later⟩ := returns_bind.mp returned
      exact ⟨returned.of_bind, (ih next).mp later⟩
    · rintro ⟨here, later⟩
      exact here.bind fun next => (ih next).mpr later

/-- How a computation ends depends on how its parts do, not on what they report. -/
theorem result_bind_congr {x y : Report ε χ α} {f g : α → Report ε χ β}
    (first : x.result = y.result) (next : ∀ a, (f a).result = (g a).result) :
    (x >>= f).result = (y >>= g).result := by
  have left : x >>= f = bind x f := rfl
  have right : y >>= g = bind y g := rfl
  rw [left, right, bind, bind, first]
  cases y.result with
  | error raised => rfl
  | ok a => exact next a

/- Computations that always return. -/

/-- Each step of a loop meets `P` in the state it is taken from. -/
def Along (P : β → α → Prop) (next : β → α → β) : β → List α → Prop
  | _, [] => True
  | b, a :: as => P b a ∧ Along P next (next b a) as

theorem along_append {P : β → α → Prop} {next : β → α → β} {b : β} {as more : List α} :
    Along P next b (as ++ more) ↔ Along P next b as ∧ Along P next (as.foldl next b) more := by
  induction as generalizing b with
  | nil => simp [Along]
  | cons a as ih => simp only [List.cons_append, Along, ih, List.foldl_cons, and_assoc]

theorem along_const {P : α → Prop} {next : β → α → β} {b : β} {as : List α} :
    Along (fun _ => P) next b as ↔ ∀ a ∈ as, P a := by
  induction as generalizing b with
  | nil => simp [Along]
  | cons a as ih => rw [Along, ih, List.forall_mem_cons]

/-- `x` returns `a`, and it reports nothing exactly when `P` holds. -/
structure Gives (x : Report ε χ α) (P : Prop) (a : α) : Prop where
  result : x.result = .ok a
  silent : x.problems = [] ↔ P

namespace Gives

variable {x : Report ε χ α} {P Q : Prop} {a : α}

theorem eq_pure (given : Gives x P a) {b : α} : x = Pure.pure b ↔ P ∧ b = a := by
  obtain ⟨returned, problems⟩ := x
  obtain ⟨result, silent⟩ := given
  cases result
  rw [← silent]
  constructor
  · intro same
    cases same
    exact ⟨rfl, rfl⟩
  · rintro ⟨rfl, rfl⟩
    rfl

theorem bind_eq_pure (given : Gives x P a) {f : α → Report ε χ β} {b : β} :
    x >>= f = Pure.pure b ↔ P ∧ f a = Pure.pure b := by
  rw [Report.bind_eq_pure]
  constructor
  · rintro ⟨a', first, second⟩
    obtain ⟨holds, rfl⟩ := given.eq_pure.mp first
    exact ⟨holds, second⟩
  · rintro ⟨holds, second⟩
    exact ⟨a, given.eq_pure.mpr ⟨holds, rfl⟩, second⟩

theorem pure (a : α) : Gives (Pure.pure a : Report ε χ α) True a := ⟨rfl, iff_of_true rfl trivial⟩

theorem tell (problem : ε) : Gives (Report.tell problem : Report ε χ Unit) False () :=
  ⟨rfl, iff_of_false (List.cons_ne_nil _ _) id⟩

theorem bind {f : α → Report ε χ β} {b : β} (first : Gives x P a) (next : Gives (f a) Q b) :
    Gives (x >>= f) (P ∧ Q) b := by
  rw [bind_of_ok first.result]
  constructor
  · exact next.result
  · rw [List.append_eq_nil_iff, first.silent, next.silent]

theorem congr (given : Gives x P a) (same : P ↔ Q) : Gives x Q a :=
  ⟨given.result, given.silent.trans same⟩

theorem then_pure {f : α → β} (given : Gives x P a) :
    Gives (x >>= fun a => Pure.pure (f a)) P (f a) :=
  (given.bind (pure (f a))).congr ⟨And.left, fun holds => ⟨holds, trivial⟩⟩

/-- A problem, and then what does not depend on it. -/
theorem tell_bind {f : Unit → Report ε χ β} {b : β} {problem : ε}
    (next : Gives (f ()) Q b) : Gives (Report.tell problem >>= f) False b :=
  ((tell problem).bind next).congr ⟨And.left, False.elim⟩

/-- An outcome that is right. -/
theorem accepted {a : α} (good : P) : Gives (Pure.pure a : Report ε χ α) P a :=
  (pure a).congr (iff_of_true trivial good)

/-- An outcome after what is wrong has been told. -/
theorem rejected {a : α} {problem : ε} (bad : ¬ P) :
    Gives (Report.tell problem >>= fun _ => Pure.pure a : Report ε χ α) P a :=
  (tell_bind (pure a)).congr (iff_of_false id bad)

theorem forM_tell {f : α → ε} (as : List α) :
    Gives (List.forM as fun a => (Report.tell (f a) : Report ε χ PUnit)) (as = []) ⟨⟩ := by
  induction as with
  | nil => exact (pure _).congr (iff_of_true trivial rfl)
  | cons a as ih => exact (tell_bind ih).congr (iff_of_false id (List.cons_ne_nil a as))

theorem foldlM {f : β → α → Report ε χ β} {P : β → α → Prop} {next : β → α → β} {as : List α}
    (each : ∀ b, ∀ a ∈ as, Gives (f b a) (P b a) (next b a)) (b : β) :
    Gives (as.foldlM f b) (Along P next b as) (as.foldl next b) := by
  induction as generalizing b with
  | nil => exact pure b
  | cons a as ih =>
    rw [List.foldlM_cons]
    have later := ih fun b a member => each b a (List.mem_cons_of_mem _ member)
    exact (each b a List.mem_cons_self).bind (later _)

/-- The same when each round is itself a loop, over the parts of its element. -/
theorem foldlM_flatMap {f : β → α → Report ε χ β} {K : α → Prop} {parts : α → List γ}
    {P : β → γ → Prop} {next : β → γ → β} {as : List α}
    (each : ∀ b, ∀ a ∈ as,
      Gives (f b a) (K a ∧ Along P next b (parts a)) ((parts a).foldl next b))
    (b : β) : Gives (as.foldlM f b)
      ((∀ a ∈ as, K a) ∧ Along P next b (as.flatMap parts)) ((as.flatMap parts).foldl next b) := by
  induction as generalizing b with
  | nil => exact (pure b).congr (by simp [Along])
  | cons a as ih =>
    rw [List.foldlM_cons, List.flatMap_cons, List.foldl_append]
    have later := ih (fun b a member => each b a (List.mem_cons_of_mem _ member))
    refine ((each b a List.mem_cons_self).bind (later _)).congr ?_
    rw [List.forall_mem_cons, along_append]
    exact and_and_and_comm

end Gives

/- What is reported on the way. -/

theorem problems_pure (a : α) : (pure a : Report ε χ α).problems = [] := rfl

theorem problems_bind_of_ok {x : Report ε χ α} {f : α → Report ε χ β} {a : α}
    (returned : x.result = .ok a) : (x >>= f).problems = x.problems ++ (f a).problems := by
  rw [bind_of_ok returned]

theorem problems_forM_tell {f : α → ε} (as : List α) :
    (List.forM as fun a => (tell (f a) : Report ε χ PUnit)).problems = as.map f := by
  induction as with
  | nil => rfl
  | cons a as ih =>
    have told : (tell (f a) : Report ε χ PUnit).result = .ok () := rfl
    rw [List.forM, problems_bind_of_ok told, ih]
    rfl

/-- A loop whose rounds report what they do from any state. -/
theorem problems_foldlM {f : β → α → Report ε χ β} {g : α → List ε} {as : List α}
    (same : ∀ b, ∀ a ∈ as, (f b a).problems = g a) {b : β} (returned : Returns (as.foldlM f b)) :
    (as.foldlM f b).problems = as.flatMap g := by
  induction as generalizing b with
  | nil => rfl
  | cons a as ih =>
    rw [List.foldlM_cons] at returned ⊢
    obtain ⟨next, first, rest⟩ := returns_bind.mp returned
    have later := ih (fun b a member => same b a (List.mem_cons_of_mem _ member)) rest
    rw [problems_bind_of_ok first, same b a List.mem_cons_self, later, List.flatMap_cons]

theorem mem_bind_of_left {x : Report ε χ α} {f : α → Report ε χ β} {e : ε}
    (reported : e ∈ x.problems) : e ∈ (x >>= f).problems := by
  have run : x >>= f = bind x f := rfl
  rw [run, bind]
  cases x.result with
  | error raised => exact reported
  | ok a => exact List.mem_append_left _ reported

theorem mem_bind_of_ok {x : Report ε χ α} {f : α → Report ε χ β} {e : ε} {a : α}
    (returned : x.result = .ok a) :
    e ∈ (x >>= f).problems ↔ e ∈ x.problems ∨ e ∈ (f a).problems := by
  rw [bind_of_ok returned, List.mem_append]

/-- A round of a loop that returns reports to the loop what it reports from any state met. -/
theorem mem_foldlM {f : β → α → Report ε χ β} {I : β → Prop} {as : List α} {a : α} {e : ε}
    (keeps : ∀ b, I b → ∀ a ∈ as, ∀ c, (f b a).result = .ok c → I c) {b : β} (start : I b)
    (returned : Returns (as.foldlM f b)) (member : a ∈ as)
    (reported : ∀ b, I b → e ∈ (f b a).problems) : e ∈ (as.foldlM f b).problems := by
  induction as generalizing b with
  | nil => cases member
  | cons first as ih =>
    rw [List.foldlM_cons] at returned ⊢
    obtain ⟨next, result, rest⟩ := returns_bind.mp returned
    rcases List.mem_cons.mp member with rfl | member
    · exact mem_bind_of_left (reported b start)
    · refine (mem_bind_of_ok result).mpr (.inr (ih ?_ ?_ rest member))
      · exact fun b holds a member => keeps b holds a (List.mem_cons_of_mem _ member)
      · exact keeps b start first List.mem_cons_self next result

/-- The problems of a loop are those of its rounds, each in the state it is reached in. -/
theorem mem_problems_foldlM {f : β → α → Report ε χ β} (returns : ∀ b a, Returns (f b a))
    {as : List α} {b : β} {e : ε} :
    e ∈ (as.foldlM f b).problems ↔ ∃ before a after, as = before ++ a :: after ∧
      ∃ c, (before.foldlM f b).result = .ok c ∧ e ∈ (f c a).problems := by
  induction as generalizing b with
  | nil =>
    refine iff_of_false List.not_mem_nil ?_
    rintro ⟨before, a, after, split, _⟩
    exact absurd split.symm (List.append_ne_nil_of_right_ne_nil _ (List.cons_ne_nil _ _))
  | cons first as ih =>
    obtain ⟨next, result⟩ := returns b first
    rw [List.foldlM_cons, mem_bind_of_ok result, ih]
    constructor
    · rintro (here | ⟨before, a, after, rfl, c, reached, told⟩)
      · exact ⟨[], first, as, rfl, b, rfl, here⟩
      · refine ⟨first :: before, a, after, rfl, c, ?_, told⟩
        rw [List.foldlM_cons, bind_of_ok result]
        exact reached
    · rintro ⟨before, a, after, split, c, reached, told⟩
      cases before with
      | nil =>
        cases reached
        obtain ⟨rfl, rfl⟩ := List.cons.inj split
        exact .inl told
      | cons _ before =>
        obtain ⟨rfl, rfl⟩ := List.cons.inj split
        rw [List.foldlM_cons, bind_of_ok result] at reached
        exact .inr ⟨before, a, after, rfl, c, reached, told⟩

/-- Every problem that is reported is of this kind. -/
def Reports (kind : ε → Prop) (x : Report ε χ α) : Prop := ∀ e ∈ x.problems, kind e

variable {kind : ε → Prop}

theorem reports_pure (a : α) : Reports kind (pure a : Report ε χ α) := List.forall_mem_nil _

theorem reports_raise (raised : χ) : Reports kind (raise raised : Report ε χ α) :=
  List.forall_mem_nil _

theorem reports_tell {problem : ε} :
    Reports kind (tell problem : Report ε χ Unit) ↔ kind problem := List.forall_mem_singleton

theorem Reports.bind {x : Report ε χ α} {f : α → Report ε χ β} (first : Reports kind x)
    (next : ∀ a, x.result = .ok a → Reports kind (f a)) : Reports kind (x >>= f) := by
  intro e reported
  have run : x >>= f = Report.bind x f := rfl
  rw [run, Report.bind] at reported
  cases result : x.result with
  | error raised =>
    rw [result] at reported
    exact first e reported
  | ok a =>
    rw [result] at reported
    rcases List.mem_append.mp reported with before | after
    · exact first e before
    · exact next a result e after

/-- A problem, and then an outcome. -/
theorem reports_tell_pure {problem : ε} {a : α} (right : kind problem) :
    Reports kind (tell problem >>= fun _ => pure a : Report ε χ α) :=
  Reports.bind (reports_tell.mpr right) fun _ _ => reports_pure a

theorem Reports.forM {f : α → Report ε χ PUnit} {as : List α}
    (each : ∀ a ∈ as, Reports kind (f a)) : Reports kind (List.forM as f) := by
  induction as with
  | nil => exact reports_pure _
  | cons a as ih =>
    obtain ⟨here, later⟩ := List.forall_mem_cons.mp each
    exact here.bind fun _ _ => ih later

theorem Reports.foldlM {f : β → α → Report ε χ β} {I : β → Prop} {as : List α}
    (keeps : ∀ b, I b → ∀ a ∈ as, ∀ c, (f b a).result = .ok c → I c)
    (each : ∀ b, I b → ∀ a ∈ as, Reports kind (f b a)) {b : β} (start : I b) :
    Reports kind (as.foldlM f b) := by
  induction as generalizing b with
  | nil => exact reports_pure b
  | cons a as ih =>
    rw [List.foldlM_cons]
    refine (each b start a List.mem_cons_self).bind fun next result => ?_
    refine ih ?_ ?_ (keeps b start a List.mem_cons_self next result)
    · exact fun b holds a member => keeps b holds a (List.mem_cons_of_mem _ member)
    · exact fun b holds a member => each b holds a (List.mem_cons_of_mem _ member)

end Report
