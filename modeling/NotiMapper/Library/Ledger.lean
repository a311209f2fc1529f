import NotiMapper.Library.Transition
import Mathlib.Data.List.Perm.Basic

/-! Items that are opened by one step of a run and closed by a later one, at most one of
each key at a time. Then the items of a key are closed in the order they were opened. -/
namespace Ledger

variable {σ α β κ : Type} (key : β → κ)

def entries [DecidableEq κ] (k : κ) (items : List β) : List β := items.filter fun item => key item = k

/-- Of the items that were open, and those opened now, some are closed and the rest are
open afterwards. No key occurs twice. -/
structure Balanced (before opened closed after : List β) : Prop where
  perm : (before ++ opened).Perm (closed ++ after)
  nodup : ((before ++ opened).map key).Nodup

variable {key}

variable [DecidableEq κ]

theorem entries_append (k : κ) (items items' : List β) :
    entries key k (items ++ items') = entries key k items ++ entries key k items' :=
  List.filter_append ..

theorem mem_keys {k : κ} {items : List β} :
    k ∈ items.map key ↔ 0 < (entries key k items).length := by
  rw [List.length_pos_iff_exists_mem, List.mem_map]
  simp only [entries, List.mem_filter, decide_eq_true_eq]

theorem entries_length_le_one {items : List β} (nodup : (items.map key).Nodup) (k : κ) :
    (entries key k items).length ≤ 1 := by
  induction items with
  | nil => simp [entries]
  | cons item items ih =>
    rw [List.map_cons, List.nodup_cons] at nodup
    have rest := ih nodup.2
    by_cases here : key item = k
    · have none : items.filter (fun item => key item = k) = [] := by
        rw [List.filter_eq_nil_iff]
        intro other member same
        apply nodup.1
        rw [here, ← of_decide_eq_true same]
        exact List.mem_map_of_mem member
      simp [entries, here, none]
    · simpa [entries, here] using rest

theorem perm_eq_of_length_le_one {items items' : List β} (perm : items.Perm items')
    (short : items.length ≤ 1) : items = items' := by
  match items, short with
  | [], _ => exact perm.nil_eq
  | [item], _ => exact perm.singleton_eq

theorem Balanced.entries {before opened closed after : List β}
    (balanced : Balanced key before opened closed after) (k : κ) :
    entries key k before ++ entries key k opened =
      entries key k closed ++ entries key k after := by
  rw [← entries_append, ← entries_append]
  exact perm_eq_of_length_le_one (balanced.perm.filter _) (entries_length_le_one balanced.nodup k)

/-- Along a run of balanced steps the items of each key stay in line. -/
theorem along_entries {step : σ → α → Option σ} {Inv : σ → Prop} {held : σ → List β}
    {opened closed : σ → α → List β}
    (kept : ∀ s a t, Inv s → step s a = some t → Inv t)
    (each : ∀ s a t, Inv s → step s a = some t →
      Balanced key (held s) (opened s a) (closed s a) (held t))
    {s t : σ} {as : List α} (start : Inv s) (ran : Transition.run step s as = some t) (k : κ) :
    Ledger.entries key k (held s) ++ Ledger.entries key k (Transition.along step opened s as) =
      Ledger.entries key k (Transition.along step closed s as) ++
        Ledger.entries key k (held t) := by
  induction as generalizing s with
  | nil =>
    cases Option.some.inj ran
    simp [Transition.along, Ledger.entries]
  | cons a as ih =>
    obtain ⟨m, stepped, rest⟩ := Transition.run_cons.mp ran
    have first := (each s a m start stepped).entries k
    have later := ih (kept s a m start stepped) rest
    simp only [Transition.along, stepped, Option.elim_some]
    rw [Ledger.entries_append, Ledger.entries_append, ← List.append_assoc, first,
      List.append_assoc, later, List.append_assoc]

end Ledger
