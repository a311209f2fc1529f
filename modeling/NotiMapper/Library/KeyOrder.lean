import NotiMapper.Library.Json
import Mathlib.Data.List.Sort

/-! JSON values up to the order of their keys: sorted, two of them are equal exactly if one
is the other with the keys of its objects in another order. -/
namespace Python

variable {α β : Type}

/-- Sorting by key is stable. -/
theorem lookup_insertionSort (entries : List (String × α)) (key : String) :
    (entries.insertionSort fun a b => a.1 ≤ b.1).lookup key = entries.lookup key := by
  have inserted (entry : String × α) (sorted : List (String × α)) :
      (sorted.orderedInsert (fun a b => a.1 ≤ b.1) entry).lookup key =
        (entry :: sorted).lookup key := by
    induction sorted with
    | nil => rfl
    | cons first sorted ih =>
      rw [List.orderedInsert_cons]
      split
      · rfl
      · rename_i after
        have apart : first.1 ≠ entry.1 := fun same => after (same ▸ String.le_refl _)
        rw [List.lookup_cons, ih, List.lookup_cons, List.lookup_cons, List.lookup_cons]
        by_cases here : key = first.1
        · rw [here, beq_self_eq_true, beq_false_of_ne apart]
        · rw [beq_false_of_ne here]
  induction entries with
  | nil => rfl
  | cons entry entries ih =>
    rw [List.insertionSort_cons, inserted, List.lookup_cons, List.lookup_cons, ih]

/-- Sorting by key forgets the order, if the keys are apart. -/
theorem insertionSort_perm {key : α → String} {a b : List α} (perm : a.Perm b)
    (nodup : (a.map key).Nodup) : (a.insertionSort fun x y => key x ≤ key y) =
      b.insertionSort fun x y => key x ≤ key y := by
  let before (x y : α) : Prop := key x ≤ key y
  have total : Std.Total before := ⟨fun x y => String.le_total (key x) (key y)⟩
  have trans : IsTrans α before := ⟨fun x y z => String.le_trans⟩
  have sorted (l : List α) : (l.insertionSort before).Pairwise before :=
    List.pairwise_insertionSort before l
  refine List.Perm.eq_of_pairwise ?_ (sorted a) (sorted b) ?_
  · intro x y first second le ge
    refine List.inj_on_of_nodup_map nodup ((List.mem_insertionSort _).mp first) ?_
      (String.le_antisymm le ge)
    exact perm.mem_iff.mpr ((List.mem_insertionSort _).mp second)
  · exact (List.perm_insertionSort _ _).trans (perm.trans (List.perm_insertionSort _ _).symm)

mutual

/-- The value with the keys of every object in order. -/
def Json.sorted : Json → Json
  | .array elements => .array (sortedElements elements)
  | .object members => .object ((sortedValues members).insertionSort fun a b => a.1 ≤ b.1)
  | .null => .null
  | .bool value => .bool value
  | .int value => .int value
  | .float value => .float value
  | .string text => .string text

def sortedElements : List Json → List Json
  | [] => []
  | element :: rest => element.sorted :: sortedElements rest

def sortedValues : Members → Members
  | [] => []
  | (key, value) :: rest => (key, value.sorted) :: sortedValues rest

end

def sortedMembers (members : Members) : Members :=
  (sortedValues members).insertionSort fun a b => a.1 ≤ b.1

theorem sortedValues_eq_map (members : Members) :
    sortedValues members = members.map fun member => (member.1, member.2.sorted) := by
  induction members with
  | nil => rfl
  | cons member members ih => rw [sortedValues, ih, List.map_cons]

theorem sortedElements_eq_map (elements : List Json) :
    sortedElements elements = elements.map Json.sorted := by
  induction elements with
  | nil => rfl
  | cons element elements ih => rw [sortedElements, ih, List.map_cons]

theorem sortedMembers_perm (members : Members) :
    (sortedMembers members).Perm (members.map fun member => (member.1, member.2.sorted)) :=
  sortedValues_eq_map members ▸ List.perm_insertionSort _ _

theorem lookup_sortedMembers (members : Members) (key : String) :
    (sortedMembers members).lookup key = (members.lookup key).map Json.sorted := by
  rw [sortedMembers, lookup_insertionSort, sortedValues_eq_map]
  induction members with
  | nil => rfl
  | cons member members ih =>
    rw [List.map_cons, List.lookup_cons, List.lookup_cons, ih]
    cases key == member.1 <;> rfl

theorem Json.sorted_object (members : Members) :
    (Json.object members).sorted = .object (sortedMembers members) := by
  rw [Json.sorted, sortedMembers]

/- What sorting leaves alone. -/

theorem Json.sorted_eq_string {value : Json} {text : String} :
    value.sorted = .string text ↔ value = .string text := by
  cases value <;> simp [Json.sorted]

theorem Json.sorted_eq_bool {value : Json} {flag : Bool} :
    value.sorted = .bool flag ↔ value = .bool flag := by
  cases value <;> simp [Json.sorted]

theorem Json.sorted_eq_int {value : Json} {n : Int} : value.sorted = .int n ↔ value = .int n := by
  cases value <;> simp [Json.sorted]

theorem Json.sorted_eq_float {value : Json} {f : FloatValue} :
    value.sorted = .float f ↔ value = .float f := by
  cases value <;> simp [Json.sorted]

theorem Json.sorted_eq_texts {value : Json} {texts : List String} :
    value.sorted = .array (texts.map .string) ↔ value = .array (texts.map .string) := by
  cases value with
  | array elements =>
    rw [Json.sorted, sortedElements_eq_map, Json.array.injEq, Json.array.injEq]
    induction elements generalizing texts with
    | nil => cases texts <;> simp
    | cons element elements ih =>
      cases texts with
      | nil => simp
      | cons text texts =>
        rw [List.map_cons, List.map_cons, List.cons.injEq, List.cons.injEq, ih,
          Json.sorted_eq_string]
  | _ => simp [Json.sorted]

/- The members that have the same sorted form. -/

/-- The same members, but for the order of keys. -/
def Alike (a b : Members) : Prop := sortedMembers a = sortedMembers b

namespace Alike

variable {a b : Members}

/-- Where every key is there once, another order makes no difference. -/
theorem of_perm (perm : a.Perm b) (nodup : (a.map Prod.fst).Nodup) : Alike a b := by
  unfold Alike sortedMembers
  rw [sortedValues_eq_map, sortedValues_eq_map]
  refine insertionSort_perm (perm.map _) ?_
  rwa [List.map_map]

theorem symm (alike : Alike a b) : Alike b a := Eq.symm alike

theorem lookup (alike : Alike a b) (key : String) :
    (a.lookup key).map Json.sorted = (b.lookup key).map Json.sorted := by
  rw [← lookup_sortedMembers, ← lookup_sortedMembers, alike]

theorem found (alike : Alike a b) {key : String} {value : Json} (there : a.lookup key = some value) :
    ∃ other, b.lookup key = some other ∧ other.sorted = value.sorted := by
  have same := alike.lookup key
  rw [there, Option.map_some] at same
  obtain ⟨other, known, sorted⟩ := Option.map_eq_some_iff.mp same.symm
  exact ⟨other, known, sorted⟩

theorem absent_iff (alike : Alike a b) {key : String} :
    a.lookup key = none ↔ b.lookup key = none := by
  rw [← Option.map_eq_none_iff (f := Json.sorted), alike.lookup key, Option.map_eq_none_iff]

/-- What sorting leaves alone is found in both, or in neither. -/
theorem plain_iff (alike : Alike a b) {key : String} {value : Json}
    (plain : ∀ other : Json, other.sorted = value ↔ other = value) :
    a.lookup key = some value ↔ b.lookup key = some value := by
  have sorted (c : Members) : c.lookup key = some value ↔
      (c.lookup key).map Json.sorted = some value := by
    cases c.lookup key with
    | none => simp
    | some other => rw [Option.map_some, Option.some.injEq, Option.some.injEq, plain]
  rw [sorted, sorted, alike.lookup key]

theorem string_iff (alike : Alike a b) {key text : String} :
    a.lookup key = some (.string text) ↔ b.lookup key = some (.string text) :=
  alike.plain_iff fun _ => Json.sorted_eq_string

theorem texts_iff (alike : Alike a b) {key : String} {texts : List String} :
    a.lookup key = some (.array (texts.map .string)) ↔
      b.lookup key = some (.array (texts.map .string)) :=
  alike.plain_iff fun _ => Json.sorted_eq_texts

theorem object (alike : Alike a b) {key : String} {members : Members}
    (there : a.lookup key = some (.object members)) :
    ∃ others, b.lookup key = some (.object others) ∧ Alike members others := by
  obtain ⟨other, known, sorted⟩ := alike.found there
  rw [Json.sorted_object] at sorted
  cases other with
  | object others =>
    rw [Json.sorted_object, Json.object.injEq] at sorted
    exact ⟨others, known, sorted.symm⟩
  | _ => simp [Json.sorted] at sorted

theorem keys_perm (alike : Alike a b) : (a.map Prod.fst).Perm (b.map Prod.fst) := by
  have keys (c : Members) : ((sortedMembers c).map Prod.fst).Perm (c.map Prod.fst) := by
    have sorted := (sortedMembers_perm c).map Prod.fst
    rwa [List.map_map] at sorted
  exact (keys a).symm.trans (alike ▸ keys b)

theorem keys_iff (alike : Alike a b) {allowed : List String} :
    (∀ member ∈ a, member.1 ∈ allowed) ↔ ∀ member ∈ b, member.1 ∈ allowed := by
  have all (c : Members) : (∀ member ∈ c, member.1 ∈ allowed) ↔
      ∀ key ∈ c.map Prod.fst, key ∈ allowed := List.forall_mem_map.symm
  rw [all, all]
  simp only [alike.keys_perm.mem_iff]

end Alike

/- The texts of a value, and its depth. -/

theorem memberTexts_eq (members : Members) :
    memberTexts members = members.flatMap fun member => member.2.texts := by
  induction members with
  | nil => rfl
  | cons member members ih => rw [memberTexts, ih, List.flatMap_cons]

theorem memberCalls_le {members : Members} {n : Nat} :
    memberCalls members ≤ n ↔ ∀ member ∈ members, member.2.calls ≤ n := by
  induction members with
  | nil => simp [memberCalls]
  | cons member members ih => rw [memberCalls, Nat.max_le, ih, List.forall_mem_cons]

theorem memberCalls_perm {a b : Members} (perm : a.Perm b) : memberCalls a = memberCalls b := by
  have bound (n : Nat) : memberCalls a ≤ n ↔ memberCalls b ≤ n := by
    rw [memberCalls_le, memberCalls_le]
    simp only [perm.mem_iff]
  exact Nat.le_antisymm ((bound _).mpr (Nat.le_refl _)) ((bound _).mp (Nat.le_refl _))

mutual

theorem Json.texts_sorted : (value : Json) → value.sorted.texts.Perm value.texts
  | .array elements => by
    rw [Json.sorted, Json.texts, Json.texts]
    exact elementTexts_sorted elements
  | .object members => by
    rw [Json.sorted, Json.texts, Json.texts]
    refine List.Perm.trans ?_ (memberTexts_sorted members)
    rw [memberTexts_eq, memberTexts_eq]
    exact (List.perm_insertionSort _ _).flatMap_right _
  | .null => List.Perm.refl _
  | .bool _ => List.Perm.refl _
  | .int _ => List.Perm.refl _
  | .float _ => List.Perm.refl _
  | .string _ => List.Perm.refl _

theorem elementTexts_sorted : (elements : List Json) →
    (elementTexts (sortedElements elements)).Perm (elementTexts elements)
  | [] => List.Perm.refl _
  | element :: rest => by
    rw [sortedElements, elementTexts, elementTexts]
    exact (Json.texts_sorted element).append (elementTexts_sorted rest)

theorem memberTexts_sorted : (members : Members) →
    (memberTexts (sortedValues members)).Perm (memberTexts members)
  | [] => List.Perm.refl _
  | (key, value) :: rest => by
    rw [sortedValues, memberTexts, memberTexts]
    exact (Json.texts_sorted value).append (memberTexts_sorted rest)

end

mutual

theorem Json.calls_sorted : (value : Json) → value.sorted.calls = value.calls
  | .array elements => by
    rw [Json.sorted, Json.calls, Json.calls, elementCalls_sorted elements]
  | .object members => by
    rw [Json.sorted, Json.calls, Json.calls, memberCalls_perm (List.perm_insertionSort _ _),
      memberCalls_sorted members]
  | .null => rfl
  | .bool _ => rfl
  | .int _ => rfl
  | .float _ => rfl
  | .string _ => rfl

theorem elementCalls_sorted : (elements : List Json) →
    elementCalls (sortedElements elements) = elementCalls elements
  | [] => rfl
  | element :: rest => by
    rw [sortedElements, elementCalls, elementCalls, Json.calls_sorted element,
      elementCalls_sorted rest]

theorem memberCalls_sorted : (members : Members) →
    memberCalls (sortedValues members) = memberCalls members
  | [] => rfl
  | (key, value) :: rest => by
    rw [sortedValues, memberCalls, memberCalls, Json.calls_sorted value, memberCalls_sorted rest]

end

namespace Alike

variable {a b : Members}

theorem texts_perm (alike : Alike a b) : (memberTexts a).Perm (memberTexts b) := by
  have sorted (c : Members) : (memberTexts (sortedMembers c)).Perm (memberTexts c) := by
    refine List.Perm.trans ?_ (memberTexts_sorted c)
    rw [memberTexts_eq, memberTexts_eq]
    exact (List.perm_insertionSort _ _).flatMap_right _
  exact (sorted a).symm.trans (alike ▸ sorted b)

theorem calls_eq (alike : Alike a b) : memberCalls a = memberCalls b := by
  have sorted (c : Members) : memberCalls (sortedMembers c) = memberCalls c :=
    (memberCalls_perm (List.perm_insertionSort _ _)).trans (memberCalls_sorted c)
  rw [← sorted a, alike, sorted b]

end Alike

end Python
