import NotiMapper.Library.JsonText

/-! The grammar of JSON over lexemes, and that `loads` reads exactly what it derives. An open
array or object is spelled up to where the value of its next member stands, with what it has
by then: that is also what the machine keeps of it. -/
namespace Python

mutual

/-- How deep arrays and objects are nested. -/
def Json.nesting : Json → Nat
  | .array elements => elementNesting elements + 1
  | .object members => memberNesting members + 1
  | .string _ => 0
  | .null => 0
  | .bool _ => 0
  | .int _ => 0
  | .float _ => 0

def elementNesting : List Json → Nat
  | [] => 0
  | element :: rest => max element.nesting (elementNesting rest)

def memberNesting : Members → Nat
  | [] => 0
  | (_, value) :: rest => max value.nesting (memberNesting rest)

end

/-- Neither an array nor an object. -/
def Json.isScalar : Json → Bool
  | .array _ => false
  | .object _ => false
  | .string _ => true
  | .null => true
  | .bool _ => true
  | .int _ => true
  | .float _ => true

mutual

/-- No object repeats a key, at any depth. -/
def Json.Unambiguous : Json → Prop
  | .array elements => ElementsUnambiguous elements
  | .object members => (members.map (·.1)).Nodup ∧ MembersUnambiguous members
  | .string _ => True
  | .null => True
  | .bool _ => True
  | .int _ => True
  | .float _ => True

def ElementsUnambiguous : List Json → Prop
  | [] => True
  | element :: rest => element.Unambiguous ∧ ElementsUnambiguous rest

def MembersUnambiguous : Members → Prop
  | [] => True
  | (_, value) :: rest => value.Unambiguous ∧ MembersUnambiguous rest

end

theorem Json.isScalar_nesting {value : Json} (scalar : value.isScalar = true) :
    value.nesting = 0 := by
  cases value with
  | array elements => cases scalar
  | object members => cases scalar
  | _ => rfl

theorem Json.isScalar_unambiguous {value : Json} (scalar : value.isScalar = true) :
    value.Unambiguous := by
  cases value with
  | array elements => cases scalar
  | object members => cases scalar
  | _ => trivial

theorem elementsUnambiguous_concat {elements : List Json} {value : Json} :
    ElementsUnambiguous (elements ++ [value]) ↔
      ElementsUnambiguous elements ∧ value.Unambiguous := by
  induction elements with
  | nil => simp [ElementsUnambiguous]
  | cons element rest ih => simp only [List.cons_append, ElementsUnambiguous, ih, and_assoc]

theorem membersUnambiguous_concat {pairs : Members} {key : String} {value : Json} :
    MembersUnambiguous (pairs ++ [(key, value)]) ↔
      MembersUnambiguous pairs ∧ value.Unambiguous := by
  induction pairs with
  | nil => simp [MembersUnambiguous]
  | cons pair rest ih => simp only [List.cons_append, MembersUnambiguous, ih, and_assoc]

theorem elementNesting_concat (elements : List Json) (value : Json) :
    elementNesting (elements ++ [value]) = max (elementNesting elements) value.nesting := by
  induction elements with
  | nil => simp [elementNesting]
  | cons element rest ih => simp only [List.cons_append, elementNesting, ih, max_assoc]

theorem memberNesting_concat (pairs : Members) (key : String) (value : Json) :
    memberNesting (pairs ++ [(key, value)]) = max (memberNesting pairs) value.nesting := by
  induction pairs with
  | nil => simp [memberNesting]
  | cons pair rest ih => simp only [List.cons_append, memberNesting, ih, max_assoc]

theorem membersUnambiguous_iff {members : Members} :
    MembersUnambiguous members ↔ ∀ member ∈ members, member.2.Unambiguous := by
  induction members with
  | nil => simp [MembersUnambiguous]
  | cons member rest ih => rw [MembersUnambiguous, ih, List.forall_mem_cons]

namespace JsonText

/-- A value, or an array or object up to where its next member's value stands. -/
inductive Piece
  | value (v : Json)
  | frame (f : Frame)

inductive Spells (hooks : JsonHooks) : List Lexeme → Piece → Prop
  | string {l : Lexeme} {text : String} (token : l.token = .string (.ok text)) :
      Spells hooks [l] (.value (.string text))
  | scalar {l : Lexeme} {v : Json} (token : l.token = .scalar (.ok v)) :
      Spells hooks [l] (.value v)
  | emptyArray {o c : Lexeme} (opens : o.token = .mark '[') (closes : c.token = .mark ']') :
      Spells hooks [o, c] (.value (.array []))
  | emptyObject {o c : Lexeme} {v : Json} (opens : o.token = .mark '{')
      (closes : c.token = .mark '}') (made : hooks.objectPairs [] = .ok v) :
      Spells hooks [o, c] (.value v)
  | array {ls ms : List Lexeme} {c : Lexeme} {elements : List Json} {v : Json}
      (front : Spells hooks ls (.frame (.array elements))) (last : Spells hooks ms (.value v))
      (closes : c.token = .mark ']') :
      Spells hooks (ls ++ ms ++ [c]) (.value (.array (elements ++ [v])))
  | object {ls ms : List Lexeme} {c : Lexeme} {pairs : Members} {key : String} {v w : Json}
      (front : Spells hooks ls (.frame (.member pairs key))) (last : Spells hooks ms (.value v))
      (closes : c.token = .mark '}') (made : hooks.objectPairs (pairs ++ [(key, v)]) = .ok w) :
      Spells hooks (ls ++ ms ++ [c]) (.value w)
  | firstElement {o : Lexeme} (opens : o.token = .mark '[') :
      Spells hooks [o] (.frame (.array []))
  | nextElement {ls ms : List Lexeme} {comma : Lexeme} {elements : List Json} {v : Json}
      (front : Spells hooks ls (.frame (.array elements))) (last : Spells hooks ms (.value v))
      (parts : comma.token = .mark ',') :
      Spells hooks (ls ++ ms ++ [comma]) (.frame (.array (elements ++ [v])))
  | firstMember {o k c : Lexeme} {key : String} (opens : o.token = .mark '{')
      (named : k.token = .string (.ok key)) (colon : c.token = .mark ':') :
      Spells hooks [o, k, c] (.frame (.member [] key))
  | nextMember {ls ms : List Lexeme} {comma k c : Lexeme} {pairs : Members} {key next : String}
      {v : Json} (front : Spells hooks ls (.frame (.member pairs key)))
      (last : Spells hooks ms (.value v)) (parts : comma.token = .mark ',')
      (named : k.token = .string (.ok next)) (colon : c.token = .mark ':') :
      Spells hooks (ls ++ ms ++ [comma, k, c]) (.frame (.member (pairs ++ [(key, v)]) next))

variable {hooks : JsonHooks}

/- What is spelled, is read. -/

/-- A value is expected in that stack. An array that was just opened may end instead. -/
inductive Expects : Machine → List Frame → Prop
  | value (stack : List Frame) : Expects (.value stack) stack
  | element (stack : List Frame) : Expects (.element stack) (.array [] :: stack)

theorem Expects.step (hooks : JsonHooks) {machine : Machine} {stack : List Frame} {l : Lexeme}
    (expects : Expects machine stack) (goes : l.token.isMark ']' = false) :
    step hooks machine l = readValue stack l := by
  cases expects with
  | value => rfl
  | element => simp [JsonText.step, goes]

/-- Where a piece leaves the machine. -/
def Piece.Left (stack : List Frame) : Piece → Machine → Prop
  | .value v, machine => machine = .after v stack
  | .frame f, machine => Expects machine (f :: stack)

theorem foldlM_append_ok {ls ms : List Lexeme} {a b : Machine}
    (first : ls.foldlM (step hooks) a = .ok b) :
    (ls ++ ms).foldlM (step hooks) a = ms.foldlM (step hooks) b := by
  rw [List.foldlM_append, first]
  rfl

theorem foldlM_cons_ok {l : Lexeme} {ls : List Lexeme} {a b : Machine}
    (first : step hooks a l = .ok b) :
    (l :: ls).foldlM (step hooks) a = ls.foldlM (step hooks) b := by
  rw [List.foldlM_cons, first]
  rfl

/-- An open array or object, and the value of its next member. -/
theorem reads_member {ls ms rest : List Lexeme} {f : Frame} {v : Json} {machine : Machine}
    {stack : List Frame}
    (front : ∃ next, ls.foldlM (step hooks) machine = .ok next ∧ Expects next (f :: stack))
    (last : ∀ {machine stack}, Expects machine stack →
      ∃ next, ms.foldlM (step hooks) machine = .ok next ∧ next = .after v stack) :
    (ls ++ ms ++ rest).foldlM (step hooks) machine =
      rest.foldlM (step hooks) (.after v (f :: stack)) := by
  obtain ⟨between, first, expects⟩ := front
  obtain ⟨_, second, rfl⟩ := last expects
  rw [List.append_assoc, foldlM_append_ok first, foldlM_append_ok second]

theorem Spells.reads {ls : List Lexeme} {piece : Piece} (spells : Spells hooks ls piece)
    {machine : Machine} {stack : List Frame} (expects : Expects machine stack) :
    ∃ next, ls.foldlM (step hooks) machine = .ok next ∧ piece.Left stack next := by
  induction spells generalizing machine stack with
  | string token =>
    have first := expects.step hooks (by rw [token]; rfl)
    simp only [readValue, token, Except.map] at first
    exact ⟨_, by rw [foldlM_cons_ok first]; rfl, rfl⟩
  | scalar token =>
    have first := expects.step hooks (by rw [token]; rfl)
    simp only [readValue, token, Except.map] at first
    exact ⟨_, by rw [foldlM_cons_ok first]; rfl, rfl⟩
  | emptyArray opens closes =>
    have first := expects.step hooks (by rw [opens]; rfl)
    simp only [readValue, opens, if_true] at first
    refine ⟨_, ?_, rfl⟩
    rw [foldlM_cons_ok first, foldlM_cons_ok (b := .after (.array []) stack)]
    · rfl
    · simp [step, closes, Token.isMark]
  | @emptyObject _ _ v opens closes made =>
    have first := expects.step hooks (by rw [opens]; rfl)
    simp only [readValue, opens, Char.reduceEq, if_false, if_true] at first
    refine ⟨_, ?_, rfl⟩
    rw [foldlM_cons_ok first, foldlM_cons_ok (b := .after v stack)]
    · rfl
    · simp [step, closes, Token.isMark, closeObject, made]
  | array front last closes front_ih last_ih =>
    refine ⟨_, ?_, rfl⟩
    rw [reads_member (front_ih expects) last_ih, foldlM_cons_ok]
    · rfl
    · simp [step, closes, Token.isMark]
  | object front last closes made front_ih last_ih =>
    refine ⟨_, ?_, rfl⟩
    rw [reads_member (front_ih expects) last_ih, foldlM_cons_ok]
    · rfl
    · simp [step, closes, Token.isMark, closeObject, made]
  | firstElement opens =>
    have first := expects.step hooks (by rw [opens]; rfl)
    simp only [readValue, opens, if_true] at first
    exact ⟨_, by rw [foldlM_cons_ok first]; rfl, .element stack⟩
  | nextElement front last parts front_ih last_ih =>
    refine ⟨_, ?_, .value _⟩
    rw [reads_member (front_ih expects) last_ih, foldlM_cons_ok]
    · rfl
    · simp [step, parts, Token.isMark]
  | @firstMember _ _ _ key opens named colon =>
    have first := expects.step hooks (by rw [opens]; rfl)
    simp only [readValue, opens, Char.reduceEq, if_false, if_true] at first
    refine ⟨_, ?_, .value _⟩
    rw [foldlM_cons_ok first, foldlM_cons_ok (b := .colon [] key stack), foldlM_cons_ok]
    · rfl
    · simp [step, colon, Token.isMark]
    · simp [step, named, Token.isMark, readKey, Except.map]
  | @nextMember _ _ _ _ _ pairs key next v front last parts named colon front_ih last_ih =>
    refine ⟨_, ?_, .value _⟩
    rw [reads_member (front_ih expects) last_ih,
      foldlM_cons_ok (b := .key (pairs ++ [(key, v)]) stack),
      foldlM_cons_ok (b := .colon (pairs ++ [(key, v)]) next stack), foldlM_cons_ok]
    · rfl
    · simp [step, colon, Token.isMark]
    · simp [step, named, readKey, Except.map]
    · simp [step, parts, Token.isMark]

/- What is read, is spelled. -/

/-- What is open, from the outside in. -/
inductive Opened (hooks : JsonHooks) : List Lexeme → List Frame → Prop
  | none : Opened hooks [] []
  | frame {before ls : List Lexeme} {f : Frame} {stack : List Frame}
      (outside : Opened hooks before stack) (spells : Spells hooks ls (.frame f)) :
      Opened hooks (before ++ ls) (f :: stack)

/-- What was read, from where the machine is. A key lacks its colon, or its name too. -/
def Spelled (hooks : JsonHooks) (read : List Lexeme) : Machine → Prop
  | .value stack => Opened hooks read stack
  | .element stack => ∃ before o, read = before ++ [o] ∧ o.token = .mark '[' ∧
      Opened hooks before stack
  | .firstKey stack => ∃ before o, read = before ++ [o] ∧ o.token = .mark '{' ∧
      Opened hooks before stack
  | .key pairs stack => ∃ before ls, read = before ++ ls ∧ Opened hooks before stack ∧
      ∀ k c key, k.token = .string (.ok key) → c.token = .mark ':' →
        Spells hooks (ls ++ [k, c]) (.frame (.member pairs key))
  | .colon pairs key stack => ∃ before ls, read = before ++ ls ∧ Opened hooks before stack ∧
      ∀ c, c.token = .mark ':' → Spells hooks (ls ++ [c]) (.frame (.member pairs key))
  | .after v stack => ∃ before ls, read = before ++ ls ∧ Opened hooks before stack ∧
      Spells hooks ls (.value v)

theorem readValue_spelled {before : List Lexeme} {stack : List Frame} {l : Lexeme}
    {next : Machine} (outside : Opened hooks before stack) (taken : readValue stack l = .ok next) :
    Spelled hooks (before ++ [l]) next := by
  cases token : l.token with
  | mark c =>
    simp only [readValue, token] at taken
    split_ifs at taken with array object
    · cases taken
      exact ⟨before, l, rfl, array ▸ token, outside⟩
    · cases taken
      exact ⟨before, l, rfl, object ▸ token, outside⟩
  | string read =>
    cases read with
    | error error => simp [readValue, token, Except.map] at taken
    | ok text =>
      simp only [readValue, token, Except.map, Except.ok.injEq] at taken
      subst taken
      exact ⟨before, [l], rfl, outside, .string token⟩
  | scalar read =>
    cases read with
    | error error => simp [readValue, token, Except.map] at taken
    | ok value =>
      simp only [readValue, token, Except.map, Except.ok.injEq] at taken
      subst taken
      exact ⟨before, [l], rfl, outside, .scalar token⟩
  | stray => simp [readValue, token] at taken

theorem readKey_spelled {pairs : Members} {before ls : List Lexeme} {stack : List Frame}
    {l : Lexeme} {next : Machine} (outside : Opened hooks before stack)
    (goes : ∀ k c key, k.token = .string (.ok key) → c.token = .mark ':' →
      Spells hooks (ls ++ [k, c]) (.frame (.member pairs key)))
    (taken : readKey pairs stack l = .ok next) : Spelled hooks (before ++ ls ++ [l]) next := by
  cases token : l.token with
  | string read =>
    cases read with
    | error error => simp [readKey, token, Except.map] at taken
    | ok text =>
      simp only [readKey, token, Except.map, Except.ok.injEq] at taken
      subst taken
      refine ⟨before, ls ++ [l], (List.append_assoc _ _ _), outside, fun c colon => ?_⟩
      rw [List.append_assoc]
      exact goes l c text token colon
  | _ => simp [readKey, token] at taken

theorem closeObject_spelled {pairs : Members} {before ls : List Lexeme} {stack : List Frame}
    {next : Machine} (outside : Opened hooks before stack)
    (goes : ∀ v, hooks.objectPairs pairs = .ok v → Spells hooks ls (.value v))
    (taken : closeObject hooks pairs stack = .ok next) : Spelled hooks (before ++ ls) next := by
  cases made : hooks.objectPairs pairs with
  | error message => simp [closeObject, made] at taken
  | ok value =>
    simp only [closeObject, made, Except.ok.injEq] at taken
    subst taken
    exact ⟨before, ls, rfl, outside, goes value made⟩

theorem step_spelled {read : List Lexeme} {machine next : Machine} {l : Lexeme}
    (spelled : Spelled hooks read machine) (taken : step hooks machine l = .ok next) :
    Spelled hooks (read ++ [l]) next := by
  rcases machine with stack | stack | stack | ⟨pairs, stack⟩ | ⟨pairs, key, stack⟩ |
    ⟨value, _ | ⟨⟨elements⟩ | ⟨pairs, key⟩, stack⟩⟩
  all_goals simp only [step] at taken
  · exact readValue_spelled spelled taken
  · obtain ⟨before, o, rfl, opens, outside⟩ := spelled
    split_ifs at taken with closed
    · cases taken
      rw [List.append_assoc]
      exact ⟨before, _, rfl, outside, .emptyArray opens (Token.isMark_iff.mp closed)⟩
    · exact readValue_spelled (.frame outside (.firstElement opens)) taken
  · obtain ⟨before, o, rfl, opens, outside⟩ := spelled
    split_ifs at taken with closed
    · rw [List.append_assoc]
      exact closeObject_spelled outside
        (fun v made => .emptyObject opens (Token.isMark_iff.mp closed) made) taken
    · exact readKey_spelled outside
        (fun k c key named colon => .firstMember opens named colon) taken
  · obtain ⟨before, ls, rfl, outside, goes⟩ := spelled
    exact readKey_spelled outside goes taken
  · obtain ⟨before, ls, rfl, outside, goes⟩ := spelled
    split_ifs at taken with colon
    cases taken
    rw [List.append_assoc]
    exact .frame outside (goes l (Token.isMark_iff.mp colon))
  · cases taken
  · obtain ⟨_, ms, rfl, inside, last⟩ := spelled
    cases inside with | @frame before ls _ _ outside front =>
    rw [List.append_assoc before, List.append_assoc before]
    split_ifs at taken with closed comma
    · cases taken
      exact ⟨before, _, rfl, outside, .array front last (Token.isMark_iff.mp closed)⟩
    · cases taken
      exact .frame outside (.nextElement front last (Token.isMark_iff.mp comma))
  · obtain ⟨_, ms, rfl, inside, last⟩ := spelled
    cases inside with | @frame before ls _ _ outside front =>
    rw [List.append_assoc before, List.append_assoc before]
    split_ifs at taken with closed comma
    · exact closeObject_spelled outside
        (fun v made => .object front last (Token.isMark_iff.mp closed) made) taken
    · cases taken
      refine ⟨before, _, rfl, outside, fun k c key named colon => ?_⟩
      rw [List.append_assoc (ls ++ ms)]
      exact .nextMember front last (Token.isMark_iff.mp comma) named colon

theorem foldlM_spelled {read ls : List Lexeme} {machine next : Machine}
    (spelled : Spelled hooks read machine) (ran : ls.foldlM (step hooks) machine = .ok next) :
    Spelled hooks (read ++ ls) next := by
  induction ls generalizing read machine with
  | nil =>
    cases ran
    rwa [List.append_nil]
  | cons l ls ih =>
    rw [List.foldlM_cons] at ran
    cases taken : step hooks machine l with
    | error error =>
      rw [taken] at ran
      cases ran
    | ok between =>
      rw [taken] at ran
      rw [← List.singleton_append, ← List.append_assoc]
      exact ih (step_spelled spelled taken) ran

/-- The machine accepts what spells a value, and as that value. -/
theorem foldlM_step_ok {ls : List Lexeme} {v : Json} :
    ls.foldlM (step hooks) (.value []) = .ok (.after v []) ↔ Spells hooks ls (.value v) := by
  constructor
  · intro ran
    obtain ⟨before, spelling, rfl, outside, spells⟩ : Spelled hooks ls (.after v []) :=
      foldlM_spelled (show Spelled hooks [] (.value []) from .none) ran
    cases outside
    exact spells
  · intro spells
    obtain ⟨_, ran, rfl⟩ := spells.reads (.value [])
    exact ran

/- How deep it goes. -/

/-- At no point are more than that many arrays and objects open. -/
def Within (n : Int) (ls : List Lexeme) : Prop := ∀ read, read <+: ls → opened read ≤ n

theorem within_nil {n : Int} : Within n [] ↔ 0 ≤ n := by
  simp [Within, opened]

theorem within_cons {n : Int} {l : Lexeme} {ls : List Lexeme} :
    Within n (l :: ls) ↔ 0 ≤ n ∧ Within (n - l.opens) ls := by
  simp only [Within, List.prefix_cons_iff]
  constructor
  · intro within
    refine ⟨within [] (.inl rfl), fun read first => ?_⟩
    have deep := within (l :: read) (.inr ⟨read, rfl, first⟩)
    simp only [opened, List.map_cons, List.sum_cons] at deep ⊢
    omega
  · rintro ⟨positive, within⟩ read (rfl | ⟨rest, rfl, first⟩)
    · exact positive
    · have deep := within rest first
      simp only [opened, List.map_cons, List.sum_cons] at deep ⊢
      omega

theorem opened_cons (l : Lexeme) (ls : List Lexeme) :
    JsonText.opened (l :: ls) = l.opens + JsonText.opened ls := by
  simp [opened]

theorem opened_append (ls ms : List Lexeme) :
    JsonText.opened (ls ++ ms) = JsonText.opened ls + JsonText.opened ms := by
  simp [opened]

theorem within_append {n : Int} {ls ms : List Lexeme} :
    Within n (ls ++ ms) ↔ Within n ls ∧ Within (n - opened ls) ms := by
  induction ls generalizing n with
  | nil =>
    have none : Within n ms → 0 ≤ n := fun within => within [] List.nil_prefix
    simp only [List.nil_append, within_nil, opened, List.map_nil, List.sum_nil, Int.sub_zero]
    exact ⟨fun within => ⟨none within, within⟩, And.right⟩
  | cons l ls ih =>
    rw [List.cons_append, within_cons, within_cons, ih, opened_cons, and_assoc, Int.sub_sub]

theorem Lexeme.opens_mark {l : Lexeme} {c : Char} (token : l.token = .mark c) :
    l.opens = markOpens c := by
  rw [Lexeme.opens, token]

theorem Lexeme.opens_string {l : Lexeme} {read : Except TextError String}
    (token : l.token = .string read) : l.opens = 0 := by
  rw [Lexeme.opens, token]

/-- The reading is within a limit where it ends, and nowhere got beyond. -/
theorem foldlM_stepWithin_ok {limit : Nat} {machine next : Machine} {ls : List Lexeme}
    (shallow : machine.depth ≤ limit) :
    ls.foldlM (stepWithin hooks limit) machine = .ok next ↔
      ls.foldlM (step hooks) machine = .ok next ∧ Within (limit - machine.depth) ls := by
  induction ls generalizing machine with
  | nil =>
    have room : (0 : Int) ≤ limit - machine.depth := by omega
    rw [and_iff_left (within_nil.mpr room)]
    exact ⟨fun same => by cases same; rfl, fun same => by cases same; rfl⟩
  | cons l ls ih =>
    rw [List.foldlM_cons, List.foldlM_cons, within_cons]
    cases taken : step hooks machine l with
    | error error =>
      simp only [stepWithin, taken]
      apply iff_of_false
      · intro same
        cases same
      · intro both
        cases both.1
    | ok between =>
      have depth := step_depth taken
      have room : (limit : Int) - machine.depth - l.opens = limit - between.depth := by omega
      rw [room]
      by_cases fits : between.depth ≤ limit
      · have positive : (0 : Int) ≤ limit - machine.depth := by omega
        simp only [stepWithin, taken, if_pos fits, positive, true_and]
        exact ih fits
      · simp only [stepWithin, taken, if_neg fits]
        apply iff_of_false
        · intro same
          cases same
        · rintro ⟨_, _, within⟩
          have deep := within [] List.nil_prefix
          simp only [JsonText.opened, List.map_nil, List.sum_nil] at deep
          omega

theorem finish_ok (position : Nat) {machine : Machine} {v : Json} :
    finish position machine = .ok v ↔ machine = .after v [] := by
  cases machine with
  | after value stack => cases stack <;> simp [finish]
  | _ => simp [finish]

/-- `loads` returns what the text spells, if it does not nest beyond the limit. -/
theorem loads_ok {limit : Nat} {text : String} {v : Json} :
    loads hooks limit text = .ok v ↔
      Spells hooks (lexemes hooks 0 0 text.toList) (.value v) ∧
        Within limit (lexemes hooks 0 0 text.toList) := by
  rw [← foldlM_step_ok]
  unfold loads
  by_cases marked : text.toList.head? = some byteOrderMark
  · obtain ⟨rest, chars⟩ := List.head?_eq_some_iff.mp marked
    have stray : lexemes hooks 0 0 text.toList = ⟨.stray, 0⟩ :: lexemes hooks 0 1 rest := by
      rw [chars, lexemes, readToken_byteOrderMark]
      rfl
    rw [if_pos marked, stray]
    apply iff_of_false
    · intro same
      cases same
    · intro both
      cases both.1
  · simp only [if_neg marked]
    have ran (next : Machine) := @foldlM_stepWithin_ok hooks limit (.value []) next
      (lexemes hooks 0 0 text.toList) (Nat.zero_le limit)
    simp only [Machine.depth, List.length_nil, Nat.cast_zero, Int.sub_zero] at ran
    rw [← ran]
    cases (lexemes hooks 0 0 text.toList).foldlM (stepWithin hooks limit) (.value []) with
    | error error => simp
    | ok machine =>
      rw [Except.ok.injEq, ← finish_ok text.toList.length]
      cases ended : finish text.toList.length machine <;> simp [ended]

/- What a scalar's lexeme stands for. -/

def Flat (ls : List Lexeme) : Prop := ∀ l ∈ ls, ∀ v, l.token = .scalar (.ok v) → v.isScalar = true

theorem readNumber_isScalar {chars : List Char} {length : Nat} {v : Json}
    (found : readNumber chars = some (.ok v, length)) : v.isScalar = true := by
  unfold readNumber at found
  extract_lets negative signLength start whole at found
  split at found
  · cases found
  · split at found
    · simp only [Option.some.injEq, Prod.mk.injEq, readInt] at found
      split at found
      · cases found.1
      · cases found.1
        rfl
    · simp only [Option.some.injEq, Prod.mk.injEq, Except.ok.injEq] at found
      rw [← found.1]
      rfl

theorem literals_isScalar {entry : List Char × Json} (listed : entry ∈ literals) :
    entry.2.isScalar = true := by
  simp only [literals, List.mem_cons, List.not_mem_nil, or_false] at listed
  rcases listed with rfl | rfl | rfl <;> rfl

theorem readToken_isScalar {position : Nat} {c : Char} {rest : List Char} {v : Json}
    (found : (readToken hooks position c rest).1 = .scalar (.ok v)) : v.isScalar = true := by
  unfold readToken at found
  split_ifs at found
  · split at found <;> cases found
  · split at found
    · rename_i word value listed
      cases found
      exact literals_isScalar (List.mem_of_find?_eq_some listed)
    · split at found
      · cases found
      · split at found
        · rename_i read length number
          cases found
          exact readNumber_isScalar number
        · cases found

theorem lexemes_flat (skip position : Nat) (chars : List Char) :
    Flat (lexemes hooks skip position chars) := by
  induction chars generalizing skip position with
  | nil =>
    unfold lexemes
    exact List.forall_mem_nil _
  | cons c rest ih =>
    cases skip with
    | succ skip =>
      rw [lexemes]
      exact ih skip (position + 1)
    | zero =>
      rw [lexemes]
      split_ifs
      · exact ih 0 (position + 1)
      · intro l member v token
        rcases List.mem_cons.mp member with rfl | later
        · exact readToken_isScalar token
        · exact ih _ _ l later v token

theorem Flat.append {ls ms : List Lexeme} : Flat (ls ++ ms) ↔ Flat ls ∧ Flat ms :=
  List.forall_mem_append

/- Objects made of their pairs. -/

def Frame.nesting : Frame → Nat
  | .array elements => elementNesting elements + 1
  | .member pairs _ => memberNesting pairs + 1

def Piece.nesting : Piece → Nat
  | .value v => v.nesting
  | .frame f => f.nesting

/-- How many arrays and objects a piece leaves open. -/
def Piece.leavesOpen : Piece → Int
  | .value _ => 0
  | .frame _ => 1

theorem opened_nil : JsonText.opened [] = 0 := rfl

theorem Lexeme.opens_scalar {l : Lexeme} {read : Except TextError Json}
    (token : l.token = .scalar read) : l.opens = 0 := by
  rw [Lexeme.opens, token]

theorem markOpens_eq : markOpens '[' = 1 ∧ markOpens '\x7b' = 1 ∧ markOpens ']' = -1 ∧
    markOpens '\x7d' = -1 ∧ markOpens ',' = 0 ∧ markOpens ':' = 0 := by
  decide

/-- What is nested in a piece is what its lexemes open. -/
theorem Spells.within {ls : List Lexeme} {piece : Piece} (spells : Spells hooks ls piece)
    (flat : Flat ls) (keeps : ∀ pairs v, hooks.objectPairs pairs = .ok v → v = .object pairs) :
    opened ls = piece.leavesOpen ∧ ∀ n : Int, Within n ls ↔ piece.nesting ≤ n := by
  induction spells with
  | string token =>
    simp only [opened_cons, opened_nil, within_cons, within_nil, Lexeme.opens_string token,
      Piece.leavesOpen, Piece.nesting, Json.nesting]
    exact ⟨by omega, fun n => by omega⟩
  | scalar token =>
    have scalar := flat _ List.mem_cons_self _ token
    simp only [opened_cons, opened_nil, within_cons, within_nil, Lexeme.opens_scalar token,
      Piece.leavesOpen, Piece.nesting, Json.isScalar_nesting scalar]
    exact ⟨by omega, fun n => by omega⟩
  | emptyArray opens closes =>
    simp only [opened_cons, opened_nil, within_cons, within_nil, Lexeme.opens_mark opens,
      Lexeme.opens_mark closes, Piece.leavesOpen, Piece.nesting, Json.nesting, elementNesting,
      markOpens_eq]
    exact ⟨by omega, fun n => by omega⟩
  | emptyObject opens closes made =>
    obtain rfl := keeps _ _ made
    simp only [opened_cons, opened_nil, within_cons, within_nil, Lexeme.opens_mark opens,
      Lexeme.opens_mark closes, Piece.leavesOpen, Piece.nesting, Json.nesting, memberNesting,
      markOpens_eq]
    exact ⟨by omega, fun n => by omega⟩
  | array front last closes front_ih last_ih =>
    obtain ⟨⟨flatFront, flatLast⟩, _⟩ := And.imp_left Flat.append.mp (Flat.append.mp flat)
    obtain ⟨openedFront, front⟩ := front_ih flatFront
    obtain ⟨openedLast, last⟩ := last_ih flatLast
    simp only [opened_append, opened_cons, opened_nil, within_append, within_cons, within_nil,
      Lexeme.opens_mark closes, openedFront, openedLast, front, last, Piece.leavesOpen,
      Piece.nesting, Frame.nesting, Json.nesting, elementNesting_concat, markOpens_eq]
    exact ⟨by omega, fun n => by omega⟩
  | object front last closes made front_ih last_ih =>
    obtain rfl := keeps _ _ made
    obtain ⟨⟨flatFront, flatLast⟩, _⟩ := And.imp_left Flat.append.mp (Flat.append.mp flat)
    obtain ⟨openedFront, front⟩ := front_ih flatFront
    obtain ⟨openedLast, last⟩ := last_ih flatLast
    simp only [opened_append, opened_cons, opened_nil, within_append, within_cons, within_nil,
      Lexeme.opens_mark closes, openedFront, openedLast, front, last, Piece.leavesOpen,
      Piece.nesting, Frame.nesting, Json.nesting, memberNesting_concat, markOpens_eq]
    exact ⟨by omega, fun n => by omega⟩
  | firstElement opens =>
    simp only [opened_cons, opened_nil, within_cons, within_nil, Lexeme.opens_mark opens,
      Piece.leavesOpen, Piece.nesting, Frame.nesting, elementNesting, markOpens_eq]
    exact ⟨by omega, fun n => by omega⟩
  | nextElement front last parts front_ih last_ih =>
    obtain ⟨⟨flatFront, flatLast⟩, _⟩ := And.imp_left Flat.append.mp (Flat.append.mp flat)
    obtain ⟨openedFront, front⟩ := front_ih flatFront
    obtain ⟨openedLast, last⟩ := last_ih flatLast
    simp only [opened_append, opened_cons, opened_nil, within_append, within_cons, within_nil,
      Lexeme.opens_mark parts, openedFront, openedLast, front, last, Piece.leavesOpen,
      Piece.nesting, Frame.nesting, elementNesting_concat, markOpens_eq]
    exact ⟨by omega, fun n => by omega⟩
  | firstMember opens named colon =>
    simp only [opened_cons, opened_nil, within_cons, within_nil, Lexeme.opens_mark opens,
      Lexeme.opens_string named, Lexeme.opens_mark colon, Piece.leavesOpen, Piece.nesting,
      Frame.nesting, memberNesting, markOpens_eq]
    exact ⟨by omega, fun n => by omega⟩
  | nextMember front last parts named colon front_ih last_ih =>
    obtain ⟨⟨flatFront, flatLast⟩, _⟩ := And.imp_left Flat.append.mp (Flat.append.mp flat)
    obtain ⟨openedFront, front⟩ := front_ih flatFront
    obtain ⟨openedLast, last⟩ := last_ih flatLast
    simp only [opened_append, opened_cons, opened_nil, within_append, within_cons, within_nil,
      Lexeme.opens_mark parts, Lexeme.opens_string named, Lexeme.opens_mark colon, openedFront,
      openedLast, front, last, Piece.leavesOpen, Piece.nesting, Frame.nesting,
      memberNesting_concat, markOpens_eq]
    exact ⟨by omega, fun n => by omega⟩

theorem loads_ok_nesting {limit : Nat} {text : String} {v : Json}
    (keeps : ∀ pairs v, hooks.objectPairs pairs = .ok v → v = .object pairs) :
    loads hooks limit text = .ok v ↔
      Spells hooks (lexemes hooks 0 0 text.toList) (.value v) ∧ v.nesting ≤ limit := by
  rw [loads_ok]
  refine and_congr_right fun spells => ?_
  have depth := (spells.within (lexemes_flat 0 0 text.toList) keeps).2 limit
  rwa [Piece.nesting, Nat.cast_le] at depth

/- Objects whose keys are all different. -/

/-- A hook that takes every object as it stands. -/
def asWritten : JsonHooks := ⟨fun pairs => .ok (.object pairs), id⟩

def Piece.Unambiguous : Piece → Prop
  | .value v => v.Unambiguous
  | .frame (.array elements) => ElementsUnambiguous elements
  | .frame (.member pairs _) => MembersUnambiguous pairs

theorem Spells.unambiguous {ls : List Lexeme} {piece : Piece} (spells : Spells hooks ls piece)
    (flat : Flat ls) (strict : ∀ pairs v, hooks.objectPairs pairs = .ok v →
      v = .object pairs ∧ (pairs.map (·.1)).Nodup) :
    Spells asWritten ls piece ∧ piece.Unambiguous := by
  induction spells with
  | string token => exact ⟨.string token, trivial⟩
  | scalar token =>
    exact ⟨.scalar token, Json.isScalar_unambiguous (flat _ List.mem_cons_self _ token)⟩
  | emptyArray opens closes => exact ⟨.emptyArray opens closes, trivial⟩
  | emptyObject opens closes made =>
    obtain ⟨rfl, nodup⟩ := strict _ _ made
    exact ⟨.emptyObject opens closes rfl, nodup, trivial⟩
  | array front last closes front_ih last_ih =>
    obtain ⟨⟨flatFront, flatLast⟩, _⟩ := And.imp_left Flat.append.mp (Flat.append.mp flat)
    obtain ⟨front, before⟩ := front_ih flatFront
    obtain ⟨last, here⟩ := last_ih flatLast
    exact ⟨.array front last closes, elementsUnambiguous_concat.mpr ⟨before, here⟩⟩
  | object front last closes made front_ih last_ih =>
    obtain ⟨rfl, nodup⟩ := strict _ _ made
    obtain ⟨⟨flatFront, flatLast⟩, _⟩ := And.imp_left Flat.append.mp (Flat.append.mp flat)
    obtain ⟨front, before⟩ := front_ih flatFront
    obtain ⟨last, here⟩ := last_ih flatLast
    exact ⟨.object front last closes rfl, nodup, membersUnambiguous_concat.mpr ⟨before, here⟩⟩
  | firstElement opens => exact ⟨.firstElement opens, trivial⟩
  | nextElement front last parts front_ih last_ih =>
    obtain ⟨⟨flatFront, flatLast⟩, _⟩ := And.imp_left Flat.append.mp (Flat.append.mp flat)
    obtain ⟨front, before⟩ := front_ih flatFront
    obtain ⟨last, here⟩ := last_ih flatLast
    exact ⟨.nextElement front last parts, elementsUnambiguous_concat.mpr ⟨before, here⟩⟩
  | firstMember opens named colon => exact ⟨.firstMember opens named colon, trivial⟩
  | nextMember front last parts named colon front_ih last_ih =>
    obtain ⟨⟨flatFront, flatLast⟩, _⟩ := And.imp_left Flat.append.mp (Flat.append.mp flat)
    obtain ⟨front, before⟩ := front_ih flatFront
    obtain ⟨last, here⟩ := last_ih flatLast
    exact ⟨.nextMember front last parts named colon, membersUnambiguous_concat.mpr ⟨before, here⟩⟩

theorem Spells.strictly {ls : List Lexeme} {piece : Piece} (spells : Spells asWritten ls piece)
    (unambiguous : piece.Unambiguous)
    (takes : ∀ pairs, (pairs.map (·.1)).Nodup → hooks.objectPairs pairs = .ok (.object pairs)) :
    Spells hooks ls piece := by
  induction spells with
  | string token => exact .string token
  | scalar token => exact .scalar token
  | emptyArray opens closes => exact .emptyArray opens closes
  | emptyObject opens closes made =>
    cases made
    exact .emptyObject opens closes (takes [] List.nodup_nil)
  | array front last closes front_ih last_ih =>
    obtain ⟨before, here⟩ := elementsUnambiguous_concat.mp unambiguous
    exact .array (front_ih before) (last_ih here) closes
  | object front last closes made front_ih last_ih =>
    cases made
    obtain ⟨before, here⟩ := membersUnambiguous_concat.mp unambiguous.2
    exact .object (front_ih before) (last_ih here) closes (takes _ unambiguous.1)
  | firstElement opens => exact .firstElement opens
  | nextElement front last parts front_ih last_ih =>
    obtain ⟨before, here⟩ := elementsUnambiguous_concat.mp unambiguous
    exact .nextElement (front_ih before) (last_ih here) parts
  | firstMember opens named colon => exact .firstMember opens named colon
  | nextMember front last parts named colon front_ih last_ih =>
    obtain ⟨before, here⟩ := membersUnambiguous_concat.mp unambiguous
    exact .nextMember (front_ih before) (last_ih here) parts named colon

end JsonText

end Python
