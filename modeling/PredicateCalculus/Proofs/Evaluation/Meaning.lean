import PredicateCalculus.Proofs.Evaluation.Outcome

/-! # The meaning of the symbols

What connectives, comparisons, operations and quantifiers stand for, each said without the
evaluation and then shown to be what the evaluation computes.

* `Connective.Holds`, `Connective.apply_eq_decide`: conjunction, disjunction and implication.
* `Value.Same`, `Comparison.Holds`, `Comparison.apply_eq_decide`: equality of values. Elements are
  compared as the domain compares them, and an element is the same as no truth value.
* `Model.consult`, `Model.applyHead_eq_consult`: an operation is looked up, its number of arguments
  is checked, and it is called.
* `Quantifier.Holds`, `Quantifier.combine_eq_decide`: all instances, or some instance.
* `Quantifier.testAll`, `Quantifier.search_eq_testAll`: instances that are tested one by one.
-/

set_option autoImplicit false

namespace PredicateCalculus

variable {α β : Type}

/-! ## Connectives -/

namespace Connective

def Holds : Connective → Prop → Prop → Prop
  | .and, A, B => A ∧ B
  | .or, A, B => A ∨ B
  | .implies, A, B => A → B

instance decidableHolds (op : Connective) (A B : Prop) [Decidable A] [Decidable B] :
    Decidable (op.Holds A B) :=
  match op with
  | .and => inferInstanceAs (Decidable (A ∧ B))
  | .or => inferInstanceAs (Decidable (A ∨ B))
  | .implies => inferInstanceAs (Decidable (A → B))

theorem apply_eq_decide (op : Connective) (left right : Bool) :
    op.apply left right = decide (op.Holds left right) := by
  cases op <;> cases left <;> cases right <;> rfl

end Connective

/-! ## Comparisons -/

namespace Value

variable [BEq α]

inductive Same : Value α → Value α → Prop where
  | element {x y : α} (h : (x == y) = true) : Same (.element x) (.element y)
  | truth (b : Bool) : Same (.truth b) (.truth b)

instance decidableSame : (left right : Value α) → Decidable (left.Same right)
  | .element x, .element y => decidable_of_iff (x == y) ⟨.element, fun (.element h) => h⟩
  | .truth b, .truth c => decidable_of_iff (b = c) ⟨fun h => h ▸ .truth b, fun (.truth _) => rfl⟩
  | .element _, .truth _ => .isFalse nofun
  | .truth _, .element _ => .isFalse nofun

theorem beq_iff_same (left right : Value α) : (left == right) = true ↔ left.Same right := by
  constructor
  · intro h
    cases left with
    | element x =>
      cases right with
      | element y => exact .element h
      | truth b => cases h
    | truth b =>
      cases right with
      | element y => cases h
      | truth c =>
        obtain rfl : b = c := eq_of_beq h
        exact .truth b
  · rintro (h | b)
    · exact h
    · exact beq_self_eq_true b

end Value

namespace Comparison

variable [BEq α]

def Holds : Comparison → Value α → Value α → Prop
  | .equal, left, right => left.Same right
  | .unequal, left, right => ¬left.Same right

instance decidableHolds (op : Comparison) (left right : Value α) :
    Decidable (op.Holds left right) :=
  match op with
  | .equal => inferInstanceAs (Decidable (left.Same right))
  | .unequal => inferInstanceAs (Decidable (¬left.Same right))

theorem apply_eq_decide (op : Comparison) (left right : Value α) :
    op.apply left right = decide (op.Holds left right) := by
  rw [Bool.eq_iff_iff, decide_eq_true_iff]
  cases op with
  | equal => exact Value.beq_iff_same left right
  | unequal =>
    rw [Comparison.apply, Holds, ← Value.beq_iff_same, Bool.not_eq_true', Bool.not_eq_true]

end Comparison

/-! ## Operations -/

namespace NameTable

theorem lookup_eq (name : String) (entries : List (String × β)) :
    lookup name entries = entries.lookup name := by
  induction entries with
  | nil => rfl
  | cons entry rest ih =>
    obtain ⟨other, value⟩ := entry
    rw [lookup, List.lookup_cons, ih]
    by_cases same : other = name
    · rw [if_pos same, same, beq_self_eq_true]
    · rw [if_neg same, beq_false_of_ne (Ne.symm same)]

theorem find?_eq_lookup (table : NameTable β) (name : String) :
    table.find? name = table.entries.lookup name :=
  lookup_eq name table.entries

end NameTable

namespace Operation

/-- What the operations of a table have to say about arguments under a name. -/
def ask (kind : HeadKind) (name : String) (table : NameTable (Operation α β))
    (arguments : List α) : Except EvalError β :=
  match table.entries.lookup name with
  | none => .error (.missingOperation kind name)
  | some ⟨none, apply⟩ => .ok (apply arguments)
  | some ⟨some expected, apply⟩ =>
    if arguments.length = expected then .ok (apply arguments)
    else .error (.arityMismatch name expected arguments.length)

theorem call_eq_ask (kind : HeadKind) (name : String) (table : NameTable (Operation α β))
    (arguments : List α) : call kind name (table.find? name) arguments =
      ask kind name table arguments := by
  rw [NameTable.find?_eq_lookup, ask]
  cases table.entries.lookup name with
  | none => rfl
  | some operation =>
    obtain ⟨arity, apply⟩ := operation
    cases arity with
    | none => rfl
    | some expected => simp only [call, eq_comm]

end Operation

namespace Model

def consult (M : Model α) : HeadKind → String → List α → Except EvalError (Value α)
  | .function, name, arguments => do
    return .element (← Operation.ask .function name M.functions arguments)
  | .predicate, name, arguments => do
    return .truth (← Operation.ask .predicate name M.predicates arguments)

theorem applyHead_eq_consult (M : Model α) (kind : HeadKind) (name : String)
    (arguments : List α) : M.applyHead kind name arguments = M.consult kind name arguments := by
  cases kind with
  | function =>
    rw [applyHead, consult, Operation.call_eq_ask]
    rfl
  | predicate =>
    rw [applyHead, consult, Operation.call_eq_ask]
    rfl

end Model

/-! ## Quantifiers -/

namespace Quantifier

def Holds : Quantifier → List α → (α → Prop) → Prop
  | .universal, elements, A => ∀ x ∈ elements, A x
  | .existential, elements, A => ∃ x ∈ elements, A x

instance decidableHolds (quantifier : Quantifier) (elements : List α) (A : α → Prop)
    [DecidablePred A] : Decidable (quantifier.Holds elements A) :=
  match quantifier with
  | .universal => inferInstanceAs (Decidable (∀ x ∈ elements, A x))
  | .existential => inferInstanceAs (Decidable (∃ x ∈ elements, A x))

theorem combine_eq_decide (quantifier : Quantifier) (elements : List α) (holds : α → Bool) :
    quantifier.combine holds elements = decide (quantifier.Holds elements fun x => holds x) := by
  rw [Bool.eq_iff_iff, decide_eq_true_iff]
  cases quantifier with
  | universal => exact List.all_eq_true
  | existential => exact List.any_eq_true

/-- The instances are tested in order. The first that decides is the last one tested, and so is the
first that fails. -/
def testAll : Quantifier → List α → (α → Except EvalError Bool) → Except EvalError Bool
  | .universal, elements, test => elements.allM test
  | .existential, elements, test => elements.anyM test

theorem search_eq_testAll (quantifier : Quantifier) (test : α → Except EvalError Bool)
    (elements : List α) : quantifier.search test elements = quantifier.testAll elements test := by
  induction elements with
  | nil => cases quantifier <;> rfl
  | cons x rest ih =>
    rw [search, ih]
    cases quantifier with
    | universal =>
      rw [testAll, testAll, List.allM_cons]
      exact bind_congr fun holds => by cases holds <;> rfl
    | existential =>
      rw [testAll, testAll, List.anyM_cons]
      exact bind_congr fun holds => by cases holds <;> rfl

end Quantifier

end PredicateCalculus
