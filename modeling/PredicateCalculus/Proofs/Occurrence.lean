import Mathlib.Data.List.Basic
import PredicateCalculus.Expr.Binding

/-! # Occurrences of variables

What a name stands for depends on the quantifiers around it: it refers to the nearest one that binds
it, or is free if there is none. A tree whose variables all refer in this way is resolved. Building
a quantifier by name keeps trees resolved, so whatever is built from the outside names is resolved.

* `Expr.inductionOn`, `Expr.childInduction`, `Expr.of_mem_preorder`: induction on trees.
* `Reference.ofName`: what a name refers to under given quantifiers.
* `Occurrence`: a variable of a tree with the names that the quantifiers around it bind.
* `Expr.occurrences_app` and the equations of the other constructors: what occurs in a tree.
* `Expr.occurrences_bind`: the effect of binding, occurrence by occurrence.
* `Expr.Resolved`: every occurrence refers to what its name stands for.
* `Expr.Resolved.quantify`: a quantifier over a resolved tree is resolved.
* `Expr.mem_occurrences_of_child`: what occurs in a child occurs in the tree.
-/

set_option autoImplicit false

namespace PredicateCalculus

/-! ## Induction on trees -/

namespace Expr

@[elab_as_elim, induction_eliminator]
theorem inductionOn {motive : Expr → Prop}
    (var : ∀ token reference, motive (.var token reference))
    (app : ∀ kind head arguments, (∀ e ∈ arguments, motive e) → motive (.app kind head arguments))
    (connect : ∀ op token left right, motive left → motive right →
      motive (.connect op token left right))
    (compare : ∀ op token left right, motive left → motive right →
      motive (.compare op token left right))
    (neg : ∀ token operand, motive operand → motive (.neg token operand))
    (quant : ∀ quantifier token bound body, motive body →
      motive (.quant quantifier token bound body)) (e : Expr) : motive e :=
  match e with
  | .var token reference => var token reference
  | .app kind head arguments => app kind head arguments fun e _ =>
    inductionOn var app connect compare neg quant e
  | .connect op token left right => connect op token left right
    (inductionOn var app connect compare neg quant left)
    (inductionOn var app connect compare neg quant right)
  | .compare op token left right => compare op token left right
    (inductionOn var app connect compare neg quant left)
    (inductionOn var app connect compare neg quant right)
  | .neg token operand => neg token operand
    (inductionOn var app connect compare neg quant operand)
  | .quant quantifier token bound body => quant quantifier token bound body
    (inductionOn var app connect compare neg quant body)

theorem childInduction {motive : Expr → Prop}
    (step : ∀ e, (∀ child ∈ e.children, motive child) → motive e) (e : Expr) : motive e := by
  induction e with
  | var token reference => exact step _ (by simp [children])
  | app kind head arguments ih => exact step _ ih
  | connect op token left right ihLeft ihRight =>
    exact step _ (by simp [children, ihLeft, ihRight])
  | compare op token left right ihLeft ihRight =>
    exact step _ (by simp [children, ihLeft, ihRight])
  | neg token operand ih => exact step _ (by simp [children, ih])
  | quant quantifier token bound body ih => exact step _ (by simp [children, ih])

/-- What passes from every tree to its children passes to all subtrees. -/
theorem of_mem_preorder {motive : Expr → Prop}
    (down : ∀ e, motive e → ∀ child ∈ e.children, motive child) {whole part : Expr}
    (h : motive whole) (member : part ∈ whole.preorder) : motive part := by
  induction whole using childInduction with
  | step whole ih =>
    rw [preorder_eq, List.mem_cons, List.mem_flatMap] at member
    rcases member with rfl | ⟨child, isChild, member⟩
    · exact h
    · exact ih child isChild (down whole h child isChild) member

end Expr

/-! ## Names under quantifiers -/

namespace Reference

/-- The scope lists the names that the quantifiers around a place bind, innermost first. -/
def ofName (scope : List String) (name : String) : Reference :=
  if name ∈ scope then .bound (scope.idxOf name) else .free name

theorem ofName_of_not_mem {scope : List String} {name : String} (h : name ∉ scope) :
    ofName scope name = .free name := by
  rw [ofName, if_neg h]

theorem ofName_cons_self (scope : List String) (name : String) :
    ofName (name :: scope) name = .bound 0 := by
  simp [ofName]

theorem ofName_eq_free_iff {scope : List String} {name other : String} :
    ofName scope name = .free other ↔ name = other ∧ name ∉ scope := by
  by_cases h : name ∈ scope <;> simp [ofName, h]

theorem ofName_eq_bound_iff {scope : List String} {name : String} {distance : Nat} :
    ofName scope name = .bound distance ↔
      scope[distance]? = some name ∧ ∀ nearer < distance, scope[nearer]? ≠ some name := by
  induction scope generalizing distance with
  | nil => simp [ofName]
  | cons first scope ih =>
    by_cases same : first = name
    · subst same
      rw [ofName_cons_self]
      cases distance with
      | zero => simp
      | succ distance =>
        refine iff_of_false (by simp) fun h => h.2 0 (Nat.succ_pos _) rfl
    · have step : ofName (first :: scope) name = .bound distance ↔
          ∃ further, distance = further + 1 ∧ ofName scope name = .bound further := by
        by_cases h : name ∈ scope
        · simp [ofName, h, List.idxOf_cons_ne _ same, eq_comm]
        · simp [ofName, h, Ne.symm same]
      rw [step]
      cases distance with
      | zero => simp [same]
      | succ distance =>
        simp only [Nat.add_right_cancel_iff, exists_eq_left', ih, List.getElem?_cons_succ]
        refine and_congr_right fun _ => ⟨fun h nearer less => ?_, fun h nearer less => ?_⟩
        · cases nearer with
          | zero => simpa using same
          | succ nearer => exact h nearer (Nat.lt_of_succ_lt_succ less)
        · exact h (nearer + 1) (Nat.succ_lt_succ less)

/-- Going out through one more quantifier binds what was still free in its name. -/
theorem bind_ofName (scope : List String) (bound name : String) :
    (ofName scope name).bind bound scope.length = ofName (scope ++ [bound]) name := by
  by_cases inside : name ∈ scope
  · simp [ofName, inside, Reference.bind, List.idxOf_append_of_mem inside]
  · by_cases same : name = bound
    · subst same
      simp [ofName, inside, Reference.bind, List.idxOf_append_of_notMem inside]
    · simp [ofName, inside, same, Reference.bind]

end Reference

/-! ## Occurrences -/

/-- A variable of a tree, with the names of the quantifiers around it, innermost first. -/
structure Occurrence where
  token : Token
  reference : Reference
  scope : List String

namespace Occurrence

/-- The occurrence refers to what its name stands for. -/
def Resolved (o : Occurrence) : Prop :=
  o.reference = .ofName o.scope o.token.text

/-- If the occurrence is bound, its quantifier is in scope and is the nearest one of its name. -/
def BoundToNearest (o : Occurrence) : Prop :=
  ∀ distance, o.reference = .bound distance →
    o.scope[distance]? = some o.token.text ∧
      ∀ nearer < distance, o.scope[nearer]? ≠ some o.token.text

/-- If the occurrence is free, it is so in its own name, which no quantifier around it binds. -/
def FreeInName (o : Occurrence) : Prop :=
  ∀ name, o.reference = .free name → o.token.text = name ∧ o.token.text ∉ o.scope

theorem resolved_iff (o : Occurrence) : o.Resolved ↔ o.BoundToNearest ∧ o.FreeInName := by
  obtain ⟨token, reference, scope⟩ := o
  simp only [Resolved, BoundToNearest, FreeInName]
  constructor
  · rintro rfl
    exact ⟨fun distance h => Reference.ofName_eq_bound_iff.mp h,
      fun name h => Reference.ofName_eq_free_iff.mp h⟩
  · rintro ⟨bound, free⟩
    cases reference with
    | free name => exact (Reference.ofName_eq_free_iff.mpr (free name rfl)).symm
    | bound distance => exact (Reference.ofName_eq_bound_iff.mpr (bound distance rfl)).symm

/-- The occurrence after a name was bound outside of all quantifiers in scope. -/
def bind (name : String) (o : Occurrence) : Occurrence :=
  { o with reference := o.reference.bind name o.scope.length }

/-- The occurrence with more quantifiers around the whole tree. -/
def under (outer : List String) (o : Occurrence) : Occurrence :=
  { o with scope := o.scope ++ outer }

theorem Resolved.bind_under {o : Occurrence} (h : o.Resolved) (bound : String) :
    ((o.bind bound).under [bound]).Resolved := by
  have reference : o.reference = .ofName o.scope o.token.text := h
  simp only [Resolved, Occurrence.bind, under, reference, Reference.bind_ofName]

theorem FreeInName.bind_under {o : Occurrence} (h : o.FreeInName) (bound : String) :
    ((o.bind bound).under [bound]).FreeInName := by
  obtain ⟨token, reference, scope⟩ := o
  intro name free
  simp only [Occurrence.bind, under] at free ⊢
  cases reference with
  | bound distance => simp [Reference.bind] at free
  | free other =>
    obtain ⟨same, outside⟩ := h other rfl
    simp only at same outside
    subst same
    by_cases bind_it : token.text = bound
    · simp [Reference.bind, bind_it] at free
    · simp only [Reference.bind, bind_it, if_false, Reference.free.injEq] at free
      exact ⟨free, by simp [outside, bind_it]⟩

end Occurrence

namespace Expr

mutual

def occurrences (scope : List String) : Expr → List Occurrence
  | .var token reference => [⟨token, reference, scope⟩]
  | .app _ _ arguments => occurrencesAll scope arguments
  | .connect _ _ left right => occurrences scope left ++ occurrences scope right
  | .compare _ _ left right => occurrences scope left ++ occurrences scope right
  | .neg _ operand => occurrences scope operand
  | .quant _ _ bound body => occurrences (bound.text :: scope) body

def occurrencesAll (scope : List String) : List Expr → List Occurrence
  | [] => []
  | e :: rest => occurrences scope e ++ occurrencesAll scope rest

end

theorem occurrencesAll_eq (scope : List String) (arguments : List Expr) :
    occurrencesAll scope arguments = arguments.flatMap (occurrences scope) := by
  induction arguments with
  | nil => rfl
  | cons e rest ih => exact congrArg (e.occurrences scope ++ ·) ih

section

variable (scope : List String)

theorem occurrences_var (token : Token) (reference : Reference) :
    (Expr.var token reference).occurrences scope = [⟨token, reference, scope⟩] := rfl

theorem occurrences_app (kind : HeadKind) (head : Token) (arguments : List Expr) :
    (Expr.app kind head arguments).occurrences scope = arguments.flatMap (occurrences scope) :=
  occurrencesAll_eq scope arguments

theorem occurrences_connect (op : Connective) (token : Token) (left right : Expr) :
    (Expr.connect op token left right).occurrences scope =
      left.occurrences scope ++ right.occurrences scope := rfl

theorem occurrences_compare (op : Comparison) (token : Token) (left right : Expr) :
    (Expr.compare op token left right).occurrences scope =
      left.occurrences scope ++ right.occurrences scope := rfl

theorem occurrences_quant (quantifier : Quantifier) (token bound : Token) (body : Expr) :
    (Expr.quant quantifier token bound body).occurrences scope =
      body.occurrences (bound.text :: scope) := rfl

end

theorem occurrences_append (e : Expr) (scope outer : List String) :
    e.occurrences (scope ++ outer) = (e.occurrences scope).map (Occurrence.under outer) := by
  induction e generalizing scope with
  | var token reference => rfl
  | app kind head arguments ih =>
    simp only [occurrences_app, List.map_flatMap]
    exact List.flatMap_congr fun e member => ih e member scope
  | connect op token left right ihLeft ihRight =>
    simp only [occurrences_connect, ihLeft, ihRight, List.map_append]
  | compare op token left right ihLeft ihRight =>
    simp only [occurrences_compare, ihLeft, ihRight, List.map_append]
  | neg token operand ih => exact ih scope
  | quant quantifier token bound body ih => exact ih (bound.text :: scope)

/-- The depth of a binding counts the quantifiers above a place, as the scope of the place does. -/
theorem occurrences_bind (e : Expr) (name : String) (scope : List String) :
    (e.bind name scope.length).occurrences scope =
      (e.occurrences scope).map (Occurrence.bind name) := by
  induction e generalizing scope with
  | var token reference => rfl
  | app kind head arguments ih =>
    simp only [bind, bindAll_eq, occurrences_app, List.map_flatMap, List.flatMap_map]
    exact List.flatMap_congr fun e member => ih e member scope
  | connect op token left right ihLeft ihRight =>
    simp only [bind, occurrences_connect, ihLeft, ihRight, List.map_append]
  | compare op token left right ihLeft ihRight =>
    simp only [bind, occurrences_compare, ihLeft, ihRight, List.map_append]
  | neg token operand ih => exact ih scope
  | quant quantifier token bound body ih => exact ih (bound.text :: scope)

/-- Inside a new quantifier stand the occurrences of its body, bound and with one name more in
scope. -/
theorem occurrences_quantify (quantifier : Quantifier) (token bound : Token) (body : Expr) :
    (quantify quantifier token bound body).occurrences [] =
      (body.occurrences []).map fun o => (o.bind bound.text).under [bound.text] := by
  have law := occurrences_bind body bound.text []
  rw [List.length_nil] at law
  rw [quantify, occurrences_quant, ← List.nil_append [bound.text], occurrences_append, law,
    List.map_map]
  rfl

/-! ## Resolved trees -/

def Resolved (scope : List String) (e : Expr) : Prop :=
  ∀ o ∈ e.occurrences scope, o.Resolved

section

variable {scope : List String}

theorem resolved_var {token : Token} {reference : Reference} :
    (Expr.var token reference).Resolved scope ↔ reference = .ofName scope token.text := by
  simp [Expr.Resolved, occurrences_var, Occurrence.Resolved]

theorem resolved_app {kind : HeadKind} {head : Token} {arguments : List Expr} :
    (Expr.app kind head arguments).Resolved scope ↔ ∀ e ∈ arguments, e.Resolved scope := by
  simp only [Expr.Resolved, occurrences_app, List.mem_flatMap]
  exact ⟨fun h e member o occurs => h o ⟨e, member, occurs⟩,
    fun h o ⟨e, member, occurs⟩ => h e member o occurs⟩

theorem resolved_connect {op : Connective} {token : Token} {left right : Expr} :
    (Expr.connect op token left right).Resolved scope ↔
      left.Resolved scope ∧ right.Resolved scope := by
  simp only [Expr.Resolved, occurrences_connect, List.forall_mem_append]

theorem resolved_compare {op : Comparison} {token : Token} {left right : Expr} :
    (Expr.compare op token left right).Resolved scope ↔
      left.Resolved scope ∧ right.Resolved scope := by
  simp only [Expr.Resolved, occurrences_compare, List.forall_mem_append]

theorem resolved_neg {token : Token} {operand : Expr} :
    (Expr.neg token operand).Resolved scope ↔ operand.Resolved scope := Iff.rfl

theorem resolved_quant {quantifier : Quantifier} {token bound : Token} {body : Expr} :
    (Expr.quant quantifier token bound body).Resolved scope ↔
      body.Resolved (bound.text :: scope) := Iff.rfl

end

theorem resolved_named (token : Token) : (named token).Resolved [] :=
  resolved_var.mpr (Reference.ofName_of_not_mem List.not_mem_nil).symm

theorem Resolved.quantify {body : Expr} (h : body.Resolved []) (quantifier : Quantifier)
    (token bound : Token) : (Expr.quantify quantifier token bound body).Resolved [] := by
  intro o member
  rw [occurrences_quantify] at member
  obtain ⟨inner, occurs, rfl⟩ := List.mem_map.mp member
  exact (h inner occurs).bind_under bound.text

/-! ## Names in children -/

/-- The names that are bound around the children, when those of the scope are around the root. -/
def innerScope (scope : List String) : Expr → List String
  | .quant _ _ bound _ => bound.text :: scope
  | _ => scope

theorem mem_occurrences_of_child {e child : Expr} (isChild : child ∈ e.children)
    {scope : List String} {o : Occurrence} (occurs : o ∈ child.occurrences (e.innerScope scope)) :
    o ∈ e.occurrences scope := by
  cases e with
  | var token reference => cases isChild
  | app kind head arguments =>
    rw [occurrences_app]
    exact List.mem_flatMap.mpr ⟨child, isChild, occurs⟩
  | connect op token left right =>
    rcases List.mem_pair.mp isChild with rfl | rfl
    · exact List.mem_append_left _ occurs
    · exact List.mem_append_right _ occurs
  | compare op token left right =>
    rcases List.mem_pair.mp isChild with rfl | rfl
    · exact List.mem_append_left _ occurs
    · exact List.mem_append_right _ occurs
  | neg token operand => exact List.mem_singleton.mp isChild ▸ occurs
  | quant quantifier token bound body => exact List.mem_singleton.mp isChild ▸ occurs

theorem Resolved.child {scope : List String} {e child : Expr} (h : e.Resolved scope)
    (isChild : child ∈ e.children) : child.Resolved (e.innerScope scope) :=
  fun o occurs => h o (mem_occurrences_of_child isChild occurs)

theorem mem_freeOccurrences_of_child {e child : Expr} (isChild : child ∈ e.children)
    {name : String} (free : name ∈ child.freeOccurrences) : name ∈ e.freeOccurrences := by
  cases e with
  | var token reference => cases isChild
  | app kind head arguments =>
    rw [freeOccurrences, freeOccurrencesAll_eq]
    exact List.mem_flatMap.mpr ⟨child, isChild, free⟩
  | connect op token left right =>
    rcases List.mem_pair.mp isChild with rfl | rfl
    · exact List.mem_append_left _ free
    · exact List.mem_append_right _ free
  | compare op token left right =>
    rcases List.mem_pair.mp isChild with rfl | rfl
    · exact List.mem_append_left _ free
    · exact List.mem_append_right _ free
  | neg token operand => exact List.mem_singleton.mp isChild ▸ free
  | quant quantifier token bound body => exact List.mem_singleton.mp isChild ▸ free

end Expr

end PredicateCalculus
