import PredicateCalculus.Proofs.RoundTrip.Parse

/-! # Places in a tree

Each subtree stands at a place, which has some of the tree's quantifiers around it. In a tree that
was read from a text, every variable belongs to the nearest quantifier around it that binds its
name, and is free if there is none. Every node has the tokens and the children of its kind.

* `Expr.Place`: a subtree, with the names that the quantifiers around it bind, innermost first.
* `Expr.mem_occurrences_iff_place`: the scope of an occurrence is that of its place.
* `Expr.TokensFit`, `Expr.childCount?`: the tokens and the number of children of a kind.
* `Expr.WellPlaced`: what can be said of a subtree at its place.
* `Expr.wellPlaced_of_parse`: everything that is read is well placed.
-/

set_option autoImplicit false

namespace PredicateCalculus

def Token.Names (token : Token) : Prop :=
  token.isIdentifier = true ∧ IsName token.text

theorem Name.names (name : Name) : name.token.Names := by
  refine ⟨?_, name.isName⟩
  rw [Token.isIdentifier, name.isIdentifier]

namespace Expr

/-! ## Places -/

inductive Place (whole : Expr) : List String → Expr → Prop where
  | root : Place whole [] whole
  | child {scope : List String} {e child : Expr} (place : Place whole scope e)
      (isChild : child ∈ e.children) : Place whole (e.innerScope scope) child

/-! ## Places of variables -/

theorem exists_child_of_mem_occurrences {e : Expr} {scope : List String} {o : Occurrence}
    (occurs : o ∈ e.occurrences scope) :
    (e = .var o.token o.reference ∧ o.scope = scope) ∨
      ∃ child ∈ e.children, o ∈ child.occurrences (e.innerScope scope) := by
  cases e with
  | var token reference =>
    rw [List.mem_singleton.mp occurs]
    exact .inl ⟨rfl, rfl⟩
  | app kind head arguments =>
    rw [occurrences_app] at occurs
    exact .inr (List.mem_flatMap.mp occurs)
  | connect op token left right =>
    rcases List.mem_append.mp occurs with inLeft | inRight
    · exact .inr ⟨left, List.mem_cons_self, inLeft⟩
    · exact .inr ⟨right, List.mem_cons_of_mem _ List.mem_cons_self, inRight⟩
  | compare op token left right =>
    rcases List.mem_append.mp occurs with inLeft | inRight
    · exact .inr ⟨left, List.mem_cons_self, inLeft⟩
    · exact .inr ⟨right, List.mem_cons_of_mem _ List.mem_cons_self, inRight⟩
  | neg token operand => exact .inr ⟨operand, List.mem_cons_self, occurs⟩
  | quant quantifier token bound body => exact .inr ⟨body, List.mem_cons_self, occurs⟩

theorem Place.occurrence {whole e : Expr} {scope : List String} (place : whole.Place scope e)
    {o : Occurrence} (occurs : o ∈ e.occurrences scope) :
    whole.Place o.scope (.var o.token o.reference) := by
  induction e using childInduction generalizing scope with
  | step e ih =>
    rcases exists_child_of_mem_occurrences occurs with ⟨rfl, rfl⟩ | ⟨child, isChild, inside⟩
    · exact place
    · exact ih child isChild (place.child isChild) inside

theorem Place.occurrences_subset {whole part : Expr} {scope : List String}
    (place : whole.Place scope part) : part.occurrences scope ⊆ whole.occurrences [] := by
  induction place with
  | root => exact List.Subset.refl _
  | child _ isChild ih => exact fun o inside => ih (mem_occurrences_of_child isChild inside)

theorem mem_occurrences_iff_place {whole : Expr} {o : Occurrence} :
    o ∈ whole.occurrences [] ↔ whole.Place o.scope (.var o.token o.reference) :=
  ⟨Place.root.occurrence, fun place => place.occurrences_subset List.mem_cons_self⟩

/-! ## From the root to a place -/

theorem Usual.place {whole part : Expr} {scope : List String} (h : whole.Usual)
    (place : whole.Place scope part) : part.Usual := by
  induction place with
  | root => exact h
  | child _ isChild ih => exact ih.child isChild

theorem Resolved.place {whole part : Expr} {scope : List String} (h : whole.Resolved [])
    (place : whole.Place scope part) : part.Resolved scope := by
  induction place with
  | root => exact h
  | child _ isChild ih => exact ih.child isChild

/-! ## Nodes -/

def TokensFit : Expr → Prop
  | .var token _ => token.Names
  | .app kind head _ => head.Names ∧ kind.Suits head.text
  | .connect op token _ _ => token.kind = .symbol op.symbol
  | .compare op token _ _ => token.kind = .symbol op.symbol
  | .neg token _ => token.kind = .symbol .not
  | .quant quantifier token bound _ => token.kind = .symbol quantifier.symbol ∧ bound.Names

theorem Usual.tokensFit {e : Expr} (h : e.Usual) : e.TokensFit := by
  cases h with
  | var name reference => exact name.names
  | app kind head suits arguments each => exact ⟨head.names, suits⟩
  | connect op sign left right first second => exact sign.isSymbol
  | compare op sign left right first second => exact sign.isSymbol
  | neg sign operand inner => exact sign.isSymbol
  | quant quantifier sign bound body inner => exact ⟨sign.isSymbol, bound.names⟩

/-- Functions and predicates may have any number of arguments. -/
def childCount? : Expr → Option Nat
  | .var _ _ => some 0
  | .app _ _ _ => none
  | .connect _ _ _ _ => some 2
  | .compare _ _ _ _ => some 2
  | .neg _ _ => some 1
  | .quant _ _ _ _ => some 1

theorem length_children_of_childCount? {e : Expr} {n : Nat} (h : e.childCount? = some n) :
    e.children.length = n := by
  cases e with
  | app kind head arguments => cases h
  | var | connect | compare | neg | quant => exact Option.some.inj h

/-! ## What is read -/

/-- A bound variable refers to the nearest quantifier around it that binds its name, counted from
the inside; a free one refers to its own name, which no quantifier around it binds. -/
structure WellPlaced (scope : List String) (part : Expr) : Prop where
  tokens : part.TokensFit
  children : ∀ n, part.childCount? = some n → part.children.length = n
  bound : ∀ token distance, part = .var token (.bound distance) →
    distance < scope.length ∧ scope[distance]? = some token.text ∧
      ∀ nearer < distance, scope[nearer]? ≠ some token.text
  free : ∀ token name, part = .var token (.free name) → name = token.text ∧ token.text ∉ scope

/-- While a text is read, quantifiers bind from the inside out, so a subtree is resolved only when
all quantifiers around it are there. Both properties of the whole tree therefore go down from the
root, the scope of a place growing on the way. -/
theorem wellPlaced_of_parse {source : String} {e : Expr} (h : parse source = .ok e)
    {scope : List String} {part : Expr} (place : e.Place scope part) : WellPlaced scope part := by
  have usual : part.Usual := (built_of_parse h).usual.place place
  have resolved : part.Resolved scope := (resolved_of_parse h).place place
  refine ⟨usual.tokensFit, fun n => length_children_of_childCount?, ?_, ?_⟩
  · rintro token distance rfl
    obtain ⟨binds, nearest⟩ := Reference.ofName_eq_bound_iff.mp (resolved_var.mp resolved).symm
    exact ⟨(List.getElem?_eq_some_iff.mp binds).1, binds, nearest⟩
  · rintro token name rfl
    obtain ⟨same, outside⟩ := Reference.ofName_eq_free_iff.mp (resolved_var.mp resolved).symm
    exact ⟨same.symm, outside⟩

/-- The nearer of two quantifiers that bind `x`, but not the nearest one of all. -/
theorem wellPlaced_of_parse_nested :
    ∃ e token, parse "forall x. exists x. forall y. P(x)" = .ok e ∧
      e.Place ["y", "x", "x"] (.var token (.bound 1)) ∧ token.text = "x" := by
  obtain ⟨e, read, seen⟩ := Parser.exists_ok_of_any (parse "forall x. exists x. forall y. P(x)")
    (fun e => (e.occurrences []).map (fun o => (o.reference, o.scope)) ==
      [(.bound 1, ["y", "x", "x"])]) (by decide +kernel)
  obtain ⟨⟨token, reference, scope⟩, single, same⟩ :=
    List.map_eq_singleton_iff.mp (beq_iff_eq.mp seen)
  obtain ⟨rfl, rfl⟩ := Prod.mk.inj same
  have occurs : ⟨token, .bound 1, ["y", "x", "x"]⟩ ∈ e.occurrences [] := by
    rw [single]
    exact List.mem_cons_self
  have place : e.Place ["y", "x", "x"] (.var token (.bound 1)) :=
    mem_occurrences_iff_place.mp occurs
  have binds := ((wellPlaced_of_parse read place).bound token 1 rfl).2.1
  exact ⟨e, token, read, place, (Option.some.inj binds).symm⟩

end Expr

end PredicateCalculus
