import PredicateCalculus.Expr.Printer
import PredicateCalculus.Proofs.Occurrence

/-! # Trees by names

A tree by names says how an expression is built from the outside: variables are given by their
names only, and a quantifier binds a name in a body. What a name refers to is not part of it.

* `Named`: the trees by names.
* `Named.build`: the expression that is built, innermost quantifiers first.
* `Expr.unbound`: the tree by names that an expression shows when references are left out.
* `Named.build_resolved`, `Named.unbound_build`: building resolves all names and loses nothing.
-/

set_option autoImplicit false

namespace PredicateCalculus

inductive Named where
  | var (token : Token)
  | app (kind : HeadKind) (head : Token) (arguments : List Named)
  | connect (op : Connective) (token : Token) (left right : Named)
  | compare (op : Comparison) (token : Token) (left right : Named)
  | neg (token : Token) (operand : Named)
  | quant (quantifier : Quantifier) (token bound : Token) (body : Named)

namespace Named

@[elab_as_elim, induction_eliminator]
theorem inductionOn {motive : Named → Prop} (var : ∀ token, motive (.var token))
    (app : ∀ kind head arguments, (∀ t ∈ arguments, motive t) → motive (.app kind head arguments))
    (connect : ∀ op token left right, motive left → motive right →
      motive (.connect op token left right))
    (compare : ∀ op token left right, motive left → motive right →
      motive (.compare op token left right))
    (neg : ∀ token operand, motive operand → motive (.neg token operand))
    (quant : ∀ quantifier token bound body, motive body →
      motive (.quant quantifier token bound body)) (t : Named) : motive t :=
  match t with
  | .var token => var token
  | .app kind head arguments => app kind head arguments fun t _ =>
    inductionOn var app connect compare neg quant t
  | .connect op token left right => connect op token left right
    (inductionOn var app connect compare neg quant left)
    (inductionOn var app connect compare neg quant right)
  | .compare op token left right => compare op token left right
    (inductionOn var app connect compare neg quant left)
    (inductionOn var app connect compare neg quant right)
  | .neg token operand => neg token operand
    (inductionOn var app connect compare neg quant operand)
  | .quant quantifier token bound body => quant quantifier token bound body
    (inductionOn var app connect compare neg quant body)

mutual

def build : Named → Expr
  | .var token => .named token
  | .app kind head arguments => .app kind head (buildAll arguments)
  | .connect op token left right => .connect op token (build left) (build right)
  | .compare op token left right => .compare op token (build left) (build right)
  | .neg token operand => .neg token (build operand)
  | .quant quantifier token bound body => .quantify quantifier token bound (build body)

def buildAll : List Named → List Expr
  | [] => []
  | t :: rest => build t :: buildAll rest

end

theorem buildAll_eq (arguments : List Named) : buildAll arguments = arguments.map build := by
  induction arguments with
  | nil => rfl
  | cons t rest ih => simp [buildAll, ih]

theorem build_resolved (t : Named) : t.build.Resolved [] := by
  induction t with
  | var token => exact Expr.resolved_named token
  | app kind head arguments ih =>
    rw [build, buildAll_eq, Expr.resolved_app]
    intro e member
    obtain ⟨argument, mem, rfl⟩ := List.mem_map.mp member
    exact ih argument mem
  | connect op token left right ihLeft ihRight =>
    exact Expr.resolved_connect.mpr ⟨ihLeft, ihRight⟩
  | compare op token left right ihLeft ihRight =>
    exact Expr.resolved_compare.mpr ⟨ihLeft, ihRight⟩
  | neg token operand ih => exact Expr.resolved_neg.mpr ih
  | quant quantifier token bound body ih => exact ih.quantify quantifier token bound

end Named

namespace Expr

/-! ## Leaving out the references -/

mutual

def unbound : Expr → Named
  | .var token _ => .var token
  | .app kind head arguments => .app kind head (unboundAll arguments)
  | .connect op token left right => .connect op token (unbound left) (unbound right)
  | .compare op token left right => .compare op token (unbound left) (unbound right)
  | .neg token operand => .neg token (unbound operand)
  | .quant quantifier token bound body => .quant quantifier token bound (unbound body)

def unboundAll : List Expr → List Named
  | [] => []
  | e :: rest => unbound e :: unboundAll rest

end

theorem unboundAll_eq (arguments : List Expr) : unboundAll arguments = arguments.map unbound := by
  induction arguments with
  | nil => rfl
  | cons e rest ih => simp [unboundAll, ih]

theorem unbound_bind (e : Expr) (name : String) (depth : Nat) :
    (e.bind name depth).unbound = e.unbound := by
  induction e generalizing depth with
  | var token reference => rfl
  | app kind head arguments ih =>
    simp only [bind, unbound, bindAll_eq, unboundAll_eq, List.map_map, Named.app.injEq, true_and]
    exact List.map_congr_left fun e member => ih e member depth
  | connect op token left right ihLeft ihRight => simp only [bind, unbound, ihLeft, ihRight]
  | compare op token left right ihLeft ihRight => simp only [bind, unbound, ihLeft, ihRight]
  | neg token operand ih => simp only [bind, unbound, ih]
  | quant quantifier token bound body ih => simp only [bind, unbound, ih]

theorem unbound_quantify (quantifier : Quantifier) (token bound : Token) (body : Expr) :
    (quantify quantifier token bound body).unbound =
      .quant quantifier token bound body.unbound := by
  rw [quantify, unbound, unbound_bind]

end Expr

theorem Named.unbound_build (t : Named) : t.build.unbound = t := by
  induction t with
  | var token => rfl
  | app kind head arguments ih =>
    have arguments_eq : (arguments.map build).map Expr.unbound = arguments := by
      rw [List.map_map]
      exact (List.map_congr_left ih).trans (List.map_id arguments)
    rw [build, Expr.unbound, buildAll_eq, Expr.unboundAll_eq, arguments_eq]
  | connect op token left right ihLeft ihRight => simp only [build, Expr.unbound, ihLeft, ihRight]
  | compare op token left right ihLeft ihRight => simp only [build, Expr.unbound, ihLeft, ihRight]
  | neg token operand ih => simp only [build, Expr.unbound, ih]
  | quant quantifier token bound body ih => simp only [build, Expr.unbound_quantify, ih]

namespace Expr

/-! ## The written form -/

theorem printAll_congr {arguments arguments' : List Expr}
    (h : arguments.map (fun e => bracketed (e.needsBrackets .elsewhere) e.print) =
      arguments'.map fun e => bracketed (e.needsBrackets .elsewhere) e.print) :
    printAll arguments = printAll arguments' := by
  induction arguments generalizing arguments' with
  | nil =>
    rw [List.map_nil, eq_comm, List.map_eq_nil_iff] at h
    rw [h]
  | cons e rest ih =>
    cases arguments' with
    | nil => simp at h
    | cons e' rest' =>
      simp only [List.map_cons, List.cons.injEq] at h
      obtain ⟨first, others⟩ := h
      cases rest with
      | nil =>
        obtain rfl : rest' = [] := List.map_eq_nil_iff.mp others.symm
        simp only [printAll, first]
      | cons second rest =>
        cases rest' with
        | nil => simp at others
        | cons second' rest' => simp only [printAll, first, ih others]

theorem needsBrackets_bind (e : Expr) (name : String) (depth : Nat) (place : Place) :
    (e.bind name depth).needsBrackets place = e.needsBrackets place := by
  cases e <;> rfl

/-- Variables are written with their tokens, whatever they refer to. -/
theorem print_bind (e : Expr) (name : String) (depth : Nat) :
    (e.bind name depth).print = e.print := by
  induction e generalizing depth with
  | var token reference => rfl
  | app kind head arguments ih =>
    simp only [bind, print, bindAll_eq]
    congr 2
    refine printAll_congr ?_
    rw [List.map_map]
    refine List.map_congr_left fun e member => ?_
    rw [Function.comp_apply, needsBrackets_bind, ih e member depth]
  | connect op token left right ihLeft ihRight =>
    simp only [bind, print, needsBrackets_bind, ihLeft, ihRight]
  | compare op token left right ihLeft ihRight =>
    simp only [bind, print, needsBrackets_bind, ihLeft, ihRight]
  | neg token operand ih => simp only [bind, print, needsBrackets_bind, ih]
  | quant quantifier token bound body ih => simp only [bind, print, ih]

end Expr

end PredicateCalculus
