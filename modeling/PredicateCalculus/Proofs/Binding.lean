import Mathlib.Data.List.Nodup
import PredicateCalculus.Proofs.Named

/-! # The effect of a quantifier

A quantifier changes nothing in its body but the references of the variables that are free in its
name: each of them gets the number of the quantifiers above it. Its name is then no longer free, so
that binding it once more, from further outside, does nothing to the quantifier.

* `Expr.quantifiersAbove`: the number of quantifiers on the way down to a subtree.
* `Expr.descend_bind`: what stands at the end of a path after a name was bound.
* `Expr.freeOccurrences_bind`, `Expr.bind_eq_self`: the name that was bound is the only one that is
  no longer free, and a name that is not free is bound nowhere.
* `Expr.Binds`: one tree is the other with a name bound.
* `Expr.quantify_binds`: all of this for a quantifier, with what its free variables are.
-/

set_option autoImplicit false

namespace PredicateCalculus

/-! ## Lists without repetitions -/

section

variable {α : Type} [BEq α]

/-- The recursion of `List.eraseDups`, which leaves the first element out of the rest. -/
theorem withoutFirstInduction {motive : List α → Prop} (nil : motive [])
    (cons : ∀ first rest, motive (rest.filter fun other => !other == first) →
      motive (first :: rest)) (l : List α) : motive l :=
  match l with
  | [] => nil
  | first :: rest => cons first rest (withoutFirstInduction nil cons _)
termination_by l.length
decreasing_by exact Nat.lt_succ_of_le (List.length_filter_le _ _)

variable [LawfulBEq α]

theorem nodup_eraseDups (l : List α) : l.eraseDups.Nodup := by
  induction l using withoutFirstInduction with
  | nil => exact List.nodup_nil
  | cons first rest ih =>
    rw [List.eraseDups_cons, List.nodup_cons]
    refine ⟨fun again => ?_, ih⟩
    have other := (List.mem_filter.mp (List.mem_eraseDups.mp again)).2
    simp at other

/-- Keeping some of the elements and leaving out repetitions can be done in either order. -/
theorem eraseDups_filter (p : α → Bool) (l : List α) :
    (l.filter p).eraseDups = l.eraseDups.filter p := by
  induction l using withoutFirstInduction with
  | nil => rfl
  | cons first rest ih =>
    rw [List.eraseDups_cons]
    by_cases keep : p first = true
    · rw [List.filter_cons_of_pos keep, List.filter_cons_of_pos keep, List.eraseDups_cons, ← ih,
        List.filter_comm]
    · have gone : (rest.filter fun other => !other == first).filter p = rest.filter p := by
        rw [List.filter_filter]
        refine List.filter_congr fun other _ => ?_
        by_cases same : other = first
        · simp [same, keep]
        · simp [same]
      rw [List.filter_cons_of_neg keep, List.filter_cons_of_neg keep, ← ih, gone]

end

theorem Reference.bind_eq_ite (reference : Reference) (name : String) (depth : Nat) :
    reference.bind name depth = if reference = .free name then .bound depth else reference := by
  cases reference with
  | free other => simp only [bind, free.injEq]
  | bound distance => rfl

namespace Expr

/-! ## Free names -/

/-- The two ways to look for a free name agree. -/
theorem isFresh_iff (name : String) (e : Expr) :
    e.isFresh name = true ↔ name ∉ e.freeOccurrences := by
  induction e with
  | var token reference =>
    cases reference with
    | free other => rw [isFresh, bne_iff_ne, freeOccurrences, List.mem_singleton, ne_comm]
    | bound distance => simp [isFresh, freeOccurrences]
  | app kind head arguments ih =>
    rw [isFresh, isFreshAll_eq, List.all_eq_true, freeOccurrences, freeOccurrencesAll_eq,
      List.mem_flatMap, not_exists]
    exact forall_congr' fun e => by rw [not_and]; exact forall_congr' fun member => ih e member
  | connect op token left right ihLeft ihRight =>
    rw [isFresh, Bool.and_eq_true, ihLeft, ihRight, freeOccurrences, List.mem_append, not_or]
  | compare op token left right ihLeft ihRight =>
    rw [isFresh, Bool.and_eq_true, ihLeft, ihRight, freeOccurrences, List.mem_append, not_or]
  | neg token operand ih => exact ih
  | quant quantifier token bound body ih => exact ih

theorem isFresh_iff_not_mem_freeVariables (name : String) (e : Expr) :
    e.isFresh name = true ↔ name ∉ e.freeVariables := by
  rw [isFresh_iff, freeVariables, List.mem_eraseDups]

theorem freeOccurrences_bind (e : Expr) (name : String) (depth : Nat) :
    (e.bind name depth).freeOccurrences = e.freeOccurrences.filter (· != name) := by
  induction e generalizing depth with
  | var token reference =>
    cases reference with
    | free other =>
      by_cases same : other = name <;>
        simp [bind, Reference.bind, freeOccurrences, same]
    | bound distance => rfl
  | app kind head arguments ih =>
    simp only [bind, freeOccurrences, bindAll_eq, freeOccurrencesAll_eq, List.filter_flatMap,
      List.flatMap_map]
    exact List.flatMap_congr fun e member => ih e member depth
  | connect op token left right ihLeft ihRight =>
    simp only [bind, freeOccurrences, ihLeft, ihRight, List.filter_append]
  | compare op token left right ihLeft ihRight =>
    simp only [bind, freeOccurrences, ihLeft, ihRight, List.filter_append]
  | neg token operand ih => exact ih depth
  | quant quantifier token bound body ih => exact ih (depth + 1)

theorem freeVariables_bind (e : Expr) (name : String) (depth : Nat) :
    (e.bind name depth).freeVariables = e.freeVariables.filter (· != name) := by
  rw [freeVariables, freeOccurrences_bind, eraseDups_filter, freeVariables]

theorem bind_eq_self {e : Expr} {name : String} (h : name ∉ e.freeOccurrences) (depth : Nat) :
    e.bind name depth = e := by
  induction e generalizing depth with
  | var token reference =>
    cases reference with
    | free other =>
      have different : other ≠ name := fun same => h (List.mem_singleton.mpr same.symm)
      rw [bind, Reference.bind, if_neg different]
    | bound distance => rfl
  | app kind head arguments ih =>
    rw [freeOccurrences, freeOccurrencesAll_eq, List.mem_flatMap] at h
    have each : ∀ e ∈ arguments, e.bind name depth = e :=
      fun e member => ih e member (fun occurs => h ⟨e, member, occurs⟩) depth
    rw [bind, bindAll_eq, List.map_congr_left each, List.map_id']
  | connect op token left right ihLeft ihRight =>
    rw [freeOccurrences, List.mem_append, not_or] at h
    rw [bind, ihLeft h.1, ihRight h.2]
  | compare op token left right ihLeft ihRight =>
    rw [freeOccurrences, List.mem_append, not_or] at h
    rw [bind, ihLeft h.1, ihRight h.2]
  | neg token operand ih => rw [bind, ih h]
  | quant quantifier token bound body ih => rw [bind, ih h]

/-! ## Places -/

/-- The number of quantifiers that the children have above them, when the root has none. -/
def ownQuantifiers (e : Expr) : Nat :=
  e.bound?.elim 0 fun _ => 1

/-- The number of quantifiers that are passed when a path is followed, without the one it may end
at. -/
def quantifiersAbove : List Nat → Expr → Nat
  | [], _ => 0
  | index :: path, e => e.ownQuantifiers + e.children[index]?.elim 0 (quantifiersAbove path)

theorem children_bind (e : Expr) (name : String) (depth : Nat) :
    (e.bind name depth).children = e.children.map (bind name (depth + e.ownQuantifiers)) := by
  cases e with
  | app kind head arguments => exact bindAll_eq name depth arguments
  | var | connect | compare | neg | quant => rfl

theorem descend_bind (path : List Nat) (e : Expr) (name : String) (depth : Nat) :
    (e.bind name depth).descend path =
      (e.descend path).map (bind name (depth + e.quantifiersAbove path)) := by
  induction path generalizing e depth with
  | nil => rfl
  | cons index path ih =>
    rw [descend, descend, children_bind, List.getElem?_map, quantifiersAbove]
    cases e.children[index]? with
    | none => rfl
    | some child =>
      rw [Option.map_some, Option.bind_some, Option.bind_some, Option.elim_some, ih, Nat.add_assoc]

/-- The second tree is the first with a name bound. Leaving out the references keeps all tokens and
the shape of a tree. -/
structure Binds (name : String) (before after : Expr) : Prop where
  shape : after.unbound = before.unbound
  written : after.print = before.print
  references : ∀ path token reference, before.descend path = some (.var token reference) →
    after.descend path = some (.var token
      (if reference = .free name then .bound (before.quantifiersAbove path) else reference))

theorem binds_bind (name : String) (e : Expr) : Binds name e (e.bind name 0) := by
  refine ⟨unbound_bind e name 0, print_bind e name 0, fun path token reference ends => ?_⟩
  rw [descend_bind, ends, Nat.zero_add, Option.map_some, bind,
    Reference.bind_eq_ite]

/-! ## Quantifiers -/

section

variable (quantifier : Quantifier) (token bound : Token) (body : Expr)

theorem freeVariables_quantify :
    (quantify quantifier token bound body).freeVariables =
      body.freeVariables.filter (· != bound.text) :=
  freeVariables_bind body bound.text 0

theorem bind_quantify (depth : Nat) :
    (quantify quantifier token bound body).bind bound.text depth =
      quantify quantifier token bound body := by
  refine bind_eq_self (fun occurs => ?_) depth
  have free : bound.text ∈ (body.bind bound.text 0).freeOccurrences := occurs
  rw [freeOccurrences_bind] at free
  simp at free

/-- A quantifier of the same name around a tree that contains the quantifier leaves it as it is. -/
theorem descend_quantify_of_descend {whole : Expr} {path : List Nat}
    (inside : whole.descend path = some (quantify quantifier token bound body))
    (outer : Quantifier) (outerToken outerBound : Token) (same : outerBound.text = bound.text) :
    (quantify outer outerToken outerBound whole).descend (0 :: path) =
      some (quantify quantifier token bound body) := by
  have below : (quantify outer outerToken outerBound whole).descend (0 :: path) =
    (whole.bind outerBound.text 0).descend path := rfl
  rw [below, descend_bind, inside, same, Option.map_some, bind_quantify]

/-- The free variables of a quantifier are those of its body without its name, in the same order.
Its body is the given one with the name bound, and it stays the same when the name is bound again
around it. A name is fresh in a tree when it is none of its free variables, which are listed once
each. -/
theorem quantify_binds :
    (quantify quantifier token bound body).freeVariables =
        body.freeVariables.filter (· != bound.text) ∧
      (∃ inner, quantify quantifier token bound body = .quant quantifier token bound inner ∧
        Binds bound.text body inner) ∧
      (∀ whole path, whole.descend path = some (quantify quantifier token bound body) →
        ∀ outer outerToken outerBound, outerBound.text = bound.text →
          (quantify outer outerToken outerBound whole).descend (0 :: path) =
            some (quantify quantifier token bound body)) ∧
      ∀ e : Expr, (∀ name, e.isFresh name = true ↔ name ∉ e.freeVariables) ∧
        e.freeVariables.Nodup :=
  ⟨freeVariables_quantify quantifier token bound body,
    ⟨_, rfl, binds_bind bound.text body⟩,
    fun _ _ => descend_quantify_of_descend quantifier token bound body,
    fun e => ⟨fun name => isFresh_iff_not_mem_freeVariables name e, nodup_eraseDups _⟩⟩

end

/-- `exists x. P(x, y)`, where `x` is free in spite of its quantifier and `y` refers to one that is
not there. -/
def looseBody : Expr :=
  .quant .existential (.ofSymbol .forSome) (.ofName "x")
    (.app .predicate (.ofName "P") [named (.ofName "x"), .var (.ofName "y") (.bound 5)])

/-- The variable under the quantifier of its own name is bound over it, and only once. -/
theorem quantify_binds_looseBody :
    let bindX := quantify .universal (.ofSymbol .forAll) (.ofName "x")
    let whole := Expr.connect .and (.ofSymbol .and) (named (.ofName "x")) (bindX looseBody)
    whole.descend [1] = some (bindX looseBody) ∧
      (bindX whole).descend [0, 1] = some (bindX looseBody) ∧
      (bindX looseBody).descend [0, 0, 0] = some (.var (.ofName "x") (.bound 1)) ∧
      (bindX looseBody).descend [0, 0, 1] = some (.var (.ofName "y") (.bound 5)) := by
  intro bindX whole
  obtain ⟨-, ⟨inner, same, binds⟩, again, -⟩ :=
    quantify_binds .universal (.ofSymbol .forAll) (.ofName "x") looseBody
  have below (path : List Nat) : (bindX looseBody).descend (0 :: path) = inner.descend path :=
    congrArg (descend (0 :: path)) same
  refine ⟨rfl, again whole [1] rfl .universal (.ofSymbol .forAll) (.ofName "x") rfl, ?_, ?_⟩
  · rw [below]
    exact binds.references [0, 0] (.ofName "x") (.free "x") rfl
  · rw [below]
    exact binds.references [0, 1] (.ofName "y") (.bound 5) rfl

end Expr

end PredicateCalculus
