import PredicateCalculus.Proofs.Evaluation.Outcome

/-! # Replaying the records of an evaluation

The records tell how evaluation went through the tree. They are replayed with a stack of the nodes
that were visited and have no value yet: a visit pushes the child whose turn it is, and a value pops
its node. The stack is always a path, and at the end of a run that succeeds nothing is left on it.

* `Pending`: a visited node, with the elements it is evaluated under.
* `Pending.Turn`: the child to be visited next.
* `Replays`: what records make of a stack, in one way only.
* `Replays.isPath`: the nodes on the stack stay a path.
* `Leads`: where a stack gets by the records of a run that succeeds, or fails.
* `Expr.traced`: the run of a tree behind the visit of its root.
* `Expr.records_replayed`: the records of the runs for a closed context.
-/

set_option autoImplicit false

namespace PredicateCalculus

variable {α : Type}

theorem next_of_drop {elements rest : List α} {x : α} {n : Nat}
    (left : elements.drop n = x :: rest) :
    elements[n]? = some x ∧ elements.drop (n + 1) = rest := by
  constructor
  · rw [← List.head?_drop, left, List.head?_cons]
  · rw [← List.tail_drop, left, List.tail_cons]

/-! ## Stacks -/

/-- A node without its value yet, the elements for the quantifiers around it, innermost first, and
how many visits of its children there were. -/
structure Pending (α : Type) where
  node : Expr
  frames : List α
  visits : Nat

namespace Pending

def begin (e : Expr) (frames : List α) : Pending α :=
  ⟨e, frames, 0⟩

def visit (entry : Pending α) : Pending α :=
  { entry with visits := entry.visits + 1 }

theorem visit_node (entry : Pending α) : entry.visit.node = entry.node := rfl

/-- The child to be visited next. Operands are visited once each, from left to right, and a body
once for each element of the domain, which then stands in front of the others. -/
inductive Turn (M : Model α) : Pending α → Expr → List α → Prop where
  | operand {e child : Expr} {frames : List α} {visits : Nat} (operands : e.bound? = none)
      (found : e.children[visits]? = some child) : Turn M ⟨e, frames, visits⟩ child frames
  | body {quantifier : Quantifier} {token bound : Token} {body : Expr} {x : α} {frames : List α}
      {visits : Nat} (found : M.domain[visits]? = some x) :
      Turn M ⟨.quant quantifier token bound body, frames, visits⟩ body (x :: frames)

end Pending

def quantifierCount (stack : List (Pending α)) : Nat :=
  stack.countP fun entry => entry.node.bound?.isSome

theorem quantifierCount_visit (top : Pending α) (below : List (Pending α)) :
    quantifierCount (top.visit :: below) = quantifierCount (top :: below) := by
  rw [quantifierCount, quantifierCount, List.countP_cons, List.countP_cons, Pending.visit_node]

/-- Nodes one above the other, each but the root a child of the one below it. -/
inductive IsPath (root : Expr) : List Expr → Prop where
  | nil : IsPath root []
  | root : IsPath root [root]
  | child {upper lower : Expr} {below : List Expr} (member : upper ∈ lower.children)
      (path : IsPath root (lower :: below)) : IsPath root (upper :: lower :: below)

theorem IsPath.tail {root top : Expr} {below : List Expr} (h : IsPath root (top :: below)) :
    IsPath root below := by
  cases h with
  | root => exact .nil
  | child member path => exact path

namespace Pending

theorem Turn.mem_children {M : Model α} {entry : Pending α} {child : Expr} {frames : List α}
    (turn : entry.Turn M child frames) : child ∈ entry.node.children := by
  cases turn with
  | operand operands found => exact List.mem_of_getElem? found
  | body found => exact List.mem_cons_self

theorem Turn.unique {M : Model α} {entry : Pending α} {child : Expr} {frames frames' : List α}
    (turn : entry.Turn M child frames) (turn' : entry.Turn M child frames') : frames = frames' := by
  cases turn with
  | operand operands found =>
    cases turn' with
    | operand => rfl
    | body => cases operands
  | body found =>
    cases turn' with
    | operand operands => cases operands
    | body found' => rw [Option.some.inj (found.symm.trans found')]

/-- A child is evaluated under one element for each quantifier on the stack. -/
theorem Turn.length_frames {M : Model α} {entry : Pending α} {below : List (Pending α)}
    {child : Expr} {frames : List α} (turn : entry.Turn M child frames)
    (level : entry.frames.length = quantifierCount below) :
    frames.length = quantifierCount (entry :: below) := by
  rw [quantifierCount, List.countP_cons]
  cases turn with
  | operand operands found =>
    rw [operands]
    exact level
  | body found =>
    rw [List.length_cons]
    exact congrArg (· + 1) level

end Pending

/-! ## Replaying -/

section

variable [BEq α] (M : Model α) (v : Assignment α)

inductive Replays : List (Pending α) → List (Record α) → List (Pending α) → Prop where
  | none {stack : List (Pending α)} : Replays stack [] stack
  | visit {top : Pending α} {below stack : List (Pending α)} {records : List (Record α)}
      {child : Expr} {frames : List α} (turn : top.Turn M child frames)
      (others : Replays (.begin child frames :: top.visit :: below) records stack) :
      Replays (top :: below) (.visit child (quantifierCount (top :: below)) :: records) stack
  | evaluated {top : Pending α} {below stack : List (Pending α)} {records : List (Record α)}
      {value : Value α} (result : (top.node.evaluate M v top.frames).outcome = .ok value)
      (others : Replays below records stack) :
      Replays (top :: below) (.evaluated top.node value :: records) stack

end

section

variable [BEq α] {M : Model α} {v : Assignment α} {start middle stack stack' : List (Pending α)}
  {records records' : List (Record α)}

theorem Replays.trans (h : Replays M v start records middle)
    (h' : Replays M v middle records' stack) :
    Replays M v start (records ++ records') stack := by
  induction h with
  | none => exact h'
  | visit turn _ ih => exact .visit turn (ih h')
  | evaluated result _ ih => exact .evaluated result (ih h')

theorem Replays.unique (h : Replays M v start records stack)
    (h' : Replays M v start records stack') : stack = stack' := by
  induction h with
  | none =>
    cases h'
    rfl
  | visit turn _ ih =>
    cases h' with
    | visit turn' others' =>
      obtain rfl := turn.unique turn'
      exact ih others'
  | evaluated _ _ ih =>
    cases h' with
    | evaluated _ others' => exact ih others'

theorem Replays.isPath {root : Expr} (h : Replays M v start records stack)
    (path : IsPath root (start.map Pending.node)) : IsPath root (stack.map Pending.node) := by
  induction h with
  | none => exact path
  | visit turn _ ih => exact ih (.child turn.mem_children path)
  | evaluated _ _ ih => exact ih path.tail

end

/-! ## Runs -/

theorem Evaluation.records_convert {β γ : Type} (run : Evaluation α β)
    (convert : β → Except EvalError γ) :
    (do lift (convert (← run)) : Evaluation α γ).records = run.records := by
  obtain ⟨records, outcome⟩ := run
  cases outcome with
  | error error => rfl
  | ok value => exact List.append_nil records

section

variable [BEq α] {β γ : Type} {M : Model α} {v : Assignment α} {stack : List (Pending α)}

/-- Replayed on the stack, the records of a run that succeeds lead to one of certain stacks, and
those of a run that fails do not empty it. -/
def Leads (M : Model α) (v : Assignment α) (stack : List (Pending α)) (run : Evaluation α β)
    (after : List (Pending α) → Prop) : Prop :=
  ∃ stack', Replays M v stack run.records stack' ∧
    match run.outcome with
    | .ok _ => after stack'
    | .error _ => stack' ≠ []

theorem Leads.silent {run : Evaluation α β} {top : Pending α} {below : List (Pending α)}
    {after : List (Pending α) → Prop} (silent : run.records = []) (h : after (top :: below)) :
    Leads M v (top :: below) run after := by
  obtain ⟨records, outcome⟩ := run
  obtain rfl : records = [] := silent
  refine ⟨top :: below, .none, ?_⟩
  cases outcome with
  | error error => exact List.cons_ne_nil top below
  | ok value => exact h

theorem Leads.bind {first : Evaluation α β} {next : β → Evaluation α γ}
    {between after : List (Pending α) → Prop} (h : Leads M v stack first between)
    (h' : ∀ value stack', first.outcome = .ok value → between stack' →
      Leads M v stack' (next value) after) :
    Leads M v stack (first >>= next) after := by
  obtain ⟨records, outcome⟩ := first
  obtain ⟨middle, replays, reached⟩ := h
  cases outcome with
  | error error => exact ⟨middle, replays, reached⟩
  | ok value =>
    obtain ⟨last, replays', reached'⟩ := h' value middle rfl reached
    rw [Run.bind_ok]
    exact ⟨last, replays.trans replays', reached'⟩

end

/-! ## Nodes -/

namespace Expr

open Evaluation

variable [BEq α] {M : Model α} {v : Assignment α}

/-- Behind the visit of the root, which puts it on the stack, a run that succeeds takes off the root
and nothing else. -/
def Traced (M : Model α) (v : Assignment α) (e : Expr) : Prop :=
  ∀ (frames : List α) (below : List (Pending α)), frames.length = quantifierCount below →
    ∃ rest : Evaluation α (Value α),
      e.evaluate M v frames = (do Run.record (.visit e frames.length); rest) ∧
        Leads M v (.begin e frames :: below) rest (· = below)

theorem traced_of_noted {e : Expr} {inner : List α → Evaluation α (Value α)}
    (noted_eq : ∀ frames, e.evaluate M v frames = noted e frames.length (inner frames))
    (h : ∀ frames below, frames.length = quantifierCount below →
      Leads M v (.begin e frames :: below) (inner frames)
        (fun stack => ∃ visits, stack = ⟨e, frames, visits⟩ :: below)) :
    e.Traced M v := by
  intro frames below level
  refine ⟨_, noted_eq frames, (h frames below level).bind ?_⟩
  rintro value _ ok ⟨visits, rfl⟩
  have result : (e.evaluate M v frames).outcome = .ok value := by
    rw [noted_eq, outcome_noted, ok]
  exact ⟨below, .evaluated result .none, rfl⟩

section

variable {child : Expr} {entry : Pending α} {frames : List α} {below : List (Pending α)}
  {β γ : Type}

theorem Traced.visit (h : child.Traced M v) (turn : entry.Turn M child frames)
    (level : entry.frames.length = quantifierCount below) :
    Leads M v (entry :: below) (child.evaluate M v frames) (· = entry.visit :: below) := by
  have depth := turn.length_frames level
  obtain ⟨rest, eq, leads⟩ := h frames (entry.visit :: below)
    (by rw [quantifierCount_visit]; exact depth)
  have noted : Leads M v (entry :: below)
      (Run.record (.visit child (quantifierCount (entry :: below))))
      (· = .begin child frames :: entry.visit :: below) := ⟨_, .visit turn .none, rfl⟩
  rw [eq, depth]
  refine noted.bind fun _ _ _ same => ?_
  rw [same]
  exact leads

theorem Traced.visitAs (h : child.Traced M v) (turn : entry.Turn M child frames)
    (level : entry.frames.length = quantifierCount below) (convert : Value α → Except EvalError β) :
    Leads M v (entry :: below)
      (do lift (convert (← child.evaluate M v frames))) (· = entry.visit :: below) := by
  refine (h.visit turn level).bind fun value _ _ same => ?_
  rw [same]
  exact Leads.silent rfl (by rfl)

end

section

variable {e : Expr} {frames : List α} {below : List (Pending α)}

/-- The arguments that are left, after as many visits as there are arguments before them. -/
theorem leads_evaluateAll {rest : List Expr} (operands : e.bound? = none)
    (traced : ∀ child ∈ rest, child.Traced M v) (level : frames.length = quantifierCount below)
    {visits : Nat} (left : e.children.drop visits = rest) :
    Leads M v (⟨e, frames, visits⟩ :: below) (evaluateAll M v frames rest)
      (fun stack => ∃ visits, stack = ⟨e, frames, visits⟩ :: below) := by
  induction rest generalizing visits with
  | nil =>
    rw [evaluateAll]
    exact Leads.silent rfl ⟨visits, rfl⟩
  | cons child rest ih =>
    rw [List.forall_mem_cons] at traced
    obtain ⟨found, left'⟩ := next_of_drop left
    rw [evaluateAll, ← bind_assoc]
    refine (traced.1.visitAs (.operand operands found) level _).bind ?_
    rintro x _ - rfl
    refine (ih traced.2 left').bind ?_
    rintro xs _ - ⟨visits', rfl⟩
    exact Leads.silent rfl ⟨visits', rfl⟩

/-- The elements that are left, after as many visits as there are elements before them. -/
theorem leads_sweep {quantifier : Quantifier} {token bound : Token} {body : Expr}
    (traced : body.Traced M v) (level : frames.length = quantifierCount below) {rest : List α}
    {visits : Nat} (left : M.domain.drop visits = rest) :
    Leads M v (⟨.quant quantifier token bound body, frames, visits⟩ :: below)
      (quantifier.sweep (fun x => do lift ((← body.evaluate M v (x :: frames)).asTruth body)) rest)
      (fun stack => ∃ visits,
        stack = ⟨.quant quantifier token bound body, frames, visits⟩ :: below) := by
  induction rest generalizing visits with
  | nil => exact Leads.silent rfl ⟨visits, rfl⟩
  | cons x rest ih =>
    obtain ⟨found, left'⟩ := next_of_drop left
    rw [Quantifier.sweep]
    refine (traced.visitAs (.body found) level _).bind ?_
    rintro holds _ - rfl
    split
    · exact ih left'
    · exact Leads.silent rfl ⟨visits + 1, rfl⟩

end

theorem traced (M : Model α) (v : Assignment α) (e : Expr) : e.Traced M v := by
  induction e with
  | var token reference =>
    refine traced_of_noted (fun frames => by rw [evaluate]) fun frames below level => ?_
    exact Leads.silent rfl ⟨0, rfl⟩
  | app kind head arguments ih =>
    refine traced_of_noted (fun frames => by rw [evaluate]) fun frames below level => ?_
    refine (leads_evaluateAll rfl ih level (List.drop_zero)).bind ?_
    rintro elements _ - ⟨visits, rfl⟩
    exact Leads.silent rfl ⟨visits, rfl⟩
  | connect op token left right ihLeft ihRight =>
    refine traced_of_noted (fun frames => by rw [evaluate]) fun frames below level => ?_
    rw [← bind_assoc]
    refine (ihLeft.visitAs (.operand rfl rfl) level _).bind ?_
    rintro leftTruth _ - rfl
    rw [← bind_assoc]
    refine (ihRight.visitAs (.operand rfl rfl) level _).bind ?_
    rintro rightTruth _ - rfl
    exact Leads.silent rfl ⟨2, rfl⟩
  | compare op token left right ihLeft ihRight =>
    refine traced_of_noted (fun frames => by rw [evaluate]) fun frames below level => ?_
    refine (ihLeft.visit (.operand rfl rfl) level).bind ?_
    rintro leftValue _ - rfl
    refine (ihRight.visit (.operand rfl rfl) level).bind ?_
    rintro rightValue _ - rfl
    exact Leads.silent rfl ⟨2, rfl⟩
  | neg token operand ih =>
    refine traced_of_noted (fun frames => by rw [evaluate]) fun frames below level => ?_
    rw [← bind_assoc]
    refine (ih.visitAs (.operand rfl rfl) level _).bind ?_
    rintro truth _ - rfl
    exact Leads.silent rfl ⟨1, rfl⟩
  | quant quantifier token bound body ih =>
    refine traced_of_noted (fun frames => by rw [evaluate]) fun frames below level => ?_
    refine (leads_sweep ih level List.drop_zero).bind ?_
    rintro truth _ - ⟨visits, rfl⟩
    exact Leads.silent rfl ⟨visits, rfl⟩

/-! ## Closed contexts -/

/-- What is left on the stack when the first record, the visit of the root, has put it there and the
others are replayed. -/
def StackAfter (M : Model α) (v : Assignment α) (e : Expr) (records : List (Record α))
    (stack : List (Pending α)) : Prop :=
  ∃ others, records = .visit e 0 :: others ∧ Replays M v [.begin e []] others stack

/-- The records of a run for a tree. When it succeeds, nothing is left, and the value of the root
comes last; when it fails, a path is left, which is empty for certain errors only. -/
def Recorded {β : Type} (M : Model α) (v : Assignment α) (e : Expr) (run : Evaluation α β)
    (embed : β → Value α) (mismatch : EvalError → Prop) : Prop :=
  ∃ stack, StackAfter M v e run.records stack ∧ IsPath e (stack.map Pending.node) ∧
    (∀ stack', StackAfter M v e run.records stack' → stack' = stack) ∧
    match run.outcome with
    | .ok value => stack = [] ∧ run.records.getLast? = some (.evaluated e (embed value))
    | .error error => stack = [] → mismatch error

theorem StackAfter.unique {e : Expr} {records : List (Record α)} {stack stack' : List (Pending α)}
    (h : StackAfter M v e records stack) (h' : StackAfter M v e records stack') :
    stack = stack' := by
  obtain ⟨others, rfl, replays⟩ := h
  obtain ⟨others', same, replays'⟩ := h'
  obtain rfl := List.tail_eq_of_cons_eq same
  exact replays.unique replays'

theorem StackAfter.isPath {e : Expr} {records : List (Record α)} {stack : List (Pending α)}
    (h : StackAfter M v e records stack) : IsPath e (stack.map Pending.node) := by
  obtain ⟨others, -, replays⟩ := h
  exact replays.isPath .root

theorem stackAfter_value (M : Model α) (v : Assignment α) (e : Expr) :
    ∃ stack, StackAfter M v e (e.value M v).records stack ∧
      match (e.value M v).outcome with
      | .ok _ => stack = []
      | .error _ => stack ≠ [] := by
  obtain ⟨⟨records, outcome⟩, eq, stack, replays, reached⟩ := e.traced M v [] [] rfl
  rw [value, eq]
  refine ⟨stack, ⟨records, rfl, replays⟩, ?_⟩
  cases outcome with
  | error error => exact reached
  | ok value => exact reached

theorem getLast?_records_value {M : Model α} {v : Assignment α} {e : Expr} {value : Value α}
    (h : (e.value M v).outcome = .ok value) :
    (e.value M v).records.getLast? = some (.evaluated e value) := by
  obtain ⟨⟨records, outcome⟩, eq⟩ : ∃ inner, e.value M v = noted e 0 inner := by
    cases e <;> exact ⟨_, by rw [Expr.value, evaluate]; rfl⟩
  rw [eq, outcome_noted] at h
  obtain rfl : outcome = .ok value := h
  have whole : (e.value M v).records = .visit e 0 :: records ++ [.evaluated e value] := by
    rw [eq]
    rfl
  rw [whole, List.getLast?_concat]

/-- A run that converts the value of the tree, and fails on its own for the wrong kind of value. -/
theorem recorded_of_convert {β : Type} {M : Model α} {v : Assignment α} {e : Expr}
    {convert : Value α → Except EvalError β} {embed : β → Value α} {mismatch : EvalError → Prop}
    (fits : ∀ value result, convert value = .ok result → value = embed result)
    (fails : ∀ value error, (e.value M v).outcome = .ok value → convert value = .error error →
      mismatch error) :
    Recorded M v e (do lift (convert (← e.value M v))) embed mismatch := by
  obtain ⟨stack, after, reached⟩ := stackAfter_value M v e
  rw [Recorded, records_convert, Run.outcome_bind]
  refine ⟨stack, after, after.isPath, fun _ after' => after'.unique after, ?_⟩
  cases outcome : (e.value M v).outcome with
  | error error =>
    rw [outcome] at reached
    exact fun empty => absurd empty reached
  | ok value =>
    rw [outcome] at reached
    show match convert value with
      | .ok result =>
        stack = [] ∧ (e.value M v).records.getLast? = some (.evaluated e (embed result))
      | .error error => stack = [] → mismatch error
    cases converted : convert value with
    | error error => exact fun _ => fails value error outcome converted
    | ok result =>
      have last := getLast?_records_value outcome
      rw [fits value result converted] at last
      exact ⟨reached, last⟩

theorem recorded_value (M : Model α) (v : Assignment α) (e : Expr) :
    Recorded M v e (e.value M v) id (fun _ => False) := by
  have same : (do lift (.ok (← e.value M v))) = e.value M v := bind_pure _
  rw [← same]
  exact recorded_of_convert (fun _ _ eq => Except.ok.inj eq) nofun

/-- The records of a run are those of a walk through the tree: a node is visited from the one above
it, in the order of evaluation and with the number of quantifiers around it as its depth, and it is
left with its value. A run that succeeds ends with the value of the root. One that fails breaks off
on a path from the root, or, when only the value of the root is of the wrong kind, at the end. -/
theorem records_replayed (M : Model α) (v : Assignment α) (e : Expr) :
    Recorded M v e (e.value M v) id (fun _ => False) ∧
    Recorded M v e (e.truth M v) .truth
      (fun error => error = .truthExpected e.print ∧
        ∃ x, (e.value M v).outcome = .ok (.element x)) ∧
    Recorded M v e (e.element M v) .element
      (fun error => error = .elementExpected e.print ∧
        ∃ b, (e.value M v).outcome = .ok (.truth b)) := by
  refine ⟨recorded_value M v e, recorded_of_convert ?_ ?_, recorded_of_convert ?_ ?_⟩
  · rintro (x | b) result ⟨⟩
    rfl
  · rintro (x | b) error outcome ⟨⟩
    exact ⟨rfl, x, outcome⟩
  · rintro (x | b) result ⟨⟩
    rfl
  · rintro (x | b) error outcome ⟨⟩
    exact ⟨rfl, b, outcome⟩

end Expr

end PredicateCalculus
