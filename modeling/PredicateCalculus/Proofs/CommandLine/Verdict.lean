import PredicateCalculus.Proofs.CommandLine
import PredicateCalculus.Proofs.CommandLine.Assignment
import PredicateCalculus.Proofs.Evaluation.TruthTable

/-! # Outcomes of the command line

A rejected formula gives no output. An accepted one is printed, and when truth values are assigned
and it is propositional, the last line is its truth value, provided that no variable was left out.

* `Text.lastLine`, `Text.Ended`: the last line of a text, and texts that end with a line.
* `Request.report_ended`: the lines about the formula itself are whole lines.
* `Request.bare`: a request without its assignments.
* `Request.verdict_of_given`, `Request.verdict_of_missing`: what comes behind these lines.
* `CommandLine.run_verdict`: the outcome of a list of arguments.
-/

set_option autoImplicit false

namespace PredicateCalculus

/-! ## Last lines -/

namespace Text

/-- The last character is taken for the end of the line. -/
def lastLine (text : String) : String :=
  String.ofList ((text.toList.reverse.drop 1).takeWhile (· != '\n')).reverse

def Ended (text : String) : Prop :=
  text.toList.getLast? = some '\n'

theorem Ended.append {text : String} (h : Ended text) (before : String) :
    Ended (before ++ text) := by
  rw [Ended, String.toList_append, List.getLast?_append, h]
  rfl

theorem ended_line (line : String) : Ended (line ++ "\n") := by
  simp [Ended]

theorem ended_join {lines : List String} (each : ∀ line ∈ lines, Ended line) {before : String}
    (h : Ended before) : Ended (before ++ String.join lines) := by
  induction lines generalizing before with
  | nil => simpa using h
  | cons line lines ih =>
    obtain ⟨first, others⟩ := List.forall_mem_cons.mp each
    rw [String.join_cons, ← String.append_assoc]
    exact ih others (first.append before)

theorem lastLine_append {before line : String} (ended : Ended before) (oneLine : OneLine line) :
    lastLine (before ++ (line ++ "\n")) = line := by
  have front : before.toList.reverse.head? = some '\n' := by
    rw [List.head?_reverse]
    exact ended
  obtain ⟨rest, broken⟩ := List.head?_eq_some_iff.mp front
  have within : ∀ c ∈ line.toList.reverse, (c != '\n') = true := by
    intro c member
    exact oneLine.ne c (List.mem_reverse.mp member)
  have reversed : (before ++ (line ++ "\n")).toList.reverse.drop 1 =
      line.toList.reverse ++ '\n' :: rest := by
    simp [broken]
  rw [lastLine, reversed, List.takeWhile_append_of_pos within]
  simp

theorem oneLine_toString (truth : Bool) : OneLine (toString truth) := by
  cases truth <;> decide

end Text

open Text

namespace Expr

theorem ended_outlineLines (e : Expr) (depth : Nat) : ∀ line ∈ e.outlineLines depth, Ended line := by
  induction e using childInduction generalizing depth with
  | step e ih =>
    intro line member
    rw [outlineLines_eq, List.mem_cons, List.mem_flatMap] at member
    rcases member with rfl | ⟨child, isChild, member⟩
    · rw [outlineLine]
      exact ended_line _
    · exact ih child isChild (depth + 1) line member

end Expr

namespace Request

theorem report_ended (request : Request) (formula : Formula) (σ : Signature) :
    Ended (request.report formula σ) := by
  have outlined : Ended (formula.expr.print ++ "\n"
      ++ (if request.tree then formula.expr.outline else "")) := by
    by_cases tree : request.tree = true
    · rw [if_pos tree]
      exact ended_join (formula.expr.ended_outlineLines 0) (ended_line _)
    · rw [if_neg tree, String.append_empty]
      exact ended_line _
  rw [report]
  by_cases empty : σ.isEmpty = true
  · rw [if_pos empty, String.append_empty]
    exact outlined
  · rw [if_neg empty]
    exact (ended_line _).append _

/-! ## Verdicts -/

theorem answer_of_reject {request : Request} {σ : Signature} {rejection : Rejection}
    (language : request.startingSignature? = some σ)
    (rejected : (Formula.accept request.options σ request.formula).result = .error rejection) :
    request.answer.code = 1 ∧ request.answer.output = "" := by
  simp only [answer, language, rejected]
  exact ⟨trivial, trivial⟩

section

variable {request : Request} {formula : Formula}

theorem verdict_of_unassigned (h : request.assignments = []) :
    request.verdict formula = (0, "") := by
  rw [verdict, h]
  rfl

variable (assigned : request.assignments ≠ []) (propositional : formula.expr.Propositional)

include assigned propositional

theorem verdict_of_given (resolved : formula.expr.Resolved []) {ρ : String → Bool}
    (given : ∀ name ∈ formula.expr.freeVariables,
      request.assignment.find? name = some (.truth (ρ name))) :
    request.verdict formula = (0, toString (decide (formula.expr.Satisfied ρ)) ++ "\n") := by
  have outcome := propositional.outcome_of_given (Model.ofDomain [false, true]) resolved
    fun name free => given name (List.mem_eraseDups.mpr free)
  have evaluated : formula.evaluate (Model.ofDomain [false, true]) request.assignment =
      .ok (decide (formula.expr.Satisfied ρ)) := by
    rw [Formula.evaluate_eq, outcome]
    rfl
  rw [verdict, List.isEmpty_eq_false_iff.mpr assigned, evaluated]
  rfl

theorem verdict_of_missing {name : String} (free : name ∈ formula.expr.freeVariables)
    (missing : request.assignment.find? name = none) : request.verdict formula = (1, "") := by
  obtain ⟨error, outcome⟩ := propositional.outcome_of_missing (Model.ofDomain [false, true])
    (List.mem_eraseDups.mp free) missing
  have evaluated : formula.evaluate (Model.ofDomain [false, true]) request.assignment =
      .error error := by
    rw [Formula.evaluate_eq, outcome]
    rfl
  rw [verdict, List.isEmpty_eq_false_iff.mpr assigned, evaluated]
  rfl

end

section

variable {arguments : List String} {request : Request} (read : ofArguments arguments = some request)

include read

theorem assignments_eq_nil_iff :
    request.assignments = [] ↔ settings .assign arguments = [] := by
  have same := mapM_settings read
  cases texts : settings .assign arguments with
  | nil =>
    rw [texts] at same
    exact iff_of_true (Option.some.inj same).symm rfl
  | cons text rest =>
    rw [texts, List.mapM_cons] at same
    obtain ⟨first, -, others⟩ := Option.bind_eq_some_iff.mp same
    obtain ⟨later, -, whole⟩ := Option.bind_eq_some_iff.mp others
    rw [← Option.some.inj whole]
    exact iff_of_false (List.cons_ne_nil _ _) (List.cons_ne_nil _ _)

theorem find?_eq_some_iff_gives {name : String} {truth : Bool} :
    request.assignment.find? name = some (.truth truth) ↔
      Gives (settings .assign arguments) name truth := by
  rw [assignment, find?_assignment (mapM_settings read)]
  simp

theorem find?_eq_none_of_not_gives {name : String}
    (silent : ¬∃ truth, Gives (settings .assign arguments) name truth) :
    request.assignment.find? name = none := by
  rw [Option.eq_none_iff_forall_ne_some]
  intro value found
  obtain ⟨truth, given, -⟩ := (find?_assignment (mapM_settings read) name value).mp found
  exact silent ⟨truth, given⟩

/-- With a propositional formula, either all variables are assigned and it has a truth value, or one
of them is not and it has none. -/
theorem verdict_of_accept {σ : Signature} {formula : Formula}
    (accepted : (Formula.accept request.options σ request.formula).result = .ok formula)
    (asked : request.propositional = true) (assigned : request.assignments ≠ []) :
    (∀ ρ : String → Bool,
      (∀ name ∈ formula.expr.freeVariables, Gives (settings .assign arguments) name (ρ name)) →
        request.verdict formula = (0, toString (decide (formula.expr.Satisfied ρ)) ++ "\n")) ∧
    ((¬∀ name ∈ formula.expr.freeVariables, ∃ truth,
      Gives (settings .assign arguments) name truth) → request.verdict formula = (1, "")) := by
  obtain ⟨parsed, noError, -⟩ := Formula.accepted accepted
  have propositional : formula.expr.Propositional := by
    apply Expr.formulaError_eq_none_iff_propositional.mp
    simpa [options, asked] using noError
  refine ⟨fun ρ given => ?_, fun incomplete => ?_⟩
  · apply verdict_of_given assigned propositional (Expr.resolved_of_parse parsed)
    intro name free
    exact (find?_eq_some_iff_gives read).mpr (given name free)
  · push Not at incomplete
    obtain ⟨name, free, silent⟩ := incomplete
    apply verdict_of_missing assigned propositional free
    exact find?_eq_none_of_not_gives read (not_exists.mpr silent)

end

/-! ## Requests without assignments -/

def bare (request : Request) : Request :=
  { request with assignments := [] }

theorem ofArguments_bare (request : Request) :
    ofArguments (request.bare.line []) = some request.bare :=
  ofArguments_line rfl

theorem output_bare {request : Request} {σ : Signature} {formula : Formula}
    (language : request.startingSignature? = some σ)
    (accepted : (Formula.accept request.options σ request.formula).result = .ok formula) :
    request.bare.answer.output =
      request.report formula (Formula.accept request.options σ request.formula).signature := by
  have language' : request.bare.startingSignature? = some σ := language
  have nothing : request.bare.verdict formula = (0, "") := verdict_of_unassigned rfl
  obtain ⟨-, output⟩ := answer_of_accept language' accepted
  rw [nothing, String.append_empty] at output
  exact output

end Request

namespace CommandLine

/-- The outcome of a request whose language, if there is one, can be read. A rejected formula gives
exit code `1` and no output, and an accepted one without assignments exit code `0`. With assignments
and a propositional formula, the exit code is `0` just in case every variable of the formula is
assigned, and then the last line is its truth value; else the exit code is `1` and the output is
that of the same request without assignments. -/
theorem run_verdict {arguments : List String} {request : Request} {σ : Signature}
    (read : Request.ofArguments arguments = some request)
    (language : request.startingSignature? = some σ) :
    let acceptance := Formula.accept request.options σ request.formula
    let texts := Request.settings .assign arguments
    let outcome := run arguments
    (∀ rejection, acceptance.result = .error rejection →
      outcome.code = 1 ∧ outcome.output = "") ∧
    ∀ formula, acceptance.result = .ok formula →
      (texts = [] → outcome.code = 0) ∧
      (request.propositional = true → texts ≠ [] →
        (outcome.code = 0 ↔
          ∀ name ∈ formula.expr.freeVariables, ∃ truth, Request.Gives texts name truth) ∧
        (∀ ρ : String → Bool,
          (∀ name ∈ formula.expr.freeVariables, Request.Gives texts name (ρ name)) →
            lastLine outcome.output = toString (decide (formula.expr.Satisfied ρ))) ∧
        (outcome.code ≠ 0 → outcome.code = 1 ∧
          Request.ofArguments (request.bare.line []) = some request.bare ∧
          ∀ arguments', Request.ofArguments arguments' = some request.bare →
            outcome.output = (run arguments').output)) := by
  intro acceptance texts outcome
  have answered : outcome = request.answer := by
    show run arguments = _
    rw [run, read]
  refine ⟨fun rejection rejected => ?_, fun formula accepted => ?_⟩
  · rw [answered]
    exact Request.answer_of_reject language rejected
  · obtain ⟨code, output⟩ := Request.answer_of_accept language accepted
    rw [← answered] at code output
    have same : request.assignments = [] ↔ texts = [] := Request.assignments_eq_nil_iff read
    refine ⟨fun unassigned => ?_, fun asked assigned => ?_⟩
    · rw [code, Request.verdict_of_unassigned (same.mpr unassigned)]
    · obtain ⟨verdict, failure⟩ :=
        Request.verdict_of_accept read accepted asked (mt same.mp assigned)
      by_cases complete : ∀ name ∈ formula.expr.freeVariables, ∃ truth,
          Request.Gives texts name truth
      · obtain ⟨ρ, given⟩ : ∃ ρ : String → Bool, ∀ name ∈ formula.expr.freeVariables,
            Request.Gives texts name (ρ name) := by
          choose! ρ given using complete
          exact ⟨ρ, given⟩
        rw [verdict ρ given] at code
        refine ⟨iff_of_true code complete, fun ρ' given' => ?_, fun failed => absurd code failed⟩
        rw [output, verdict ρ' given']
        exact lastLine_append (request.report_ended _ _) (oneLine_toString _)
      · rw [failure complete] at code output
        have failed : outcome.code ≠ 0 := by simp [code]
        refine ⟨iff_of_false failed complete, fun ρ given => ?_, fun _ => ⟨code, ?_, ?_⟩⟩
        · exact absurd (fun name free => ⟨ρ name, given name free⟩) complete
        · exact request.ofArguments_bare
        · intro arguments' read'
          rw [run, read', Request.output_bare language accepted, output, String.append_empty]

/-- Only the last value of `p` counts. Without one of `q` there is no truth value. -/
theorem run_verdict_of_implication :
    let complete := run ["-p", "-a", " p = 1 ", "-a", "q=0", "-ap=false", "-t", "p -> q"]
    let incomplete := run ["-p", "-a", "p=0", "p -> q"]
    complete.code = 0 ∧ lastLine complete.output = "true" ∧
      incomplete.code = 1 ∧ incomplete.output = (run ["-p", "p -> q"]).output := by
  intro complete incomplete
  let request : Request :=
    ⟨"p -> q", true, false, true, false, none, [("p", true), ("q", false), ("p", false)]⟩
  let request' : Request := ⟨"p -> q", true, false, false, false, none, [("p", false)]⟩
  have read : Request.ofArguments
      ["-p", "-a", " p = 1 ", "-a", "q=0", "-ap=false", "-t", "p -> q"] = some request := by
    decide +kernel
  have read' : Request.ofArguments ["-p", "-a", "p=0", "p -> q"] = some request' := by
    decide +kernel
  obtain ⟨formula, accepted, free⟩ := Parser.exists_ok_of_any
    (Formula.accept ⟨false, .learn⟩ .empty "p -> q").result
    (fun formula => formula.expr.freeVariables == ["p", "q"] &&
      decide (formula.expr.Satisfied fun _ => false)) (by decide +kernel)
  rw [Bool.and_eq_true, beq_iff_eq] at free
  obtain ⟨free, satisfied⟩ := free
  have given : ∀ name ∈ formula.expr.freeVariables, Request.Gives (Request.settings .assign
      ["-p", "-a", " p = 1 ", "-a", "q=0", "-ap=false", "-t", "p -> q"]) name false := by
    rw [free]
    intro name member
    apply (Request.find?_eq_some_iff_gives read).mp
    rcases List.mem_pair.mp member with rfl | rfl <;> rfl
  obtain ⟨success, line, -⟩ := (run_verdict read rfl).2 formula accepted |>.2 rfl (by decide +kernel)
  obtain ⟨-, -, failure⟩ :=
    (run_verdict read' rfl).2 formula accepted |>.2 rfl (by decide +kernel)
  have fails : incomplete.code ≠ 0 := by decide +kernel
  refine ⟨success.mpr fun name member => ⟨false, given name member⟩, ?_, (failure fails).1, ?_⟩
  · rw [line (fun _ => false) given, satisfied]
    rfl
  · exact (failure fails).2.2 ["-p", "p -> q"] (by decide +kernel)

end CommandLine

end PredicateCalculus
