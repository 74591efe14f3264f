import PredicateCalculus.CommandLine
import PredicateCalculus.Proofs.Arguments
import PredicateCalculus.Proofs.Evaluation.Alike
import PredicateCalculus.Proofs.RoundTrip.Accepted

/-! # Output that is handed over again

The first line of the output is a formula, and a second line that begins with a brace is a
signature. When both are handed over again, with nothing left to learn, the answer is the same.

* `Text.OneLine`: texts without line breaks, as written formulas and signatures are.
* `Outcome.formulaLine`, `Outcome.languageLine?`: what can be handed over again.
* `Request.verdict`: what comes behind these lines.
* `Request.again`: the request that hands over what was printed.
* `CommandLine.run_again`: its outcome.
-/

set_option autoImplicit false

namespace PredicateCalculus

/-! ## Lines -/

namespace Text

def OneLine (text : String) : Prop :=
  '\n' ∉ text.toList

instance (text : String) : Decidable (OneLine text) :=
  inferInstanceAs (Decidable (_ ∉ _))

def firstLine (text : String) : String :=
  String.ofList (text.toList.takeWhile (· != '\n'))

def laterLines (text : String) : String :=
  String.ofList ((text.toList.dropWhile (· != '\n')).drop 1)

theorem oneLine_append {text text' : String} :
    OneLine (text ++ text') ↔ OneLine text ∧ OneLine text' := by
  simp [OneLine]

theorem OneLine.ne {text : String} (h : OneLine text) :
    ∀ c ∈ text.toList, (c != '\n') = true := by
  intro c member
  exact bne_iff_ne.mpr (ne_of_mem_of_not_mem member h)

theorem firstLine_append {line : String} (h : OneLine line) (rest : String) :
    firstLine (line ++ "\n" ++ rest) = line := by
  rw [firstLine, String.append_assoc, String.toList_append, List.takeWhile_append_of_pos h.ne]
  simp

theorem laterLines_append {line : String} (h : OneLine line) (rest : String) :
    laterLines (line ++ "\n" ++ rest) = rest := by
  rw [laterLines, String.append_assoc, String.toList_append, List.dropWhile_append_of_pos h.ne]
  simp

end Text

open Text

/-! ### Formulas -/

theorem Mark.oneLine {symbol : Symbol} (sign : Mark symbol) : OneLine sign.token.text := by
  have listed : ∀ symbol : Symbol, OneLine symbol.name := by
    intro symbol
    cases symbol <;> decide
  rw [Token.text, sign.isSymbol]
  exact listed symbol

theorem Name.oneLine (name : Name) : OneLine name.token.text := by
  intro member
  have letter := name.isName.letters _ member
  cases letter

namespace Expr

theorem oneLine_bracketed {brackets : Bool} {text : String} (h : OneLine text) :
    OneLine (bracketed brackets text) := by
  have opening : OneLine "(" := by decide
  have closing : OneLine ")" := by decide
  cases brackets with
  | false => exact h
  | true => exact oneLine_append.mpr ⟨oneLine_append.mpr ⟨opening, h⟩, closing⟩

theorem oneLine_printAll {arguments : List Expr} (h : ∀ e ∈ arguments, OneLine e.print) :
    OneLine (printAll arguments) := by
  have empty : OneLine "" := by decide
  have comma : OneLine ", " := by decide
  induction arguments with
  | nil => exact empty
  | cons e rest ih =>
    obtain ⟨first, others⟩ := List.forall_mem_cons.mp h
    cases rest with
    | nil => exact oneLine_bracketed first
    | cons e' rest =>
      rw [printAll, oneLine_append, oneLine_append]
      · exact ⟨⟨oneLine_bracketed first, comma⟩, ih others⟩
      · simp

theorem Usual.oneLine_print {e : Expr} (h : e.Usual) : OneLine e.print := by
  have blank : OneLine " " := by decide
  induction h with
  | var name reference => exact name.oneLine
  | app kind head suits arguments each ih =>
    have opening : OneLine "(" := by decide
    have closing : OneLine ")" := by decide
    simp only [print, oneLine_append]
    exact ⟨⟨⟨head.oneLine, opening⟩, oneLine_printAll ih⟩, closing⟩
  | connect op sign left right _ _ first second =>
    simp only [print, oneLine_append]
    exact ⟨⟨⟨⟨oneLine_bracketed first, blank⟩, sign.oneLine⟩, blank⟩, oneLine_bracketed second⟩
  | compare op sign left right _ _ first second =>
    simp only [print, oneLine_append]
    exact ⟨⟨⟨⟨oneLine_bracketed first, blank⟩, sign.oneLine⟩, blank⟩, oneLine_bracketed second⟩
  | neg sign operand _ ih =>
    have negation : OneLine "~" := by decide
    simp only [print, oneLine_append]
    exact ⟨negation, oneLine_bracketed ih⟩
  | quant quantifier sign bound body _ ih =>
    have dot : OneLine ". " := by decide
    simp only [print, oneLine_append]
    exact ⟨⟨⟨⟨sign.oneLine, blank⟩, bound.oneLine⟩, dot⟩, ih⟩

end Expr

/-! ### Signatures -/

theorem Json.oneLine_quote (text : String) : OneLine (quote text) := by
  have digits : ∀ n, n < 16 → '\n' ≠ hexDigit n := by decide
  have escaped : ∀ c, '\n' ∉ escape c := by
    intro c
    rcases escape_cases c with ⟨d, named, eq⟩ | ⟨control, eq⟩ | ⟨visible, -, -, eq⟩
    · rw [eq]
      have notBreak : '\n' ≠ d := by
        rintro rfl
        cases named
      simp [notBreak]
    · have high := digits (c.toNat / 16) (by omega)
      have low := digits (c.toNat % 16) (by omega)
      rw [eq]
      simp [high, low]
    · rw [eq, List.mem_singleton]
      rintro rfl
      exact absurd visible (by decide)
  simp [OneLine, quote, escaped]

namespace Signature

theorem oneLine_entriesJson (entries : List (String × Nat)) : OneLine (entriesJson entries) := by
  have empty : OneLine "" := by decide
  have comma : OneLine "," := by decide
  have entry : ∀ entry : String × Nat, OneLine (entryJson entry) := by
    intro entry
    have colon : OneLine ":" := by decide
    have number : OneLine entry.2.repr := by
      intro member
      rw [Nat.repr_eq_ofList_toDigits, String.toList_ofList] at member
      cases Json.isDigit_of_mem_toDigits _ member
    rw [entryJson, oneLine_append, oneLine_append]
    exact ⟨⟨Json.oneLine_quote _, colon⟩, number⟩
  induction entries with
  | nil => exact empty
  | cons first rest ih =>
    cases rest with
    | nil => exact entry first
    | cons second rest =>
      rw [entriesJson, oneLine_append, oneLine_append]
      · exact ⟨⟨entry first, comma⟩, ih⟩
      · simp

theorem oneLine_toJson (σ : Signature) : OneLine σ.toJson := by
  have table : ∀ table : NameTable Nat, OneLine (tableJson table) := by
    intro table
    have opening : OneLine "\x7b" := by decide
    have closing : OneLine "\x7d" := by decide
    rw [tableJson, oneLine_append, oneLine_append]
    exact ⟨⟨opening, oneLine_entriesJson _⟩, closing⟩
  have functions : OneLine "\x7b\"functions\":" := by decide
  have predicates : OneLine ",\"predicates\":" := by decide
  have closing : OneLine "\x7d" := by decide
  simp only [toJson_eq, oneLine_append]
  exact ⟨⟨⟨⟨functions, table _⟩, predicates⟩, table _⟩, closing⟩

theorem eq_empty_of_isEmpty {σ : Signature} (h : σ.isEmpty = true) : σ = .empty := by
  obtain ⟨⟨functions, _⟩, ⟨predicates, _⟩⟩ := σ
  obtain ⟨noFunctions, noPredicates⟩ := (Bool.and_eq_true_iff).mp h
  obtain rfl : functions = [] := List.isEmpty_iff.mp noFunctions
  obtain rfl : predicates = [] := List.isEmpty_iff.mp noPredicates
  rfl

end Signature

/-! ## What can be handed over again -/

namespace Outcome

def formulaLine (outcome : Outcome) : String :=
  firstLine outcome.output

/-- The second line, if it is an object. -/
def languageLine? (outcome : Outcome) : Option String :=
  let line := firstLine (laterLines outcome.output)
  if line.toList.head? = some '\x7b' then some line else none

end Outcome

namespace Request

/-- The exit code and the line with the truth value, where one was asked for. -/
def verdict (request : Request) (formula : Formula) : Nat × String :=
  if request.assignments.isEmpty then (0, "")
  else
    match (formula.evaluate (Model.ofDomain [false, true]) request.assignment).toOption with
    | none => (1, "")
    | some truth => (0, toString truth ++ "\n")

theorem answer_of_accept {request : Request} {σ : Signature} {formula : Formula}
    (language : request.startingSignature? = some σ)
    (accepted : (Formula.accept request.options σ request.formula).result = .ok formula) :
    let τ := (Formula.accept request.options σ request.formula).signature
    request.answer.code = (request.verdict formula).1 ∧
      request.answer.output = request.report formula τ ++ (request.verdict formula).2 := by
  simp only [answer, language, accepted, verdict]
  split
  · exact ⟨rfl, by simp⟩
  · cases formula.evaluate (Model.ofDomain [false, true]) request.assignment with
    | error error => exact ⟨rfl, by simp [Except.toOption]⟩
    | ok truth => exact ⟨rfl, by simp [Except.toOption, String.append_assoc]⟩

theorem verdict_eq {formula formula' : Formula} (equal : (formula'.expr == formula.expr) = true)
    (request : Request) : request.verdict formula' = request.verdict formula := by
  have agree : Agree (formula'.evaluate (Model.ofDomain [false, true]) request.assignment)
      (formula.evaluate (Model.ofDomain [false, true]) request.assignment) :=
    (Expr.beq_iff_alike.mp equal).agree_truth
  rw [verdict, verdict, agree.toOption_eq]

/-- The line with the truth value is not taken for a signature. -/
theorem verdict_ne_brace (request : Request) (formula : Formula) :
    (firstLine (request.verdict formula).2).toList.head? ≠ some '\x7b' := by
  have nothing : (firstLine "").toList.head? ≠ some '\x7b' := by decide
  have truths : ∀ truth : Bool, (firstLine (toString truth ++ "\n")).toList.head? ≠
      some '\x7b' := by decide
  rw [verdict]
  split
  · exact nothing
  · split
    · exact nothing
    · exact truths _

section

variable {formula : Formula} {σ : Signature} {outcome : Outcome}

/-- The lines of a report without an outline. -/
theorem report_eq {request : Request} (noTree : request.tree = false) (formula : Formula)
    (σ : Signature) :
    request.report formula σ =
      formula.expr.print ++ "\n" ++ (if σ.isEmpty then "" else σ.toJson ++ "\n") := by
  rw [report, noTree]
  simp

theorem lines_of_output {request : Request} (noTree : request.tree = false)
    (oneLine : OneLine formula.expr.print)
    (output : outcome.output = request.report formula σ ++ (request.verdict formula).2) :
    outcome.formulaLine = formula.expr.print ∧
      outcome.languageLine? = if σ.isEmpty then none else some σ.toJson := by
  have noBrace := request.verdict_ne_brace formula
  rw [report_eq noTree, String.append_assoc] at output
  refine ⟨by rw [Outcome.formulaLine, output, firstLine_append oneLine], ?_⟩
  rw [Outcome.languageLine?, output, laterLines_append oneLine]
  split
  · rw [String.empty_append]
    exact if_neg noBrace
  · have brace : σ.toJson.toList.head? = some '\x7b' := by simp [Signature.toJson_eq]
    rw [firstLine_append σ.oneLine_toJson]
    exact if_pos brace

end

/-- What was printed takes the place of the formula and of the language, and nothing is learned. -/
def again (request : Request) (outcome : Outcome) : Request :=
  { request with
    formula := outcome.formulaLine
    language := outcome.languageLine?
    strict := true }

theorem language_again (request : Request) (outcome : Outcome) :
    (request.again outcome).language = outcome.languageLine? := by
  rw [again]

theorem startingSignature?_of_lines {request : Request} {τ : Signature} (fits : τ.Fits)
    (language : request.language = if τ.isEmpty then none else some τ.toJson) :
    request.startingSignature? = some τ := by
  rw [startingSignature?, language]
  by_cases empty : τ.isEmpty = true
  · rw [if_pos empty, Signature.eq_empty_of_isEmpty empty]
  · rw [if_neg empty]
    exact Signature.ofJson?_toJson fits

theorem fits_of_startingSignature? {request : Request} {σ : Signature}
    (h : request.startingSignature? = some σ) : σ.Fits := by
  unfold startingSignature? at h
  split at h
  · obtain rfl := Option.some.inj h
    exact ⟨Signature.tableFits_empty, Signature.tableFits_empty⟩
  · exact Signature.fits_of_ofJson? h

/-- With a formula that was accepted, the answer to what was printed is the same. -/
theorem answer_again {request : Request} {σ : Signature} {formula : Formula}
    (noTree : request.tree = false) (inMemory : request.formula.length < Signature.arityBound)
    (language : request.startingSignature? = some σ)
    (accepted : (Formula.accept request.options σ request.formula).result = .ok formula)
    {outcome : Outcome} (answered : outcome = request.answer) :
    (request.again outcome).answer.code = outcome.code ∧
      (request.again outcome).answer.output = outcome.output := by
  obtain ⟨code, output⟩ := answer_of_accept language accepted
  rw [← answered] at code output
  obtain ⟨e, accepted', same, equal, prints⟩ := Formula.accept_print accepted .refuse
  have fits := Formula.fits_accept (fits_of_startingSignature? language) inMemory request.options
  have parsed := (Formula.accepted accepted).1
  have oneLine : OneLine formula.expr.print := (Expr.built_of_parse parsed).usual.oneLine_print
  generalize (Formula.accept request.options σ request.formula).signature = τ at *
  obtain ⟨formulaLine, languageLine⟩ := lines_of_output noTree oneLine output
  have handed : (request.again outcome).formula = formula.expr.print := formulaLine
  have options : (request.again outcome).options = ⟨request.options.firstOrder, .refuse⟩ := rfl
  have language' : (request.again outcome).startingSignature? = some τ := by
    refine startingSignature?_of_lines fits ?_
    rw [language_again, languageLine]
  rw [← handed, ← options] at accepted' same
  obtain ⟨code', output'⟩ := answer_of_accept language' accepted'
  have verdict' : (request.again outcome).verdict ⟨(request.again outcome).formula, e⟩ =
      request.verdict formula := verdict_eq equal request
  have noTree' : (request.again outcome).tree = false := noTree
  rw [code, code', output, output', same, verdict', report_eq noTree, report_eq noTree', prints]
  exact ⟨rfl, rfl⟩

/-- What is said about the steps goes elsewhere. -/
theorem answer_verbose (request : Request) (verbose : Bool) :
    ({ request with verbose := verbose } : Request).answer.code = request.answer.code ∧
      ({ request with verbose := verbose } : Request).answer.output = request.answer.output := by
  have language : ({ request with verbose := verbose } : Request).startingSignature? =
      request.startingSignature? := rfl
  have options : ({ request with verbose := verbose } : Request).options = request.options := rfl
  have assignment : ({ request with verbose := verbose } : Request).assignment =
      request.assignment := rfl
  simp only [answer, language, options, assignment]
  split
  · exact ⟨rfl, rfl⟩
  · split
    · exact ⟨rfl, rfl⟩
    · split
      · exact ⟨rfl, rfl⟩
      · split
        · exact ⟨rfl, rfl⟩
        · exact ⟨rfl, rfl⟩

end Request

namespace CommandLine

/-- The answer is stable: when a formula is accepted and no outline is asked for, the printed lines
can be handed over in its place. A line of arguments with the same assignments does so, and every
one that does has the same exit code and the same output. A text in memory has fewer characters
than there are arities. -/
theorem run_again {arguments : List String} {request : Request} {σ : Signature}
    {formula : Formula} (read : Request.ofArguments arguments = some request)
    (noTree : request.tree = false) (inMemory : request.formula.length < Signature.arityBound)
    (language : request.startingSignature? = some σ)
    (accepted : (Formula.accept request.options σ request.formula).result = .ok formula) :
    Request.ofArguments ((request.again (run arguments)).line
        (Request.settings .assign arguments)) = some (request.again (run arguments)) ∧
      ∀ arguments' verbose,
        Request.ofArguments arguments' =
            some { request.again (run arguments) with verbose := verbose } →
          (run arguments').code = (run arguments).code ∧
            (run arguments').output = (run arguments).output := by
  have assigned := Request.mapM_settings read
  have first : run arguments = request.answer := by rw [run, read]
  generalize run arguments = outcome at first ⊢
  refine ⟨Request.ofArguments_line assigned, fun arguments' verbose read' => ?_⟩
  have again := Request.answer_again noTree inMemory language accepted first
  have quiet := (request.again outcome).answer_verbose verbose
  rw [run, read', quiet.1, quiet.2]
  exact again

/-- `P` is learned and handed over the second time. There is no truth value for want of `P` in the
model. -/
theorem run_again_of_learned :
    let learned := "\x7b\"functions\":\x7b\x7d,\"predicates\":\x7b\"P\":1\x7d\x7d"
    let first := run ["-a", "p=1", "A x. (P(x))"]
    let second := run ["-s", "-l", learned, "-a", "p=1", "forall x. P(x)"]
    first.code = 1 ∧ first.output = "forall x. P(x)\n" ++ learned ++ "\n" ∧
      second.code = first.code ∧ second.output = first.output := by
  intro learned first second
  let request : Request := ⟨"A x. (P(x))", false, false, false, false, none, [("p", true)]⟩
  have read : Request.ofArguments ["-a", "p=1", "A x. (P(x))"] = some request := by
    decide +kernel
  obtain ⟨formula, accepted, -⟩ := Parser.exists_ok_of_any
    (Formula.accept request.options .empty request.formula).result (fun _ => true)
    (by decide +kernel)
  have answer : first.code = 1 ∧ first.output = "forall x. P(x)\n" ++ learned ++ "\n" := by
    decide +kernel
  obtain ⟨-, stable⟩ := run_again read rfl (by decide +kernel) rfl accepted
  have again : second.code = first.code ∧ second.output = first.output :=
    stable ["-s", "-l", learned, "-a", "p=1", "forall x. P(x)"] false (by decide +kernel)
  exact ⟨answer.1, answer.2, again⟩

end CommandLine

end PredicateCalculus
