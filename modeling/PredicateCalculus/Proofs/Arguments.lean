import Mathlib.Data.List.Basic
import PredicateCalculus.CommandLine.Request

/-! # Arguments for a request

Any request can be made by a list of arguments in which every option stands for itself, with its
value behind an equals sign.

* `Request.settings`: the values that a list of arguments gives to an option.
* `Request.line`: the list of arguments for a request.
* `Request.Adds`: arguments that are read as items, whatever comes behind them.
* `Request.ofArguments_line`: the list makes the request.
-/

set_option autoImplicit false

namespace PredicateCalculus.Request

/-! ## Assignments -/

def settings (option : Setting) (arguments : List String) : List String :=
  ((items arguments).getD []).filterMap (Item.value? option)

theorem mapM_settings {arguments : List String} {request : Request}
    (h : ofArguments arguments = some request) :
    (settings .assign arguments).mapM assignment? = some request.assignments := by
  obtain ⟨found, read, made⟩ := Option.bind_eq_some_iff.mp h
  obtain ⟨assignments, assigned, made⟩ := Option.bind_eq_some_iff.mp made
  rw [settings, read, Option.getD_some, assigned]
  -- Whether a language was given, the other options are looked up in the same way.
  simp only at made
  split at made <;>
  · obtain ⟨language, -, made⟩ := Option.bind_eq_some_iff.mp made
    split at made
    · obtain ⟨propositional, -, made⟩ := Option.bind_eq_some_iff.mp made
      obtain ⟨strict, -, made⟩ := Option.bind_eq_some_iff.mp made
      obtain ⟨tree, -, made⟩ := Option.bind_eq_some_iff.mp made
      obtain ⟨verbose, -, made⟩ := Option.bind_eq_some_iff.mp made
      obtain rfl := Option.some.inj made
      rfl
    · cases made

/-! ## Arguments for a request -/

def flagArguments (given : Bool) (argument : String) : List String :=
  if given then [argument] else []

/-- Everything is spelled out, and the formula stands behind a double dash. -/
def line (request : Request) (assignments : List String) : List String :=
  flagArguments request.propositional "--propositional"
    ++ flagArguments request.strict "--strict"
    ++ flagArguments request.tree "--tree"
    ++ flagArguments request.verbose "--verbose"
    ++ request.language.toList.map ("--language=" ++ ·)
    ++ assignments.map ("--assign=" ++ ·)
    ++ ["--", request.formula]

def flagItems (given : Bool) (option : Flag) : List Item :=
  if given then [.flag option] else []

def lineItems (request : Request) (assignments : List String) : List Item :=
  flagItems request.propositional .propositional
    ++ flagItems request.strict .strict
    ++ flagItems request.tree .tree
    ++ flagItems request.verbose .verbose
    ++ request.language.toList.map (.setting .language)
    ++ assignments.map (.setting .assign)
    ++ [.formula request.formula]

/-- The arguments are read as the items, whatever comes behind them. -/
def Adds (arguments : List String) (found : List Item) : Prop :=
  ∀ rest, items (arguments ++ rest) = (found ++ ·) <$> items rest

theorem Adds.append {arguments arguments' : List String} {found found' : List Item}
    (h : Adds arguments found) (h' : Adds arguments' found') :
    Adds (arguments ++ arguments') (found ++ found') := by
  intro rest
  rw [List.append_assoc, h, h']
  simp [Function.comp_def]

theorem adds_nil : Adds [] [] := by
  intro rest
  simp

theorem adds_argument {argument : String} {found : List Item}
    (opens : opening argument = some ⟨found, none⟩) : Adds [argument] found := by
  intro rest
  have notEnd : argument ≠ "--" := by
    rintro rfl
    cases opens
  rw [List.singleton_append, items.eq_def]
  simp only [if_neg notEnd, opens]

theorem adds_flag (given : Bool) {argument : String} {option : Flag}
    (opens : opening argument = some ⟨[.flag option], none⟩) :
    Adds (flagArguments given argument) (flagItems given option) := by
  cases given with
  | false => exact adds_nil
  | true => exact adds_argument opens

theorem adds_settings {front : String} {option : Setting} (texts : List String)
    (opens : ∀ text, opening (front ++ text) = some ⟨[.setting option text], none⟩) :
    Adds (texts.map (front ++ ·)) (texts.map (.setting option)) := by
  induction texts with
  | nil => exact adds_nil
  | cons text texts ih => exact (adds_argument (opens text)).append ih

theorem items_line (request : Request) (assignments : List String) :
    items (request.line assignments) = some (request.lineItems assignments) := by
  have propositional : Adds _ (flagItems request.propositional .propositional) :=
    adds_flag _ (show opening "--propositional" = _ from rfl)
  have strict : Adds _ (flagItems request.strict .strict) :=
    adds_flag _ (show opening "--strict" = _ from rfl)
  have tree : Adds _ (flagItems request.tree .tree) :=
    adds_flag _ (show opening "--tree" = _ from rfl)
  have verbose : Adds _ (flagItems request.verbose .verbose) :=
    adds_flag _ (show opening "--verbose" = _ from rfl)
  have language := adds_settings request.language.toList fun text =>
    show opening ("--language=" ++ text) = some ⟨[.setting .language text], none⟩ by
      simp [opening, word, longOption]
  have assigns := adds_settings assignments fun text =>
    show opening ("--assign=" ++ text) = some ⟨[.setting .assign text], none⟩ by
      simp [opening, word, longOption]
  have flags := ((propositional.append strict).append tree).append verbose
  exact ((flags.append language).append assigns) ["--", request.formula]

theorem values_flagItems (given : Bool) (option : Flag) (setting : Setting) :
    (flagItems given option).filterMap (Item.value? setting) = [] := by
  cases given <;> rfl

theorem formulas_flagItems (given : Bool) (option : Flag) :
    (flagItems given option).filterMap Item.formula? = [] := by
  cases given <;> rfl

theorem count_flagItems (given : Bool) (option other : Flag) :
    (flagItems given option).count (.flag other) =
      if given && option = other then 1 else 0 := by
  cases given <;> simp [flagItems, List.count_singleton]

theorem flag?_of_count {option : Flag} {found : List Item} {given : Bool}
    (h : found.count (.flag option) = if given then 1 else 0) :
    flag? option found = some given := by
  cases given <;> simp [flag?, h]

theorem ofArguments_line {request : Request} {assignments : List String}
    (h : assignments.mapM assignment? = some request.assignments) :
    ofArguments (request.line assignments) = some request := by
  have languages : (request.lineItems assignments).filterMap (Item.value? .language) =
      request.language.toList := by
    simp [lineItems, values_flagItems, Item.value?, List.filterMap_map, Function.comp_def]
  have assigns : (request.lineItems assignments).filterMap (Item.value? .assign) =
      assignments := by
    simp [lineItems, values_flagItems, Item.value?, List.filterMap_map, Function.comp_def]
  have formulas : (request.lineItems assignments).filterMap Item.formula? = [request.formula] := by
    simp [lineItems, formulas_flagItems, Item.formula?, List.filterMap_map, Function.comp_def]
  have none : ∀ (option : Flag) (setting : Setting) (texts : List String),
      (texts.map (Item.setting setting)).count (.flag option) = 0 := by
    intro option setting texts
    simp [List.count_eq_zero]
  have propositional : flag? .propositional (request.lineItems assignments) =
      some request.propositional :=
    flag?_of_count (by simp [lineItems, count_flagItems, List.count_append, none])
  have strict : flag? .strict (request.lineItems assignments) = some request.strict :=
    flag?_of_count (by simp [lineItems, count_flagItems, List.count_append, none])
  have tree : flag? .tree (request.lineItems assignments) = some request.tree :=
    flag?_of_count (by simp [lineItems, count_flagItems, List.count_append, none])
  have verbose : flag? .verbose (request.lineItems assignments) = some request.verbose :=
    flag?_of_count (by simp [lineItems, count_flagItems, List.count_append, none])
  rw [ofArguments, items_line, Option.bind_some, ofItems, assigns, languages, formulas, h,
    propositional, strict, tree, verbose]
  obtain ⟨formula, _, _, _, _, language, _⟩ := request
  cases language <;> rfl

end PredicateCalculus.Request
