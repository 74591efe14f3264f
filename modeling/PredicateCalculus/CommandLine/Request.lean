import PredicateCalculus.Text.Blank

/-! # Requests on the command line

    [-p | --propositional] [-s | --strict] [-t | --tree] [-v | --verbose]
    [-l JSON | --language JSON] [-a NAME=BOOL | --assign NAME=BOOL]... [--] FORMULA

Short options may share one argument. An option's value is the rest of its argument, behind an
equals sign or, for a short option, also without one; else it is the next argument, which must not
look like an option. Behind `--` nothing is an option. Only `--assign` may be repeated.

Left out are `-h`, `--help`, `-V` and `--version`, for which the program shows its help or its
version and exits with code 0: here a line is refused that has one of them as an option.

* `Flag`, `Setting`, `Item`: options without a value, options with one, and what a line consists of.
* `Request.items`: the items of a line.
* `Request.ofArguments`: the request that the items make.
-/

set_option autoImplicit false

namespace PredicateCalculus

inductive Flag where
  | propositional
  | strict
  | tree
  | verbose
  deriving Repr, DecidableEq

inductive Setting where
  | language
  | assign
  deriving Repr, DecidableEq

inductive Item where
  | flag (option : Flag)
  | setting (option : Setting) (value : String)
  | formula (text : String)
  deriving Repr, DecidableEq

namespace Item

def formula? : Item → Option String
  | .formula text => some text
  | _ => none

def value? (option : Setting) : Item → Option String
  | .setting other value => if other = option then some value else none
  | _ => none

end Item

/-- Of two assignments to one name the later counts. -/
structure Request where
  formula : String
  propositional : Bool
  strict : Bool
  tree : Bool
  verbose : Bool
  language : Option String
  assignments : List (String × Bool)
  deriving Repr, DecidableEq

namespace Request

/-! ## Names of options -/

def shortOption : Char → Option (Flag ⊕ Setting)
  | 'p' => some (.inl .propositional)
  | 's' => some (.inl .strict)
  | 't' => some (.inl .tree)
  | 'v' => some (.inl .verbose)
  | 'l' => some (.inr .language)
  | 'a' => some (.inr .assign)
  | _ => none

def longOption (name : String) : Option (Flag ⊕ Setting) :=
  match name with
  | "propositional" => some (.inl .propositional)
  | "strict" => some (.inl .strict)
  | "tree" => some (.inl .tree)
  | "verbose" => some (.inl .verbose)
  | "language" => some (.inr .language)
  | "assign" => some (.inr .assign)
  | _ => none

/-! ## Items -/

/-- The items of one argument, and the option that takes its value from the next. -/
structure Opening where
  items : List Item
  waiting : Option Setting
  deriving Repr, DecidableEq

/-- The letters behind a single dash. -/
def cluster : List Char → Option Opening
  | [] => some ⟨[], none⟩
  | letter :: rest =>
    match shortOption letter with
    | none => none
    | some (.inl flag) =>
      (cluster rest).map fun opening => { opening with items := .flag flag :: opening.items }
    | some (.inr setting) =>
      match rest with
      | [] => some ⟨[], some setting⟩
      | '=' :: value => some ⟨[.setting setting (String.ofList value)], none⟩
      | value => some ⟨[.setting setting (String.ofList value)], none⟩

/-- What stands behind a double dash. -/
def word (text : List Char) : Option Opening :=
  let name := text.takeWhile (· != '=')
  match longOption (String.ofList name), text.drop name.length with
  | some (.inl flag), [] => some ⟨[.flag flag], none⟩
  | some (.inr setting), [] => some ⟨[], some setting⟩
  | some (.inr setting), _ :: value => some ⟨[.setting setting (String.ofList value)], none⟩
  | _, _ => none

/-- A single dash alone is no option. -/
def opening (argument : String) : Option Opening :=
  match argument.toList with
  | '-' :: '-' :: text => word text
  | '-' :: letter :: rest => cluster (letter :: rest)
  | _ => some ⟨[.formula argument], none⟩

def looksLikeOption (argument : String) : Bool :=
  match argument.toList with
  | '-' :: _ :: _ => true
  | _ => false

def items : List String → Option (List Item)
  | [] => some []
  | argument :: rest =>
    if argument = "--" then some (rest.map Item.formula)
    else
      match opening argument, rest with
      | none, _ => none
      | some ⟨found, none⟩, rest => (found ++ ·) <$> items rest
      | some ⟨_, some _⟩, [] => none
      | some ⟨found, some setting⟩, value :: rest =>
        if looksLikeOption value then none
        else (found ++ .setting setting value :: ·) <$> items rest

/-! ## Values -/

def trimmed (text : List Char) : String :=
  String.ofList (Text.trim text)

def truthValue? (text : String) : Option Bool :=
  match text with
  | "true" => some true
  | "1" => some true
  | "false" => some false
  | "0" => some false
  | _ => none

/-- The first equals sign ends the name; blanks around name and value do not count. -/
def assignment? (text : String) : Option (String × Bool) :=
  let name := text.toList.takeWhile (· != '=')
  match text.toList.drop name.length with
  | [] => none
  | _ :: value => (truthValue? (trimmed value)).map (trimmed name, ·)

/-! ## Requests -/

/-- Whether an option was given; giving it twice is refused. -/
def flag? (option : Flag) (items : List Item) : Option Bool :=
  match items.count (.flag option) with
  | 0 => some false
  | 1 => some true
  | _ => none

def ofItems (items : List Item) : Option Request := do
  let assignments ← (items.filterMap (Item.value? .assign)).mapM assignment?
  let language ← match items.filterMap (Item.value? .language) with
    | [] => some none
    | [language] => some (some language)
    | _ => none
  let [formula] := items.filterMap Item.formula? | none
  return {
    formula := formula
    propositional := ← flag? .propositional items
    strict := ← flag? .strict items
    tree := ← flag? .tree items
    verbose := ← flag? .verbose items
    language := language
    assignments := assignments }

def ofArguments (arguments : List String) : Option Request :=
  (items arguments).bind ofItems

end Request

end PredicateCalculus
