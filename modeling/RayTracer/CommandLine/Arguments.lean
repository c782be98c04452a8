/-!
The arguments of a command: flags, options with a value, and positional arguments, in any order. A value
is attached with an equals sign or follows as the next argument, which then may not look like an option.
After two dashes alone all arguments are positional.
-/

namespace RayTracer.CommandLine

/-- What an option does to the settings of a command. -/
inductive Effect (σ : Type) where
  | flag (set : σ → σ)
  | value (read : String → Option (σ → σ))

structure Description where
  summary : String
  /-- The value that holds where the option is not used. -/
  fallback : Option String := none
  /-- All values that the option can have, where they are few. -/
  choices : List String := []

/-- An option by its name, without the dashes. -/
structure Rule (σ : Type) where
  name : String
  description : Description
  effect : Effect σ

/-- An option of a part of the settings as an option of the whole. -/
def Rule.lift {σ τ : Type} (modify : (σ → σ) → τ → τ) (rule : Rule σ) : Rule τ :=
  { name := rule.name
    description := rule.description
    effect := match rule.effect with
      | .flag set => .flag (modify set)
      | .value read => .value fun text => (read text).map modify }

/-- Why reading arguments ended early: they were refused, or help was asked for before that. -/
inductive Stop where
  | refused
  | help
  deriving DecidableEq, Repr

/-- What has been read: the settings so far, the options that have been used, and the positional
arguments. -/
structure Collected (σ : Type) where
  settings : σ
  used : List String
  positionals : List String

variable {σ : Type}

def splitLong (argument : String) : String × Option String :=
  let body := argument.toList.drop 2
  let name := String.ofList (body.takeWhile (· ≠ '='))
  match body.dropWhile (· ≠ '=') with
  | [] => (name, none)
  | _ :: value => (name, some (String.ofList value))

def isLong (argument : String) : Bool := argument.startsWith "--"

/-- Whether an argument is a cluster of short options. A dash alone is none. -/
def isShort (argument : String) : Bool :=
  argument.startsWith "-" && !isLong argument && argument ≠ "-"

namespace Collected

/-- Record an option. No option may be used twice. -/
def use (collected : Collected σ) (name : String) (set : σ → σ) : Except Stop (Collected σ) :=
  if collected.used.contains name then .error .refused
  else .ok { collected with
    settings := set collected.settings, used := name :: collected.used }

/-- Record the value of an option. -/
def useValue (collected : Collected σ) (name : String) (read : String → Option (σ → σ))
    (value : String) : Except Stop (Collected σ) :=
  match read value with
  | some set => collected.use name set
  | none => .error .refused

/-- Record a positional argument. There is a limit to their number, and none is empty. -/
def addPositional (collected : Collected σ) (limit : Nat) (argument : String) :
    Except Stop (Collected σ) :=
  if argument ≠ "" ∧ collected.positionals.length < limit then
    .ok { collected with positionals := collected.positionals ++ [argument] }
  else .error .refused

end Collected

def effect? (rules : List (Rule σ)) (name : String) : Option (Effect σ) :=
  (rules.find? fun rule => rule.name == name).map (·.effect)

/-- What an option needs of the next argument. -/
inductive Step (σ : Type) where
  | done (collected : Collected σ)
  | needsValue (name : String) (read : String → Option (σ → σ))

/-- One argument before the two dashes, apart from the value that it may need. -/
def readOne (rules : List (Rule σ)) (limit : Nat) (collected : Collected σ) (argument : String) :
    Except Stop (Step σ) :=
  if isLong argument then
    let (name, attached) := splitLong argument
    match effect? rules name, attached with
    | some (.flag set), none => (collected.use name set).map .done
    | some (.flag _), some _ => .error .refused
    | some (.value read), some value => (collected.useValue name read value).map .done
    | some (.value read), none => .ok (.needsValue name read)
    | none, none => .error (if name = "help" then .help else .refused)
    | none, some _ => .error .refused
  else if isShort argument then
    .error (if argument.startsWith "-h" then .help else .refused)
  else (collected.addPositional limit argument).map .done

def readArguments (rules : List (Rule σ)) (limit : Nat) :
    List String → Collected σ → Except Stop (Collected σ)
  | [], collected => .ok collected
  | argument :: rest, collected =>
    if argument = "--" then rest.foldlM (fun c positional => c.addPositional limit positional) collected
    else
      match readOne rules limit collected argument with
      | .error stop => .error stop
      | .ok (.done after) => readArguments rules limit rest after
      | .ok (.needsValue name read) =>
        match rest with
        | [] => .error .refused
        | value :: others =>
          if isLong value || isShort value then .error .refused
          else
            match collected.useValue name read value with
            | .error stop => .error stop
            | .ok after => readArguments rules limit others after

end RayTracer.CommandLine
