import LineScore.Text.Likeness
import LineScore.Text.Quoted

/-! Options on a command line. A long option may carry its value behind an equals sign; short ones may
stand together behind one dash, the last of them with its value. A lone double dash ends the options.

The rules are those assumed of the click library: options are not abbreviated, the last value of an option
counts, and only an unknown long option is answered with similar names. -/

namespace LineScore.Command

/-- An option by its names, with their dashes, of which the first one stands for all. -/
structure OptionSpec where
  names : List String
  takesValue : Bool := false
  deriving DecidableEq, Repr

/-- What is wrong with the options of a command line. -/
inductive OptionFault where
  /-- There is no option of the name; the long options in `near` have a similar one. -/
  | unknown (name : String) (near : List String)
  | valueMissing (name : String)
  | valueUnwanted (name : String)
  deriving DecidableEq, Repr

/-- The options of a command line, each by its first name with its value, and what else it holds. -/
structure Scanned where
  options : List (String × String) := []
  operands : List String := []
  deriving DecidableEq, Repr

namespace Scanned

def withOptions (options : List (String × String)) (s : Scanned) : Scanned :=
  { s with options := options ++ s.options }

def withOperand (operand : String) (s : Scanned) : Scanned :=
  { s with operands := operand :: s.operands }

/-- The value of the last option of a name. -/
def value? (s : Scanned) (name : String) : Option String :=
  (s.options.reverse.find? fun o => o.1 = name).map Prod.snd

end Scanned

def findOption? (specs : List OptionSpec) (name : String) : Option OptionSpec :=
  specs.find? fun spec => spec.names.contains name

/-- The long names of options, those behind a double dash. -/
def longNames (specs : List OptionSpec) : List String :=
  specs.flatMap fun spec => spec.names.filter fun name => name.startsWith "--"

/-- The name that stands for all names of an option. -/
def OptionSpec.key (spec : OptionSpec) : String :=
  spec.names.headD ""

/-- The options in one argument, and the name and key of one that still needs a value. -/
structure ArgumentOptions where
  options : List (String × String) := []
  waiting : Option (String × String) := none
  deriving DecidableEq, Repr

/-- Options behind a single dash. -/
def readCluster (specs : List OptionSpec) : List Char → Except OptionFault ArgumentOptions
  | [] => .ok {}
  | c :: rest =>
      let name := String.ofList ['-', c]
      match findOption? specs name with
      | none => .error (.unknown name [])
      | some spec =>
          if spec.takesValue then
            if rest.isEmpty then .ok { waiting := some (name, spec.key) }
            else .ok { options := [(spec.key, String.ofList rest)] }
          else
            (readCluster specs rest).map fun more =>
              { more with options := (spec.key, "") :: more.options }

/-- The options in an argument that begins with a dash. -/
def readOption (specs : List OptionSpec) (argument : String) :
    Except OptionFault ArgumentOptions :=
  let text := argument.toList
  let name := String.ofList (text.takeWhile (· ≠ '='))
  let value : Option String :=
    match text.dropWhile (· ≠ '=') with
    | '=' :: value => some (String.ofList value)
    | _ => none
  match (if name.startsWith "--" then findOption? specs name else none), value with
  | some spec, some value =>
      if spec.takesValue then .ok { options := [(spec.key, value)] } else .error (.valueUnwanted name)
  | some spec, none =>
      if spec.takesValue then .ok { waiting := some (name, spec.key) }
      else .ok { options := [(spec.key, "")] }
  | none, _ =>
      if argument.startsWith "--" then .error (.unknown name (Text.alike (longNames specs) name))
      else readCluster specs (text.drop 1)

def isOption (argument : String) : Bool :=
  argument.startsWith "-" && 1 < argument.length

/-- Reads a command line. With `interspersed`, options may follow operands; without, the first operand
ends them. -/
def scan (specs : List OptionSpec) (interspersed : Bool) :
    List String → Except OptionFault Scanned
  | [] => .ok {}
  | argument :: rest =>
      if argument = "--" then .ok { operands := rest }
      else if isOption argument then
        match readOption specs argument with
        | .error fault => .error fault
        | .ok ⟨options, none⟩ => (scan specs interspersed rest).map (·.withOptions options)
        | .ok ⟨options, some (name, key)⟩ =>
            match rest with
            | [] => .error (.valueMissing name)
            | value :: rest =>
                (scan specs interspersed rest).map (·.withOptions (options ++ [(key, value)]))
      else if interspersed then (scan specs interspersed rest).map (·.withOperand argument)
      else .ok { operands := argument :: rest }

end LineScore.Command
