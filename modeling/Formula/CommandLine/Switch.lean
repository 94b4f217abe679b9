import Formula.Text.DecimalDigit

/-!
# The options of the command line

`Switch` lists the options, `spellings` how they are written.  A short spelling is a dash and a
letter, a long one two dashes and a word.

`Shape.ofArgument` decides what an argument is, looking at nothing but the argument:

* an option as it is spelled, alone or with `=` and a value after it;
* a long option cut short, as long as only one option begins like that; with several the argument is
  ambiguous;
* a short option with its value, or with more short options, right behind it;
* an argument that begins with a dash and is none of these is an unknown option, unless it is a
  negative number or contains a space.  All other arguments are operands.
-/

set_option autoImplicit false

namespace Formula.CommandLine

/-! ## Options -/

/-- The options of the command line. -/
inductive Switch
  | help
  | expression
  | format
  | scale
  | strict
  | tree
  | version
  | logLevel
  | logFile
  | healthCheck
deriving DecidableEq

/-- The spellings of the options, in the order in which the help lists them. -/
def spellings : List (String × Switch) :=
  [("-h", .help), ("--help", .help), ("-e", .expression), ("--eval", .expression),
   ("--format", .format), ("-s", .scale), ("--scale", .scale), ("--strict", .strict),
   ("--tree", .tree), ("-v", .version), ("--version", .version), ("--log-level", .logLevel),
   ("--log-file", .logFile), ("--health-check", .healthCheck)]

namespace Switch

/-- The option as messages name it: all its spellings. -/
def name (s : Switch) : String :=
  "/".intercalate ((spellings.filter (·.2 = s)).map (·.1))

/-- Does the option take a value? -/
def takesValue : Switch → Bool
  | expression | format | scale | logLevel | logFile => true
  | _ => false

end Switch

/-! ## Shapes of arguments -/

/-- What stands in the same argument behind an option. -/
inductive Attached
  | nothing
  /-- Text right behind a short option. -/
  | glued (text : List Char)
  /-- Text behind an equals sign. -/
  | assigned (text : List Char)
deriving DecidableEq

/-- What an argument is. -/
inductive Shape
  | operand
  | unknown
  | option (switch : Switch) (spelling : String) (attached : Attached)
deriving DecidableEq

/-- An argument that could be several options. -/
structure Ambiguity where
  argument : String
  candidates : List String

namespace Shape

/-- The digits of all scripts. -/
def isDigit (c : Char) : Bool := (Text.digitValue? c).isSome

/-- Is the argument a negative number?  A line break at its end does not count. -/
def isNegativeNumber (argument : List Char) : Bool :=
  match argument with
  | '-' :: cs =>
    let cs := match cs.reverse with
      | '\n' :: rest => rest.reverse
      | _ => cs
    let (whole, rest) := cs.span isDigit
    match rest with
    | [] => !whole.isEmpty
    | '.' :: fraction => !fraction.isEmpty && fraction.all isDigit
    | _ => false
  | _ => false

/-- The text behind the first equals sign of an argument, and the text before it. -/
def splitAssignment (argument : List Char) : List Char × Attached :=
  let (before, rest) := argument.span (· != '=')
  match rest with
  | [] => (before, .nothing)
  | _ :: value => (before, .assigned value)

/-- The options that an argument spells incompletely or with something behind it. -/
def candidates (argument : List Char) : List (Switch × String × Attached) :=
  match argument with
  | '-' :: '-' :: _ =>
    let (start, attached) := splitAssignment argument
    (spellings.filter fun (s, _) ↦ start.isPrefixOf s.toList).map fun (s, switch) ↦
      (switch, s, attached)
  | _ =>
    (spellings.filter fun (s, _) ↦ s.toList = argument.take 2).map fun (s, switch) ↦
      (switch, s, .glued (argument.drop 2))

/-- What an argument is that begins with a dash and spells no option. -/
def ofCandidates (argument : String) : Except Ambiguity Shape :=
  let cs := argument.toList
  match candidates cs with
  | [(switch, spelling, attached)] => .ok (.option switch spelling attached)
  | [] => .ok (if isNegativeNumber cs || cs.contains ' ' then .operand else .unknown)
  | several => .error ⟨argument, several.map (·.2.1)⟩

/-- What an argument is. -/
def ofArgument (argument : String) : Except Ambiguity Shape :=
  match argument.toList with
  | '-' :: _ :: _ =>
    match spellings.lookup argument with
    | some switch => .ok (.option switch argument .nothing)
    | none =>
      let (before, attached) := splitAssignment argument.toList
      let spelling := String.ofList before
      match attached, spellings.lookup spelling with
      | .assigned _, some switch => .ok (.option switch spelling attached)
      | _, _ => ofCandidates argument
  | _ => .ok .operand

end Shape

end Formula.CommandLine
