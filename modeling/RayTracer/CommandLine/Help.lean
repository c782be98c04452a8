import RayTracer.CommandLine.Command

/-!
Pages of help: what a command is for, how it is called, and lists of commands, arguments and options.
Texts stand beside the names in a column of their own. Where names are long and a text does not fit
beside them, all texts of the list go to the next lines.
-/

namespace RayTracer.CommandLine

structure Entry where
  name : String
  text : String

structure Section where
  heading : String
  entries : List Entry

structure Page where
  about : String
  usage : String
  sections : List Section

def lineLength : Nat := 100

def nameLength (entries : List Entry) : Nat :=
  (entries.map (·.name.length)).foldl max 0

/-- Whether texts go to the next lines: the names and the space around them take more than two fifths of a
line, and there is a text that does not fit into the rest. -/
def isStacked (entries : List Entry) : Bool :=
  let taken := nameLength entries + 12
  decide (2 * lineLength < 5 * taken) && entries.any fun entry => lineLength < entry.text.length + taken

def spaces (count : Nat) : String := String.ofList (List.replicate count ' ')

/-- The lines of an entry in a list with a longest name. -/
def Entry.lines (stacked : Bool) (longest : Nat) (entry : Entry) : String :=
  if stacked then "  " ++ entry.name ++ "\n" ++ spaces 10 ++ entry.text
  else "  " ++ entry.name ++ spaces (longest + 2 - entry.name.length) ++ entry.text

def Section.text (part : Section) : String :=
  let stacked := isStacked part.entries
  let longest := nameLength part.entries
  part.heading ++ ":\n" ++ "\n".intercalate (part.entries.map (Entry.lines stacked longest))

def Page.text (page : Page) : String :=
  page.about ++ "\n\nUsage: " ++ page.usage ++ "\n"
    ++ String.join (page.sections.map fun part => "\n" ++ part.text ++ "\n")

def valueWord (name : String) : String :=
  String.ofList (name.toList.map fun c => if c = '-' then '_' else c.toUpper)

/-- What is said about an option, with its usual value and the values that it can have. -/
def Description.text (description : Description) : String :=
  let fallback := match description.fallback with
    | some value => ["[default: " ++ value ++ "]"]
    | none => []
  let choices :=
    if description.choices = [] then []
    else ["[possible values: " ++ ", ".intercalate description.choices ++ "]"]
  " ".intercalate (([description.summary].filter (· ≠ "")) ++ fallback ++ choices)

def Rule.entry {σ : Type} (rule : Rule σ) : Entry :=
  let value := match rule.effect with
    | .flag _ => ""
    | .value _ => " <" ++ valueWord rule.name ++ ">"
  ⟨"    --" ++ rule.name ++ value, rule.description.text⟩

def helpEntry : Entry := ⟨"-h, --help", "Print help"⟩

def optionSection {σ : Type} (rules : List (Rule σ)) : Section :=
  ⟨"Options", rules.map Rule.entry ++ [helpEntry]⟩

def Topic.about : Topic → String
  | .program => "A small physically-based renderer"
  | .demo => "Render the built-in demo scene"
  | .render => "Render a scene described in a JSON file"
  | .convert => "Tone-map a PFM image into an LDR image"
  | .help => "Print this message or the help of the given subcommand(s)"

def commandSection : Section :=
  ⟨"Commands", topicNames.map fun (name, topic) => ⟨name, topic.about⟩⟩

def Topic.usage : Topic → String
  | .program => "lumo <COMMAND>"
  | .demo => "lumo demo [OPTIONS]"
  | .render => "lumo render [OPTIONS] <SCENE>"
  | .convert => "lumo pfm2png [OPTIONS] <INPUT_PFM_FILE_NAME> <OUTPUT_PNG_FILE_NAME>"
  | .help => "lumo help [COMMAND]..."

def Topic.sections : Topic → List Section
  | .program => [commandSection, ⟨"Options", [helpEntry, ⟨"-V, --version", "Print version"⟩]⟩]
  | .demo => [optionSection demoRules]
  | .render => [⟨"Arguments", [⟨"<SCENE>", "JSON scene description"⟩]⟩, optionSection renderRules]
  | .convert =>
    [⟨"Arguments", [⟨"<INPUT_PFM_FILE_NAME>", ""⟩, ⟨"<OUTPUT_PNG_FILE_NAME>", ""⟩]⟩,
      optionSection conversionRules]
  | .help => [⟨"Arguments", [⟨"[COMMAND]...", "Print help for the subcommand(s)"⟩]⟩]

def Topic.page (topic : Topic) : Page := ⟨topic.about, topic.usage, topic.sections⟩

end RayTracer.CommandLine
