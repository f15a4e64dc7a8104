import TaskDiagram.Command.Options
import TaskDiagram.Config
import TaskDiagram.Decimal.Signed
import TaskDiagram.Document.Conversion
import TaskDiagram.Library.Item
import TaskDiagram.Uuid

/-!
# Commands

What the command line can be asked for, and how its arguments ask for it. Three options may stand
anywhere: `json` for output that programs can read, `quiet` for no output but what was asked for,
and `verbose`, which only adds to the log.
-/

namespace TaskDiagram

/-- What is said of a task that is saved. -/
structure SaveOptions where
  name : Option String
  id : Option Uuid
  description : Option String
  shared : Bool
  /-- Whether references are resolved first. -/
  resolve : Bool
  deriving DecidableEq, Repr

/-- Which schema to print. -/
inductive SchemaKind where
  | turn
  | program
  deriving DecidableEq, Repr

inductive Command where
  | convert (file : String) (target : Target)
  | validate (file : String)
  | merge (previous incoming : String)
  | listTasks (sharedOnly : Bool) (limit : Option Int64)
  | showTask (id : Uuid) (nullable refresh : Bool)
  | saveTask (file : String) (options : SaveOptions)
  | deleteTask (id : Uuid)
  | listItems (kind : LibraryKind)
  | addItem (kind : LibraryKind) (item : LibraryItem)
  | removeItem (kind : LibraryKind) (id : Int64)
  | resolveName (kind : LibraryKind) (name : String)
  | showGrammar
  | showSchema (which : SchemaKind)
  deriving Repr

/-- A command and how its output is wanted. -/
structure Invocation where
  json : Bool
  quiet : Bool
  command : Command
  deriving Repr

/-- The files a command reads, in order. -/
def Command.files : Command → List String
  | convert file _ | validate file | saveTask file _ => [file]
  | merge previous incoming => [previous, incoming]
  | _ => []

/-- Whether a command needs what is kept from run to run. -/
def Command.needsDatabase : Command → Bool
  | convert .. | merge .. | showGrammar | showSchema _ => false
  | _ => true

/-! ## Values -/

namespace Acceptance

def any : Acceptance := fun _ => true

def path : Acceptance := fun s => !s.isEmpty

def reading {α : Type} (read : String → Option α) : Acceptance := fun s => (read s).isSome

end Acceptance

def LibraryKind.ofText? (s : String) : Option LibraryKind := (LibraryKind.ofText s).toOption

def Target.ofText? (s : String) : Option Target := findValue? s Target.table

def SchemaKind.ofText? (s : String) : Option SchemaKind :=
  findValue? s [("turn", .turn), ("program", .program)]

/-! ## Arguments -/

namespace OptionSpec

/-- An option without a value. -/
def flag (long : String) : OptionSpec := ⟨long, none, .flag, .any⟩

/-- An option with a value. -/
def valued (long : String) (accepts : Acceptance) : OptionSpec := ⟨long, none, .value, accepts⟩

/-- The options that may stand anywhere. -/
def everywhere : List OptionSpec :=
  [flag "json", flag "quiet", ⟨"verbose", some 'v', .counted, .any⟩]

end OptionSpec

/-- A command by its name: what else it goes by, what it takes, and what it asks for. -/
structure CommandForm where
  name : String
  nicknames : List String
  usage : Usage
  build : Given → Option Command

namespace CommandForm

open OptionSpec

/-- A form that takes the options that may stand anywhere and more. -/
def make (name : String) (nicknames : List String) (options : List OptionSpec)
    (words : List Acceptance) (build : Given → Option Command) : CommandForm :=
  ⟨name, nicknames, ⟨everywhere ++ options, words⟩, build⟩

/-- The value of an option that has been accepted. -/
def optionValue {α : Type} (g : Given) (long : String) (read : String → Option α) : Option α :=
  (g.value? long).bind read

def kind : Acceptance := .reading LibraryKind.ofText?
def uuid : Acceptance := .reading Uuid.ofText?
def number : Acceptance := .reading Decimal.readInt64?

def taskForms : List CommandForm := [
  make "convert" [] [valued "to" (.reading Target.ofText?)] [.path] fun g => do
    return .convert (← g.words[0]?) (← optionValue g "to" Target.ofText?),
  make "validate" [] [] [.path] fun g => do return .validate (← g.words[0]?),
  make "merge" [] [] [.path, .path] fun g => do
    return .merge (← g.words[0]?) (← g.words[1]?),
  make "list" ["ls"] [flag "shared", valued "limit" number] [] fun g =>
    some (.listTasks (g.has "shared") (optionValue g "limit" Decimal.readInt64?)),
  make "show" [] [flag "nullable", flag "refresh"] [uuid] fun g => do
    return .showTask (← Uuid.ofText? (← g.words[0]?)) (g.has "nullable") (g.has "refresh"),
  make "save" []
    [valued "name" .any, valued "id" uuid, valued "description" .any, flag "shared",
      flag "resolve"] [.path] fun g => do
    return .saveTask (← g.words[0]?)
      { name := g.value? "name"
        id := optionValue g "id" Uuid.ofText?
        description := g.value? "description"
        shared := g.has "shared"
        resolve := g.has "resolve" },
  make "delete" ["rm"] [] [uuid] fun g => do
    return .deleteTask (← Uuid.ofText? (← g.words[0]?))]

/-- The keywords given with an item, if any. -/
def keywordsOf (g : Given) : Option (List String) :=
  match g.values "keyword" with
  | [] => none
  | keywords => some keywords

def libraryForms : List CommandForm := [
  make "list" ["ls"] [] [kind] fun g => do
    return .listItems (← LibraryKind.ofText? (← g.words[0]?)),
  make "add" [] [⟨"keyword", some 'k', .values, .any⟩] [kind, number, .any] fun g => do
    return .addItem (← LibraryKind.ofText? (← g.words[0]?))
      ⟨← Decimal.readInt64? (← g.words[1]?), ← g.words[2]?, keywordsOf g⟩,
  make "remove" ["rm"] [] [kind, number] fun g => do
    return .removeItem (← LibraryKind.ofText? (← g.words[0]?))
      (← Decimal.readInt64? (← g.words[1]?)),
  make "resolve" [] [] [kind, .any] fun g => do
    return .resolveName (← LibraryKind.ofText? (← g.words[0]?)) (← g.words[1]?)]

def plainForms : List CommandForm := [
  make "grammar" [] [] [] fun _ => some .showGrammar,
  make "schema" [] [] [.reading SchemaKind.ofText?] fun g => do
    return .showSchema (← SchemaKind.ofText? (← g.words[0]?))]

/-- Names under which commands are grouped, with their nicknames. -/
def groups : List (String × List String × List CommandForm) :=
  [("task", [], taskForms), ("library", ["lib"], libraryForms)]

end CommandForm

namespace Invocation

/-- Why there is nothing to carry out: the arguments make no sense, or they ask for the version of
a command, given by its name. -/
inductive Refusal where
  | misuse
  | version (command : String)
  deriving DecidableEq, Repr

def Refusal.ofStop (command : String) : Stop → Refusal
  | .misuse => .misuse
  | .version => .version command

def everywhere : Usage := ⟨OptionSpec.everywhere, []⟩

/-- Whether an option that may stand anywhere stands somewhere. -/
def anyHas (levels : List Given) (long : String) : Bool := levels.any (·.has long)

/-- The arguments of a command behind its name; `levels` is what was given before. -/
def ofForm (group : String) (form : CommandForm) (levels : List Given) (arguments : List String) :
    Except Refusal Invocation := do
  let name := group ++ "-" ++ form.name
  let given ← (form.usage.readAll none .empty arguments).mapError (Refusal.ofStop name)
  let levels := given :: levels
  match form.build given with
  | some command => return ⟨anyHas levels "json", anyHas levels "quiet", command⟩
  | none => throw .misuse

/-- What a list of arguments asks for. -/
def ofArguments (program : String) (arguments : List String) : Except Refusal Invocation := do
  let (top, name, rest) ← (everywhere.readLeading .empty arguments).mapError
    (Refusal.ofStop program)
  let isNamed := fun (group, nicknames, _) => (group :: nicknames : List String).contains name
  match CommandForm.groups.find? isNamed with
  | some (group, _, forms) => do
      let title := program ++ "-" ++ group
      let (inner, name, rest) ← (everywhere.readLeading .empty rest).mapError
        (Refusal.ofStop title)
      match forms.find? fun form => (form.name :: form.nicknames).contains name with
      | some form => ofForm title form [inner, top] rest
      | none => throw .misuse
  | none =>
      match CommandForm.plainForms.find? (·.name == name) with
      | some form => ofForm program form [top] rest
      | none => throw .misuse

end Invocation

end TaskDiagram
