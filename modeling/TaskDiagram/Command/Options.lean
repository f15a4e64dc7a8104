import TaskDiagram.Text.Blank

/-!
# Reading the arguments of a command

A command has options and words. An option is known by a long name behind two hyphens and may have
a letter behind one; letters can be joined, and a value can be joined to its option. Behind two
hyphens alone everything is a word. Arguments are looked at one by one, so the first that is wrong,
or that asks for the version, decides.
-/

namespace TaskDiagram

/-- How an option is used. -/
inductive OptionUse where
  /-- Present or not, once at most. -/
  | flag
  /-- As often as one likes. -/
  | counted
  /-- With a value, once at most. -/
  | value
  /-- With a value each time. -/
  | values
  deriving DecidableEq, Repr

def OptionUse.takesValue : OptionUse → Bool
  | flag | counted => false
  | value | values => true

def OptionUse.repeats : OptionUse → Bool
  | flag | value => false
  | counted | values => true

/-- Whether a text can be understood as a value. -/
abbrev Acceptance := String → Bool

structure OptionSpec where
  long : String
  short : Option Char
  use : OptionUse
  accepts : Acceptance

/-- What a command takes: options, and words in order. -/
structure Usage where
  options : List OptionSpec
  words : List Acceptance

/-- What was given among the arguments. -/
structure Given where
  /-- Options given, with their values. -/
  options : List (String × String)
  /-- Words given, in order. -/
  words : List String
  deriving DecidableEq, Repr

namespace Given

def empty : Given := ⟨[], []⟩

def has (f : Given) (long : String) : Bool := f.options.any (·.1 == long)

def values (f : Given) (long : String) : List String :=
  (f.options.filter (·.1 == long)).map (·.2)

def value? (f : Given) (long : String) : Option String := (f.values long).head?

end Given

/-- Why reading stops early. -/
inductive Stop where
  | misuse
  | version
  deriving DecidableEq, Repr

namespace Usage

/-- Takes up an option; one that does not repeat may be there once. -/
def addOption (spec : OptionSpec) (value : String) (f : Given) : Except Stop Given :=
  if f.has spec.long && !spec.use.repeats then .error .misuse
  else if spec.use.takesValue && !spec.accepts value then .error .misuse
  else .ok { f with options := f.options ++ [(spec.long, value)] }

/-- Takes up a word, if one is still expected. -/
def addWord (u : Usage) (word : String) (f : Given) : Except Stop Given :=
  match u.words[f.words.length]? with
  | some accepts =>
      if accepts word then .ok { f with words := f.words ++ [word] } else .error .misuse
  | none => .error .misuse

/-- Whether an argument can be a value of the option in front of it. -/
def canBeValue (argument : String) : Bool :=
  match argument.toList with
  | ['-'] => true
  | '-' :: _ => false
  | _ => true

/-- What an argument looks like. -/
inductive Shape where
  | endOfOptions
  /-- A long name, and the value joined to it. -/
  | long (name : String) (value : Option String)
  | letters (cs : List Char)
  | word

def shape (argument : String) : Shape :=
  match argument.toList with
  | ['-', '-'] => .endOfOptions
  | '-' :: '-' :: cs =>
      .long (String.ofList (cs.takeWhile (· != '=')))
        (match cs.dropWhile (· != '=') with
          | [] => none
          | _ :: value => some (String.ofList value))
  | '-' :: c :: cs => .letters (c :: cs)
  | _ => .word

/-- Reads letters that are joined. What is left over is the option whose value is missing. -/
def readLetters (u : Usage) : List Char → Given → Except Stop (Given × Option OptionSpec)
  | [], f => .ok (f, none)
  | c :: rest, f =>
      if c == 'V' then .error .version
      else
        match u.options.find? (·.short == some c) with
        | none => .error .misuse
        | some spec =>
            if spec.use.takesValue then
              match rest with
              | [] => .ok (f, some spec)
              | '=' :: value => do return (← addOption spec (String.ofList value) f, none)
              | value => do return (← addOption spec (String.ofList value) f, none)
            else do readLetters u rest (← addOption spec "" f)

/-- Reads an option by its long name. What is left over is the option whose value is missing. -/
def readLong (u : Usage) (name : String) (value : Option String) (f : Given) :
    Except Stop (Given × Option OptionSpec) :=
  if name == "version" then .error (if value.isSome then .misuse else .version)
  else
    match u.options.find? (·.long == name), value with
    | none, _ => .error .misuse
    | some spec, some value =>
        if spec.use.takesValue then do return (← addOption spec value f, none)
        else .error .misuse
    | some spec, none =>
        if spec.use.takesValue then .ok (f, some spec)
        else do return (← addOption spec "" f, none)

/-- Reads the options and words of a command to the end. -/
def readAll (u : Usage) : (missing : Option OptionSpec) → Given → List String → Except Stop Given
  | none, f, [] => .ok f
  | some _, _, [] => .error .misuse
  | some spec, f, argument :: rest =>
      if canBeValue argument then do u.readAll none (← addOption spec argument f) rest
      else .error .misuse
  | none, f, argument :: rest =>
      match shape argument with
      | .endOfOptions => rest.foldlM (fun f word => u.addWord word f) f
      | .long name value => do
          let (f, missing) ← u.readLong name value f
          u.readAll missing f rest
      | .letters cs => do
          let (f, missing) ← u.readLetters cs f
          u.readAll missing f rest
      | .word => do u.readAll none (← u.addWord argument f) rest

/-- Reads options up to the first word, which it returns with the arguments behind it. None of the
options has a value. -/
def readLeading (u : Usage) : Given → List String → Except Stop (Given × String × List String)
  | _, [] => .error .misuse
  | f, argument :: rest =>
      match shape argument with
      | .endOfOptions => .error .misuse
      | .long name value => do u.readLeading (← u.readLong name value f).1 rest
      | .letters cs => do u.readLeading (← u.readLetters cs f).1 rest
      | .word => .ok (f, argument, rest)

end Usage

end TaskDiagram
