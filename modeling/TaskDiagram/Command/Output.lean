import TaskDiagram.Document.Error
import TaskDiagram.Library.Item
import TaskDiagram.Store.Error
import TaskDiagram.Text.Blank
import TaskDiagram.Uuid

/-!
# Output of a command, and what goes wrong

A command that fails names the cause, and below it the causes of the cause.
-/

namespace TaskDiagram

/-- Why a file or directory cannot be used. -/
inductive FileError where
  | missing
  | notDirectory
  | isDirectory
  | exists
  | denied
  /-- The content is no text. -/
  | notText
  | other (message : String)
  deriving DecidableEq, Repr

def FileError.message : FileError → String
  | missing => "No such file or directory (os error 2)"
  | notDirectory => "Not a directory (os error 20)"
  | isDirectory => "Is a directory (os error 21)"
  | «exists» => "File exists (os error 17)"
  | denied => "Permission denied (os error 13)"
  | notText => "stream did not contain valid UTF-8"
  | other m => m

inductive CommandError where
  /-- There is no place for what is kept. -/
  | noHome
  /-- The directory for what is kept cannot be made. -/
  | dataDirectory (path : String) (cause : FileError)
  | read (path : String) (cause : FileError)
  | parse (path : String) (cause : DocumentError)
  | storage (cause : StorageError)
  | noTask (id : Uuid)
  | noItem (kind : LibraryKind) (id : Int64)
  deriving Repr

namespace CommandError

/-- What went wrong, and each cause in turn. -/
def messages : CommandError → String × List String
  | noHome => ("cannot determine the home directory; set BLOCKTASK_DATA_DIR", [])
  | dataDirectory path cause =>
      ("failed to create data directory " ++ path ++ ": " ++ cause.message, [cause.message])
  | read path cause => ("cannot read " ++ path, [cause.message])
  | parse path cause => ("cannot parse " ++ path, cause.messages)
  | storage cause => (cause.message, [])
  | noTask id => ("task " ++ id.text ++ " not found", [])
  | noItem kind id => (kind.label ++ " " ++ toString id.toInt ++ " not found", [])

/-- A cause behind what stands in front of it; further lines are indented as far. -/
def indent (front continued : String) (cause : String) : String :=
  front ++ ("\n" ++ continued).intercalate (Text.splitOnChar '\n' cause)

/-- The causes below a failure; they are numbered where there are several. -/
def causeLines : List String → List String
  | [] => []
  | [cause] => [indent "    " "    " cause]
  | causes => causes.zipIdx.map fun (cause, i) =>
      let number := toString i
      indent (String.ofList (List.replicate (5 - number.length) ' ') ++ number ++ ": ") "       "
        cause

def text (e : CommandError) : String :=
  let (message, causes) := e.messages
  let below := match causes with
    | [] => ""
    | causes => "\n\nCaused by:\n" ++ "\n".intercalate (causeLines causes)
  "Error: " ++ message ++ below ++ "\n"

end CommandError

/-- What a run leaves behind: its exit code and what it wrote. -/
structure Output where
  code : Nat
  out : String
  err : String
  deriving DecidableEq, Repr

namespace Output

/-- A run that has nothing to say. -/
def silent : Output := ⟨0, "", ""⟩

/-- A run that went well and wrote this. -/
def printed (out : String) : Output := ⟨0, out, ""⟩

def ofError (e : CommandError) : Output := ⟨1, "", e.text⟩

/-- A run that did not understand its arguments. -/
def misuse (message : String) : Output := ⟨2, "", message⟩

end Output

end TaskDiagram
