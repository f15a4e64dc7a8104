import TaskDiagram.Command.Run

/-!
# The program

What a run needs is read from the system, and what it leaves behind is written: the files a
command names, the settings and the database in the data directory, the time, and an id. All that
is decided in between is decided by `Invocation.run`.
-/

namespace TaskDiagram

/-- What the system says of a file or directory that cannot be used. -/
def FileError.ofSystem : IO.Error → FileError
  | .noFileOrDirectory .. | .noSuchThing .. => .missing
  | .inappropriateType _ code _ => if code == 20 then .notDirectory else .isDirectory
  | .alreadyExists .. => .exists
  | .permissionDenied .. => .denied
  | .userError _ => .notText
  | e => .other (toString e)

/-- The content of a file. -/
def readText (path : String) : IO (Except FileError String) := do
  match ← (IO.FS.readFile path).toBaseIO with
  | .ok text => return .ok text
  | .error e => return .error (FileError.ofSystem e)

/-- The time, as a file made just now bears it. -/
def currentMoment : IO Moment := do
  let (_, path) ← IO.FS.createTempFile
  let modified := (← path.metadata).modified
  IO.FS.removeFile path
  return ⟨modified.sec.toNat * Moment.secondLength + modified.nsec.toNat⟩

def currentStamp : IO Stamp := do
  let now ← currentMoment
  let chance := (← IO.getRandomBytes 10).toList.foldl (fun n b => n * 256 + b.toNat) 0
  return ⟨now, .ofTime now.milliseconds chance⟩

/-- Where things are kept: where the environment says, or below the home directory. -/
def dataDirectory : IO (Except CommandError String) := do
  let path ← match ← IO.getEnv "BLOCKTASK_DATA_DIR" with
    | some path => if path.isEmpty then homePath else pure (some path)
    | none => homePath
  match path with
  | none => return .error .noHome
  | some path =>
      match ← (IO.FS.createDirAll path).toBaseIO with
      | .ok () => return .ok path
      | .error e => return .error (.dataDirectory path (FileError.ofSystem e))
where
  homePath : IO (Option String) := do
    let home ← IO.getEnv "HOME"
    return (home.filter (!·.isEmpty)).map (· ++ "/.blocktask")

/-- The database kept in a file; an empty one before the first run. -/
def loadDatabase (path : String) : IO (Except CommandError Database) := do
  match ← readText path with
  | .error .missing => return .ok .empty
  | .error e => return .error (.read path e)
  | .ok text =>
      match (Json.read text).toOption.bind fun value => (Database.decode value).toOption with
      | some db => return .ok db
      | none => return .error (.storage .connection)

/-- Carries out a command in a data directory. -/
def carryOut (inv : Invocation) (directory : String) : IO Output := do
  let settings ← readText (directory ++ "/config.toml")
  let databasePath := directory ++ "/tasks.json"
  let loaded ← if inv.command.needsDatabase then loadDatabase databasePath
    else pure (.ok .empty)
  match loaded with
  | .error e => return .ofError e
  | .ok db =>
      let files ← inv.command.files.mapM fun path => return (path, ← readText path)
      let surroundings : Surroundings :=
        { file := fun path => (findValue? path files).getD (.error .missing)
          config := Config.ofText settings.toOption
          stamp := ← currentStamp }
      let (output, db) := inv.run surroundings db
      if inv.command.needsDatabase then IO.FS.writeFile databasePath db.toJson.compact
      return output

def runWith (arguments : List String) : IO Output := do
  match Invocation.ofArguments programName arguments with
  | .error refusal => return refusal.output
  | .ok inv =>
      match ← dataDirectory with
      | .error e => return .ofError e
      | .ok directory => carryOut inv directory

end TaskDiagram

def main (arguments : List String) : IO UInt32 := do
  let output ← TaskDiagram.runWith arguments
  (← IO.getStdout).putStr output.out
  (← IO.getStderr).putStr output.err
  return output.code.toUInt32
