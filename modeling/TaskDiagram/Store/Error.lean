/-!
# Failures of the store
-/

namespace TaskDiagram

inductive StorageError where
  /-- The store cannot be reached. -/
  | connection
  /-- What was asked for cannot be carried out. -/
  | query (message : String)
  /-- What was asked for is not there. -/
  | missing
  /-- What was asked for contradicts what is there. -/
  | conflict (message : String)
  deriving DecidableEq, Repr

def StorageError.message : StorageError → String
  | connection => "database connection error"
  | query m => "query error: " ++ m
  | missing => "entity not found"
  | conflict m => "conflict: " ++ m

end TaskDiagram
