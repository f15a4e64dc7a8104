import TaskDiagram.Block.Field
import TaskDiagram.Block.Socket

/-!
# Grammars of diagrams

A grammar says of every kind of block which sockets it has, what each of them accepts, and which
fields it carries. Diagrams, their findings and their conversions consult a grammar they are
given, so any grammar can take the place of the standard one.
-/

namespace TaskDiagram

/-- What a field holds. -/
inductive FieldType where
  | text
  | integer
  | bounded (low high : Int64)
  deriving DecidableEq, Repr

structure FieldSpec where
  name : String
  type : FieldType
  /-- Value in a new block. -/
  default : Option FieldValue

/-- The nearest number a numeric field admits. -/
def FieldSpec.clamp (spec : FieldSpec) (n : Int64) : Option Int64 :=
  match spec.type with
  | .bounded low high => some (if n < low then low else if high < n then high else n)
  | .integer => some n
  | .text => none

structure SocketSpec where
  name : SocketName
  accepts : List BlockKind
  /-- Whether an empty socket is reported. -/
  required : Bool
  deriving DecidableEq, Repr

/-- What a grammar says of one kind. -/
structure BlockSpec where
  sockets : List SocketSpec
  fields : List FieldSpec
  /-- Whether a block of this kind may head a chain at the top level. -/
  root : Bool

namespace BlockSpec

/-- A kind without sockets and fields that heads no chain. -/
def bare : BlockSpec := ⟨[], [], false⟩

end BlockSpec

/-- Why a field was refused. -/
inductive FieldRefusal where
  | unknown (kind : BlockKind) (field : String)
  | notText (field : String)
  | notInteger (field : String)
  | outOfRange (field : String) (low high value : Int64)
  deriving DecidableEq, Repr

def FieldRefusal.message : FieldRefusal → String
  | unknown kind field => "block '" ++ kind.name ++ "' has no field '" ++ field ++ "'"
  | notText field => "field '" ++ field ++ "' expects text"
  | notInteger field => "field '" ++ field ++ "' expects an integer"
  | outOfRange field low high value =>
      "field '" ++ field ++ "' must be within " ++ toString low.toInt ++ "..=" ++
        toString high.toInt ++ ", got " ++ toString value.toInt

structure Grammar where
  /-- What is said of a kind, if it is known at all. -/
  spec? : BlockKind → Option BlockSpec

namespace Grammar

/-- The grammar of a list; of two specifications for one kind the last holds. -/
def ofList (specs : List (BlockKind × BlockSpec)) : Grammar where
  spec? kind := (specs.reverse.find? (·.1 == kind)).map (·.2)

/-- The known kinds in their order, with what is said of each. -/
def specs (grammar : Grammar) : List (BlockKind × BlockSpec) :=
  BlockKind.all.filterMap fun kind => (grammar.spec? kind).map (kind, ·)

def socket? (grammar : Grammar) (kind : BlockKind) (socket : SocketName) : Option SocketSpec :=
  (grammar.spec? kind).bind fun spec => spec.sockets.find? (·.name == socket)

/-- Kinds a socket accepts; none when the block has no such socket. -/
def accepted (grammar : Grammar) (kind : BlockKind) (socket : SocketName) : List BlockKind :=
  ((grammar.socket? kind socket).map (·.accepts)).getD []

def accepts (grammar : Grammar) (parent : BlockKind) (socket : SocketName) (child : BlockKind) :
    Bool :=
  (grammar.accepted parent socket).contains child

/-- Whether a block of this kind may head a chain at the top level. -/
def isRoot (grammar : Grammar) (kind : BlockKind) : Bool :=
  ((grammar.spec? kind).map (·.root)).getD false

def field? (grammar : Grammar) (kind : BlockKind) (name : String) : Option FieldSpec :=
  (grammar.spec? kind).bind fun spec => spec.fields.find? (·.name == name)

/-- The fields of a new block. -/
def defaults (grammar : Grammar) (kind : BlockKind) : FieldMap :=
  match grammar.spec? kind with
  | none => .empty
  | some spec => .ofList (spec.fields.filterMap fun f => f.default.map (f.name, ·))

/-- Whether a value may be put into a field. -/
def checkField (grammar : Grammar) (kind : BlockKind) (name : String) (value : FieldValue) :
    Except FieldRefusal Unit :=
  match grammar.field? kind name with
  | none => .error (.unknown kind name)
  | some spec =>
      match spec.type, value.asInt with
      | .text, _ =>
          match value with
          | .text _ => .ok ()
          | _ => .error (.notText name)
      | .integer, some _ => .ok ()
      | .integer, none => .error (.notInteger name)
      | .bounded _ _, none => .error (.notInteger name)
      | .bounded low high, some n =>
          if low ≤ n && n ≤ high then .ok () else .error (.outOfRange name low high n)

end Grammar

end TaskDiagram
